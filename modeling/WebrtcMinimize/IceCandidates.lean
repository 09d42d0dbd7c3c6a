import WebrtcMinimize.Attempts

/-!
# Queued ICE candidates

The media agent keeps a remote candidate until the remote description has the
generation that the candidate names, and then passes it to the peer connection.
What the connection answers to a call is a parameter, which for a candidate may
depend on all those before it; errors are texts.
-/

namespace WebrtcMinimize

open Attempts

namespace IceCandidates

open Bool List

/-! ## Generations -/

structure ICECandidateInit where
  candidate : String
  sdpMid : Option String
  sdpMLineIndex : Option Nat
  usernameFragment : Option String
deriving DecidableEq

inductive SDPType
  | offer
  | pranswer
  | answer
  | rollback
deriving DecidableEq

structure SessionDescription where
  type : SDPType
  sdp : String
deriving DecidableEq

/-- White space in Unicode. -/
def isSpace (c : Char) : Bool :=
  let n := c.toNat
  (9 ≤ n && n ≤ 13) || n == 0x20 || n == 0x85 || n == 0xa0 || n == 0x1680
    || (0x2000 ≤ n && n ≤ 0x200a) || n == 0x2028 || n == 0x2029 || n == 0x202f || n == 0x205f
    || n == 0x3000

def trimSpace (s : List Char) : List Char := (s.dropWhile isSpace).reverse.dropWhile isSpace |>.reverse

def ufragTag : List Char := "a=ice-ufrag:".toList

/-- The generation that a line of a description names. -/
def ufragOf (line : List Char) : Option (List Char) :=
  let line := trimSpace line
  if ufragTag.isPrefixOf line then
    let value := trimSpace (line.drop ufragTag.length)
    if value = [] then none else some value
  else none

def remoteICEUfrags (description : SessionDescription) : List (List Char) :=
  (description.sdp.toList.splitOn '\n').filterMap ufragOf

def remoteICECandidateMatchesDescription (candidate : ICECandidateInit)
    (description : Option SessionDescription) : Bool :=
  match description with
  | none => false
  | some description =>
      match (candidate.usernameFragment.map fun ufrag => trimSpace ufrag.toList).filter (· ≠ []) with
      | none => true
      | some ufrag => (remoteICEUfrags description).contains ufrag

/-! ## The peer -/

def maximumPendingRemoteICECandidates : Nat := 256

inductive SignalingState
  | stable
  | haveLocalOffer
  | haveRemoteOffer
  | haveRemotePranswer
deriving DecidableEq

/-- What goes on besides. -/
inductive Spawned
  | attachExistingTracks
  | negotiate
deriving DecidableEq

/-- `mediaPeer`; senders are numbered. -/
structure MediaPeer where
  closed : Bool
  signalingState : SignalingState
  remoteDescription : Option SessionDescription
  /-- The candidates that were passed to the peer connection. -/
  passed : List ICECandidateInit
  pendingCandidates : List ICECandidateInit
  pendingOfferSenders : List Nat
  senderNegotiated : List (Nat × Bool)
  needsNegotiation : Bool
  /-- The answers that were sent. -/
  sent : List SessionDescription
  spawned : List Spawned
deriving DecidableEq

/-- The answers of the peer connection, and of the connection to the server: the error,
if there is one. -/
structure PeerConnection where
  setRemoteDescription : SessionDescription → Option String
  addICECandidate : List ICECandidateInit → ICECandidateInit → Option String
  createAnswer : Except String SessionDescription
  setLocalDescription : SessionDescription → Option String
  send : SessionDescription → Option String
  hasTrack : Nat → Bool
  localSendingSenders : SessionDescription → List Nat

/-- A call that fails with an error, if there is one. -/
def attempt {σ : Type} (error : Option String) : Stateful σ Unit :=
  match error with
  | none => pure ()
  | some error => check (.error error)

/-- `fmt.Errorf` with `%w` -/
def wrapping {σ α : Type} (context : String) (x : Stateful σ α) : Stateful σ α := fun s =>
  match x s with
  | .ok a t => .ok a t
  | .error error t => .error (context ++ error) t

section Calls

variable (pc : PeerConnection)

def addICECandidate (candidate : ICECandidateInit) : Stateful MediaPeer Unit := do
  let p ← get
  modify fun p => { p with passed := p.passed ++ [candidate] }
  attempt (pc.addICECandidate p.passed candidate)

def addOrQueueRemoteICECandidate (candidate : ICECandidateInit) : Stateful MediaPeer Unit := do
  let p ← get
  if remoteICECandidateMatchesDescription candidate p.remoteDescription then
    addICECandidate pc candidate
  else do
    failWhen (maximumPendingRemoteICECandidates ≤ p.pendingCandidates.length)
      "remote ICE candidate queue full"
    modify fun p => { p with pendingCandidates := p.pendingCandidates ++ [candidate] }

/-- The loop over the queue; it ends with the first error. -/
def applyCandidates (description : Option SessionDescription) :
    List ICECandidateInit → Stateful MediaPeer Unit
  | [] => pure ()
  | candidate :: queued =>
      if remoteICECandidateMatchesDescription candidate description = false then
        applyCandidates description queued
      else do
        addICECandidate pc candidate
        applyCandidates description queued

def applyQueuedRemoteICECandidates : Stateful MediaPeer Unit := do
  let p ← get
  modify fun p => { p with pendingCandidates := [] }
  applyCandidates pc p.remoteDescription p.pendingCandidates

/-- The senders among these that are known and have a track are negotiated. -/
def MediaPeer.negotiated (p : MediaPeer) (senders : List Nat) : MediaPeer :=
  { p with senderNegotiated := p.senderNegotiated.map fun entry =>
      if entry.1 ∈ senders ∧ pc.hasTrack entry.1 = true then (entry.1, true) else entry }

/-- The answer to an offer. -/
def answerOffer : Stateful MediaPeer Unit := do
  let answer ← wrapping "create answer: " (check pc.createAnswer)
  wrapping "set local answer: " (attempt (pc.setLocalDescription answer))
  modify fun p => { p with signalingState := .stable }
  attempt (pc.send answer)
  modify fun p =>
    { (MediaPeer.negotiated pc { p with sent := p.sent ++ [answer] } (pc.localSendingSenders answer)) with
      spawned := p.spawned ++ [.attachExistingTracks] }

/-- The message of a server, as far as its parts can be read. -/
inductive Message
  | noCandidate
  | unreadable
  | candidate (candidate : ICECandidateInit)
  | description (description : SessionDescription)

def SDPType.settled : SDPType → SignalingState
  | .offer => .haveRemoteOffer
  | .pranswer => .haveRemotePranswer
  | .answer | .rollback => .stable

/-- The peer with the remote description. -/
def MediaPeer.described (p : MediaPeer) (description : SessionDescription) : MediaPeer :=
  let p := { p with
    remoteDescription := some description
    signalingState := description.type.settled }
  if description.type = .answer then
    { (p.negotiated pc p.pendingOfferSenders) with pendingOfferSenders := [] }
  else p

def MediaPeer.renegotiated (p : MediaPeer) : MediaPeer :=
  if p.needsNegotiation then { p with spawned := p.spawned ++ [.negotiate] } else p

/-- What comes after the queue. -/
def finish (description : SessionDescription) : Stateful MediaPeer Unit := do
  if description.type = .offer then answerOffer pc
  modify MediaPeer.renegotiated

/-- `acceptSignal` with a description. -/
def acceptDescription (description : SessionDescription) : Stateful MediaPeer Unit := do
  let p ← get
  failWhen (description.type = .offer ∧ p.signalingState ≠ .stable) "unscheduled browser offer"
  wrapping "set remote description: " (attempt (pc.setRemoteDescription description))
  modify fun p => p.described pc description
  wrapping "apply queued candidate: " (applyQueuedRemoteICECandidates pc)
  finish pc description

def acceptSignal (message : Message) : Stateful MediaPeer Unit := do
  let p ← get
  failWhen (p.closed = true) "peer connection closed"
  match message with
  | .noCandidate => pure ()
  | .unreadable => check (.error "invalid ICE candidate")
  | .candidate candidate =>
      wrapping "apply or queue ICE candidate: " (addOrQueueRemoteICECandidate pc candidate)
  | .description description => acceptDescription pc description

end Calls

/-! ## The queue -/

section Queue

variable {pc : PeerConnection} {description : SessionDescription}

/-- The connection accepts all these, each after the ones before it. -/
def accepted (pc : PeerConnection) : List ICECandidateInit → List ICECandidateInit → Bool
  | _, [] => true
  | passed, candidate :: queued =>
      (pc.addICECandidate passed candidate).isNone && accepted pc (passed ++ [candidate]) queued

/-- The candidates of the queue that are of the generation. -/
def current (description : SessionDescription) (queued : List ICECandidateInit) :
    List ICECandidateInit :=
  queued.filter fun candidate => remoteICECandidateMatchesDescription candidate (some description)

variable {candidate : ICECandidateInit}

theorem current_cons_of_match (queued : List ICECandidateInit)
    (h : remoteICECandidateMatchesDescription candidate (some description) = true) :
    current description (candidate :: queued) = candidate :: current description queued :=
  filter_cons_of_pos h

theorem current_cons_of_other (queued : List ICECandidateInit)
    (h : remoteICECandidateMatchesDescription candidate (some description) = false) :
    current description (candidate :: queued) = current description queued :=
  filter_cons_of_neg (eq_false_iff.mp h)

theorem addICECandidate_run (candidate : ICECandidateInit) (p : MediaPeer) :
    addICECandidate pc candidate p
      = attempt (pc.addICECandidate p.passed candidate) { p with passed := p.passed ++ [candidate] } := by
  unfold addICECandidate
  rw [bind_of_ok (get_run p), bind_of_ok (modify_run _ p)]

theorem addICECandidate_none {p : MediaPeer} (h : pc.addICECandidate p.passed candidate = none) :
    addICECandidate pc candidate p = .ok () { p with passed := p.passed ++ [candidate] } := by
  rw [addICECandidate_run, h]
  rfl

theorem addICECandidate_some {p : MediaPeer} {error : String}
    (h : pc.addICECandidate p.passed candidate = some error) :
    addICECandidate pc candidate p = .error error { p with passed := p.passed ++ [candidate] } := by
  rw [addICECandidate_run, h]
  rfl

theorem applyCandidates_accepted : ∀ (queued : List ICECandidateInit) (p : MediaPeer),
    accepted pc p.passed (current description queued) = true →
      applyCandidates pc (some description) queued p
        = .ok () { p with passed := p.passed ++ current description queued }
  | [], p, _ => by
      simp [applyCandidates, current]
  | candidate :: queued, p, h => by
      unfold applyCandidates
      split
      · rename_i hother
        rw [current_cons_of_other queued hother] at h ⊢
        exact applyCandidates_accepted queued p h
      · rename_i hmatches
        rw [not_eq_false] at hmatches
        rw [current_cons_of_match queued hmatches, accepted, and_eq_true,
          Option.isNone_iff_eq_none] at h
        rw [bind_of_ok (addICECandidate_none h.1), applyCandidates_accepted queued _ h.2,
          current_cons_of_match queued hmatches]
        simp only [append_assoc, singleton_append]

theorem applyCandidates_ok : ∀ {queued : List ICECandidateInit} {p t : MediaPeer},
    applyCandidates pc (some description) queued p = .ok () t →
      accepted pc p.passed (current description queued) = true
  | [], _, _, _ => rfl
  | candidate :: queued, p, t, h => by
      unfold applyCandidates at h
      split at h
      · rename_i hother
        rw [current_cons_of_other queued hother]
        exact applyCandidates_ok h
      · rename_i hmatches
        rw [not_eq_false] at hmatches
        rw [current_cons_of_match queued hmatches, accepted, and_eq_true,
          Option.isNone_iff_eq_none]
        obtain ⟨_, t, hadd, hrest⟩ := bind_ok_iff.mp h
        rw [addICECandidate_run] at hadd
        cases herror : pc.addICECandidate p.passed candidate with
        | some error =>
            rw [herror] at hadd
            cases hadd
        | none =>
            rw [herror] at hadd
            cases hadd
            exact ⟨rfl, applyCandidates_ok hrest⟩

/-- All of them are passed on if none but the last is rejected. -/
theorem applyCandidates_passed : ∀ (queued : List ICECandidateInit) (p : MediaPeer),
    (after (applyCandidates pc (some description) queued p)).passed
        = p.passed ++ current description queued
      ↔ accepted pc p.passed (current description queued).dropLast = true
  | [], p => by
      simp [applyCandidates, current, accepted]
  | candidate :: queued, p => by
      unfold applyCandidates
      split
      · rename_i hother
        rw [current_cons_of_other queued hother]
        exact applyCandidates_passed queued p
      · rename_i hmatches
        rw [not_eq_false] at hmatches
        rw [current_cons_of_match queued hmatches]
        cases herror : pc.addICECandidate p.passed candidate with
        | some error =>
            rw [bind_of_error (addICECandidate_some herror), after_error]
            cases hlater : current description queued with
            | nil => simp [accepted]
            | cons next later => simp [accepted, herror]
        | none =>
            have ih := applyCandidates_passed queued { p with passed := p.passed ++ [candidate] }
            rw [bind_of_ok (addICECandidate_none herror),
              append_cons p.passed candidate (current description queued), ih]
            cases hlater : current description queued with
            | nil => simp [accepted]
            | cons next later => simp [accepted, herror]

theorem applyCandidates_sent : ∀ (queued : List ICECandidateInit) (p : MediaPeer),
    (after (applyCandidates pc (some description) queued p)).sent = p.sent
  | [], _ => rfl
  | candidate :: queued, p => by
      unfold applyCandidates
      split
      · exact applyCandidates_sent queued p
      · cases herror : pc.addICECandidate p.passed candidate with
        | some error =>
            rw [bind_of_error (addICECandidate_some herror), after_error]
        | none =>
            rw [bind_of_ok (addICECandidate_none herror), applyCandidates_sent]

end Queue

/-! ## The description -/

/-- The call is for a peer that can take the description, and every other step of it
goes well. -/
structure Ready (pc : PeerConnection) (p : MediaPeer) (description : SessionDescription) : Prop where
  live : p.closed = false
  stable : description.type = .offer → p.signalingState = .stable
  remote : pc.setRemoteDescription description = none
  answer : description.type = .offer → ∃ answer, pc.createAnswer = .ok answer
    ∧ pc.setLocalDescription answer = none ∧ pc.send answer = none

/-- Each candidate of the generation is passed on once, in their order, and no other is;
and an offer is answered. -/
def Survives (pc : PeerConnection) (p : MediaPeer) (description : SessionDescription) : Prop :=
  let result := acceptSignal pc (.description description) p
  (after result).passed = p.passed ++ current description p.pendingCandidates
    ∧ (description.type = .offer → ∃ answer, pc.createAnswer = .ok answer
      ∧ (after result).sent = p.sent ++ [answer])

section Description

variable {pc : PeerConnection} {p : MediaPeer} {description : SessionDescription}

theorem described_passed : (p.described pc description).passed = p.passed := by
  unfold MediaPeer.described
  split <;> rfl

theorem described_pending :
    (p.described pc description).pendingCandidates = p.pendingCandidates := by
  unfold MediaPeer.described
  split <;> rfl

theorem described_sent : (p.described pc description).sent = p.sent := by
  unfold MediaPeer.described
  split <;> rfl

theorem described_remote : (p.described pc description).remoteDescription = some description := by
  unfold MediaPeer.described
  split <;> rfl

/-- The queue without its candidates. -/
def MediaPeer.emptied (p : MediaPeer) : MediaPeer := { p with pendingCandidates := [] }

theorem applyQueued_run (hremote : p.remoteDescription = some description) :
    applyQueuedRemoteICECandidates pc p
      = applyCandidates pc (some description) p.pendingCandidates p.emptied := by
  unfold applyQueuedRemoteICECandidates
  show applyCandidates pc p.remoteDescription p.pendingCandidates p.emptied = _
  rw [hremote]

theorem bind_congr_run {σ α β : Type} {x y : Stateful σ α} {f : α → Stateful σ β} {s t : σ}
    (h : x s = y t) : (x >>= f) s = (y >>= f) t := by
  show EStateM.bind x f s = EStateM.bind y f t
  unfold EStateM.bind
  rw [h]

theorem wrapping_congr {σ α : Type} {context : String} {x y : Stateful σ α} {s t : σ}
    (h : x s = y t) : wrapping context x s = wrapping context y t := by
  unfold wrapping
  rw [h]

theorem acceptSignal_ready (h : Ready pc p description) :
    acceptSignal pc (.description description) p
      = (wrapping "apply queued candidate: " (applyCandidates pc (some description)
          p.pendingCandidates) >>= fun _ => finish pc description)
        (p.described pc description).emptied := by
  have hstable : ¬(description.type = .offer ∧ p.signalingState ≠ .stable) :=
    fun hoffer => hoffer.2 (h.stable hoffer.1)
  have hlive : ¬p.closed = true := by
    rw [h.live]
    exact false_ne_true
  have hremote : wrapping "set remote description: "
      (attempt (pc.setRemoteDescription description)) p = .ok () p := by
    rw [h.remote]
    rfl
  have hdescribed : (p.described pc description).remoteDescription = some description :=
    described_remote
  have hqueue : applyQueuedRemoteICECandidates pc (p.described pc description)
      = applyCandidates pc (some description) (p.described pc description).pendingCandidates
        (p.described pc description).emptied := applyQueued_run hdescribed
  rw [described_pending] at hqueue
  have haccept : acceptSignal pc (.description description) p = acceptDescription pc description p := by
    unfold acceptSignal
    rw [bind_of_ok (get_run p), failWhen_run, if_neg hlive]
  rw [haccept]
  unfold acceptDescription
  rw [bind_of_ok (get_run p), failWhen_run, if_neg hstable, bind_of_ok hremote,
    bind_of_ok (modify_run _ p)]
  exact bind_congr_run (wrapping_congr hqueue)

theorem answerOffer_run {answer : SessionDescription} (hcreate : pc.createAnswer = .ok answer)
    (hlocal : pc.setLocalDescription answer = none) (hsend : pc.send answer = none)
    (t : MediaPeer) :
    ∃ u, answerOffer pc t = .ok () u ∧ u.passed = t.passed ∧ u.sent = t.sent ++ [answer] := by
  have hanswer : wrapping "create answer: " (check pc.createAnswer) t = .ok answer t := by
    rw [hcreate]
    rfl
  have hset : wrapping "set local answer: " (attempt (pc.setLocalDescription answer)) t
      = .ok () t := by
    rw [hlocal]
    rfl
  have hsent (v : MediaPeer) : attempt (pc.send answer) v = .ok () v := by
    rw [hsend]
    rfl
  unfold answerOffer
  rw [bind_of_ok hanswer, bind_of_ok hset, bind_of_ok (modify_run _ t), bind_of_ok (hsent _)]
  exact ⟨_, rfl, rfl, rfl⟩

theorem renegotiated_passed : p.renegotiated.passed = p.passed := by
  unfold MediaPeer.renegotiated
  split <;> rfl

theorem renegotiated_sent : p.renegotiated.sent = p.sent := by
  unfold MediaPeer.renegotiated
  split <;> rfl

section

variable (h : Ready pc p description)

include h

theorem finish_run (t : MediaPeer) :
    ∃ u, finish pc description t = .ok () u ∧ u.passed = t.passed
      ∧ (description.type = .offer → ∃ answer, pc.createAnswer = .ok answer
        ∧ u.sent = t.sent ++ [answer]) := by
  unfold finish
  by_cases hoffer : description.type = .offer
  · obtain ⟨answer, hcreate, hlocal, hsend⟩ := h.answer hoffer
    obtain ⟨v, hrun, hpassed, hsent⟩ := answerOffer_run hcreate hlocal hsend t
    rw [if_pos hoffer, bind_of_ok hrun]
    refine ⟨_, modify_run _ v, renegotiated_passed.trans hpassed, fun _ => ⟨answer, hcreate, ?_⟩⟩
    rw [renegotiated_sent, hsent]
  · rw [if_neg hoffer]
    exact ⟨_, modify_run _ t, renegotiated_passed, fun h => absurd h hoffer⟩

theorem acceptSignal_cases :
    (∃ t u, applyCandidates pc (some description) p.pendingCandidates
          (p.described pc description).emptied = .ok () t
        ∧ acceptSignal pc (.description description) p = .ok () u ∧ u.passed = t.passed
        ∧ (description.type = .offer → ∃ answer, pc.createAnswer = .ok answer
          ∧ u.sent = t.sent ++ [answer]))
      ∨ ∃ error context t, applyCandidates pc (some description) p.pendingCandidates
          (p.described pc description).emptied = .error error t
        ∧ acceptSignal pc (.description description) p = .error context t := by
  rw [acceptSignal_ready h]
  cases hrun : applyCandidates pc (some description) p.pendingCandidates
      (p.described pc description).emptied with
  | ok _ t =>
      have hqueue : wrapping "apply queued candidate: " (applyCandidates pc (some description)
          p.pendingCandidates) (p.described pc description).emptied = .ok () t := by
        unfold wrapping
        rw [hrun]
      obtain ⟨u, hlast, hpassed, hanswer⟩ := finish_run h t
      rw [bind_of_ok hqueue]
      exact .inl ⟨t, u, rfl, hlast, hpassed, hanswer⟩
  | error error t =>
      have hqueue : wrapping "apply queued candidate: " (applyCandidates pc (some description)
          p.pendingCandidates) (p.described pc description).emptied
            = .error ("apply queued candidate: " ++ error) t := by
        unfold wrapping
        rw [hrun]
      rw [bind_of_error hqueue]
      exact .inr ⟨error, _, t, rfl, rfl⟩

theorem acceptSignal_passed :
    (after (acceptSignal pc (.description description) p)).passed
      = (after (applyCandidates pc (some description) p.pendingCandidates
        (p.described pc description).emptied)).passed := by
  rcases acceptSignal_cases h with ⟨t, u, hrun, hcall, hpassed, -⟩ | ⟨_, _, t, hrun, hcall⟩
  · rw [hrun, hcall, after_ok, after_ok, hpassed]
  · rw [hrun, hcall, after_error, after_error]

theorem acceptSignal_answers_iff (hoffer : description.type = .offer) :
    (∃ answer, pc.createAnswer = .ok answer
        ∧ (after (acceptSignal pc (.description description) p)).sent = p.sent ++ [answer])
      ↔ accepted pc p.passed (current description p.pendingCandidates) = true := by
  have hpassed : (p.described pc description).emptied.passed = p.passed := described_passed
  have hsent : (p.described pc description).emptied.sent = p.sent := described_sent
  have hkept : (after (applyCandidates pc (some description) p.pendingCandidates
      (p.described pc description).emptied)).sent = (p.described pc description).emptied.sent :=
    applyCandidates_sent _ _
  rw [hsent] at hkept
  rcases acceptSignal_cases h with ⟨t, u, hrun, hcall, -, hanswer⟩ | ⟨_, _, t, hrun, hcall⟩
  · have haccepted := applyCandidates_ok hrun
    rw [hpassed] at haccepted
    rw [hrun, after_ok] at hkept
    obtain ⟨answer, hcreate, hanswered⟩ := hanswer hoffer
    rw [hkept] at hanswered
    rw [hcall]
    exact iff_of_true ⟨answer, hcreate, hanswered⟩ haccepted
  · rw [hrun, after_error] at hkept
    rw [hcall, after_error, hkept]
    refine iff_of_false ?_ fun haccepted => ?_
    · rintro ⟨answer, -, hlonger⟩
      simp at hlonger
    · rw [← hpassed] at haccepted
      rw [applyCandidates_accepted _ _ haccepted] at hrun
      cases hrun

end

theorem accepted_dropLast : ∀ {passed queued : List ICECandidateInit},
    accepted pc passed queued = true → accepted pc passed queued.dropLast = true
  | _, [], _ => rfl
  | _, [_], _ => rfl
  | _, _ :: next :: queued, h => by
      rw [accepted, and_eq_true] at h
      rw [dropLast_cons_cons, accepted, and_eq_true]
      exact ⟨h.1, accepted_dropLast h.2⟩

/-- **Queued candidates.** For every queue and every answer of the connection: each
candidate of the generation is passed on once and an offer is answered, exactly when
the connection rejects none of them, save the last of them where there is no offer to
answer. -/
theorem queue_survives_iff (h : Ready pc p description) : Survives pc p description ↔
      if description.type = .offer then
        accepted pc p.passed (current description p.pendingCandidates) = true
      else accepted pc p.passed (current description p.pendingCandidates).dropLast = true := by
  have hpassed : (p.described pc description).emptied.passed = p.passed := described_passed
  have hqueue : (after (applyCandidates pc (some description) p.pendingCandidates
      (p.described pc description).emptied)).passed = (p.described pc description).emptied.passed
        ++ current description p.pendingCandidates
      ↔ accepted pc (p.described pc description).emptied.passed
        (current description p.pendingCandidates).dropLast = true := applyCandidates_passed _ _
  rw [hpassed, ← acceptSignal_passed h] at hqueue
  unfold Survives
  dsimp only
  rw [hqueue]
  split
  · rename_i hoffer
    rw [← acceptSignal_answers_iff h hoffer]
    constructor
    · exact fun hsurvives => hsurvives.2 hoffer
    · intro hanswered
      exact ⟨accepted_dropLast ((acceptSignal_answers_iff h hoffer).mp hanswered), fun _ => hanswered⟩
  · rename_i hoffer
    exact and_iff_left fun h => absurd h hoffer

end Description

/-! ## One candidate that is rejected -/

def candidateOf (generation candidate : String) : ICECandidateInit :=
  ⟨candidate, some "0", some 0, some generation⟩

/-- An offer of the second generation. -/
def secondOffer : SessionDescription := ⟨.offer, "v=0\r\na=ice-ufrag:second\r\n"⟩

def secondAnswer : SessionDescription := ⟨.answer, "v=0\r\na=ice-ufrag:local\r\n"⟩

/-- A connection that rejects the candidates with this text. -/
def rejecting (text : String) : PeerConnection where
  setRemoteDescription _ := none
  addICECandidate _ candidate :=
    if candidate.candidate = text then some "ICE candidate unparsable" else none
  createAnswer := .ok secondAnswer
  setLocalDescription _ := none
  send _ := none
  hasTrack _ := true
  localSendingSenders _ := []

/-- A peer with one candidate of the first generation and two of the second. -/
def queuedPeer : MediaPeer where
  closed := false
  signalingState := .stable
  remoteDescription := some ⟨.offer, "v=0\r\na=ice-ufrag:first\r\n"⟩
  passed := []
  pendingCandidates := [candidateOf "second" "host", candidateOf "first" "stale",
    candidateOf "second" "relay"]
  pendingOfferSenders := []
  senderNegotiated := []
  needsNegotiation := false
  sent := []
  spawned := []

theorem queuedPeer_ready (text : String) : Ready (rejecting text) queuedPeer secondOffer where
  live := rfl
  stable _ := rfl
  remote := rfl
  answer _ := ⟨secondAnswer, rfl, rfl, rfl⟩

/-- Where only a candidate of the first generation is bad, nothing is lost. -/
theorem queue_survives_iff_stale : Survives (rejecting "stale") queuedPeer secondOffer :=
  (queue_survives_iff (queuedPeer_ready "stale")).mpr (by decide)

/-- With a bad candidate at the head of the queue, the other one is lost and the offer has
no answer. -/
theorem bad_candidate_stops_negotiation : ¬Survives (rejecting "host") queuedPeer secondOffer := by
  have hrun : (after (acceptSignal (rejecting "host") (.description secondOffer) queuedPeer)).passed
      = [candidateOf "second" "host"] := by
    decide
  have hall : current secondOffer queuedPeer.pendingCandidates
      = [candidateOf "second" "host", candidateOf "second" "relay"] := by
    decide
  rintro ⟨hpassed, -⟩
  exact absurd hpassed (by decide)

end IceCandidates

end WebrtcMinimize
