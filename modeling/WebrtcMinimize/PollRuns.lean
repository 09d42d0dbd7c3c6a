import WebrtcMinimize.Polls
import WebrtcMinimize.SharedNotesRuns

/-!
# Polls over a run

`ingest` checks neither who creates, publishes, closes or repeats a poll nor
what the counts say. In runs where the others keep to what the calls allow
(`Fair`), a participant's poll was created by an owner or presenter, its result
is the creator's until a leader closes it, every vote is counted once, and a
closed poll stays closed.
-/

namespace WebrtcMinimize

namespace Polls

open Runs
open CodeUnits (Text)
open SharedNotes (samplePeer sampleId)
open List Polls.System
open Option hiding map_map

/-! ## Results -/

def State.sum (s : State) : Nat := (s.counts.map fun c => c.getD 0).sum

theorem bump_sum (counts : List (Option Nat)) (i : Nat) :
    ((bump counts i).map fun c => c.getD 0).sum = (counts.map fun c => c.getD 0).sum + 1 := by
  unfold bump
  split
  · rename_i hlt
    induction counts generalizing i with
    | nil => exact absurd hlt (Nat.not_lt_zero i)
    | cons c cs ih =>
        cases i with
        | zero =>
            simp only [modify_zero_cons, map_cons, sum_cons, getD_some]
            omega
        | succ i =>
            simp only [modify_succ_cons, map_cons, sum_cons, ih i (Nat.lt_of_succ_lt_succ hlt)]
            omega
  · simp

/-- The votes are counted by option. -/
def counted (n : Nat) (votes : List Nat) : List (Option Nat) :=
  (range n).map fun i => some (votes.count i)

theorem counted_nil (n : Nat) : counted n [] = replicate n (some 0) := by
  simp [counted, map_const']

theorem bump_counted {n i : Nat} (h : i < n) (votes : List Nat) :
    bump (counted n votes) i = counted n (votes ++ [i]) := by
  have hlength : (counted n votes).length = n := by simp [counted]
  rw [bump, if_pos (hlength.symm ▸ h)]
  refine ext_getElem (by simp [counted]) fun j hj hj' => ?_
  rw [getElem_modify]
  simp only [counted, getElem_map, getElem_range, count_append, getD_some, count_singleton]
  split
  · rename_i heq
    rw [heq, beq_self_eq_true, if_pos rfl]
  · rename_i hne
    rw [if_neg (by simpa using hne), Nat.add_zero]

/-- Each vote is one for an option of the poll, and is counted there. -/
structure Tally (p : PollDefinition) (s : State) : Prop where
  ballots : ∀ i ∈ s.votesByPeer.values, i < p.options.length
  counts : s.counts = counted p.options.length s.votesByPeer.values

/-! ## The condition -/

/-- The operation is one that its author's own calls allow, and says what is so. -/
def FairOperation (seat : Seat) (s : System) (m : Moderation) (op : Operation) : Prop :=
  match op.payload with
  | .create pollId question options anonymous =>
      let poll : PollDefinition := ⟨pollId, op.authorPeerId, question, options, anonymous⟩
      (poll ∈ s.created ∨ m.leads op.authorPeerId = true) ∧ pollId ∉ s.had
        ∧ ∀ p ∈ s.created, p.pollId = pollId → p = poll
  | .publish pollId counts totalVotes =>
      ∀ p, s.service.state.poll = some p → p.pollId = pollId →
        op.authorPeerId = p.creatorPeerId ∧ s.service.state.status ≠ .closed
          ∧ counts.sum = totalVotes
  | .close pollId counts totalVotes =>
      ∀ p, s.service.state.poll = some p → p.pollId = pollId →
        (op.authorPeerId = p.creatorPeerId ∨ m.leads op.authorPeerId = true)
          ∧ counts.sum = totalVotes
  | .snapshot status (some q) counts totalVotes =>
      status ≠ .none → q ∈ s.created ∧ q.creatorPeerId ≠ seat.own ∧ counts.sum = totalVotes
        ∧ (q.pollId ∈ s.closed → status = .closed)
        ∧ ∀ p, s.service.state.poll = some p → p.pollId = q.pollId →
          op.authorPeerId = p.creatorPeerId ∨ status = s.service.state.status
            ∧ counts.map some = s.service.state.counts ∧ totalVotes = s.service.state.totalVotes
  | _ => True

/-- The others keep to the rules, and the creator does not publish after
closing. -/
def Fair (seat : Seat) (s : System) : Event → Prop
  | .publishResults _ => s.service.state.status ≠ .closed
  | .deliver m d _ => ∀ op, ingestPollDelivery d seat.membershipEpoch seat.members s.service.seen
      = some op → FairOperation seat s m op
  | _ => True

/-! ## What may change a result -/

section Events

variable (seat : Seat)

def Event.author : Event → String
  | .deliver _ d _ => d.originPeerId
  | _ => seat.own

/-- A vote, and for which option. -/
def Event.ballot : Event → Option (String × Nat)
  | .vote optionIndex _ => some (seat.own, optionIndex)
  | .deliver _ d _ => d.data.bind fun op => match op.payload with
      | .vote _ optionIndex => some (d.originPeerId, optionIndex)
      | _ => none
  | _ => none

/-- An owner or presenter closes the poll. -/
def Event.leaderCloses : Event → Prop
  | .closePoll m _ => canCreatePoll m = true
  | .deliver m d _ => ∃ op ∈ d.data, m.leads d.originPeerId = true
      ∧ ∃ pollId counts totalVotes, op.payload = .close pollId counts totalVotes
  | _ => False

/-- The participant's own call publishes or closes the poll. -/
def Event.concludes : Event → Prop
  | .publishResults _ => True
  | .closePoll _ _ => True
  | _ => False

/-- What may have become of a poll's result in one step. -/
inductive Change (p : PollDefinition) (s : State) (e : Event) (t : State) : Prop
  | same (h : t.status = s.status ∧ t.counts = s.counts ∧ t.totalVotes = s.totalVotes
      ∧ t.votesByPeer = s.votesByPeer)
  /-- The creator says so. -/
  | told (hother : p.creatorPeerId ≠ seat.own) (hauthor : e.author seat = p.creatorPeerId)
  /-- The creator's own calls leave the result. -/
  | own (hown : p.creatorPeerId = seat.own) (hcall : e.concludes)
      (h : t.counts = s.counts ∧ t.totalVotes = s.totalVotes ∧ t.votesByPeer = s.votesByPeer)
  /-- A peer that has not voted before votes. -/
  | vote (hown : p.creatorPeerId = seat.own) (peerId : String) (i : Nat)
      (hballot : e.ballot seat = some (peerId, i)) (hfirst : s.votesByPeer.get peerId = none)
      (h : t.status = s.status ∧ t.counts = bump s.counts i ∧ t.totalVotes = s.totalVotes + 1
        ∧ t.votesByPeer = s.votesByPeer.set peerId i)
  | closed (hleader : e.leaderCloses) (h : t.status = .closed ∧ t.votesByPeer = s.votesByPeer)

end Events

/-! ## What the calls do -/

variable {op : Operation}

theorem parse_ok {op' : Operation} (h : parsePollOperation op = some op') :
    parsePayload op.payload = some op'.payload ∧ op'.authorPeerId = op.authorPeerId := by
  unfold parsePollOperation at h
  split at h
  · obtain ⟨payload, hpayload, rfl⟩ := map_eq_some_iff.mp h
    exact ⟨hpayload, rfl⟩
  · cases h

variable {pollId : String}

theorem parse_vote {payload : Payload} {i : Nat}
    (h : parsePayload payload = some (.vote pollId i)) : payload = .vote pollId i := by
  unfold parsePayload at h
  split at h
  all_goals try split at h
  all_goals try split at h
  all_goals cases h
  rfl

theorem parse_close {payload : Payload} {counts : List Nat} {totalVotes : Nat}
    (h : parsePayload payload = some (.close pollId counts totalVotes)) :
    payload = .close pollId counts totalVotes := by
  unfold parsePayload at h
  split at h
  all_goals try split at h
  all_goals try split at h
  all_goals cases h
  rfl

theorem ingestPollDelivery_ok {d : Delivery} {epoch : Nat} {members seen : List String}
    (h : ingestPollDelivery d epoch members seen = some op) :
    op.authorPeerId = d.originPeerId
      ∧ ∃ raw ∈ d.data, parsePayload raw.payload = some op.payload := by
  unfold ingestPollDelivery at h
  split at h
  · cases h
  · split at h
    · cases h
    · split at h
      · cases h
      · rename_i op' hop
        obtain ⟨raw, hraw, hparse⟩ := bind_eq_some_iff.mp hop
        split at h
        · cases h
        · split at h
          · cases h
          · rename_i hauthor
            rw [not_not] at hauthor
            split at h
            · cases h
            · split at h
              · cases h
              · cases h
                exact ⟨hauthor, raw, hraw, (parse_ok hparse).1⟩

theorem numbers_ok : ∀ {counts : List (Option Nat)} {cs : List Nat},
    counts.mapM id = some cs → counts = cs.map some
  | [], cs, h => by
      cases h
      rfl
  | c :: counts, cs, h => by
      rw [mapM_cons] at h
      obtain ⟨n, hn, h⟩ := bind_eq_some_iff.mp h
      obtain ⟨ns, hns, h⟩ := bind_eq_some_iff.mp h
      cases h
      rw [map_cons, ← numbers_ok hns, ← hn]
      rfl

variable {opId : String} {r : Service × Operation} {s : Service} {seat : Seat}

theorem createPoll_ok {m : Moderation} {question : Text} {options : List Text} {anonymous : Bool}
    (h : createPoll seat m s question options anonymous pollId opId = some r) :
    ∃ p, p.pollId = pollId ∧ r.1.state = applyPollCreate p := by
  unfold createPoll at h
  split at h
  · cases h
  · split at h
    · cases h
    · split at h
      · cases h
      · rename_i op hop
        have hparse := (parse_ok hop).1
        unfold parsePayload at hparse
        dsimp only at hparse
        split at hparse
        · rw [← some.inj hparse] at h
          cases h
          exact ⟨_, rfl, rfl⟩
        · cases hparse

theorem applyPollVote_spec (c : State) (author pollId : String) (i : Nat) (own : String) :
    let t := applyPollVote c author pollId i own
    (t.status = c.status ∧ t.poll = c.poll ∧ t.counts = c.counts ∧ t.totalVotes = c.totalVotes
        ∧ t.votesByPeer = c.votesByPeer)
      ∨ ∃ p, c.poll = some p ∧ c.status = .active ∧ p.creatorPeerId = own ∧ i < p.options.length
        ∧ c.votesByPeer.get author = none ∧ t.status = c.status ∧ t.poll = c.poll
        ∧ t.counts = bump c.counts i ∧ t.totalVotes = c.totalVotes + 1
        ∧ t.votesByPeer = c.votesByPeer.set author i := by
  unfold applyPollVote
  split
  · rename_i p hstatus hpoll
    split
    · exact .inl ⟨rfl, rfl, rfl, rfl, rfl⟩
    · split
      · exact .inl ⟨rfl, rfl, rfl, rfl, rfl⟩
      · rename_i hi
        dsimp only
        split
        · exact .inl ⟨rfl, rfl, rfl, rfl, rfl⟩
        · rename_i hown
          split
          · exact .inl ⟨rfl, rfl, rfl, rfl, rfl⟩
          · rename_i hfirst
            exact .inr ⟨p, hpoll, hstatus, not_not.mp hown, not_le.mp hi, hfirst, rfl, rfl, rfl, rfl,
              rfl⟩
  · exact .inl ⟨rfl, rfl, rfl, rfl, rfl⟩

theorem conclude_spec (c : State) (status : PollStatus) (pollId : String) (counts : List Nat)
    (totalVotes : Nat) :
    c.conclude status pollId counts totalVotes = c
      ∨ ∃ p, c.poll = some p ∧ p.pollId = pollId ∧ c.conclude status pollId counts totalVotes
        = { c with status := status, counts := counts.map some, totalVotes := totalVotes } := by
  unfold State.conclude
  split
  · exact .inl rfl
  · rename_i p hpoll
    split
    · exact .inl rfl
    · rename_i hid
      exact .inr ⟨p, hpoll, (not_not.mp hid).symm, rfl⟩

theorem ownResult_ok {payload : String → List Nat → Nat → Payload}
    (h : ownResult seat s payload opId = some op) :
    ∃ p counts, s.state.poll = some p ∧ s.state.counts = counts.map some
      ∧ parsePayload (payload p.pollId counts s.state.totalVotes) = some op.payload := by
  obtain ⟨p, hp, h⟩ := bind_eq_some_iff.mp h
  obtain ⟨counts, hcounts, h⟩ := bind_eq_some_iff.mp h
  exact ⟨p, counts, hp, numbers_ok hcounts, (parse_ok h).1⟩

theorem publishResults_ok (h : publishResults seat s opId = some r) :
    ∃ p, s.state.poll = some p ∧ p.creatorPeerId = seat.own
      ∧ r.1.state = { s.state with status := .published } := by
  unfold publishResults at h
  split at h
  · cases h
  · rename_i hcreator
    split at h
    · cases h
    · rename_i op hop
      obtain ⟨p, counts, hp, hcounts, hparse⟩ := ownResult_ok hop
      have hown : p.creatorPeerId = seat.own := by simpa [isCreator, hp] using hcreator
      unfold parsePayload at hparse
      dsimp only at hparse
      split at hparse
      · rw [← some.inj hparse] at h
        cases h
        refine ⟨p, hp, hown, ?_⟩
        simp [applyPollPublish, State.conclude, hp, ← hcounts]
      · cases hparse

/-- The creator, or a leader, closes the poll with the result as it has it. -/
theorem closePoll_ok {m : Moderation} (h : closePoll seat m s opId = some r) :
    ∃ p, s.state.poll = some p ∧ (p.creatorPeerId = seat.own ∨ canCreatePoll m = true)
      ∧ r.1.state = { s.state with status := .closed } := by
  unfold closePoll at h
  split at h
  · cases h
  · rename_i hallowed
    split at h
    · cases h
    · rename_i op hop
      obtain ⟨p, counts, hp, hcounts, hparse⟩ := ownResult_ok hop
      have hallowed : p.creatorPeerId = seat.own ∨ canCreatePoll m = true := by
        by_contra hnot
        rw [not_or, Bool.not_eq_true] at hnot
        exact hallowed ⟨by simpa [isCreator, hp] using hnot.1, hnot.2⟩
      unfold parsePayload at hparse
      dsimp only at hparse
      split at hparse
      · rw [← some.inj hparse] at h
        cases h
        refine ⟨p, hp, hallowed, ?_⟩
        simp [applyPollClose, State.conclude, hp, ← hcounts]
      · cases hparse

theorem vote_ok {i : Nat} {r : Service × Option Operation} (h : vote seat s i opId = some r) :
    ∃ pollId, r.1.state
      = applyPollVote { s.state with ownVotedIndex := some i } seat.own pollId i seat.own := by
  unfold vote at h
  split at h
  · rename_i p hstatus hpoll _
    split at h
    · cases h
    · rename_i hi
      split at h
      · cases h
      · refine ⟨p.pollId, ?_⟩
        split at h
        · cases h
          rfl
        · rename_i hother
          cases h
          simp [applyPollVote, hstatus, hpoll, hi, hother]
  · cases h

/-! ## What a step does -/

/-- What a fair step may make of the participant's poll. -/
inductive Effect (seat : Seat) (s : System) (e : Event) (t : State) : Prop
  | same (h : t.status = s.service.state.status ∧ t.poll = s.service.state.poll
      ∧ t.counts = s.service.state.counts ∧ t.totalVotes = s.service.state.totalVotes
      ∧ t.votesByPeer = s.service.state.votesByPeer)
  | create (p : PollDefinition) (hmade : p ∈ s.polls seat e ∨ p ∈ s.created)
      (hnew : p.pollId ∉ s.had) (h : t = applyPollCreate p)
  | vote (p : PollDefinition) (peerId : String) (i : Nat) (hpoll : s.service.state.poll = some p)
      (hactive : s.service.state.status = .active) (hown : p.creatorPeerId = seat.own)
      (hi : i < p.options.length) (hballot : e.ballot seat = some (peerId, i))
      (hfirst : s.service.state.votesByPeer.get peerId = none)
      (h : t.status = s.service.state.status ∧ t.poll = s.service.state.poll
        ∧ t.counts = bump s.service.state.counts i
        ∧ t.totalVotes = s.service.state.totalVotes + 1
        ∧ t.votesByPeer = s.service.state.votesByPeer.set peerId i)
  | conclude (p : PollDefinition) (hpoll : s.service.state.poll = some p)
      (hstatus : t.status = .closed ∨ s.service.state.status ≠ .closed) (hsum : t.sum = t.totalVotes)
      (h : t.poll = s.service.state.poll ∧ t.votesByPeer = s.service.state.votesByPeer)
      (hwho : p.creatorPeerId ≠ seat.own ∧ e.author seat = p.creatorPeerId
        ∨ p.creatorPeerId = seat.own ∧ e.concludes ∧ t.counts = s.service.state.counts
          ∧ t.totalVotes = s.service.state.totalVotes
        ∨ e.leaderCloses ∧ t.status = .closed)
  | snapshot (q : PollDefinition) (hmade : q ∈ s.created) (hother : q.creatorPeerId ≠ seat.own)
      (hclosed : q.pollId ∈ s.closed → t.status = .closed) (hsum : t.sum = t.totalVotes)
      (h : t.poll = some q ∧ t.votesByPeer = s.service.state.votesByPeer)
      (hwho : ∀ p, s.service.state.poll = some p → p.pollId = q.pollId →
        e.author seat = p.creatorPeerId ∨ t.status = s.service.state.status
          ∧ t.counts = s.service.state.counts ∧ t.totalVotes = s.service.state.totalVotes)

/-- What holds after every step of a fair run. -/
structure Kept (seat : Seat) (s : System) : Prop where
  ids : ∀ p ∈ s.created, ∀ q ∈ s.created, p.pollId = q.pollId → p = q
  made : ∀ p, s.service.state.poll = some p → p ∈ s.created ∧ p.pollId ∈ s.had
  shut : ∀ k ∈ s.closed, k ∈ s.had
  closed : ∀ p, s.service.state.poll = some p →
    (p.pollId ∈ s.closed ↔ s.service.state.status = .closed)
  sum : s.service.state.sum = s.service.state.totalVotes
  tally : ∀ p, s.service.state.poll = some p → p.creatorPeerId = seat.own →
    s.service.state.status ≠ .closed → Tally p s.service.state

section Steps

variable {seat : Seat} {s : System}

theorem map_some_sum (counts : List Nat) :
    ((counts.map some).map fun c => c.getD 0).sum = counts.sum := by
  rw [map_map]
  exact congrArg sum (map_id counts)

theorem deliver_effect {m : Moderation} {d : Delivery} {opId : String}
    (hpossible : d.originPeerId ≠ seat.own) (hfair : Fair seat s (.deliver m d opId)) :
    Effect seat s (.deliver m d opId) (ingest seat m opId s.service d).1.state := by
  unfold ingest
  cases hop : ingestPollDelivery d seat.membershipEpoch seat.members s.service.seen with
  | none => exact .same ⟨rfl, rfl, rfl, rfl, rfl⟩
  | some op =>
      have hfair := hfair op hop
      obtain ⟨hauthor, raw, hraw, hparse⟩ := ingestPollDelivery_ok hop
      unfold FairOperation at hfair
      dsimp only
      cases hpayload : op.payload with
      | syncRequest => exact .same ⟨rfl, rfl, rfl, rfl, rfl⟩
      | create pollId question options anonymous =>
          simp only [hpayload] at hfair
          obtain ⟨hmade, hnew, -⟩ := hfair
          refine .create ⟨pollId, op.authorPeerId, question, options, anonymous⟩ ?_ hnew rfl
          rcases hmade with hmade | hleads
          · exact .inr hmade
          · left
            simp [polls, hop, creates, hpayload, hleads]
      | vote pollId i =>
          rcases applyPollVote_spec s.service.state op.authorPeerId pollId i seat.own with
            hsame | ⟨p, hpoll, hactive, hown, hi, hfirst, hrest⟩
          · exact .same hsame
          · refine .vote p op.authorPeerId i hpoll hactive hown hi ?_ hfirst hrest
            rw [hpayload] at hparse
            rw [Event.ballot, mem_def.mp hraw, bind_some, parse_vote hparse, hauthor]
      | publish pollId counts totalVotes =>
          simp only [hpayload] at hfair
          dsimp only [applyPollPublish]
          rcases conclude_spec s.service.state .published pollId counts totalVotes with
            heq | ⟨p, hpoll, hid, heq⟩ <;> rw [heq]
          · exact .same ⟨rfl, rfl, rfl, rfl, rfl⟩
          · obtain ⟨hcreator, hopen, hsum⟩ := hfair p hpoll hid
            refine .conclude p hpoll (.inr hopen) ((map_some_sum counts).trans hsum) ⟨rfl, rfl⟩
              (.inl ⟨?_, ?_⟩)
            · rw [← hcreator, hauthor]
              exact hpossible
            · exact hauthor.symm.trans hcreator
      | close pollId counts totalVotes =>
          simp only [hpayload] at hfair
          dsimp only [applyPollClose]
          rcases conclude_spec s.service.state .closed pollId counts totalVotes with
            heq | ⟨p, hpoll, hid, heq⟩ <;> rw [heq]
          · exact .same ⟨rfl, rfl, rfl, rfl, rfl⟩
          · obtain ⟨hcloser, hsum⟩ := hfair p hpoll hid
            refine .conclude p hpoll (.inl rfl) ((map_some_sum counts).trans hsum) ⟨rfl, rfl⟩ ?_
            rcases hcloser with hcreator | hleads
            · left
              refine ⟨?_, hauthor.symm.trans hcreator⟩
              rw [← hcreator, hauthor]
              exact hpossible
            · rw [hpayload] at hparse
              exact .inr (.inr ⟨⟨raw, hraw, hauthor ▸ hleads, pollId, counts, totalVotes,
                parse_close hparse⟩, rfl⟩)
      | snapshot status poll counts totalVotes =>
          dsimp only [applyPollSnapshot]
          split
          · exact .same ⟨rfl, rfl, rfl, rfl, rfl⟩
          · rename_i hsome
            rw [not_or] at hsome
            obtain ⟨q, rfl⟩ := ne_none_iff_exists'.mp hsome.2
            simp only [hpayload] at hfair
            obtain ⟨hmade, hother, hsum, hclosed, hwho⟩ := hfair hsome.1
            refine .snapshot q hmade hother hclosed ((map_some_sum counts).trans hsum) ⟨rfl, rfl⟩ ?_
            intro p hp hid
            exact (hwho p hp hid).imp_left hauthor.symm.trans

variable {e : Event}

theorem step_effect (h : Kept seat s) (hpossible : s.possible seat e)
    (hfair : Fair seat s e) : Effect seat s e (s.served seat e).state := by
  cases e with
  | createPoll m question options anonymous pollId opId =>
      cases hcall : createPoll seat m s.service question options anonymous pollId opId with
      | none =>
          rw [served, hcall]
          exact .same ⟨rfl, rfl, rfl, rfl, rfl⟩
      | some r =>
          obtain ⟨p, rfl, hstate⟩ := createPoll_ok hcall
          rw [served, hcall]
          refine .create p (.inl ?_) hpossible.1 hstate
          simp [polls, hcall, hstate, applyPollCreate]
  | vote i opId =>
      cases hcall : vote seat s.service i opId with
      | none =>
          rw [served, hcall]
          exact .same ⟨rfl, rfl, rfl, rfl, rfl⟩
      | some r =>
          obtain ⟨pollId, hstate⟩ := vote_ok hcall
          rw [served, hcall]
          show Effect seat s _ r.1.state
          rw [hstate]
          rcases applyPollVote_spec { s.service.state with ownVotedIndex := some i } seat.own pollId i
            seat.own with hsame | ⟨p, hpoll, hactive, hown, hi, hfirst, hrest⟩
          · exact .same hsame
          · exact .vote p seat.own i hpoll hactive hown hi rfl hfirst hrest
  | publishResults opId =>
      cases hcall : publishResults seat s.service opId with
      | none =>
          rw [served, hcall]
          exact .same ⟨rfl, rfl, rfl, rfl, rfl⟩
      | some r =>
          obtain ⟨p, hpoll, hown, hstate⟩ := publishResults_ok hcall
          rw [served, hcall]
          show Effect seat s _ r.1.state
          rw [hstate]
          exact .conclude p hpoll (.inr hfair) h.sum ⟨rfl, rfl⟩ (.inr (.inl ⟨hown, trivial, rfl, rfl⟩))
  | closePoll m opId =>
      cases hcall : closePoll seat m s.service opId with
      | none =>
          rw [served, hcall]
          exact .same ⟨rfl, rfl, rfl, rfl, rfl⟩
      | some r =>
          obtain ⟨p, hpoll, hallowed, hstate⟩ := closePoll_ok hcall
          rw [served, hcall]
          show Effect seat s _ r.1.state
          rw [hstate]
          refine .conclude p hpoll (.inl rfl) h.sum ⟨rfl, rfl⟩ (.inr ?_)
          rcases hallowed with hown | hleads
          · exact .inl ⟨hown, trivial, rfl, rfl⟩
          · exact .inr ⟨hleads, rfl⟩
  | deliver m d opId => exact deliver_effect hpossible hfair
  | elsewhere m poll => exact .same ⟨rfl, rfl, rfl, rfl, rfl⟩

/-- A poll that is created in a step is the only one with its id. -/
theorem polls_cases (hpossible : s.possible seat e) (hfair : Fair seat s e) :
    s.polls seat e = [] ∨ ∃ p, s.polls seat e = [p] ∧ ∀ q ∈ s.created, q.pollId = p.pollId → q = p := by
  cases e with
  | createPoll m question options anonymous pollId opId =>
      simp only [polls]
      cases hcall : createPoll seat m s.service question options anonymous pollId opId with
      | none => exact .inl rfl
      | some r =>
          obtain ⟨p, hid, hstate⟩ := createPoll_ok hcall
          right
          refine ⟨p, by simp [hstate, applyPollCreate], fun q hq heq => ?_⟩
          exact absurd (heq.trans hid) (hpossible.2 q hq)
  | deliver m d opId =>
      simp only [polls]
      cases hop : ingestPollDelivery d seat.membershipEpoch seat.members s.service.seen with
      | none => exact .inl rfl
      | some op =>
          have hfair := hfair op hop
          unfold FairOperation at hfair
          simp only [map_some, getD_some, creates]
          cases hpayload : op.payload with
          | create pollId question options anonymous =>
              simp only [hpayload] at hfair
              by_cases hleads : m.leads op.authorPeerId = true
              · exact .inr ⟨_, if_pos hleads, hfair.2.2⟩
              · exact .inl (if_neg hleads)
          | _ => exact .inl rfl
  | elsewhere m poll =>
      exact .inr ⟨poll, rfl, fun q hq heq => absurd heq (hpossible.2.2.2 q hq)⟩
  | _ => exact .inl rfl

variable {p : PollDefinition}

theorem Tally.vote {c t : State} (h : Tally p c) {peerId : String} {i : Nat}
    (hi : i < p.options.length) (hfirst : c.votesByPeer.get peerId = none)
    (hcounts : t.counts = bump c.counts i) (hvotes : t.votesByPeer = c.votesByPeer.set peerId i) :
    Tally p t := by
  have hvalues : t.votesByPeer.values = c.votesByPeer.values ++ [i] := by
    rw [hvotes, KeyedMap.values_set_of_none hfirst]
  constructor
  · intro j hj
    rw [hvalues, mem_append, mem_singleton] at hj
    rcases hj with hj | rfl
    · exact h.ballots j hj
    · exact hi
  · rw [hcounts, h.counts, bump_counted hi, hvalues]

theorem Tally.congr {c t : State} (h : Tally p c)
    (hcounts : t.counts = c.counts) (hvotes : t.votesByPeer = c.votesByPeer) : Tally p t := by
  constructor
  · rw [hvotes]
    exact h.ballots
  · rw [hcounts, hvotes]
    exact h.counts

variable {t : System}

/-- **Step.** -/
theorem Kept.step (h : Kept seat s) (hstep : System.Step seat s e t)
    (hfair : Fair seat s e) : Kept seat t := by
  obtain ⟨hpossible, rfl⟩ := hstep
  have heffect := step_effect h hpossible hfair
  have hold : ∀ p, p ∈ s.created → p ∈ (s.next seat e).created := fun p hp =>
    mem_append_right _ hp
  have hhad : ∀ k, k ∈ (s.next seat e).had
      ↔ (s.served seat e).state.poll.map PollDefinition.pollId = some k ∨ k ∈ s.had := by
    intro k
    rw [System.next, go, mem_append, mem_toList]
  have hclosed : ∀ k, k ∈ (s.next seat e).closed ↔ (s.served seat e).state.status = .closed
          ∧ (s.served seat e).state.poll.map PollDefinition.pollId = some k ∨ k ∈ s.closed := by
    intro k
    simp only [System.next, go]
    split
    · rename_i hstatus
      rw [mem_append, mem_toList, and_iff_right hstatus]
    · rename_i hstatus
      rw [iff_false_intro hstatus, false_and, false_or]
  have hids : ∀ p ∈ (s.next seat e).created, ∀ q ∈ (s.next seat e).created,
      p.pollId = q.pollId → p = q := by
    intro p hp q hq heq
    simp only [System.next, go, mem_append] at hp hq
    rcases polls_cases hpossible hfair with hnone | ⟨new, hnew, hunique⟩
    · rw [hnone] at hp hq
      exact h.ids p (hp.resolve_left not_mem_nil) q (hq.resolve_left not_mem_nil) heq
    · rw [hnew, mem_singleton] at hp hq
      rcases hp with rfl | hp <;> rcases hq with rfl | hq
      · rfl
      · exact (hunique q hq heq.symm).symm
      · exact hunique p hp heq
      · exact h.ids p hp q hq heq
  have hshut : ∀ k ∈ (s.next seat e).closed, k ∈ (s.next seat e).had := by
    intro k hk
    rcases (hclosed k).mp hk with ⟨-, hk⟩ | hk
    · exact (hhad k).mpr (.inl hk)
    · exact (hhad k).mpr (.inr (h.shut k hk))
  have hpoll : ∀ p, (s.served seat e).state.poll = some p → p.pollId ∈ (s.next seat e).had := by
    intro p hp
    exact (hhad _).mpr (.inl (by rw [hp, map_some]))
  -- a poll that was closed is shown as closed
  have hstays : (∀ p, (s.served seat e).state.poll = some p → p.pollId ∈ s.closed →
      (s.served seat e).state.status = .closed) →
      ∀ p, (s.served seat e).state.poll = some p →
        (p.pollId ∈ (s.next seat e).closed ↔ (s.served seat e).state.status = .closed) := by
    intro hstays p hp
    rw [hclosed, hp]
    refine ⟨fun hk => ?_, fun hstatus => .inl ⟨hstatus, rfl⟩⟩
    exact hk.elim (fun hk => hk.1) (hstays p hp)
  cases heffect with
  | same hsame =>
      obtain ⟨hstatus, hsamePoll, hcounts, htotal, hvotes⟩ := hsame
      refine ⟨hids, fun p hp => ⟨?_, hpoll p hp⟩, hshut, hstays fun p hp hk => ?_, ?_, ?_⟩
      · exact hold p (h.made p (hsamePoll ▸ hp)).1
      · exact hstatus.trans ((h.closed p (hsamePoll ▸ hp)).mp hk)
      · show (s.served seat e).state.sum = (s.served seat e).state.totalVotes
        rw [State.sum, hcounts, htotal]
        exact h.sum
      · intro p hp hown hopen
        exact (h.tally p (hsamePoll.symm.trans hp) hown (hstatus.symm.trans_ne hopen)).congr hcounts
          hvotes
  | create p hmade hnew heq =>
      have hthis : ∀ q, (s.served seat e).state.poll = some q → p = q := by
        intro q hq
        rw [heq] at hq
        exact some.inj hq
      refine ⟨hids, fun q hq => ⟨?_, hpoll q hq⟩, hshut, hstays fun q hq hk => ?_, ?_, ?_⟩
      · obtain rfl := hthis q hq
        exact mem_append.mpr hmade
      · obtain rfl := hthis q hq
        exact absurd (h.shut _ hk) hnew
      · show (s.served seat e).state.sum = (s.served seat e).state.totalVotes
        rw [heq]
        simp [State.sum, applyPollCreate]
      · intro q hq hown hopen
        obtain rfl := hthis q hq
        show Tally p (s.served seat e).state
        rw [heq]
        exact ⟨fun i hi => absurd hi not_mem_nil, (counted_nil _).symm⟩
  | vote p peerId i hp hactive hown hi hballot hfirst hvote =>
      obtain ⟨hstatus, hsamePoll, hcounts, htotal, hvotes⟩ := hvote
      refine ⟨hids, fun q hq => ⟨?_, hpoll q hq⟩, hshut, hstays fun q hq hk => ?_, ?_, ?_⟩
      · exact hold q (h.made q (hsamePoll ▸ hq)).1
      · exact hstatus.trans ((h.closed q (hsamePoll ▸ hq)).mp hk)
      · show (s.served seat e).state.sum = (s.served seat e).state.totalVotes
        rw [State.sum, hcounts, bump_sum, htotal]
        exact congrArg (· + 1) h.sum
      · intro q hq hown' hopen
        obtain rfl : p = q := some.inj (hp.symm.trans (hsamePoll.symm.trans hq))
        exact (h.tally p hp hown (hstatus.symm.trans_ne hopen)).vote hi hfirst hcounts hvotes
  | conclude p hp hstatus hsum hrest hwho =>
      obtain ⟨hsamePoll, hvotes⟩ := hrest
      refine ⟨hids, fun q hq => ⟨?_, hpoll q hq⟩, hshut, hstays fun q hq hk => ?_, hsum, ?_⟩
      · exact hold q (h.made q (hsamePoll ▸ hq)).1
      · have hclosed := (h.closed q (hsamePoll ▸ hq)).mp hk
        exact hstatus.resolve_right (not_not.mpr hclosed)
      · intro q hq hown hopen
        obtain rfl : p = q := some.inj (hp.symm.trans (hsamePoll.symm.trans hq))
        rcases hwho with ⟨hother, -⟩ | ⟨-, -, hcounts, -⟩ | ⟨-, hend⟩
        · exact absurd hown hother
        · exact (h.tally p hp hown (hstatus.resolve_left hopen)).congr hcounts hvotes
        · exact absurd hend hopen
  | snapshot q hmade hother hend hsum hrest hwho =>
      have hthis : ∀ p, (s.served seat e).state.poll = some p → q = p := by
        intro p hp
        exact some.inj (hrest.1.symm.trans hp)
      refine ⟨hids, fun p hp => ⟨?_, hpoll p hp⟩, hshut, hstays fun p hp hk => ?_, hsum, ?_⟩
      · exact hold p (hthis p hp ▸ hmade)
      · exact hend (hthis p hp ▸ hk)
      · intro p hp hown
        exact absurd (hthis p hp ▸ hown) hother

theorem step_change (h : Kept seat s) (hstep : System.Step seat s e t)
    (hfair : Fair seat s e) (hs : s.service.state.poll = some p)
    (ht : t.service.state.poll = some p) :
    Change seat p s.service.state e t.service.state := by
  obtain ⟨hpossible, rfl⟩ := hstep
  have ht : (s.served seat e).state.poll = some p := ht
  cases step_effect h hpossible hfair with
  | same hsame => exact .same ⟨hsame.1, hsame.2.2⟩
  | create q hmade hnew heq =>
      rw [heq] at ht
      cases ht
      exact absurd (h.made _ hs).2 hnew
  | vote q peerId i hp hactive hown hi hballot hfirst hvote =>
      cases hs.symm.trans hp
      exact .vote hown peerId i hballot hfirst ⟨hvote.1, hvote.2.2⟩
  | conclude q hp hstatus hsum hrest hwho =>
      cases hs.symm.trans hp
      rcases hwho with ⟨hother, hauthor⟩ | ⟨hown, hcall, hcounts, htotal⟩ | ⟨hleader, hend⟩
      · exact .told hother hauthor
      · exact .own hown hcall ⟨hcounts, htotal, hrest.2⟩
      · exact .closed hleader ⟨hend, hrest.2⟩
  | snapshot q hmade hother hend hsum hrest hwho =>
      cases hrest.1.symm.trans ht
      rcases hwho _ hs rfl with hauthor | ⟨hstatus, hcounts, htotal⟩
      · exact .told hother hauthor
      · exact .same ⟨hstatus, hcounts, htotal, hrest.2⟩

theorem start_kept (seat : Seat) : Kept seat start where
  ids _ hp := absurd hp not_mem_nil
  made _ hp := by cases hp
  shut _ hk := absurd hk not_mem_nil
  closed _ hp := by cases hp
  sum := rfl
  tally _ hp := by cases hp

theorem Kept.run {es : List Event} (h : Kept seat s)
    (hrun : Runs.Path (Guarded (System.Step seat) (Fair seat)) s es t) : Kept seat t := by
  refine hrun.inv (I := Kept seat) ?_ h
  rintro s e t ⟨hstep, hfair⟩ hs
  exact hs.step hstep hfair

theorem closed_run {es : List Event}
    (hrun : Runs.Path (Guarded (System.Step seat) (Fair seat)) s es t) :
    ∀ k ∈ s.closed, k ∈ t.closed := by
  refine hrun.rel (R := fun s t => ∀ k ∈ s.closed, k ∈ t.closed) (fun _ _ hk => hk)
    (fun h h' k hk => h' k (h k hk)) ?_
  rintro s e t ⟨⟨-, rfl⟩, -⟩ k hk
  simp only [System.next, go]
  split
  · exact mem_append_right _ hk
  · exact hk

end Steps

def sampleSeat : Seat := ⟨samplePeer '0', [samplePeer '0', samplePeer '1', samplePeer '2'], 1⟩

/-- The participant is the owner, and another one presents. -/
def sampleModeration : Moderation :=
  ⟨[⟨samplePeer '0', "owner"⟩, ⟨samplePeer '1', "member"⟩, ⟨samplePeer '2', "member"⟩],
    samplePeer '2', "owner", false⟩

def sampleEvent (peer id : Char) (payload : Payload) : Event :=
  .deliver sampleModeration
    ⟨samplePeer peer, "event", 200, some ⟨sampleId id, 1, samplePeer peer, payload⟩⟩ (sampleId '9')

def sampleCreate : Event :=
  .createPoll sampleModeration [0x3f] [[0x61], [0x62]] true (sampleId 'a') (sampleId '1')

def sampleVote : Event := sampleEvent '1' '2' (.vote (sampleId 'a') 1)

def sampleVoted : System := (start.next sampleSeat sampleCreate).next sampleSeat sampleVote

theorem sampleVoted_run :
    Runs.Path (Guarded (System.Step sampleSeat) (Fair sampleSeat)) start [sampleCreate, sampleVote]
      sampleVoted := by
  refine .cons ⟨⟨⟨not_mem_nil, fun p hp => absurd hp not_mem_nil⟩, rfl⟩, trivial⟩
    (.cons ⟨⟨?_, rfl⟩, ?_⟩ (.nil _))
  · show samplePeer '1' ≠ samplePeer '0'
    decide
  · intro op hop
    obtain ⟨-, raw, hraw, hparse⟩ := ingestPollDelivery_ok hop
    have hraw : raw.payload = .vote (sampleId 'a') 1 :=
      congrArg Operation.payload (some.inj hraw).symm
    have hpayload : parsePayload (.vote (sampleId 'a') 1) = some (.vote (sampleId 'a') 1) := by
      decide
    rw [hraw, hpayload] at hparse
    rw [FairOperation, ← some.inj hparse]
    trivial

/-- What the presenter's own `closePoll` sends, which has counted nothing. -/
def sampleClose : Event := sampleEvent '2' '3' (.close (sampleId 'a') [0, 0] 0)

end Polls

end WebrtcMinimize
