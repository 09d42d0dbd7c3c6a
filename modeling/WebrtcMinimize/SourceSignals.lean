import Mathlib.Algebra.Ring.Nat
import WebrtcMinimize.Json
import WebrtcMinimize.Runs

/-!
# Signalling of a trusted source

The server's `TrustedSourceNegotiation` stands between a publisher and the
source transport of the packager. Each keeps its own revision, sequences and
"answered" flag; this module is the two of them with a queue in each
direction.

`handle` is two steps here, since the transport gives up its lock while the
peer connection works on the offer, and local candidates may arrive then. A
value of another shape than the messages here does not parse, and is `none`.
-/

namespace WebrtcMinimize

namespace SourceSignals

open Checks Runs List Nat
open Bool hiding not_or not_and not_not true_and and_true

/-! ## Messages -/

inductive SignalType
  | publisher
  | packager
  | peer
deriving DecidableEq

def SignalType.text : SignalType → String
  | .publisher => "trusted-source-publisher-signal"
  | .packager => "trusted-source-packager-signal"
  | .peer => "trusted-source-peer-signal"

structure SignalScope where
  sourceLeaseId : String
  consentId : String
  assignmentId : String
  fencingRevision : Nat
deriving DecidableEq

structure SourceDescription where
  type : String
  sdp : String
deriving DecidableEq

/-- The last three may be absent, and null where they are not. -/
structure IceCandidate where
  candidate : String
  sdpMid : Option (Option String)
  sdpMLineIndex : Option (Option Nat)
  usernameFragment : Option (Option String)
deriving DecidableEq

inductive SignalPayload
  | description (value : SourceDescription)
  /-- Null after the last candidate. -/
  | candidate (value : Option IceCandidate)
deriving DecidableEq

def SignalPayload.isDescription : SignalPayload → Bool
  | .description _ => true
  | .candidate _ => false

structure SourceSignal where
  version : Nat
  type : SignalType
  scope : SignalScope
  negotiationRevision : Nat
  sequence : Nat
  payload : SignalPayload
deriving DecidableEq

/-! ## Texts -/

def textOrNull : Option String → Json
  | none => .null
  | some text => .str text

def indexOrNull : Option Nat → Json
  | none => .null
  | some index => .num index

def IceCandidate.json (c : IceCandidate) : Json :=
  .obj (("candidate", .str c.candidate) :: (Json.optField "sdpMid" (c.sdpMid.map textOrNull)
      ++ Json.optField "sdpMLineIndex" (c.sdpMLineIndex.map indexOrNull)
      ++ Json.optField "usernameFragment" (c.usernameFragment.map textOrNull)))

def SignalPayload.field : SignalPayload → String × Json
  | .description d => ("description", .obj [("type", .str d.type), ("sdp", .str d.sdp)])
  | .candidate none => ("candidate", .null)
  | .candidate (some c) => ("candidate", c.json)

def SourceSignal.json (m : SourceSignal) : Json :=
  .obj [("version", .num m.version), ("type", .str m.type.text),
    ("sourceLeaseId", .str m.scope.sourceLeaseId), ("consentId", .str m.scope.consentId),
    ("assignmentId", .str m.scope.assignmentId),
    ("fencingRevision", .num m.scope.fencingRevision),
    ("negotiationRevision", .num m.negotiationRevision), ("sequence", .num m.sequence),
    m.payload.field]

def SignalPayload.texts : SignalPayload → List String
  | .description d => [d.sdp]
  | .candidate none => []
  | .candidate (some c) =>
      c.candidate :: (c.sdpMid.getD none).toList ++ (c.usernameFragment.getD none).toList

/-- What `json.Marshal` adds to a text: it writes `<`, `>`, `&` and the two
line separators as six bytes each. -/
def markupBytes : List Nat → Nat
  | 0xE2 :: 0x80 :: 0xA8 :: bs => 3 + markupBytes bs
  | 0xE2 :: 0x80 :: 0xA9 :: bs => 3 + markupBytes bs
  | b :: bs => (if b = 60 ∨ b = 62 ∨ b = 38 then 5 else 0) + markupBytes bs
  | [] => 0

/-- The length of `json.Marshal` of the message. -/
def SourceSignal.marshalLength (m : SourceSignal) : Nat :=
  m.json.byteLength + (m.payload.texts.map fun text => markupBytes (utf8 text)).sum

/-! ## Parsing -/

def maxSafeInteger : Nat := 9007199254740991

def positive (n max : Nat) : Bool := decide (0 < n ∧ n ≤ max)

def SignalType.descriptionType : SignalType → String
  | .publisher => "offer"
  | _ => "answer"

def descriptionOK (expectedType : SignalType) (d : SourceDescription) : Bool :=
  decide (d.type = expectedType.descriptionType) && decide (d.sdp ≠ "")
    && decide ((utf8 d.sdp).length ≤ 16384)

def shortText (field : Option (Option String)) : Bool :=
  (field.getD none).all fun text => decide ((utf8 text).length ≤ 64)

def candidateOK (c : IceCandidate) : Bool :=
  decide ((utf8 c.candidate).length ≤ 4096) && shortText c.sdpMid && shortText c.usernameFragment
    && (c.sdpMLineIndex.getD none).all fun index => decide (index ≤ 15)

def payloadOK (expectedType : SignalType) : SignalPayload → Bool
  | .description d => descriptionOK expectedType d
  | .candidate c => c.all candidateOK

def scopeOK (scope : SignalScope) : Bool :=
  refOK "sls_" scope.sourceLeaseId && refOK "cns_" scope.consentId
    && refOK "asn_" scope.assignmentId && positive scope.fencingRevision maxSafeInteger

def parseTrustedSourceSignal (m : SourceSignal) (expectedType : SignalType) : Bool :=
  decide (m.version = 1) && decide (m.type = expectedType) && scopeOK m.scope
    && positive m.negotiationRevision 16 && positive m.sequence 129
    && payloadOK expectedType m.payload && decide (m.json.byteLength ≤ 31 * 1024)

/-! ## The broker -/

structure TrustedSourceNegotiation where
  revision : Nat
  publisherSequence : Nat
  packagerSequence : Nat
  answered : Bool
  bytes : Nat
  windowAt : Nat
  windowCount : Nat
deriving DecidableEq

def newNegotiation : TrustedSourceNegotiation := ⟨0, 0, 0, false, 0, 0, 0⟩

namespace TrustedSourceNegotiation

variable (n : TrustedSourceNegotiation)

/-- The message is counted in the window of ten seconds. -/
def counted (now : Nat) : TrustedSourceNegotiation :=
  if now ≥ n.windowAt + 10000 then { n with windowAt := now, windowCount := 1 }
  else { n with windowCount := n.windowCount + 1 }

def accept (m : SourceSignal) (now : Nat) : TrustedSourceNegotiation × Bool :=
  let description := m.payload.isDescription
  let size := m.json.byteLength
  let n := n.counted now
  if n.windowCount > 64 ∨ n.bytes + size > 512 * 1024 then
    (n, false)
  else if m.type = .publisher ∧ description = true then
    if m.negotiationRevision ≠ n.revision + 1 ∨ m.sequence ≠ 1
        ∨ (n.revision > 0 ∧ n.answered = false) then
      (n, false)
    else
      ({ n with
        revision := m.negotiationRevision
        publisherSequence := 1
        packagerSequence := 0
        answered := false
        bytes := n.bytes + size }, true)
  else if n.revision = 0 ∨ m.negotiationRevision ≠ n.revision then
    (n, false)
  else if m.type = .publisher then
    if m.sequence ≠ n.publisherSequence + 1 then
      (n, false)
    else
      ({ n with publisherSequence := m.sequence, bytes := n.bytes + size }, true)
  else if m.sequence ≠ n.packagerSequence + 1 ∨ n.answered = description then
    (n, false)
  else
    ({ n with
      packagerSequence := m.sequence
      answered := n.answered || description
      bytes := n.bytes + size }, true)

/-- The rate and the size of the message are within the budgets. -/
def WithinBudget (m : SourceSignal) (now : Nat) : Prop :=
  (n.counted now).windowCount ≤ 64 ∧ n.bytes + m.json.byteLength ≤ 512 * 1024

end TrustedSourceNegotiation

structure SourceRecord where
  scope : SignalScope
  publisherPeerId : String
  negotiation : TrustedSourceNegotiation
deriving DecidableEq

/-- `#signal` for an active record whose peers are connected. -/
def SourceRecord.signal (r : SourceRecord) (type : SignalType) (m : SourceSignal) (now : Nat) :
    SourceRecord × Bool :=
  if parseTrustedSourceSignal m type = false ∨ m.scope ≠ r.scope then
    (r, false)
  else
    ({ r with negotiation := (r.negotiation.accept m now).1 }, (r.negotiation.accept m now).2)

structure SourcePeerSignal extends SourceSignal where
  publisherPeerId : String
deriving DecidableEq

def SourceRecord.forwarded (r : SourceRecord) (m : SourceSignal) : SourcePeerSignal :=
  { m with type := .peer, publisherPeerId := r.publisherPeerId }

/-! ## The transport -/

inductive SignalError
  | staleSourceSignal
  | sourceCandidateSequence
  /-- The peer connection's. -/
  | candidate
  | sourceOfferScope
  | sourceTransportTrackChanged
  | sourceOfferSequence
  | sourceOfferRejected
  | sourceAnswerFailed
  | sourceLocalDescriptionFailed
  | sourceSignalBudget
  | sourceSignalSize
deriving DecidableEq

structure SourceTransport where
  scope : SignalScope
  publisherPeerId : String
  closed : Bool
  negotiation : Nat
  inSequence : Nat
  outSequence : Nat
  answerSent : Bool
  pending : List IceCandidate
  endPending : Bool
  trackID : Option String
  /-- `handle` waits for the peer connection. -/
  answering : Bool
deriving DecidableEq

namespace SourceTransport

variable (t : SourceTransport)

def sendSignal (payload : SignalPayload) : SourceTransport × Except SignalError SourceSignal :=
  let t := { t with outSequence := t.outSequence + 1 }
  if t.outSequence > 129 then
    (t, .error .sourceSignalBudget)
  else
    let message : SourceSignal := ⟨1, .packager, t.scope, t.negotiation, t.outSequence, payload⟩
    if message.marshalLength > 31 * 1024 then (t, .error .sourceSignalSize)
    else (t, .ok message)

/-- The transport closes later where the source starts `close`. -/
def localCandidate (candidate : Option IceCandidate) : SourceTransport × List SourceSignal :=
  if t.closed = true then
    (t, [])
  else if t.answerSent = false then
    match candidate with
    | none => ({ t with endPending := true }, [])
    | some candidate =>
        if t.pending.length ≥ 128 then (t, [])
        else ({ t with pending := t.pending ++ [candidate] }, [])
  else
    match t.sendSignal (.candidate candidate) with
    | (t, .error _) => (t, [])
    | (t, .ok message) => (t, [message])

variable (sourceOfferTrack : String → Option String)

/-- `handle`, for an offer up to where the peer connection gets it. -/
def handle (m : SourcePeerSignal) (alive added : Bool) :
    SourceTransport × Except SignalError Unit :=
  if t.closed = true ∨ alive = false ∨ m.scope ≠ t.scope ∨ m.publisherPeerId ≠ t.publisherPeerId then
    (t, .error .staleSourceSignal)
  else
    match m.payload with
    | .candidate _ =>
        if m.negotiationRevision = t.negotiation ∧ m.sequence = t.inSequence + 1
            ∧ t.answerSent = true then
          ({ t with inSequence := m.sequence }, if added then .ok () else .error .candidate)
        else
          (t, .error .sourceCandidateSequence)
    | .description d =>
        match sourceOfferTrack d.sdp with
        | none => (t, .error .sourceOfferScope)
        | some trackID =>
            if t.trackID.any (· ≠ trackID) then
              (t, .error .sourceTransportTrackChanged)
            else if m.negotiationRevision ≠ t.negotiation + 1 ∨ m.sequence ≠ 1
                ∨ (t.negotiation > 0 ∧ t.answerSent = false) then
              (t, .error .sourceOfferSequence)
            else
              ({ t with
                negotiation := m.negotiationRevision
                inSequence := 1
                outSequence := 0
                answerSent := false
                pending := []
                endPending := false
                trackID := if trackID ≠ "" then some trackID else t.trackID
                answering := true }, .ok ())

/-- A message that fails destroys the source. -/
def dispatch (m : SourcePeerSignal) (alive added : Bool) : SourceTransport :=
  match t.handle sourceOfferTrack m alive added with
  | (t, .ok _) => t
  | (t, .error _) => { t with closed := true }

/-- The candidates sent before the first that could not be. -/
def sendPending : List IceCandidate → SourceTransport →
    SourceTransport × List SourceSignal × Except SignalError Unit
  | [], t => (t, [], .ok ())
  | candidate :: rest, t =>
      match t.sendSignal (.candidate (some candidate)) with
      | (t, .error e) => (t, [], .error e)
      | (t, .ok message) =>
          let (t, messages, result) := sendPending rest t
          (t, message :: messages, result)

def sendEnd : SourceTransport × List SourceSignal × Except SignalError Unit :=
  if t.endPending = true then
    match sendSignal { t with pending := [], endPending := false } (.candidate none) with
    | (t, .error e) => (t, [], .error e)
    | (t, .ok message) => (t, [message], .ok ())
  else
    ({ t with pending := [] }, [], .ok ())

/-- The rest of `handle`, with what the peer connection makes of the offer. -/
def sendAnswer (answer : Except SignalError String) :
    SourceTransport × List SourceSignal × Except SignalError Unit :=
  match answer with
  | .error e => (t, [], .error e)
  | .ok sdp =>
      if (utf8 sdp).length > 16384 then
        (t, [], .error .sourceAnswerFailed)
      else
        match t.sendSignal (.description ⟨"answer", sdp⟩) with
        | (t, .error e) => (t, [], .error e)
        | (t, .ok message) =>
            match sendPending t.pending { t with answerSent := true } with
            | (t, messages, .error e) => (t, message :: messages, .error e)
            | (t, messages, .ok _) =>
                let (t, last, result) := t.sendEnd
                (t, message :: messages ++ last, result)

def answered (answer : Except SignalError String) : SourceTransport × List SourceSignal :=
  match t.sendAnswer answer with
  | (t, messages, .ok _) => ({ t with answering := false }, messages)
  | (t, messages, .error _) => ({ t with answering := false, closed := true }, messages)

end SourceTransport

/-! ## The two parties -/

structure Signalling where
  record : SourceRecord
  transport : SourceTransport
  toAgent : List SourcePeerSignal
  toBroker : List SourceSignal
deriving DecidableEq

def newSignalling (scope : SignalScope) (publisherPeerId : String) : Signalling where
  record := ⟨scope, publisherPeerId, newNegotiation⟩
  transport := ⟨scope, publisherPeerId, false, 0, 0, 0, false, [], false, none, false⟩
  toAgent := []
  toBroker := []

inductive SignalEvent
  | publish (m : Option SourceSignal) (now : Nat)
  | deliver (alive added : Bool)
  | answer (answer : Except SignalError String)
  | localCandidate (candidate : Option IceCandidate)
  | receive (now : Nat)
  | close

namespace Signalling

variable (sourceOfferTrack : String → Option String) (s : Signalling)

def next : SignalEvent → Option Signalling
  | .publish none _ => some s
  | .publish (some m) now =>
      let (record, accepted) := s.record.signal .publisher m now
      some { s with
        record := record
        toAgent := if accepted then s.toAgent ++ [record.forwarded m] else s.toAgent }
  | .deliver alive added =>
      match s.toAgent with
      | [] => none
      | m :: rest =>
          if s.transport.answering = true then none
          else some { s with
            transport := s.transport.dispatch sourceOfferTrack m alive added
            toAgent := rest }
  | .answer answer =>
      if s.transport.answering = false then none
      else
        let (transport, messages) := s.transport.answered answer
        some { s with transport := transport, toBroker := s.toBroker ++ messages }
  | .localCandidate candidate =>
      let (transport, messages) := s.transport.localCandidate candidate
      some { s with transport := transport, toBroker := s.toBroker ++ messages }
  | .receive now =>
      match s.toBroker with
      | [] => none
      | m :: rest => some { s with record := (s.record.signal .packager m now).1, toBroker := rest }
  | .close => some { s with transport := { s.transport with closed := true } }

def Step (s : Signalling) (e : SignalEvent) (t : Signalling) : Prop :=
  s.next sourceOfferTrack e = some t

/-- The payload is one that the broker parses, in a message of any number. -/
structure PayloadFits (scope : SignalScope) (payload : SignalPayload) : Prop where
  wellFormed : payloadOK .packager payload = true
  size : ∀ revision sequence, revision ≤ 16 → sequence ≤ 129 →
    (⟨1, .packager, scope, revision, sequence, payload⟩ : SourceSignal).marshalLength ≤ 31 * 1024

/-- The peer connection's descriptions and candidates are well formed, and
what the broker receives from the transport is within its budgets. -/
def Fits (s : Signalling) : SignalEvent → Prop
  | .answer (.ok sdp) => sdp ≠ ""
  | .localCandidate candidate => PayloadFits s.transport.scope (.candidate candidate)
  | .receive now => ∀ m ∈ s.toBroker.head?, s.record.negotiation.WithinBudget m now
  | _ => True

end Signalling

/-! ## What the broker accepts -/

namespace TrustedSourceNegotiation

variable {n : TrustedSourceNegotiation} {m : SourceSignal} {now : Nat}

/-- Where the negotiation stands. -/
structure At (n : TrustedSourceNegotiation) (revision publisherSequence packagerSequence : Nat)
    (answered : Bool) : Prop where
  revision : n.revision = revision
  publisherSequence : n.publisherSequence = publisherSequence
  packagerSequence : n.packagerSequence = packagerSequence
  answered : n.answered = answered

theorem counted_at (n : TrustedSourceNegotiation) (now : Nat) :
    At (n.counted now) n.revision n.publisherSequence n.packagerSequence n.answered
      ∧ (n.counted now).bytes = n.bytes := by
  unfold counted
  split
  · exact ⟨⟨rfl, rfl, rfl, rfl⟩, rfl⟩
  · exact ⟨⟨rfl, rfl, rfl, rfl⟩, rfl⟩

/-- A message is refused and changes nothing, or it is the next of its
sender. -/
theorem accept_cases (n : TrustedSourceNegotiation) (m : SourceSignal) (now : Nat) :
    ((n.accept m now).2 = false
      ∧ At (n.accept m now).1 n.revision n.publisherSequence n.packagerSequence n.answered)
    ∨ ((n.accept m now).2 = true ∧ m.type = .publisher ∧ m.payload.isDescription = true
      ∧ m.negotiationRevision = n.revision + 1 ∧ m.sequence = 1
      ∧ (n.revision = 0 ∨ n.answered = true)
      ∧ At (n.accept m now).1 m.negotiationRevision 1 0 false)
    ∨ ((n.accept m now).2 = true ∧ m.type = .publisher ∧ m.payload.isDescription = false
      ∧ n.revision ≠ 0 ∧ m.negotiationRevision = n.revision
      ∧ m.sequence = n.publisherSequence + 1
      ∧ At (n.accept m now).1 n.revision m.sequence n.packagerSequence n.answered)
    ∨ ((n.accept m now).2 = true ∧ m.type ≠ .publisher ∧ n.revision ≠ 0
      ∧ m.negotiationRevision = n.revision ∧ m.sequence = n.packagerSequence + 1
      ∧ At (n.accept m now).1 n.revision n.publisherSequence m.sequence true) := by
  obtain ⟨hat, -⟩ := n.counted_at now
  obtain ⟨hrevision, hpublisher, hpackager, hanswered⟩ := hat
  unfold accept
  simp only
  split
  · exact .inl ⟨rfl, hrevision, hpublisher, hpackager, hanswered⟩
  · split
    · next hoffer =>
        split
        · exact .inl ⟨rfl, hrevision, hpublisher, hpackager, hanswered⟩
        · next hnext =>
            rw [hrevision, hanswered] at hnext
            simp only [not_or, not_and, ne_eq, not_not, not_eq_false] at hnext
            refine .inr (.inl ⟨rfl, hoffer.1, hoffer.2, hnext.1, hnext.2.1, ?_, rfl, rfl, rfl, rfl⟩)
            rcases Nat.eq_zero_or_pos n.revision with hzero | hpos
            · exact .inl hzero
            · exact .inr (hnext.2.2 hpos)
    · next hoffer =>
        split
        · exact .inl ⟨rfl, hrevision, hpublisher, hpackager, hanswered⟩
        · next hcurrent =>
            rw [hrevision] at hcurrent
            simp only [not_or, ne_eq, not_not] at hcurrent
            split
            · next htype =>
                have hdescription : m.payload.isDescription = false := by
                  cases hd : m.payload.isDescription with
                  | false => rfl
                  | true => exact absurd ⟨htype, hd⟩ hoffer
                split
                · exact .inl ⟨rfl, hrevision, hpublisher, hpackager, hanswered⟩
                · next hsequence =>
                    rw [hpublisher, ne_eq, not_not] at hsequence
                    exact .inr (.inr (.inl ⟨rfl, htype, hdescription, hcurrent.1, hcurrent.2,
                      hsequence, hrevision, rfl, hpackager, hanswered⟩))
            · next htype =>
                split
                · exact .inl ⟨rfl, hrevision, hpublisher, hpackager, hanswered⟩
                · next hsequence =>
                    rw [hpackager, hanswered, not_or, ne_eq, not_not] at hsequence
                    have hnow : (n.answered || m.payload.isDescription) = true := by
                      cases hd : m.payload.isDescription with
                      | true => exact or_true _
                      | false =>
                          rw [hd] at hsequence
                          rw [Bool.or_false]
                          exact not_eq_false _ ▸ hsequence.2
                    exact .inr (.inr (.inr ⟨rfl, htype, hcurrent.1, hcurrent.2, hsequence.1,
                      hrevision, hpublisher, rfl, by rw [← hnow, hanswered]⟩))

/-- A message of the transport that is the next one is accepted. -/
theorem accept_next (hbudget : n.WithinBudget m now) (htype : m.type ≠ .publisher)
    (hrevision : n.revision ≠ 0) (hcurrent : m.negotiationRevision = n.revision)
    (hsequence : m.sequence = n.packagerSequence + 1)
    (hanswered : n.answered = !m.payload.isDescription) : (n.accept m now).2 = true := by
  obtain ⟨⟨hr, hp, hq, ha⟩, hbytes⟩ := n.counted_at now
  have hwithin : ¬((n.counted now).windowCount > 64
      ∨ (n.counted now).bytes + m.json.byteLength > 512 * 1024) := by
    have hcount := hbudget.1
    have hsize := hbudget.2
    omega
  have hne : n.answered ≠ m.payload.isDescription := by
    rw [hanswered]
    cases m.payload.isDescription <;> decide
  unfold accept
  rw [if_neg hwithin, if_neg fun h => htype h.1, hr, if_neg (by simp [hrevision, hcurrent]),
    if_neg htype, hq, ha, if_neg (by simp [hsequence, hne])]

end TrustedSourceNegotiation

/-! ## Numbered candidates -/

/-- Candidates of one revision, numbered from the one after `last`. -/
def Trickle (revision : Nat) : Nat → List SourceSignal → Prop
  | _, [] => True
  | last, m :: ms => m.payload.isDescription = false ∧ m.negotiationRevision = revision
      ∧ m.sequence = last + 1 ∧ Trickle revision (last + 1) ms

theorem Trickle.append {revision : Nat} : ∀ {last : Nat} {ms ms' : List SourceSignal},
    Trickle revision last ms → Trickle revision (last + ms.length) ms' →
      Trickle revision last (ms ++ ms')
  | _, [], _, _, h' => h'
  | last, m :: ms, ms', h, h' => by
      obtain ⟨hpayload, hrevision, hsequence, hrest⟩ := h
      refine ⟨hpayload, hrevision, hsequence, hrest.append ?_⟩
      rwa [length_cons, add_comm ms.length, ← add_assoc] at h'

theorem Trickle.mem {revision : Nat} {m : SourceSignal} : ∀ {last : Nat} {ms : List SourceSignal},
    Trickle revision last ms → m ∈ ms →
      m.payload.isDescription = false ∧ m.negotiationRevision = revision
  | last, m' :: ms, h, hm => by
      obtain ⟨hpayload, hrevision, -, hrest⟩ := h
      rcases mem_cons.mp hm with rfl | hm
      · exact ⟨hpayload, hrevision⟩
      · exact hrest.mem hm

/-- Candidates of negotiations before `revision`. -/
def Stale (revision : Nat) (ms : List SourceSignal) : Prop :=
  ∀ m ∈ ms, m.payload.isDescription = false ∧ m.negotiationRevision < revision

theorem Stale.append {revision : Nat} {ms ms' : List SourceSignal} (h : Stale revision ms)
    (h' : Stale revision ms') : Stale revision (ms ++ ms') := by
  intro m hm
  rcases mem_append.mp hm with hm | hm
  · exact h m hm
  · exact h' m hm

theorem Stale.later {revision revision' : Nat} {ms : List SourceSignal} (h : Stale revision ms)
    (hle : revision ≤ revision') : Stale revision' ms := by
  intro m hm
  obtain ⟨hpayload, hlt⟩ := h m hm
  exact ⟨hpayload, by omega⟩

theorem Trickle.stale {revision revision' last : Nat} {ms : List SourceSignal}
    (h : Trickle revision last ms) (hlt : revision < revision') : Stale revision' ms := by
  intro m hm
  obtain ⟨hpayload, hrevision⟩ := h.mem hm
  exact ⟨hpayload, by omega⟩

/-! ## What the transport sends -/

namespace SourceTransport

open Signalling

/-- Sending has numbered the messages from the ones before. -/
structure Sent (t t' : SourceTransport) (ms : List SourceSignal) : Prop where
  scope : t'.scope = t.scope
  publisherPeerId : t'.publisherPeerId = t.publisherPeerId
  closed : t'.closed = t.closed
  negotiation : t'.negotiation = t.negotiation
  inSequence : t'.inSequence = t.inSequence
  answerSent : t'.answerSent = t.answerSent
  trickle : Trickle t.negotiation (min t.outSequence 129) ms
  count : min t'.outSequence 129 = min t.outSequence 129 + ms.length
  parsed : ∀ m ∈ ms, parseTrustedSourceSignal m .packager = true ∧ m.scope = t.scope

theorem Sent.trans {t t' t'' : SourceTransport} {ms ms' : List SourceSignal} (h : Sent t t' ms)
    (h' : Sent t' t'' ms') : Sent t t'' (ms ++ ms') where
  scope := h'.scope.trans h.scope
  publisherPeerId := h'.publisherPeerId.trans h.publisherPeerId
  closed := h'.closed.trans h.closed
  negotiation := h'.negotiation.trans h.negotiation
  inSequence := h'.inSequence.trans h.inSequence
  answerSent := h'.answerSent.trans h.answerSent
  trickle := by
    have htrickle := h'.trickle
    rw [h.negotiation, h.count] at htrickle
    exact h.trickle.append htrickle
  count := by rw [h'.count, h.count, length_append, add_assoc]
  parsed := by
    intro m hm
    rcases mem_append.mp hm with hm | hm
    · exact h.parsed m hm
    · exact h.scope ▸ h'.parsed m hm

theorem parse_ok {scope : SignalScope} {negotiation sequence : Nat} {payload : SignalPayload}
    (hscope : scopeOK scope = true) (hlow : 0 < negotiation) (hhigh : negotiation ≤ 16)
    (hsequence : 0 < sequence) (hbudget : sequence ≤ 129)
    (hpayload : payloadOK .packager payload = true)
    (hsize : (⟨1, .packager, scope, negotiation, sequence, payload⟩ : SourceSignal).marshalLength
      ≤ 31 * 1024) :
    parseTrustedSourceSignal ⟨1, .packager, scope, negotiation, sequence, payload⟩ .packager
      = true := by
  have hlength := le_trans (le_add_right _ _) hsize
  simp only [parseTrustedSourceSignal, positive, hscope, hpayload, and_eq_true,
    decide_eq_true_eq, true_and, and_true]
  exact ⟨⟨⟨hlow, hhigh⟩, hsequence, hbudget⟩, hlength⟩

variable {t : SourceTransport}

theorem sendSignal_cases (t : SourceTransport) (payload : SignalPayload) :
    (∃ e, t.sendSignal payload = ({ t with outSequence := t.outSequence + 1 }, .error e)
      ∧ (129 ≤ t.outSequence ∨ 31 * 1024 < (⟨1, .packager, t.scope, t.negotiation,
        t.outSequence + 1, payload⟩ : SourceSignal).marshalLength))
    ∨ (t.sendSignal payload = ({ t with outSequence := t.outSequence + 1 },
        .ok ⟨1, .packager, t.scope, t.negotiation, t.outSequence + 1, payload⟩)
      ∧ t.outSequence < 129 ∧ (⟨1, .packager, t.scope, t.negotiation, t.outSequence + 1,
        payload⟩ : SourceSignal).marshalLength ≤ 31 * 1024) := by
  unfold sendSignal
  simp only
  split
  · next hbudget => exact .inl ⟨_, rfl, .inl (by omega)⟩
  · next hbudget =>
      split
      · next hsize => exact .inl ⟨_, rfl, .inr hsize⟩
      · next hsize => exact .inr ⟨rfl, by omega, by omega⟩

/-- The message that goes out. -/
def sentBy : Except SignalError SourceSignal → List SourceSignal
  | .ok m => [m]
  | .error _ => []

/-- The candidate is sent, or the budget of the negotiation is used up. -/
theorem sendSignal_sent {candidate : Option IceCandidate} (hscope : scopeOK t.scope = true)
    (hlow : 0 < t.negotiation) (hhigh : t.negotiation ≤ 16)
    (hfits : PayloadFits t.scope (.candidate candidate)) :
    ∃ result, t.sendSignal (.candidate candidate)
        = ({ t with outSequence := t.outSequence + 1 }, result)
      ∧ Sent t { t with outSequence := t.outSequence + 1 } (sentBy result) := by
  rcases t.sendSignal_cases (.candidate candidate) with ⟨e, hsend, hfull⟩ | ⟨hsend, hroom, hsize⟩
  · refine ⟨.error e, hsend, rfl, rfl, rfl, rfl, rfl, rfl, trivial, ?_, ?_⟩
    · have hbudget : 129 ≤ t.outSequence := by
        rcases hfull with hfull | hlarge
        · exact hfull
        · by_contra hroom
          have hsize := hfits.size t.negotiation (t.outSequence + 1) hhigh (by omega)
          omega
      simp only [sentBy, length_nil]
      omega
    · intro m hm
      exact absurd hm not_mem_nil
  · refine ⟨.ok _, hsend, rfl, rfl, rfl, rfl, rfl, rfl, ⟨rfl, rfl, ?_, trivial⟩, ?_, ?_⟩
    · simp only
      omega
    · simp only [sentBy, length_singleton]
      omega
    · intro m hm
      obtain rfl := mem_singleton.mp hm
      exact ⟨parse_ok hscope hlow hhigh (by omega) (by omega) hfits.wellFormed hsize, rfl⟩

theorem sendPending_sent : ∀ {l : List IceCandidate} {t : SourceTransport},
    scopeOK t.scope = true → 0 < t.negotiation → t.negotiation ≤ 16 →
      (∀ c ∈ l, PayloadFits t.scope (.candidate (some c))) →
      Sent t (sendPending l t).1 (sendPending l t).2.1 ∧ (sendPending l t).1.pending = t.pending
        ∧ (sendPending l t).1.endPending = t.endPending
  | [], t, _, _, _, _ => by
      refine ⟨⟨rfl, rfl, rfl, rfl, rfl, rfl, trivial, rfl, fun m hm => ?_⟩, rfl, rfl⟩
      exact absurd hm not_mem_nil
  | c :: cs, t, hscope, hlow, hhigh, hfits => by
      obtain ⟨result, hsend, hsent⟩ := sendSignal_sent hscope hlow hhigh (hfits c mem_cons_self)
      simp only [sendPending, hsend]
      cases result with
      | error e => exact ⟨hsent, rfl, rfl⟩
      | ok m =>
          have hrest := sendPending_sent (l := cs) (t := { t with outSequence := t.outSequence + 1 })
            hscope hlow hhigh fun c' hc' => hfits c' (mem_cons_of_mem c hc')
          exact ⟨hsent.trans hrest.1, hrest.2⟩

theorem sendEnd_sent (hscope : scopeOK t.scope = true) (hlow : 0 < t.negotiation)
    (hhigh : t.negotiation ≤ 16)
    (hfits : t.endPending = true → PayloadFits t.scope (.candidate none)) :
    Sent t t.sendEnd.1 t.sendEnd.2.1 ∧ t.sendEnd.1.pending = [] ∧ t.sendEnd.1.endPending = false := by
  unfold sendEnd
  split
  · next hend =>
      obtain ⟨result, hsend, hsent⟩ :=
        sendSignal_sent (t := { t with pending := [], endPending := false }) hscope hlow hhigh
          (hfits hend)
      rw [hsend]
      have hsent' : ∀ t', t' = { t with
          pending := []
          endPending := false
          outSequence := t.outSequence + 1 } → Sent t t' (sentBy result) := by
        rintro t' rfl
        exact ⟨rfl, rfl, rfl, rfl, rfl, rfl, hsent.trickle, hsent.count, hsent.parsed⟩
      cases result with
      | error e => exact ⟨hsent' _ rfl, rfl, rfl⟩
      | ok m => exact ⟨hsent' _ rfl, rfl, rfl⟩
  · next hend =>
      refine ⟨⟨rfl, rfl, rfl, rfl, rfl, rfl, trivial, rfl, fun m hm => ?_⟩, rfl,
        not_eq_true _ ▸ hend⟩
      exact absurd hm not_mem_nil

/-- The transport but for what it sent and closing. -/
structure Unmoved (t t' : SourceTransport) : Prop where
  scope : t'.scope = t.scope
  publisherPeerId : t'.publisherPeerId = t.publisherPeerId
  negotiation : t'.negotiation = t.negotiation
  inSequence : t'.inSequence = t.inSequence
  opened : t'.closed = false → t.closed = false
  pending : ∀ c ∈ t'.pending, c ∈ t.pending
  endPending : t'.endPending = true → t.endPending = true

/-- The answer is the first message of its negotiation, and the candidates
that were waiting follow it. -/
structure Answers (t t' : SourceTransport) (ms : List SourceSignal) : Prop where
  unmoved : Unmoved t t'
  parsed : ∀ m ∈ ms, parseTrustedSourceSignal m .packager = true ∧ m.scope = t.scope
  sent : ∃ d tail, ms = d :: tail ∧ d.payload.isDescription = true
    ∧ d.negotiationRevision = t.negotiation ∧ d.sequence = 1 ∧ Trickle t.negotiation 1 tail
    ∧ 1 + tail.length = min t'.outSequence 129 ∧ t'.answerSent = true

/-- `handle` has failed without an answer. -/
structure Silent (t t' : SourceTransport) (ms : List SourceSignal) : Prop where
  unmoved : Unmoved t t'
  sent : ms = []
  unanswered : t'.answerSent = t.answerSent

theorem Unmoved.of_sent {t t' : SourceTransport} {ms : List SourceSignal} (h : Sent t t' ms)
    (hpending : ∀ c ∈ t'.pending, c ∈ t.pending)
    (hend : t'.endPending = true → t.endPending = true) : Unmoved t t' :=
  ⟨h.scope, h.publisherPeerId, h.negotiation, h.inSequence, fun hopen => h.closed ▸ hopen,
    hpending, hend⟩

theorem Answers.of_sent {t t' : SourceTransport} {d : SourceSignal} {ms : List SourceSignal}
    (hsent : Sent { t with outSequence := 1, answerSent := true } t' ms)
    (hpending : ∀ c ∈ t'.pending, c ∈ t.pending)
    (hend : t'.endPending = true → t.endPending = true)
    (hparsed : parseTrustedSourceSignal d .packager = true ∧ d.scope = t.scope)
    (hdescription : d.payload.isDescription = true) (hrevision : d.negotiationRevision = t.negotiation)
    (hsequence : d.sequence = 1) : Answers t t' (d :: ms) where
  unmoved := ⟨hsent.scope, hsent.publisherPeerId, hsent.negotiation, hsent.inSequence,
    fun hopen => hsent.closed ▸ hopen, hpending, hend⟩
  parsed := by
    intro m hm
    rcases mem_cons.mp hm with rfl | hm
    · exact hparsed
    · exact hsent.parsed m hm
  sent := ⟨d, ms, rfl, hdescription, hrevision, hsequence, hsent.trickle, hsent.count.symm,
    hsent.answerSent⟩

theorem sendAnswer_cases {answer : Except SignalError String} (hscope : scopeOK t.scope = true)
    (hlow : 0 < t.negotiation) (hhigh : t.negotiation ≤ 16) (hout : t.outSequence = 0)
    (hwaiting : ∀ c ∈ t.pending, PayloadFits t.scope (.candidate (some c)))
    (hending : t.endPending = true → PayloadFits t.scope (.candidate none))
    (hanswer : ∀ sdp, answer = .ok sdp → sdp ≠ "") :
    ∃ t' ms result, t.sendAnswer answer = (t', ms, result)
      ∧ (Answers t t' ms ∨ (Silent t t' ms ∧ ∃ e, result = .error e)) := by
  have hsilent : ∀ out, Silent t { t with outSequence := out } [] := fun out =>
    ⟨⟨rfl, rfl, rfl, rfl, fun h => h, fun c hc => hc, fun h => h⟩, rfl, rfl⟩
  unfold sendAnswer
  cases answer with
  | error e => exact ⟨t, [], .error e, rfl, .inr ⟨hsilent t.outSequence, e, rfl⟩⟩
  | ok sdp =>
      dsimp only
      by_cases hlong : (utf8 sdp).length > 16384
      · rw [if_pos hlong]
        exact ⟨_, _, _, rfl, .inr ⟨hsilent t.outSequence, _, rfl⟩⟩
      rw [if_neg hlong]
      rcases t.sendSignal_cases (.description ⟨"answer", sdp⟩) with ⟨e, hsend, -⟩ | ⟨hsend, -, hsize⟩
      · rw [hsend]
        exact ⟨_, _, _, rfl, .inr ⟨hsilent _, _, rfl⟩⟩
      rw [hsend, hout]
      rw [hout] at hsize
      have hpayload : payloadOK .packager (.description ⟨"answer", sdp⟩) = true := by
        simp only [payloadOK, descriptionOK, SignalType.descriptionType, decide_true,
          true_and, and_eq_true, decide_eq_true_eq]
        exact ⟨hanswer sdp rfl, by omega⟩
      have hparsed := parse_ok hscope hlow hhigh one_pos (by decide) hpayload hsize
      -- the description is out, and the candidates that waited follow it
      obtain ⟨hsent, hpending, hend⟩ := sendPending_sent (l := t.pending)
        (t := { t with outSequence := 1, answerSent := true }) hscope hlow hhigh hwaiting
      dsimp only [zero_add]
      rcases hresult : sendPending t.pending { t with outSequence := 1, answerSent := true } with
        ⟨t₁, ms, e | _⟩
      · rw [hresult] at hsent hpending hend
        exact ⟨_, _, _, rfl, .inl (.of_sent hsent (fun c hc => hpending ▸ hc)
          (fun h => hend ▸ h) ⟨hparsed, rfl⟩ rfl rfl rfl)⟩
      · rw [hresult] at hsent hpending hend
        have hlast := sendEnd_sent (t := t₁) (hsent.scope ▸ hscope) (hsent.negotiation ▸ hlow)
          (hsent.negotiation ▸ hhigh) (fun h => hsent.scope ▸ hending (hend ▸ h))
        obtain ⟨hlast, hcleared, hended⟩ := hlast
        refine ⟨_, _, _, rfl, .inl (.of_sent (hsent.trans hlast) (fun c hc => ?_) (fun h => ?_)
          ⟨hparsed, rfl⟩ rfl rfl rfl)⟩
        · rw [hcleared] at hc
          exact absurd hc not_mem_nil
        · rw [hended] at h
          cases h

/-- `handle` sends the answer and the candidates that waited, or fails. -/
theorem answered_cases {answer : Except SignalError String} (hscope : scopeOK t.scope = true)
    (hlow : 0 < t.negotiation) (hhigh : t.negotiation ≤ 16) (hout : t.outSequence = 0)
    (hwaiting : ∀ c ∈ t.pending, PayloadFits t.scope (.candidate (some c)))
    (hending : t.endPending = true → PayloadFits t.scope (.candidate none))
    (hanswer : ∀ sdp, answer = .ok sdp → sdp ≠ "") :
    (t.answered answer).1.answering = false ∧ (Answers t (t.answered answer).1 (t.answered answer).2
        ∨ (Silent t (t.answered answer).1 (t.answered answer).2
          ∧ (t.answered answer).1.closed = true)) := by
  obtain ⟨t', ms, result, heq, hcases⟩ :=
    sendAnswer_cases hscope hlow hhigh hout hwaiting hending hanswer
  unfold answered
  rw [heq]
  rcases hcases with ⟨hunmoved, hparsed, hsent⟩ | ⟨⟨hunmoved, hsent, hunanswered⟩, e, rfl⟩
  · obtain ⟨hs, hp, hn, hi, ho, hc, he⟩ := hunmoved
    cases result with
    | error e =>
        have hclosed : true = false → t.closed = false := fun h => absurd h (by decide)
        exact ⟨rfl, .inl ⟨⟨hs, hp, hn, hi, hclosed, hc, he⟩, hparsed, hsent⟩⟩
    | ok u => exact ⟨rfl, .inl ⟨⟨hs, hp, hn, hi, ho, hc, he⟩, hparsed, hsent⟩⟩
  · obtain ⟨hs, hp, hn, hi, ho, hc, he⟩ := hunmoved
    have hclosed : true = false → t.closed = false := fun h => absurd h (by decide)
    exact ⟨rfl, .inr ⟨⟨⟨hs, hp, hn, hi, hclosed, hc, he⟩, hsent, hunanswered⟩, rfl⟩⟩

end SourceTransport

/-! ## What the transport takes -/

namespace SourceTransport

variable {sourceOfferTrack : String → Option String} {t : SourceTransport} {m : SourcePeerSignal}
  {alive added : Bool}

/-- The transport takes the next candidate or the next offer, or closes. -/
theorem dispatch_cases (sourceOfferTrack : String → Option String) (t : SourceTransport)
    (m : SourcePeerSignal) (alive added : Bool) :
    (∃ inSequence, t.dispatch sourceOfferTrack m alive added
      = { t with inSequence := inSequence, closed := true })
    ∨ (t.closed = false ∧ m.payload.isDescription = false
      ∧ t.dispatch sourceOfferTrack m alive added = { t with inSequence := t.inSequence + 1 })
    ∨ (t.closed = false ∧ m.payload.isDescription = true ∧ m.negotiationRevision = t.negotiation + 1
      ∧ ∃ trackID, t.dispatch sourceOfferTrack m alive added = { t with
          negotiation := m.negotiationRevision
          inSequence := 1
          outSequence := 0
          answerSent := false
          pending := []
          endPending := false
          trackID := trackID
          answering := true }) := by
  unfold dispatch handle
  by_cases hstale : t.closed = true ∨ alive = false ∨ m.scope ≠ t.scope
      ∨ m.publisherPeerId ≠ t.publisherPeerId
  · rw [if_pos hstale]
    exact .inl ⟨t.inSequence, rfl⟩
  rw [if_neg hstale]
  have hopen : t.closed = false := eq_false_of_not_eq_true fun h => hstale (.inl h)
  cases hpayload : m.payload with
  | candidate c =>
      by_cases hnext : m.negotiationRevision = t.negotiation ∧ m.sequence = t.inSequence + 1
          ∧ t.answerSent = true
      · rw [if_pos hnext]
        cases added with
        | true =>
            refine .inr (.inl ⟨hopen, rfl, ?_⟩)
            rw [if_pos rfl, hnext.2.1]
        | false => exact .inl ⟨m.sequence, rfl⟩
      · rw [if_neg hnext]
        exact .inl ⟨t.inSequence, rfl⟩
  | description d =>
      dsimp only
      cases sourceOfferTrack d.sdp with
      | none => exact .inl ⟨t.inSequence, rfl⟩
      | some trackID =>
          dsimp only
          by_cases htrack : t.trackID.any (· ≠ trackID) = true
          · rw [if_pos htrack]
            exact .inl ⟨t.inSequence, rfl⟩
          rw [if_neg htrack]
          by_cases hnext : m.negotiationRevision ≠ t.negotiation + 1 ∨ m.sequence ≠ 1
              ∨ (t.negotiation > 0 ∧ t.answerSent = false)
          · rw [if_pos hnext]
            exact .inl ⟨t.inSequence, rfl⟩
          · rw [if_neg hnext]
            rw [not_or, ne_eq, not_not] at hnext
            exact .inr (.inr ⟨hopen, rfl, hnext.1, _, rfl⟩)

/-- The message is the next candidate, or the next offer. -/
def InTurn (t : SourceTransport) (m : SourceSignal) : Prop :=
  (m.payload.isDescription = false ∧ m.negotiationRevision = t.negotiation
    ∧ m.sequence = t.inSequence + 1 ∧ t.answerSent = true)
  ∨ (m.payload.isDescription = true ∧ m.negotiationRevision = t.negotiation + 1 ∧ m.sequence = 1
    ∧ (0 < t.negotiation → t.answerSent = true))

theorem handle_next (hnext : t.closed = false → InTurn t m.toSourceSignal) :
    (t.handle sourceOfferTrack m alive added).2 ≠ .error .sourceCandidateSequence
      ∧ (t.handle sourceOfferTrack m alive added).2 ≠ .error .sourceOfferSequence := by
  have hne : ∀ {e : SignalError}, e ≠ .sourceCandidateSequence → e ≠ .sourceOfferSequence →
      (.error e : Except SignalError Unit) ≠ .error .sourceCandidateSequence
        ∧ (.error e : Except SignalError Unit) ≠ .error .sourceOfferSequence := by
    intro e h h'
    exact ⟨fun heq => h (Except.error.inj heq), fun heq => h' (Except.error.inj heq)⟩
  have hok : (.ok () : Except SignalError Unit) ≠ .error .sourceCandidateSequence
      ∧ (.ok () : Except SignalError Unit) ≠ .error .sourceOfferSequence :=
    ⟨(by intro heq; cases heq), (by intro heq; cases heq)⟩
  unfold handle
  by_cases hstale : t.closed = true ∨ alive = false ∨ m.scope ≠ t.scope
      ∨ m.publisherPeerId ≠ t.publisherPeerId
  · rw [if_pos hstale]
    exact hne (by decide) (by decide)
  rw [if_neg hstale]
  have hturn := hnext (eq_false_of_not_eq_true fun h => hstale (.inl h))
  unfold InTurn at hturn
  cases hpayload : m.payload with
  | candidate c =>
      rw [hpayload] at hturn
      rcases hturn with ⟨-, hcandidate⟩ | ⟨h, -⟩
      · rw [if_pos hcandidate]
        cases added with
        | true => exact hok
        | false => exact hne (by decide) (by decide)
      · cases h
  | description d =>
      rw [hpayload] at hturn
      rcases hturn with ⟨h, -⟩ | ⟨-, hrevision, hsequence, hanswered⟩
      · cases h
      dsimp only
      cases sourceOfferTrack d.sdp with
      | none => exact hne (by decide) (by decide)
      | some trackID =>
          dsimp only
          by_cases htrack : t.trackID.any (· ≠ trackID) = true
          · rw [if_pos htrack]
            exact hne (by decide) (by decide)
          · rw [if_neg htrack, if_neg ?_]
            · exact hok
            · rintro (h | h | ⟨hpos, h⟩)
              · exact h hrevision
              · exact h hsequence
              · rw [hanswered hpos] at h
                cases h

end SourceTransport

/-! ## Where the two stand -/

namespace Signalling

open SourceTransport

/-- The agent's messages of the broker's revision, on their way. -/
inductive Current (n : TrustedSourceNegotiation) (t : SourceTransport) : List SourceSignal → Prop
  | unanswered (hsent : t.answerSent = false) (hanswered : n.answered = false)
      (hnext : n.packagerSequence = 0) : Current n t []
  | answer {d : SourceSignal} {ms : List SourceSignal} (hsent : t.answerSent = true)
      (hanswered : n.answered = false) (hnext : n.packagerSequence = 0)
      (hdescription : d.payload.isDescription = true)
      (hrevision : d.negotiationRevision = n.revision) (hsequence : d.sequence = 1)
      (htrickle : Trickle n.revision 1 ms) (hcount : 1 + ms.length = min t.outSequence 129) :
      Current n t (d :: ms)
  | answered {ms : List SourceSignal} (hsent : t.answerSent = true) (hanswered : n.answered = true)
      (htrickle : Trickle n.revision n.packagerSequence ms)
      (hcount : n.packagerSequence + ms.length = min t.outSequence 129) : Current n t ms

/-- The transport has the broker's revision. -/
structure Level (n : TrustedSourceNegotiation) (t : SourceTransport)
    (toAgent toBroker : List SourceSignal) : Prop where
  revision : n.revision = t.negotiation
  toAgent : t.closed = false → Trickle n.revision t.inSequence toAgent
    ∧ n.publisherSequence = t.inSequence + toAgent.length
  toBroker : ∃ stale current, toBroker = stale ++ current ∧ Stale n.revision stale
    ∧ Current n t current

/-- The broker has accepted an offer that the transport has not seen. -/
structure Ahead (n : TrustedSourceNegotiation) (t : SourceTransport)
    (toAgent toBroker : List SourceSignal) : Prop where
  revision : n.revision = t.negotiation + 1
  idle : t.answering = false
  answered : n.answered = false
  packagerSequence : n.packagerSequence = 0
  toAgent : t.closed = false → ∃ old offer fresh, toAgent = old ++ offer :: fresh
    ∧ Trickle t.negotiation t.inSequence old ∧ offer.payload.isDescription = true
    ∧ offer.negotiationRevision = n.revision ∧ offer.sequence = 1
    ∧ Trickle n.revision 1 fresh ∧ n.publisherSequence = 1 + fresh.length
  toBroker : Stale n.revision toBroker

structure Agreed (s : Signalling) : Prop where
  scope : s.record.scope = s.transport.scope
  peer : s.record.publisherPeerId = s.transport.publisherPeerId
  validScope : scopeOK s.transport.scope = true
  bounded : s.record.negotiation.revision ≤ 16
  waiting : ∀ c ∈ s.transport.pending, PayloadFits s.transport.scope (.candidate (some c))
  ending : s.transport.endPending = true → PayloadFits s.transport.scope (.candidate none)
  parsed : ∀ m ∈ s.toBroker, parseTrustedSourceSignal m .packager = true
    ∧ m.scope = s.transport.scope
  forwarded : ∀ m ∈ s.toAgent, m.scope = s.transport.scope
    ∧ m.publisherPeerId = s.transport.publisherPeerId ∧ 0 < m.negotiationRevision
  answering : s.transport.answering = true → s.transport.answerSent = false
    ∧ s.transport.outSequence = 0 ∧ 0 < s.transport.negotiation
  sent : s.transport.answerSent = true → 0 < s.transport.negotiation
  settled : s.transport.closed = false → s.transport.answering = false →
    0 < s.transport.negotiation → s.transport.answerSent = true
  phase : Level s.record.negotiation s.transport (s.toAgent.map (·.toSourceSignal)) s.toBroker
    ∨ Ahead s.record.negotiation s.transport (s.toAgent.map (·.toSourceSignal)) s.toBroker

theorem newSignalling_agreed {scope : SignalScope} {publisherPeerId : String}
    (hscope : scopeOK scope = true) : Agreed (newSignalling scope publisherPeerId) where
  scope := rfl
  peer := rfl
  validScope := hscope
  bounded := zero_le _
  waiting := fun c hc => absurd hc not_mem_nil
  ending := fun h => by cases h
  parsed := fun m hm => absurd hm not_mem_nil
  forwarded := fun m hm => absurd hm not_mem_nil
  answering := fun h => by cases h
  sent := fun h => by cases h
  settled := fun _ _ h => absurd h (lt_irrefl 0)
  phase := .inl
    { revision := rfl
      toAgent := fun _ => ⟨trivial, rfl⟩
      toBroker := ⟨[], [], rfl, fun m hm => absurd hm not_mem_nil, .unanswered rfl rfl rfl⟩ }

/-! ## One step -/

section Steps

variable {s : Signalling} {n : TrustedSourceNegotiation} {t t' : SourceTransport}
  {toAgent toBroker : List SourceSignal}

theorem current_moved {current : List SourceSignal} (h : Current n t current)
    {n' : TrustedSourceNegotiation} (hrevision : n'.revision = n.revision)
    (hpackager : n'.packagerSequence = n.packagerSequence) (hanswered' : n'.answered = n.answered)
    (hsent' : t'.answerSent = t.answerSent) (hout : t'.outSequence = t.outSequence) :
    Current n' t' current := by
  cases h with
  | unanswered hsent hanswered hnext =>
      exact .unanswered (hsent'.trans hsent) (hanswered'.trans hanswered) (hpackager.trans hnext)
  | answer hsent hanswered hnext hd hr hq htrickle hcount =>
      exact .answer (hsent'.trans hsent) (hanswered'.trans hanswered) (hpackager.trans hnext) hd
        (hr.trans hrevision.symm) hq (hrevision ▸ htrickle) (hout ▸ hcount)
  | answered hsent hanswered htrickle hcount =>
      refine .answered (hsent'.trans hsent) (hanswered'.trans hanswered) ?_ ?_
      · rw [hrevision, hpackager]
        exact htrickle
      · rw [hpackager, hout]
        exact hcount

/-- A transport that has only closed, or has counted a candidate it could
not use. -/
theorem Agreed.closed (h : Agreed s) (inSequence : Nat) (rest : List SourcePeerSignal)
    (hrest : ∀ m ∈ rest, m ∈ s.toAgent) :
    Agreed { s with
      transport := { s.transport with inSequence := inSequence, closed := true }
      toAgent := rest } where
  __ := h
  forwarded := fun m hm => h.forwarded m (hrest m hm)
  settled := fun hopen => by cases hopen
  phase := by
    rcases h.phase with hlevel | hahead
    · obtain ⟨stale, current, hto, hstale, hcurrent⟩ := hlevel.toBroker
      refine .inl ⟨hlevel.revision, fun hopen => (by cases hopen), stale, current, hto,
        hstale, current_moved hcurrent rfl rfl rfl rfl rfl⟩
    · exact .inr ⟨hahead.revision, hahead.idle, hahead.answered, hahead.packagerSequence,
        fun hopen => (by cases hopen), hahead.toBroker⟩

theorem phase_counted {n' : TrustedSourceNegotiation}
    (hat : n'.At n.revision n.publisherSequence n.packagerSequence n.answered)
    (h : Level n t toAgent toBroker ∨ Ahead n t toAgent toBroker) :
    Level n' t toAgent toBroker ∨ Ahead n' t toAgent toBroker := by
  obtain ⟨hrevision, hpublisher, hpackager, hanswered⟩ := hat
  rcases h with hlevel | hahead
  · obtain ⟨stale, current, hto, hstale, hcurrent⟩ := hlevel.toBroker
    refine .inl ⟨hrevision.trans hlevel.revision, fun hopen => ?_, stale, current, hto, ?_, ?_⟩
    · rw [hrevision, hpublisher]
      exact hlevel.toAgent hopen
    · rw [hrevision]
      exact hstale
    · exact current_moved hcurrent hrevision hpackager hanswered rfl rfl
  · refine .inr ⟨hrevision.trans hahead.revision, hahead.idle, hanswered.trans hahead.answered,
      hpackager.trans hahead.packagerSequence, fun hopen => ?_, ?_⟩
    · rw [hrevision, hpublisher]
      exact hahead.toAgent hopen
    · rw [hrevision]
      exact hahead.toBroker

/-- An offer is accepted when the transport has the broker's revision and
its answer, and what the transport sent before is superseded. -/
theorem phase_offer {n' : TrustedSourceNegotiation} {m : SourceSignal}
    (hsent : t.answerSent = true → 0 < t.negotiation)
    (hanswering : t.answering = true → t.answerSent = false ∧ 0 < t.negotiation)
    (hdescription : m.payload.isDescription = true)
    (hrevision : m.negotiationRevision = n.revision + 1) (hsequence : m.sequence = 1)
    (hready : n.revision = 0 ∨ n.answered = true)
    (hat : n'.At m.negotiationRevision 1 0 false)
    (h : Level n t toAgent toBroker ∨ Ahead n t toAgent toBroker) :
    Ahead n' t (toAgent ++ [m]) toBroker := by
  rcases h with hlevel | hahead
  · obtain ⟨stale, current, rfl, hstale, hcurrent⟩ := hlevel.toBroker
    have hcandidates : Stale (n.revision + 1) current := by
      cases hcurrent with
      | unanswered => exact fun _ hm => absurd hm not_mem_nil
      | answer hsent' hanswered =>
          rcases hready with hzero | hready
          · have hpos := hsent hsent'
            rw [← hlevel.revision, hzero] at hpos
            exact absurd hpos (lt_irrefl 0)
          · rw [hanswered] at hready
            cases hready
      | answered _ _ htrickle => exact htrickle.stale (lt_succ_self _)
    have hidle : t.answering = false := by
      cases ha : t.answering with
      | false => rfl
      | true =>
          obtain ⟨hunsent, hpos⟩ := hanswering ha
          rw [← hlevel.revision] at hpos
          cases hcurrent with
          | unanswered _ hanswered =>
              rcases hready with hzero | hready
              · rw [hzero] at hpos
                exact absurd hpos (lt_irrefl 0)
              · rw [hanswered] at hready
                cases hready
          | answer hsent' =>
              rw [hunsent] at hsent'
              cases hsent'
          | answered hsent' =>
              rw [hunsent] at hsent'
              cases hsent'
    refine ⟨?_, hidle, hat.answered, hat.packagerSequence, fun hopen => ?_, ?_⟩
    · rw [hat.revision, hrevision, hlevel.revision]
    · have htrickle := (hlevel.toAgent hopen).1
      rw [hlevel.revision] at htrickle
      exact ⟨toAgent, m, [], rfl, htrickle, hdescription, hat.revision.symm, hsequence, trivial,
        hat.publisherSequence⟩
    · rw [hat.revision, hrevision]
      exact (hstale.later (le_succ _)).append hcandidates
  · rcases hready with hzero | hready
    · rw [hahead.revision] at hzero
      cases hzero
    · rw [hahead.answered] at hready
      cases hready

theorem phase_candidate {n' : TrustedSourceNegotiation} {m : SourceSignal}
    (hcandidate : m.payload.isDescription = false)
    (hrevision : m.negotiationRevision = n.revision) (hsequence : m.sequence = n.publisherSequence + 1)
    (hat : n'.At n.revision m.sequence n.packagerSequence n.answered)
    (h : Level n t toAgent toBroker ∨ Ahead n t toAgent toBroker) :
    Level n' t (toAgent ++ [m]) toBroker ∨ Ahead n' t (toAgent ++ [m]) toBroker := by
  rcases h with hlevel | hahead
  · obtain ⟨stale, current, hto, hstale, hcurrent⟩ := hlevel.toBroker
    refine .inl ⟨hat.revision.trans hlevel.revision, fun hopen => ?_, stale, current, hto, ?_,
      current_moved hcurrent hat.revision hat.packagerSequence hat.answered rfl rfl⟩
    · obtain ⟨htrickle, hcount⟩ := hlevel.toAgent hopen
      rw [hat.revision, hat.publisherSequence, hsequence, hcount]
      refine ⟨htrickle.append ⟨hcandidate, hrevision, hsequence.trans (by rw [hcount]), trivial⟩, ?_⟩
      rw [length_append, length_singleton, add_assoc]
    · rw [hat.revision]
      exact hstale
  · refine .inr ⟨hat.revision.trans hahead.revision, hahead.idle, hat.answered.trans hahead.answered,
      hat.packagerSequence.trans hahead.packagerSequence, fun hopen => ?_, ?_⟩
    · obtain ⟨old, offer, fresh, rfl, hold, hdescription, hoffer, hfirst, htrickle, hcount⟩ :=
        hahead.toAgent hopen
      refine ⟨old, offer, fresh ++ [m], by simp, hold, hdescription, hoffer.trans hat.revision.symm,
        hfirst, ?_, ?_⟩
      · rw [hat.revision]
        exact htrickle.append ⟨hcandidate, hrevision, hsequence.trans (by rw [hcount]), trivial⟩
      · rw [hat.publisherSequence, hsequence, hcount, length_append, length_singleton,
          add_assoc]
    · rw [hat.revision]
      exact hahead.toBroker

/-! ### The events -/

theorem signal_cases (r : SourceRecord) (type : SignalType) (m : SourceSignal) (now : Nat) :
    r.signal type m now = (r, false)
    ∨ (parseTrustedSourceSignal m type = true ∧ m.scope = r.scope
      ∧ r.signal type m now = ({ r with negotiation := (r.negotiation.accept m now).1 },
        (r.negotiation.accept m now).2)) := by
  unfold SourceRecord.signal
  split
  · exact .inl rfl
  · next hok =>
      simp only [not_or, not_eq_false, ne_eq, not_not] at hok
      exact .inr ⟨hok.1, hok.2, rfl⟩

theorem parse_type {m : SourceSignal} {type : SignalType}
    (h : parseTrustedSourceSignal m type = true) : m.type = type := by
  simp only [parseTrustedSourceSignal, and_eq_true, decide_eq_true_eq] at h
  exact h.1.1.1.1.1.2

theorem parse_revision {m : SourceSignal} {type : SignalType}
    (h : parseTrustedSourceSignal m type = true) :
    0 < m.negotiationRevision ∧ m.negotiationRevision ≤ 16 := by
  simp only [parseTrustedSourceSignal, positive, and_eq_true, decide_eq_true_eq] at h
  exact h.1.1.1.2

section

variable (h : Agreed s)

include h

/-- A state in which only the broker's negotiation and the messages for the
transport may differ. -/
theorem Agreed.published {n' : TrustedSourceNegotiation}
    {toAgent' : List SourcePeerSignal} (hbounded : n'.revision ≤ 16)
    (hforwarded : ∀ m ∈ toAgent', m.scope = s.transport.scope
      ∧ m.publisherPeerId = s.transport.publisherPeerId ∧ 0 < m.negotiationRevision)
    (hphase : Level n' s.transport (toAgent'.map (·.toSourceSignal)) s.toBroker
      ∨ Ahead n' s.transport (toAgent'.map (·.toSourceSignal)) s.toBroker) :
    Agreed { s with record := { s.record with negotiation := n' }, toAgent := toAgent' } where
  __ := h
  bounded := hbounded
  forwarded := hforwarded
  phase := hphase

theorem Agreed.publish (m : SourceSignal) (now : Nat) : Agreed { s with
      record := (s.record.signal .publisher m now).1
      toAgent := if (s.record.signal .publisher m now).2
        then s.toAgent ++ [(s.record.signal .publisher m now).1.forwarded m] else s.toAgent } := by
  rcases signal_cases s.record .publisher m now with heq | ⟨hparse, hscope, heq⟩
  · rw [heq]
    exact h
  rw [heq]
  -- what the broker forwards has the scope and the peer that the transport checks
  have hforwarded : ∀ n', ∀ m' ∈ s.toAgent ++
      [SourceRecord.forwarded ⟨s.record.scope, s.record.publisherPeerId, n'⟩ m],
      m'.scope = s.transport.scope ∧ m'.publisherPeerId = s.transport.publisherPeerId
        ∧ 0 < m'.negotiationRevision := by
    intro n' m' hm'
    rcases mem_append.mp hm' with hm' | hm'
    · exact h.forwarded m' hm'
    · obtain rfl := mem_singleton.mp hm'
      exact ⟨hscope.trans h.scope, h.peer, (parse_revision hparse).1⟩
  have hmap : ∀ n', (s.toAgent ++ [SourceRecord.forwarded ⟨s.record.scope, s.record.publisherPeerId, n'⟩ m]).map
      (·.toSourceSignal) = s.toAgent.map (·.toSourceSignal) ++ [{ m with type := .peer }] := by
    intro n'
    rw [map_append]
    rfl
  rcases s.record.negotiation.accept_cases m now with ⟨hrefused, hat⟩ |
      ⟨hok, -, hdescription, hrevision, hsequence, hready, hat⟩ |
      ⟨hok, -, hcandidate, -, hrevision, hsequence, hat⟩ | ⟨-, htype, -⟩
  · rw [hrefused]
    exact h.published (hat.revision ▸ h.bounded) h.forwarded (phase_counted hat h.phase)
  · rw [hok]
    refine h.published (hat.revision ▸ (parse_revision hparse).2) (hforwarded _) (.inr ?_)
    rw [if_pos rfl]
    rw [hmap]
    exact phase_offer (m := { m with type := .peer }) h.sent
      (fun ha => ⟨(h.answering ha).1, (h.answering ha).2.2⟩) hdescription hrevision hsequence hready
      hat h.phase
  · rw [hok]
    refine h.published (hat.revision ▸ h.bounded) (hforwarded _) ?_
    rw [if_pos rfl]
    rw [hmap]
    exact phase_candidate (m := { m with type := .peer }) hcandidate hrevision hsequence hat h.phase
  · exact absurd (parse_type hparse) htype

theorem Agreed.inTurn {m : SourcePeerSignal} {rest : List SourcePeerSignal}
    (hto : s.toAgent = m :: rest) (hidle : s.transport.answering = false)
    (hopen : s.transport.closed = false) : InTurn s.transport m.toSourceSignal := by
  have hpos := (h.forwarded m (by rw [hto]; exact mem_cons_self)).2.2
  rcases h.phase with hlevel | hahead
  · obtain ⟨htrickle, -⟩ := hlevel.toAgent hopen
    rw [hto, map_cons] at htrickle
    obtain ⟨hcandidate, hrevision, hsequence, -⟩ := htrickle
    refine .inl ⟨hcandidate, hrevision.trans hlevel.revision, hsequence, h.settled hopen hidle ?_⟩
    exact (hrevision.trans hlevel.revision) ▸ hpos
  · obtain ⟨old, offer, fresh, hmap, hold, hdescription, hoffer, hfirst, -, -⟩ := hahead.toAgent hopen
    rw [hto, map_cons] at hmap
    cases old with
    | nil =>
        obtain ⟨rfl, -⟩ := cons.inj hmap
        exact .inr ⟨hdescription, hoffer.trans hahead.revision, hfirst, h.settled hopen hidle⟩
    | cons m' old =>
        obtain ⟨rfl, -⟩ := cons.inj hmap
        obtain ⟨hcandidate, hrevision, hsequence, -⟩ := hold
        exact .inl ⟨hcandidate, hrevision, hsequence, h.settled hopen hidle (hrevision ▸ hpos)⟩

theorem Agreed.takeCandidate {m : SourcePeerSignal} {rest : List SourcePeerSignal}
    (hto : s.toAgent = m :: rest) (hopen : s.transport.closed = false)
    (hcandidate : m.payload.isDescription = false) :
    Agreed { s with
      transport := { s.transport with inSequence := s.transport.inSequence + 1 }
      toAgent := rest } where
  __ := h
  forwarded := fun m' hm' => h.forwarded m' (by rw [hto]; exact mem_cons_of_mem m hm')
  phase := by
    rcases h.phase with hlevel | hahead
    · obtain ⟨stale, current, hbroker, hstale, hcurrent⟩ := hlevel.toBroker
      refine .inl ⟨hlevel.revision, fun _ => ?_, stale, current, hbroker, hstale,
        current_moved hcurrent rfl rfl rfl rfl rfl⟩
      obtain ⟨htrickle, hcount⟩ := hlevel.toAgent hopen
      rw [hto, map_cons] at htrickle hcount
      refine ⟨htrickle.2.2.2, ?_⟩
      rw [hcount, length_cons]
      dsimp only
      omega
    · refine .inr ⟨hahead.revision, hahead.idle, hahead.answered, hahead.packagerSequence,
        fun _ => ?_, hahead.toBroker⟩
      obtain ⟨old, offer, fresh, hmap, hold, hdescription, hrest⟩ := hahead.toAgent hopen
      rw [hto, map_cons] at hmap
      cases old with
      | nil =>
          obtain ⟨rfl, -⟩ := cons.inj hmap
          rw [hcandidate] at hdescription
          cases hdescription
      | cons m' old =>
          obtain ⟨-, hmap⟩ := cons.inj hmap
          exact ⟨old, offer, fresh, hmap, hold.2.2.2, hdescription, hrest⟩

/-- The transport takes an offer, and has the broker's revision again. -/
theorem Agreed.takeOffer {m : SourcePeerSignal} {rest : List SourcePeerSignal}
    {trackID : Option String} (hto : s.toAgent = m :: rest) (hopen : s.transport.closed = false)
    (hdescription : m.payload.isDescription = true) :
    Agreed { s with
      transport := { s.transport with
        negotiation := m.negotiationRevision
        inSequence := 1
        outSequence := 0
        answerSent := false
        pending := []
        endPending := false
        trackID := trackID
        answering := true }
      toAgent := rest } where
  __ := h
  waiting := fun c hc => absurd hc not_mem_nil
  ending := fun hend => by cases hend
  forwarded := fun m' hm' => h.forwarded m' (by rw [hto]; exact mem_cons_of_mem m hm')
  answering := fun _ => ⟨rfl, rfl, (h.forwarded m (by rw [hto]; exact mem_cons_self)).2.2⟩
  sent := fun hsent => by cases hsent
  settled := fun _ hidle => by cases hidle
  phase := by
    rcases h.phase with hlevel | hahead
    · obtain ⟨htrickle, -⟩ := hlevel.toAgent hopen
      rw [hto, map_cons] at htrickle
      obtain ⟨hcandidate, -⟩ := htrickle
      rw [hdescription] at hcandidate
      cases hcandidate
    · obtain ⟨old, offer, fresh, hmap, hold, -, hoffer, -, htrickle, hcount⟩ := hahead.toAgent hopen
      rw [hto, map_cons] at hmap
      cases old with
      | nil =>
          obtain ⟨rfl, rfl⟩ := cons.inj hmap
          exact .inl ⟨hoffer.symm, fun _ => ⟨htrickle, hcount⟩, s.toBroker, [],
            (append_nil _).symm, hahead.toBroker,
            .unanswered rfl hahead.answered hahead.packagerSequence⟩
      | cons m' old =>
          obtain ⟨rfl, -⟩ := cons.inj hmap
          have hcandidate := hold.1
          rw [hdescription] at hcandidate
          cases hcandidate

theorem Agreed.deliver {sourceOfferTrack : String → Option String}
    {m : SourcePeerSignal} {rest : List SourcePeerSignal} (hto : s.toAgent = m :: rest)
    (alive added : Bool) :
    Agreed { s with
      transport := s.transport.dispatch sourceOfferTrack m alive added
      toAgent := rest } := by
  rcases s.transport.dispatch_cases sourceOfferTrack m alive added with
    ⟨inSequence, heq⟩ | ⟨hopen, hcandidate, heq⟩ | ⟨hopen, hdescription, -, trackID, heq⟩
  · rw [heq]
    exact h.closed inSequence rest fun m' hm' => by rw [hto]; exact mem_cons_of_mem m hm'
  · rw [heq]
    exact h.takeCandidate hto hopen hcandidate
  · rw [heq]
    exact h.takeOffer hto hopen hdescription

theorem Agreed.revision_le : s.transport.negotiation ≤ 16 := by
  have hbounded := h.bounded
  rcases h.phase with hlevel | hahead
  · rw [← hlevel.revision]
    exact hbounded
  · have hrevision := hahead.revision
    omega

/-- While the peer connection works on an offer the broker waits. -/
theorem Agreed.waits (hanswering : s.transport.answering = true) :
    s.record.negotiation.revision = s.transport.negotiation
      ∧ s.record.negotiation.answered = false ∧ s.record.negotiation.packagerSequence = 0
      ∧ Stale s.record.negotiation.revision s.toBroker
      ∧ (s.transport.closed = false → Trickle s.record.negotiation.revision s.transport.inSequence
          (s.toAgent.map (·.toSourceSignal))
        ∧ s.record.negotiation.publisherSequence
          = s.transport.inSequence + (s.toAgent.map (·.toSourceSignal)).length) := by
  obtain ⟨hunsent, -⟩ := h.answering hanswering
  rcases h.phase with hlevel | hahead
  · obtain ⟨stale, current, hbroker, hstale, hcurrent⟩ := hlevel.toBroker
    cases hcurrent with
    | unanswered _ hanswered hnext =>
        rw [append_nil] at hbroker
        exact ⟨hlevel.revision, hanswered, hnext, hbroker ▸ hstale, hlevel.toAgent⟩
    | answer hsent =>
        rw [hunsent] at hsent
        cases hsent
    | answered hsent =>
        rw [hunsent] at hsent
        cases hsent
  · have hidle := hahead.idle
    rw [hanswering] at hidle
    cases hidle

theorem Agreed.unmoved {ms : List SourceSignal} (hunmoved : Unmoved s.transport t')
    (hparsed : ∀ m ∈ ms, parseTrustedSourceSignal m .packager = true ∧ m.scope = s.transport.scope)
    (hanswering : t'.answering = true → t'.answerSent = false ∧ t'.outSequence = 0
      ∧ 0 < t'.negotiation)
    (hsent : t'.answerSent = true → 0 < s.transport.negotiation)
    (hsettled : t'.closed = false → t'.answerSent = true)
    (hphase : Level s.record.negotiation t' (s.toAgent.map (·.toSourceSignal)) (s.toBroker ++ ms)
      ∨ Ahead s.record.negotiation t' (s.toAgent.map (·.toSourceSignal)) (s.toBroker ++ ms)) :
    Agreed { s with transport := t', toBroker := s.toBroker ++ ms } where
  scope := h.scope.trans hunmoved.scope.symm
  peer := h.peer.trans hunmoved.publisherPeerId.symm
  validScope := hunmoved.scope ▸ h.validScope
  bounded := h.bounded
  waiting := fun c hc => hunmoved.scope ▸ h.waiting c (hunmoved.pending c hc)
  ending := fun hend => hunmoved.scope ▸ h.ending (hunmoved.endPending hend)
  parsed := by
    intro m hm
    rw [hunmoved.scope]
    rcases mem_append.mp hm with hm | hm
    · exact h.parsed m hm
    · exact hparsed m hm
  forwarded := by
    intro m hm
    rw [hunmoved.scope, hunmoved.publisherPeerId]
    exact h.forwarded m hm
  answering := hanswering
  sent := fun hs => hunmoved.negotiation ▸ hsent hs
  settled := fun hopen _ _ => hsettled hopen
  phase := hphase

theorem Agreed.answer {answer : Except SignalError String}
    (hanswering : s.transport.answering = true) (hfits : s.Fits (.answer answer)) :
    Agreed { s with
      transport := (s.transport.answered answer).1
      toBroker := s.toBroker ++ (s.transport.answered answer).2 } := by
  obtain ⟨hunsent, hout, hpos⟩ := h.answering hanswering
  obtain ⟨hrevision, hunanswered, hnext, hstale, hto⟩ := h.waits hanswering
  have hanswer : ∀ sdp, answer = .ok sdp → sdp ≠ "" := by
    rintro sdp rfl
    exact hfits
  obtain ⟨hidle, hcases⟩ := answered_cases h.validScope hpos h.revision_le hout h.waiting h.ending
    hanswer
  have hbusy : (s.transport.answered answer).1.answering = true → False := by
    rw [hidle]
    decide
  rcases hcases with ⟨hunmoved, hparsed, d, tail, hms, hdescription, hd, hfirst, htrickle, hcount, hsent⟩ |
    ⟨⟨hunmoved, hms, hunanswered'⟩, hclosed⟩
  · refine h.unmoved hunmoved hparsed (fun hb => (hbusy hb).elim) (fun _ => hpos) (fun _ => hsent)
      (.inl ⟨hrevision.trans hunmoved.negotiation.symm, fun hopen => ?_, s.toBroker, d :: tail, ?_,
        hstale, ?_⟩)
    · rw [hunmoved.inSequence]
      exact hto (hunmoved.opened hopen)
    · rw [hms]
    · exact .answer hsent hunanswered hnext hdescription (hd.trans hrevision.symm) hfirst
        (hrevision ▸ htrickle) hcount
  · have hshut : (s.transport.answered answer).1.closed = false → False := by
      rw [hclosed]
      decide
    refine h.unmoved hunmoved ?_ (fun hb => (hbusy hb).elim) (fun _ => hpos)
      (fun hopen => (hshut hopen).elim)
      (.inl ⟨hrevision.trans hunmoved.negotiation.symm, fun hopen => (hshut hopen).elim, s.toBroker,
        [], ?_, hstale, .unanswered (hunanswered'.trans hunsent) hunanswered hnext⟩)
    · rw [hms]
      exact fun m hm => absurd hm not_mem_nil
    · rw [hms]

end

theorem phase_sent {ms : List SourceSignal} (hsent : Sent t t' ms) (hanswer : t.answerSent = true)
    (hidle : t'.answering = t.answering)
    (h : Level n t toAgent toBroker ∨ Ahead n t toAgent toBroker) :
    Level n t' toAgent (toBroker ++ ms) ∨ Ahead n t' toAgent (toBroker ++ ms) := by
  have hstill : t'.answerSent = true := hsent.answerSent.trans hanswer
  have htrickle := hsent.trickle
  have hcount := hsent.count
  rcases h with hlevel | hahead
  · obtain ⟨stale, current, rfl, hstale, hcurrent⟩ := hlevel.toBroker
    refine .inl ⟨hlevel.revision.trans hsent.negotiation.symm, fun hopen => ?_, stale, current ++ ms,
      append_assoc _ _ _, hstale, ?_⟩
    · rw [hsent.inSequence]
      exact hlevel.toAgent (hsent.closed ▸ hopen)
    · rw [← hlevel.revision] at htrickle
      cases hcurrent with
      | unanswered hunsent =>
          rw [hanswer] at hunsent
          cases hunsent
      | answer _ hanswered hnext hdescription hrevision hfirst hold hlength =>
          rw [← hlength] at htrickle hcount
          refine .answer hstill hanswered hnext hdescription hrevision hfirst (hold.append htrickle) ?_
          rw [hcount, append_eq, length_append, add_assoc]
      | answered _ hanswered hold hlength =>
          rw [← hlength] at htrickle hcount
          refine .answered hstill hanswered (hold.append htrickle) ?_
          rw [hcount, length_append, add_assoc]
  · have hrevision := hahead.revision
    refine .inr ⟨?_, hidle.trans hahead.idle, hahead.answered, hahead.packagerSequence,
      fun hopen => ?_, hahead.toBroker.append (htrickle.stale (by omega))⟩
    · rw [hsent.negotiation]
      exact hrevision
    · rw [hsent.inSequence, hsent.negotiation]
      exact hahead.toAgent (hsent.closed ▸ hopen)

section

variable (h : Agreed s)

include h

theorem Agreed.waitingFor (pending : List IceCandidate) (endPending : Bool)
    (hpending : ∀ c ∈ pending, PayloadFits s.transport.scope (.candidate (some c)))
    (hend : endPending = true → PayloadFits s.transport.scope (.candidate none)) :
    Agreed { s with
      transport := { s.transport with pending := pending, endPending := endPending } } where
  __ := h
  waiting := hpending
  ending := hend
  phase := by
    rcases h.phase with hlevel | hahead
    · obtain ⟨stale, current, hbroker, hstale, hcurrent⟩ := hlevel.toBroker
      exact .inl ⟨hlevel.revision, hlevel.toAgent, stale, current, hbroker, hstale,
        current_moved hcurrent rfl rfl rfl rfl rfl⟩
    · exact .inr ⟨hahead.revision, hahead.idle, hahead.answered, hahead.packagerSequence,
        hahead.toAgent, hahead.toBroker⟩

theorem Agreed.localCandidate {candidate : Option IceCandidate}
    (hfits : PayloadFits s.transport.scope (.candidate candidate)) :
    Agreed { s with
      transport := (s.transport.localCandidate candidate).1
      toBroker := s.toBroker ++ (s.transport.localCandidate candidate).2 } := by
  have hsame : ∀ {r : Signalling}, Agreed r → Agreed { r with toBroker := r.toBroker ++ [] } := by
    intro r hr
    rw [append_nil]
    exact hr
  unfold SourceTransport.localCandidate
  by_cases hclosed : s.transport.closed = true
  · rw [if_pos hclosed]
    exact hsame h
  rw [if_neg hclosed]
  by_cases hunsent : s.transport.answerSent = false
  · rw [if_pos hunsent]
    cases candidate with
    | none => exact hsame (h.waitingFor _ true h.waiting fun _ => hfits)
    | some c =>
        dsimp only
        by_cases hfull : s.transport.pending.length ≥ 128
        · rw [if_pos hfull]
          exact hsame h
        · rw [if_neg hfull]
          refine hsame (h.waitingFor (s.transport.pending ++ [c]) s.transport.endPending
            (fun c' hc' => ?_) h.ending)
          rcases mem_append.mp hc' with hc' | hc'
          · exact h.waiting c' hc'
          · obtain rfl := mem_singleton.mp hc'
            exact hfits
  · rw [if_neg hunsent]
    have hanswer : s.transport.answerSent = true := not_eq_false _ ▸ hunsent
    obtain ⟨result, hsend, hsent⟩ :=
      sendSignal_sent h.validScope (h.sent hanswer) h.revision_le hfits
    have hnext := h.unmoved (.of_sent hsent (fun c hc => hc) fun hend => hend) hsent.parsed
      (fun hanswering => by
        have hidle := (h.answering hanswering).1
        rw [hanswer] at hidle
        cases hidle)
      h.sent (fun _ => hanswer) (phase_sent hsent hanswer rfl h.phase)
    rw [hsend]
    cases result with
    | error e => exact hnext
    | ok m => exact hnext

/-- The next message for the broker is superseded, or it is in turn. -/
theorem Agreed.head {m : SourceSignal} {rest : List SourceSignal}
    (hbroker : s.toBroker = m :: rest) :
    (m.payload.isDescription = false ∧ m.negotiationRevision < s.record.negotiation.revision)
    ∨ (s.record.negotiation.revision ≠ 0 ∧ m.negotiationRevision = s.record.negotiation.revision
      ∧ m.sequence = s.record.negotiation.packagerSequence + 1
      ∧ s.record.negotiation.answered = !m.payload.isDescription) := by
  rcases h.phase with hlevel | hahead
  · obtain ⟨stale, current, happend, hstale, hcurrent⟩ := hlevel.toBroker
    rw [hbroker] at happend
    cases stale with
    | cons m' stale =>
        obtain ⟨rfl, -⟩ := cons.inj happend
        exact .inl (hstale m mem_cons_self)
    | nil =>
        have hpos : s.transport.answerSent = true → s.record.negotiation.revision ≠ 0 := by
          intro hanswer
          have := h.sent hanswer
          rw [hlevel.revision]
          omega
        cases hcurrent with
        | unanswered => cases happend
        | answer hanswer hanswered hnext hdescription hrevision hfirst =>
            obtain ⟨rfl, -⟩ := cons.inj happend
            refine .inr ⟨hpos hanswer, hrevision, ?_, ?_⟩
            · rw [hnext, hfirst]
            · rw [hanswered, hdescription]
              rfl
        | answered hanswer hanswered htrickle =>
            rw [← nil_append current, ← happend] at htrickle
            obtain ⟨hcandidate, hrevision, hsequence, -⟩ := htrickle
            refine .inr ⟨hpos hanswer, hrevision, hsequence, ?_⟩
            rw [hanswered, hcandidate]
            rfl
  · exact .inl (hahead.toBroker m (by rw [hbroker]; exact mem_cons_self))

theorem Agreed.accepted {m : SourceSignal} {rest : List SourceSignal}
    (hbroker : s.toBroker = m :: rest) {now : Nat}
    (hbudget : s.record.negotiation.WithinBudget m now) :
    (s.record.signal .packager m now).1
        = { s.record with negotiation := (s.record.negotiation.accept m now).1 }
      ∧ (s.record.signal .packager m now).2 = (s.record.negotiation.accept m now).2
      ∧ (m.payload.isDescription = false ∧ m.negotiationRevision < s.record.negotiation.revision
        ∨ (s.record.signal .packager m now).2 = true) := by
  obtain ⟨hparse, hscope⟩ := h.parsed m (by rw [hbroker]; exact mem_cons_self)
  have hsignal : s.record.signal .packager m now
      = ({ s.record with negotiation := (s.record.negotiation.accept m now).1 },
        (s.record.negotiation.accept m now).2) := by
    unfold SourceRecord.signal
    rw [if_neg]
    rintro (hbad | hother)
    · rw [hparse] at hbad
      cases hbad
    · exact hother (hscope.trans h.scope.symm)
  rw [hsignal]
  refine ⟨rfl, rfl, ?_⟩
  rcases h.head hbroker with hstale | ⟨hrevision, hcurrent, hsequence, hanswered⟩
  · exact .inl hstale
  · refine .inr (TrustedSourceNegotiation.accept_next hbudget ?_ hrevision hcurrent hsequence hanswered)
    rw [parse_type hparse]
    decide

/-- The broker takes the next message of the transport, in turn or
superseded. -/
theorem Agreed.receive {m : SourceSignal} {rest : List SourceSignal}
    (hbroker : s.toBroker = m :: rest) {now : Nat}
    (hbudget : s.record.negotiation.WithinBudget m now) :
    Agreed { s with record := (s.record.signal .packager m now).1, toBroker := rest } := by
  obtain ⟨hrecord, hresult, haccepted⟩ := h.accepted hbroker hbudget
  rw [hresult] at haccepted
  rw [hrecord]
  have hparse := (h.parsed m (by rw [hbroker]; exact mem_cons_self)).1
  have hdrop : ∀ m' ∈ rest, m' ∈ s.toBroker := fun m' hm' => by
    rw [hbroker]
    exact mem_cons_of_mem m hm'
  have hmove : ∀ n' : TrustedSourceNegotiation, n'.revision = s.record.negotiation.revision →
      (Level n' s.transport (s.toAgent.map (·.toSourceSignal)) rest
        ∨ Ahead n' s.transport (s.toAgent.map (·.toSourceSignal)) rest) →
      Agreed { s with record := { s.record with negotiation := n' }, toBroker := rest } := by
    intro n' hrevision hphase
    exact ⟨h.scope, h.peer, h.validScope, hrevision ▸ h.bounded, h.waiting, h.ending,
      fun m' hm' => h.parsed m' (hdrop m' hm'), h.forwarded, h.answering, h.sent, h.settled, hphase⟩
  rcases s.record.negotiation.accept_cases m now with ⟨hrefused, hat⟩ | ⟨-, htype, -⟩ |
      ⟨-, htype, -⟩ | ⟨-, -, -, hcurrent, hsequence, hat⟩
  · -- refused, so superseded: the broker is where it was
    rw [hrefused] at haccepted
    have hstale : m.payload.isDescription = false
        ∧ m.negotiationRevision < s.record.negotiation.revision := by
      rcases haccepted with hstale | h
      · exact hstale
      · cases h
    refine hmove _ hat.revision (phase_counted hat ?_)
    rcases h.phase with hlevel | hahead
    · obtain ⟨stale, current, happend, hold, hcurrent⟩ := hlevel.toBroker
      rw [hbroker] at happend
      cases stale with
      | cons m' stale =>
          obtain ⟨rfl, rfl⟩ := cons.inj happend
          exact .inl ⟨hlevel.revision, hlevel.toAgent, stale, current, rfl,
            fun m' hm' => hold m' (mem_cons_of_mem m hm'), hcurrent⟩
      | nil =>
          cases hcurrent with
          | unanswered => cases happend
          | answer _ _ _ _ hrevision =>
              obtain ⟨rfl, -⟩ := cons.inj happend
              omega
          | answered _ _ htrickle =>
              rw [← nil_append current, ← happend] at htrickle
              have hrevision := htrickle.2.1
              omega
    · exact .inr ⟨hahead.revision, hahead.idle, hahead.answered, hahead.packagerSequence,
        hahead.toAgent, fun m' hm' => hahead.toBroker m' (hdrop m' hm')⟩
  · rw [parse_type hparse] at htype
    cases htype
  · rw [parse_type hparse] at htype
    cases htype
  · -- accepted, so of the broker's revision
    refine hmove _ hat.revision (.inl ?_)
    rcases h.phase with hlevel | hahead
    · obtain ⟨stale, current, happend, hold, hcur⟩ := hlevel.toBroker
      rw [hbroker] at happend
      have hnil : stale = [] := by
        cases stale with
        | nil => rfl
        | cons m' stale =>
            obtain ⟨rfl, -⟩ := cons.inj happend
            have hlt := (hold m mem_cons_self).2
            omega
      rw [hnil, nil_append] at happend
      have hcurrent' : Current (s.record.negotiation.accept m now).1 s.transport rest := by
        rw [← happend] at hcur
        generalize hms : m :: rest = ms at hcur
        cases hcur with
        | unanswered => cases hms
        | answer hanswer _ hnext _ _ _ htrickle hcount =>
            obtain ⟨rfl, rfl⟩ := cons.inj hms
            refine .answered hanswer hat.answered ?_ ?_
            · rw [hat.revision, hat.packagerSequence, hsequence, hnext]
              exact htrickle
            · rw [hat.packagerSequence, hsequence, hnext]
              exact hcount
        | answered hanswer _ htrickle hcount =>
            rw [← hms] at htrickle hcount
            refine .answered hanswer hat.answered ?_ ?_
            · rw [hat.revision, hat.packagerSequence, hsequence]
              exact htrickle.2.2.2
            · rw [hat.packagerSequence, hsequence, ← hcount, length_cons]
              omega
      refine ⟨hat.revision.trans hlevel.revision, fun hopen => ?_, [], rest, rfl,
        fun m' hm' => absurd hm' not_mem_nil, hcurrent'⟩
      rw [hat.revision, hat.publisherSequence]
      exact hlevel.toAgent hopen
    · have hlt := (hahead.toBroker m (by rw [hbroker]; exact mem_cons_self)).2
      omega

end

/-- **Step lemma.** -/
theorem Agreed.step {sourceOfferTrack : String → Option String} {s s' : Signalling} {e : SignalEvent}
    (h : Agreed s) (hstep : Step sourceOfferTrack s e s') (hfits : s.Fits e) : Agreed s' := by
  cases e with
  | publish m now =>
      cases m with
      | none =>
          cases hstep
          exact h
      | some m =>
          cases hstep
          exact h.publish m now
  | deliver alive added =>
      cases hto : s.toAgent with
      | nil =>
          rw [Step, next, hto] at hstep
          cases hstep
      | cons m rest =>
          rw [Step, next, hto] at hstep
          dsimp only at hstep
          split at hstep
          · cases hstep
          · cases hstep
            exact h.deliver hto alive added
  | answer answer =>
      rw [Step, next] at hstep
      split at hstep
      · cases hstep
      · next hanswering =>
          cases hstep
          exact h.answer (not_eq_false _ ▸ hanswering) hfits
  | localCandidate candidate =>
      cases hstep
      exact h.localCandidate hfits
  | receive now =>
      cases hbroker : s.toBroker with
      | nil =>
          rw [Step, next, hbroker] at hstep
          cases hstep
      | cons m rest =>
          rw [Step, next, hbroker] at hstep
          cases hstep
          refine h.receive hbroker (hfits m ?_)
          rw [hbroker]
          rfl
  | close =>
      cases hstep
      exact h.closed s.transport.inSequence s.toAgent fun m hm => hm

end Steps

/-- **Run lemma.** -/
theorem agreed_run {sourceOfferTrack : String → Option String} {s s' : Signalling}
    {es : List SignalEvent} (hrun : Runs.Path (Guarded (Step sourceOfferTrack) Fits) s es s')
    (h : Agreed s) : Agreed s' := by
  induction hrun with
  | nil s => exact h
  | cons hstep _ ih => exact ih (h.step hstep.1 hstep.2)

theorem refused_at {r : SourceRecord} {type : SignalType} {m : SourceSignal} {now : Nat}
    (h : (r.signal type m now).2 = false) :
    (r.signal type m now).1.negotiation.At r.negotiation.revision r.negotiation.publisherSequence
      r.negotiation.packagerSequence r.negotiation.answered := by
  rcases signal_cases r type m now with heq | ⟨-, -, heq⟩
  · rw [heq]
    exact ⟨rfl, rfl, rfl, rfl⟩
  · rw [heq] at h ⊢
    rcases r.negotiation.accept_cases m now with ⟨-, hat⟩ | ⟨hok, -⟩ | ⟨hok, -⟩ | ⟨hok, -⟩
    · exact hat
    · rw [hok] at h
      cases h
    · rw [hok] at h
      cases h
    · rw [hok] at h
      cases h

def sampleScope : SignalScope :=
  ⟨"sls_aaaaaaaaaaaaaaaa", "cns_aaaaaaaaaaaaaaaa", "asn_aaaaaaaaaaaaaaaa", 1⟩

def sampleOffer : SourceSignal :=
  ⟨1, .publisher, sampleScope, 1, 1, .description ⟨"offer", "v=0"⟩⟩

def sampleAnswer : SourceSignal :=
  ⟨1, .packager, sampleScope, 1, 1, .description ⟨"answer", "v=0"⟩⟩

def sampleRecord : SourceRecord :=
  ⟨sampleScope, "0123456789abcdef", ⟨1, 1, 0, false, sampleOffer.json.byteLength, 0, 1⟩⟩

/-- The transport with the offer, before and after its answer. -/
def sampleTransport (answerSent : Bool) : SourceTransport :=
  ⟨sampleScope, "0123456789abcdef", false, 1, 1, if answerSent then 1 else 0, answerSent, [], false,
    some "v=0", !answerSent⟩

end Signalling

end SourceSignals

end WebrtcMinimize
