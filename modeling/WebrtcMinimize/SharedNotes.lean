import Mathlib.Data.Prod.Lex
import Mathlib.Data.String.Basic
import WebrtcMinimize.CodeUnits
import WebrtcMinimize.Lww
import WebrtcMinimize.OverlayModel
import WebrtcMinimize.Posting
import WebrtcMinimize.Runs

/-!
# Shared notes

The `SharedNotesService` of every participant of a membership epoch and the
operations under way between them. A participant's whole text is one
register: an update replaces it, and the greater revision wins, or the greater
author for equal revisions. Who starts empty asks all others, and one of them
answers with a snapshot.

Texts are code units, as in the source. An operation stands for its encoding,
of which `byteLength` is the length.
-/

namespace WebrtcMinimize

namespace SharedNotes

open Checks Overlay CodeUnits

def maxSafeInteger : Nat := 9007199254740991

def maxNotesTextLength : Nat := 32000

/-! ## Operations -/

inductive Payload
  | update (revision baseRevision : Nat) (text : Text)
  | syncRequest
  /-- `writer` is the author of the text; the code does not send it. -/
  | snapshot (revision : Nat) (text : Text) (writer : String)
deriving DecidableEq

structure Operation where
  opId : String
  membershipEpoch : Nat
  authorPeerId : String
  payload : Payload
deriving DecidableEq

/-- `DISALLOWED_CONTROL_CHARS` -/
def disallowedUnit (u : UInt16) : Bool :=
  decide (u ≤ 8) || u == 0x0b || u == 0x0c || (decide (0x0e ≤ u) && decide (u ≤ 0x1f)) || u == 0x7f

def validText (t : Text) : Bool :=
  decide (t.length ≤ maxNotesTextLength) && t.all fun u => !disallowedUnit u

def opIdOK (s : String) : Bool := spanOK hexByte 32 32 (utf8 s)

def Payload.ok : Payload → Bool
  | .update revision baseRevision text =>
      decide (1 ≤ revision ∧ revision ≤ maxSafeInteger ∧ baseRevision ≤ maxSafeInteger)
        && validText text
  | .syncRequest => true
  | .snapshot revision text _ => decide (revision ≤ maxSafeInteger) && validText text

/-- It brings its receiver what the room had before. -/
def Payload.synchronizes : Payload → Bool
  | .snapshot _ _ _ => true
  | _ => false

/-- `parseSharedNotesOperation` -/
def Operation.ok (op : Operation) : Bool :=
  opIdOK op.opId && decide (1 ≤ op.membershipEpoch ∧ op.membershipEpoch ≤ maxSafeInteger)
    && Overlay.peerIdOK op.authorPeerId && op.payload.ok

/-! ### Their encoding -/

def Payload.kind : Payload → String
  | .update _ _ _ => "notes-update"
  | .syncRequest => "notes-sync-request"
  | .snapshot _ _ _ => "notes-snapshot"

def Payload.byteLength : Payload → Nat
  | .update revision baseRevision text =>
      "\x7b\"revision\":,\"baseRevision\":,\"text\":\"\"\x7d".utf8ByteSize
        + digits revision + digits baseRevision + jsonBytes text
  | .syncRequest => "\x7b\x7d".utf8ByteSize
  | .snapshot revision text _ =>
      "\x7b\"revision\":,\"text\":\"\"\x7d".utf8ByteSize + digits revision + jsonBytes text

/-- The members of an operation, without their values. -/
def frame : String :=
  "\x7b\"version\":1,\"type\":\"notes-op\",\"opId\":\"\",\"membershipEpoch\":,\"authorPeerId\":\"\","
    ++ "\"kind\":\"\",\"payload\":\x7d"

def Operation.byteLength (op : Operation) : Nat :=
  frame.utf8ByteSize + op.opId.utf8ByteSize + digits op.membershipEpoch
    + op.authorPeerId.utf8ByteSize + op.payload.kind.utf8ByteSize + op.payload.byteLength

/-! ## The overlay -/

structure State where
  text : Text
  revision : Nat
  lastAuthorPeerId : String
  /-- Who wrote the text; the code does not keep it. -/
  writer : String
deriving DecidableEq

/-- `INITIAL_SHARED_NOTES_STATE` -/
def State.initial : State := ⟨[], 0, "", ""⟩

structure Delivery where
  originPeerId : String
  trafficClass : String
  data : Operation

/-- `ingestSharedNotesDelivery` -/
def ingestDelivery (d : Delivery) (membershipEpoch : Nat) (knownPeerIds seen : List String) :
    Option Operation :=
  if d.trafficClass ≠ "event" then none
  else if 48 * 1024 < d.data.byteLength then none
  else if d.data.ok = false then none
  else if d.data.membershipEpoch ≠ membershipEpoch then none
  else if d.data.authorPeerId ≠ d.originPeerId then none
  else if d.data.authorPeerId ∉ knownPeerIds then none
  else if d.data.opId ∈ seen then none
  else some d.data

/-- `applySharedNotesOperation` -/
def applyOperation (current : State) (op : Operation) : State :=
  match op.payload with
  | .syncRequest => current
  | .snapshot revision text writer =>
      if current.revision < revision then ⟨text, revision, op.authorPeerId, writer⟩
      else if revision = current.revision ∧ 0 < revision
          ∧ current.lastAuthorPeerId < op.authorPeerId then
        ⟨text, revision, op.authorPeerId, writer⟩
      else current
  | .update revision _ text =>
      if current.revision < revision then ⟨text, revision, op.authorPeerId, op.authorPeerId⟩
      else if revision = current.revision ∧ current.lastAuthorPeerId < op.authorPeerId then
        ⟨text, revision, op.authorPeerId, op.authorPeerId⟩
      else current

structure Participant where
  peerId : String
  role : String

def shouldRespondToNotesSync (ownPeerId requesterPeerId : String) (participants : List Participant)
    (currentRevision : Nat) : Bool :=
  if currentRevision = 0 then false
  else if ownPeerId = requesterPeerId then false
  else
    match participants.find? fun p => p.role == "owner" with
    | some owner => owner.peerId == ownPeerId
    | none =>
        (((participants.map Participant.peerId).filter fun id => id != requesterPeerId).mergeSort
          fun a b => decide (a ≤ b)).head? == some ownPeerId

/-! ## The service -/

structure Service where
  state : State
  seen : List String
  hasRequestedSync : Bool
deriving DecidableEq

def Service.see (s : Service) (opId : String) : Service := { s with seen := opId :: s.seen }

/-- The room of a membership epoch. -/
structure Room where
  members : List String
  membershipEpoch : Nat

section Calls

variable (room : Room) (own : String)

/-- The answer to a sync request. -/
def snapshotOperation (s : Service) (opId : String) : Operation :=
  ⟨opId, room.membershipEpoch, own, .snapshot s.state.revision s.state.text s.state.writer⟩

/-- `ingest`, and what is sent to the origin of the delivery. -/
def ingest (participants : List Participant) (opId : String) (s : Service) (d : Delivery) :
    Service × Option Operation :=
  match ingestDelivery d room.membershipEpoch room.members s.seen with
  | none => (s, none)
  | some op =>
      match op.payload with
      | .syncRequest =>
          if shouldRespondToNotesSync own d.originPeerId participants s.state.revision
              ∧ (snapshotOperation room own s opId).ok = true then
            (s.see op.opId, some (snapshotOperation room own s opId))
          else (s.see op.opId, none)
      | _ => ({ s.see op.opId with state := applyOperation s.state op }, none)

def updateOperation (s : Service) (newText : Text) (opId : String) : Operation :=
  ⟨opId, room.membershipEpoch, own, .update (s.state.revision + 1) s.state.revision newText⟩

/-- `updateText`, and what is sent to all peers; `none` when it is refused. -/
def updateText (s : Service) (newText : Text) (opId : String) :
    Option (Service × Option Operation) :=
  if room.membershipEpoch < 1 then none
  else if maxNotesTextLength < newText.length then none
  else if newText = s.state.text then some (s, none)
  else if (updateOperation room own s newText opId).ok = false then none
  else some ({ s.see opId with state := ⟨newText, s.state.revision + 1, own, own⟩ },
    some (updateOperation room own s newText opId))

def syncOperation (opId : String) : Operation := ⟨opId, room.membershipEpoch, own, .syncRequest⟩

/-- `requestSync`, as a service does once while it is empty. -/
def requestSync (s : Service) (opId : String) : Option (Service × Operation) :=
  if s.hasRequestedSync = true ∨ s.state.revision ≠ 0 then none
  else if room.membershipEpoch < 1 ∨ (syncOperation room own opId).ok = false then none
  else some ({ s.see opId with hasRequestedSync := true }, syncOperation room own opId)

end Calls

/-! ## The participants and what is under way -/

abbrev Letter := Posting.Letter String Operation

structure System where
  services : String → Service
  flight : List Letter
  /-- The operation ids drawn so far. -/
  drawn : List String
  /-- The updates so far, with their revision and author; nothing reads them. -/
  updates : List ((Nat ×ₗ String) × Text)
  /-- Who was there from the start, or has had a snapshot. -/
  synced : List String

inductive Event
  | updateText (peerId : String) (text : Text) (opId : String)
  | requestSync (peerId : String) (opId : String)
  /-- The letter at this place arrives; the moderation's list of participants
  and the id of the answer, if there is one. -/
  | deliver (i : Nat) (participants : List Participant) (opId : String)

namespace System

variable (room : Room) (s : System)

def put (peerId : String) (service : Service) : System :=
  { s with services := fun q => if q = peerId then service else s.services q }

/-- To all peers of the sender. -/
def broadcast (peerId : String) (op : Operation) : System :=
  { s with
    flight := s.flight ++ Posting.toOthers room.members peerId op
    drawn := op.opId :: s.drawn }

/-- The letter has arrived, and the answer is on its way. -/
def receive (l : Letter) (i : Nat) (participants : List Participant) (opId : String) : System :=
  let (service, reply) := ingest room l.recipient participants opId (s.services l.recipient)
    ⟨l.sender, "event", l.operation⟩
  let t := s.put l.recipient service
  { t with
    flight := s.flight.eraseIdx i ++ reply.toList.map fun op => ⟨l.recipient, l.sender, op⟩
    drawn := opId :: s.drawn
    synced := if l.operation.payload.synchronizes = true then l.recipient :: s.synced
      else s.synced }

def next : Event → Option System
  | .updateText peerId text opId =>
      if peerId ∉ room.members ∨ opId ∈ s.drawn then none
      else match updateText room peerId (s.services peerId) text opId with
        | none => some s
        | some (_, none) => some s
        | some (service, some op) =>
            some { (s.put peerId service).broadcast room peerId op with
              updates := s.updates ++ [(toLex (service.state.revision, peerId), text)] }
  | .requestSync peerId opId =>
      if peerId ∉ room.members ∨ opId ∈ s.drawn then none
      else match requestSync room peerId (s.services peerId) opId with
        | none => some s
        | some (service, op) => some ((s.put peerId service).broadcast room peerId op)
  | .deliver i participants opId =>
      if opId ∈ s.drawn then none
      else (s.flight[i]?).map fun l => s.receive room l i participants opId

def Step (s : System) (e : Event) (t : System) : Prop := s.next room e = some t

end System

/-- The text that was last written before, if there was one. -/
structure Version where
  text : Text
  revision : Nat
  author : String
  written : revision = 0 → text = [] ∧ author = ""

def Version.state (v : Version) : State := ⟨v.text, v.revision, v.author, v.author⟩

/-- The participants present hold the same text; the others are empty. -/
def start (present : List String) (first : Version) : System where
  services p := ⟨if p ∈ present then first.state else .initial, [], false⟩
  flight := []
  drawn := []
  updates := []
  synced := present

end SharedNotes

end WebrtcMinimize
