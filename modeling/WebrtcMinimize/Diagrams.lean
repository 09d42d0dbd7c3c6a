import WebrtcMinimize.SharedNotes

/-!
# Shared diagrams

The `DiagramService` of every participant of a membership epoch and the
operations under way between them. A participant holds a document for each
tool and the tool in use, each of which the greatest revision wins, or the
greatest author for equal revisions. Who starts empty asks all others. The
answer has the tool in use, under the responder's id, and the document of that
tool, with the author it has.

Locks are left out: they touch neither the documents nor the tool.
-/

namespace WebrtcMinimize

namespace Diagrams

open Checks Overlay CodeUnits
open SharedNotes (opIdOK Participant)

inductive Tool
  | bpmn
  | drawio
deriving DecidableEq

/-! ## Operations -/

inductive Payload
  | snapshot (tool : Tool) (xml : Text) (revision : Nat)
  /-- `writer` set the tool, and `answer` tells an answer to a sync request; the
  code sends neither. -/
  | tool (tool : Tool) (revision : Nat) (writer : String) (answer : Bool)
  | syncRequest
  | syncResponse (tool : Tool) (xml : Text) (revision : Nat) (docAuthor : String)
deriving DecidableEq

structure Operation where
  opId : String
  membershipEpoch : Nat
  authorPeerId : String
  payload : Payload
deriving DecidableEq

def maxXmlBytes : Nat := 256 * 1024

def maxEncodedBytes : Nat := 260 * 1024

def xmlOK (xml : Text) : Bool := !xml.isEmpty && decide (utf8Bytes xml ≤ maxXmlBytes)

def revisionOK (n : Nat) : Bool := decide (1 ≤ n ∧ n ≤ SharedNotes.maxSafeInteger)

/-- `parsePayload` -/
def Payload.ok : Payload → Bool
  | .snapshot _ xml revision => xmlOK xml && revisionOK revision
  | .tool _ revision _ _ => revisionOK revision
  | .syncRequest => true
  | .syncResponse _ xml revision docAuthor =>
      xmlOK xml && revisionOK revision && Overlay.peerIdOK docAuthor

/-- `parseDiagramOperation` -/
def Operation.ok (op : Operation) : Bool :=
  opIdOK op.opId && decide (1 ≤ op.membershipEpoch ∧ op.membershipEpoch ≤ SharedNotes.maxSafeInteger)
    && Overlay.peerIdOK op.authorPeerId && op.payload.ok

def Tool.name : Tool → String
  | .bpmn => "bpmn"
  | .drawio => "drawio"

def Payload.kind : Payload → String
  | .snapshot _ _ _ => "snapshot"
  | .tool _ _ _ _ => "tool"
  | .syncRequest => "sync-request"
  | .syncResponse _ _ _ _ => "sync-response"

def Payload.byteLength : Payload → Nat
  | .snapshot t xml revision =>
      "\x7b\"tool\":\"\",\"xml\":\"\",\"revision\":\x7d".utf8ByteSize + t.name.utf8ByteSize
        + jsonBytes xml + digits revision
  | .tool t revision _ _ =>
      "\x7b\"tool\":\"\",\"revision\":\x7d".utf8ByteSize + t.name.utf8ByteSize + digits revision
  | .syncRequest => "\x7b\x7d".utf8ByteSize
  | .syncResponse t xml revision docAuthor =>
      "\x7b\"tool\":\"\",\"xml\":\"\",\"revision\":,\"docAuthor\":\"\"\x7d".utf8ByteSize
        + t.name.utf8ByteSize + jsonBytes xml + digits revision + docAuthor.utf8ByteSize

/-- The members of an operation, without their values. -/
def frame : String :=
  "\x7b\"version\":1,\"type\":\"diagram-op\",\"opId\":\"\",\"membershipEpoch\":,\"authorPeerId\":\"\","
    ++ "\"kind\":\"\",\"payload\":\x7d"

def Operation.byteLength (op : Operation) : Nat :=
  frame.utf8ByteSize + op.opId.utf8ByteSize + digits op.membershipEpoch
    + op.authorPeerId.utf8ByteSize + op.payload.kind.utf8ByteSize + op.payload.byteLength

/-- `encodeDiagramOperation` does not throw. -/
def Operation.fits (op : Operation) : Bool := decide (op.byteLength ≤ maxEncodedBytes)

/-- `BULK_KINDS` -/
def Payload.bulk : Payload → Bool
  | .snapshot _ _ _ => true
  | .syncResponse _ _ _ _ => true
  | _ => false

def Operation.trafficClass (op : Operation) : String :=
  if op.payload.bulk = true then "bulk" else "event"

/-! ## The overlay -/

structure Doc where
  tool : Tool
  xml : Text
  revision : Nat
  authorPeerId : String
deriving DecidableEq

structure ToolState where
  tool : Tool
  revision : Nat
  authorPeerId : String
  /-- Who set the tool; the code does not keep it. -/
  writer : String
deriving DecidableEq

def winsDiagramLww (current : Option (Nat × String)) (incoming : Nat × String) : Bool :=
  match current with
  | none => true
  | some c =>
      if incoming.1 ≠ c.1 then decide (c.1 < incoming.1) else decide (c.2 < incoming.2)

def diagramDocFromOperation (op : Operation) : Option Doc :=
  match op.payload with
  | .snapshot tool xml revision => some ⟨tool, xml, revision, op.authorPeerId⟩
  | .syncResponse tool xml revision docAuthor => some ⟨tool, xml, revision, docAuthor⟩
  | _ => none

def diagramToolStateFromOperation (op : Operation) : Option ToolState :=
  match op.payload with
  | .tool tool revision writer _ => some ⟨tool, revision, op.authorPeerId, writer⟩
  | _ => none

structure Delivery where
  originPeerId : String
  trafficClass : String
  data : Operation

/-- `ingestDiagramDelivery` -/
def ingestDelivery (d : Delivery) (membershipEpoch : Nat) (knownPeerIds seen : List String) :
    Option Operation :=
  if d.trafficClass ≠ "bulk" ∧ d.trafficClass ≠ "event" then none
  else if maxEncodedBytes < d.data.byteLength then none
  else if d.data.ok = false then none
  else if d.data.payload.bulk ≠ decide (d.trafficClass = "bulk") then none
  else if d.data.membershipEpoch ≠ membershipEpoch then none
  else if d.data.authorPeerId ≠ d.originPeerId then none
  else if d.data.authorPeerId ∉ knownPeerIds then none
  else if d.data.opId ∈ seen then none
  else some d.data

inductive Policy
  | open'
  | presenterOnly
deriving DecidableEq

/-- What the moderation says at a participant. -/
structure Moderation where
  participants : List Participant
  presenterPeerId : String
  ownRole : String
  ownPresenter : Bool
  policy : Policy

def authorizedDiagramEditorPeerIds (m : Moderation) (knownPeerIds : List String) : List String :=
  match m.policy with
  | .open' => knownPeerIds
  | .presenterOnly =>
      ((m.participants.filter fun p => p.role == "owner").map Participant.peerId)
        ++ if m.presenterPeerId ≠ "" ∧ m.presenterPeerId ∈ knownPeerIds then [m.presenterPeerId]
          else []

/-! ## The service -/

structure Service where
  docs : Tool → Option Doc
  toolState : Option ToolState
  seen : List String
  hasRequestedSync : Bool

def Service.see (s : Service) (opId : String) : Service := { s with seen := opId :: s.seen }

def Service.activeTool (s : Service) : Tool := (s.toolState.map ToolState.tool).getD .bpmn

def Service.applyOperation (s : Service) (op : Operation) : Service :=
  match diagramDocFromOperation op, diagramToolStateFromOperation op with
  | some doc, _ =>
      if winsDiagramLww ((s.docs doc.tool).map fun d => (d.revision, d.authorPeerId))
          (doc.revision, doc.authorPeerId) = true then
        { s with docs := fun tool => if tool = doc.tool then some doc else s.docs tool }
      else s
  | none, some state =>
      if winsDiagramLww (s.toolState.map fun t => (t.revision, t.authorPeerId))
          (state.revision, state.authorPeerId) = true then
        { s with toolState := some state }
      else s
  | none, none => s

/-- The room of a membership epoch. -/
structure Room where
  members : List String
  membershipEpoch : Nat
  distinct : members.Nodup
  joined : 1 ≤ membershipEpoch

section Calls

variable (room : Room) (own : String) (m : Moderation)

def canEdit : Bool := decide (m.policy = .open') || m.ownRole == "owner" || m.ownPresenter

def shouldRespondToSync : Bool :=
  m.ownRole == "owner"
    || !(room.members.filter fun id => id != own).any fun id =>
        m.participants.any fun p => p.role == "owner" && p.peerId == id

/-- `emit`, up to the encoding; `none` when the operation is not valid. -/
def emit (s : Service) (payload : Payload) (opId : String) : Option (Service × Operation) :=
  let op : Operation := ⟨opId, max 1 room.membershipEpoch, own, payload⟩
  if op.ok = false then none else some ((s.see opId).applyOperation op, op)

def publishSnapshot (s : Service) (tool : Tool) (xml : Text) (opId : String) :
    Option (Service × Operation) :=
  if canEdit m = false then none
  else emit room own s
    (.snapshot tool xml (((s.docs tool).map Doc.revision).getD 0 + 1)) opId

def setTool (s : Service) (tool : Tool) (opId : String) : Option (Service × Operation) :=
  if canEdit m = false then none
  else emit room own s
    (.tool tool ((s.toolState.map ToolState.revision).getD 0 + 1) own false) opId

/-- `requestSync`, as a service does once while it has no document. -/
def requestSync (s : Service) (opId : String) : Option (Service × Operation) :=
  if s.hasRequestedSync = true ∨ (s.docs .bpmn).isSome = true ∨ (s.docs .drawio).isSome = true
      ∨ room.membershipEpoch < 1 then none
  else (emit room own s .syncRequest opId).map fun r => ({ r.1 with hasRequestedSync := true }, r.2)

/-- The first answer to a sync request: the tool in use. -/
def toolAnswer (state : ToolState) (opId : String) : Operation :=
  ⟨opId, max 1 room.membershipEpoch, own, .tool state.tool state.revision state.writer true⟩

/-- The second one: its document. -/
def docAnswer (doc : Doc) (opId : String) : Operation :=
  ⟨opId, max 1 room.membershipEpoch, own,
    .syncResponse doc.tool doc.xml doc.revision doc.authorPeerId⟩

/-- `respondToSync`: what the service has seen then, and what it sends. What is
too long to encode is not sent. -/
def respondToSync (s : Service) (opIds : String × String) : Service × List Operation :=
  if shouldRespondToSync room own m = false then (s, [])
  else match s.docs s.activeTool with
    | none => (s, [])
    | some doc =>
        let tools := (s.toolState.toList.map fun state => toolAnswer room own state opIds.1).filter
          Operation.ok
        let docs := [docAnswer room own doc opIds.2].filter Operation.ok
        ({ s with seen := (tools ++ docs).map Operation.opId ++ s.seen },
          (tools ++ docs).filter Operation.fits)

/-- `ingest`, and what is sent to the origin of the delivery. -/
def ingest (opIds : String × String) (s : Service) (d : Delivery) : Service × List Operation :=
  match ingestDelivery d room.membershipEpoch room.members s.seen with
  | none => (s, [])
  | some op =>
      match op.payload with
      | .syncRequest => respondToSync room own m (s.see op.opId) opIds
      | _ =>
          if op.authorPeerId ∈ authorizedDiagramEditorPeerIds m room.members then
            ((s.see op.opId).applyOperation op, [])
          else (s.see op.opId, [])

end Calls

/-! ## Registers -/

/-- The tool in use, or the document of a tool. -/
inductive Slot
  | tool
  | doc (tool : Tool)
deriving DecidableEq

/-- What a slot holds. -/
inductive Content
  | tool (tool : Tool)
  | doc (doc : Doc)
deriving DecidableEq

abbrev Stamp := WithBot (Nat ×ₗ String)

def stamp (revision : Nat) (author : String) : Stamp :=
  ((toLex (revision, author) : Nat ×ₗ String) : Stamp)

def Doc.copy (d : Doc) : Lww.Copy Stamp (Option Content) :=
  .written (stamp d.revision d.authorPeerId) (some (.doc d))

def ToolState.copy (t : ToolState) : Lww.Copy Stamp (Option Content) :=
  ⟨stamp t.revision t.authorPeerId, stamp t.revision t.writer, some (.tool t.tool)⟩

def Service.copy (s : Service) : Slot → Lww.Copy Stamp (Option Content)
  | .tool => (s.toolState.map ToolState.copy).getD (.written ⊥ none)
  | .doc tool => ((s.docs tool).map Doc.copy).getD (.written ⊥ none)

/-- What an operation brings to a slot, and whether it is an answer. -/
def Operation.copy (op : Operation) : Slot → Option (Lww.Copy Stamp (Option Content) × Bool)
  | .tool =>
      match op.payload with
      | .tool tool revision writer answer =>
          some (⟨stamp revision op.authorPeerId, stamp revision writer, some (.tool tool)⟩, answer)
      | _ => none
  | .doc tool =>
      match op.payload with
      | .snapshot t xml revision =>
          if t = tool then some (Doc.copy ⟨t, xml, revision, op.authorPeerId⟩, false) else none
      | .syncResponse t xml revision docAuthor =>
          if t = tool then some (Doc.copy ⟨t, xml, revision, docAuthor⟩, true) else none
      | _ => none

/-! ## The participants and what is under way -/

abbrev Letter := Posting.Letter String Operation

structure System where
  services : String → Service
  flight : List Letter
  /-- The operation ids drawn so far. -/
  drawn : List String
  /-- What was published so far in each slot; nothing reads it. -/
  updates : Slot → List (Stamp × Option Content)
  /-- Who was there from the start, or has had an answer, in each slot. -/
  synced : Slot → List String

inductive Event
  | publishSnapshot (peerId : String) (m : Moderation) (tool : Tool) (xml : Text) (opId : String)
  | setTool (peerId : String) (m : Moderation) (tool : Tool) (opId : String)
  | requestSync (peerId : String) (opId : String)
  /-- The letter at this place arrives; the ids of the answers, if there are any. -/
  | deliver (i : Nat) (m : Moderation) (opIds : String × String)

def Event.policy : Event → Policy
  | .publishSnapshot _ m _ _ _ => m.policy
  | .setTool _ m _ _ => m.policy
  | .requestSync _ _ => .open'
  | .deliver _ m _ => m.policy

namespace System

variable (room : Room) (s : System)

def put (peerId : String) (service : Service) : System :=
  { s with services := fun q => if q = peerId then service else s.services q }

/-- A call of this participant's has applied the operation, which goes to all
peers. -/
def broadcast (peerId : String) (service : Service) (op : Operation) : System :=
  { s.put peerId service with
    flight := s.flight ++ Posting.toOthers room.members peerId op
    drawn := op.opId :: s.drawn
    updates := fun slot => s.updates slot
      ++ (op.copy slot).toList.map fun c => (c.1.origin, c.1.value) }

/-- The letter has arrived, and the answers are on their way. -/
def receive (l : Letter) (i : Nat) (m : Moderation) (opIds : String × String) : System :=
  let (service, replies) := ingest room l.recipient m opIds (s.services l.recipient)
    ⟨l.sender, l.operation.trafficClass, l.operation⟩
  { s.put l.recipient service with
    flight := s.flight.eraseIdx i ++ replies.map fun op => ⟨l.recipient, l.sender, op⟩
    drawn := opIds.1 :: opIds.2 :: s.drawn
    synced := fun slot => if (l.operation.copy slot).any Prod.snd = true
      then l.recipient :: s.synced slot else s.synced slot }

/-- A call that does not return `true` is none. -/
def call (peerId opId : String) (r : Option (Service × Operation)) : Option System :=
  if peerId ∉ room.members ∨ opId ∈ s.drawn then none
  else (r.filter fun r => r.2.fits).map fun r => s.broadcast room peerId r.1 r.2

def next : Event → Option System
  | .publishSnapshot peerId m tool xml opId =>
      s.call room peerId opId (publishSnapshot room peerId m (s.services peerId) tool xml opId)
  | .setTool peerId m tool opId =>
      s.call room peerId opId (setTool room peerId m (s.services peerId) tool opId)
  | .requestSync peerId opId =>
      s.call room peerId opId (requestSync room peerId (s.services peerId) opId)
  | .deliver i m opIds =>
      if opIds.1 ∈ s.drawn ∨ opIds.2 ∈ s.drawn ∨ opIds.1 = opIds.2 then none
      else (s.flight[i]?).map fun l => s.receive room l i m opIds

/-- The policy of the room is `open`. -/
def Step (s : System) (e : Event) (t : System) : Prop := e.policy = .open' ∧ s.next room e = some t

end System

/-- What was published last before, for each tool and of the tool. -/
structure Version where
  docs : Tool → Option Doc
  toolState : Option (Tool × Nat × String)
  named : ∀ tool doc, docs tool = some doc → doc.tool = tool

def Version.service (v : Version) : Service :=
  ⟨v.docs, v.toolState.map fun t => ⟨t.1, t.2.1, t.2.2, t.2.2⟩, [], false⟩

/-- The participants present hold the same; the others are empty. -/
def start (room : Room) (present : List String) (first : Version) : System where
  services p := if p ∈ present then first.service else ⟨fun _ => none, none, [], false⟩
  flight := []
  drawn := []
  updates _ := []
  synced slot := if (first.service.copy slot).value = none then room.members else present

end Diagrams

end WebrtcMinimize
