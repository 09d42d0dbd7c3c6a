import WebrtcMinimize.SharedNotes

/-!
# Polls

The `PollService` of one participant: what it makes of the operations of the
other members, whoever sends them, and of its own calls. The creator of a poll
counts the votes; the others hold what they are told.
-/

namespace WebrtcMinimize

namespace Polls

open Checks Overlay CodeUnits
open SharedNotes (opIdOK Participant)

/-! ## Operations -/

structure PollDefinition where
  pollId : String
  creatorPeerId : String
  question : Text
  options : List Text
  anonymous : Bool
deriving DecidableEq

inductive PollStatus
  | none
  | active
  | published
  | closed
deriving DecidableEq

inductive Payload
  | create (pollId : String) (question : Text) (options : List Text) (anonymous : Bool)
  | vote (pollId : String) (optionIndex : Nat)
  | publish (pollId : String) (counts : List Nat) (totalVotes : Nat)
  | close (pollId : String) (counts : List Nat) (totalVotes : Nat)
  | syncRequest
  | snapshot (status : PollStatus) (poll : Option PollDefinition) (counts : List Nat)
      (totalVotes : Nat)
deriving DecidableEq

structure Operation where
  opId : String
  membershipEpoch : Nat
  authorPeerId : String
  payload : Payload
deriving DecidableEq

def maxQuestionLength : Nat := 120

def minOptions : Nat := 2

def maxOptions : Nat := 6

def maxOptionLength : Nat := 60

/-- White space and line ends. -/
def blank (u : UInt16) : Bool :=
  (decide (9 ≤ u) && decide (u ≤ 0x0d)) || u == 0x20 || u == 0xa0 || u == 0x1680
    || (decide (0x2000 ≤ u) && decide (u ≤ 0x200a)) || u == 0x2028 || u == 0x2029 || u == 0x202f
    || u == 0x205f || u == 0x3000 || u == 0xfeff

def trim (t : Text) : Text := ((t.dropWhile blank).reverse.dropWhile blank).reverse

def validText (t : Text) (maxLength : Nat) : Bool :=
  let trimmed := trim t
  !trimmed.isEmpty && decide (trimmed.length ≤ maxLength)
    && trimmed.all fun u => !(decide (u ≤ 0x1f) || u == 0x7f)

def optionsOK (options : List Text) : Bool :=
  decide (minOptions ≤ options.length ∧ options.length ≤ maxOptions)
    && options.all fun o => validText o maxOptionLength

/-- Counts and totals are at most 1000. -/
def resultOK (counts : List Nat) (totalVotes : Nat) : Bool :=
  counts.all (fun c => decide (c ≤ 1000)) && decide (totalVotes ≤ 1000)

def parsePoll (p : PollDefinition) : Option PollDefinition :=
  if opIdOK p.pollId && Overlay.peerIdOK p.creatorPeerId && validText p.question maxQuestionLength
      && optionsOK p.options then
    some { p with question := trim p.question, options := p.options.map trim }
  else none

def parsePayload : Payload → Option Payload
  | .syncRequest => some .syncRequest
  | .create pollId question options anonymous =>
      if opIdOK pollId && validText question maxQuestionLength && optionsOK options then
        some (.create pollId (trim question) (options.map trim) anonymous)
      else none
  | .vote pollId optionIndex =>
      if opIdOK pollId && decide (optionIndex ≤ maxOptions - 1) then some (.vote pollId optionIndex)
      else none
  | .publish pollId counts totalVotes =>
      if opIdOK pollId && decide (minOptions ≤ counts.length ∧ counts.length ≤ maxOptions)
          && resultOK counts totalVotes then some (.publish pollId counts totalVotes)
      else none
  | .close pollId counts totalVotes =>
      if opIdOK pollId && decide (minOptions ≤ counts.length ∧ counts.length ≤ maxOptions)
          && resultOK counts totalVotes then some (.close pollId counts totalVotes)
      else none
  | .snapshot status none counts totalVotes =>
      if resultOK counts totalVotes then some (.snapshot status none counts totalVotes) else none
  | .snapshot status (some poll) counts totalVotes =>
      match parsePoll poll with
      | none => none
      | some poll =>
          if resultOK counts totalVotes then some (.snapshot status (some poll) counts totalVotes)
          else none

def parsePollOperation (op : Operation) : Option Operation :=
  if opIdOK op.opId && decide (1 ≤ op.membershipEpoch ∧ op.membershipEpoch ≤ SharedNotes.maxSafeInteger)
      && Overlay.peerIdOK op.authorPeerId then
    (parsePayload op.payload).map fun payload => { op with payload := payload }
  else none

/-! ## The overlay -/

/-- `ActivePollState` -/
structure State where
  status : PollStatus
  poll : Option PollDefinition
  /-- A place without a number is one that was skipped. -/
  counts : List (Option Nat)
  totalVotes : Nat
  ownVotedIndex : Option Nat
  votesByPeer : KeyedMap String Nat

/-- `INITIAL_POLL_STATE` -/
def State.initial : State := ⟨.none, none, [], 0, none, .empty⟩

structure Delivery where
  originPeerId : String
  trafficClass : String
  byteLength : Nat
  /-- Nothing when the bytes are not those of an operation. -/
  data : Option Operation

def ingestPollDelivery (d : Delivery) (membershipEpoch : Nat) (knownPeerIds seen : List String) :
    Option Operation :=
  if d.trafficClass ≠ "event" then none
  else if 16 * 1024 < d.byteLength then none
  else match d.data.bind parsePollOperation with
    | none => none
    | some op =>
        if op.membershipEpoch ≠ membershipEpoch then none
        else if op.authorPeerId ≠ d.originPeerId then none
        else if op.authorPeerId ∉ knownPeerIds then none
        else if op.opId ∈ seen then none
        else some op

def applyPollCreate (poll : PollDefinition) : State where
  status := .active
  poll := some poll
  counts := List.replicate poll.options.length (some 0)
  totalVotes := 0
  ownVotedIndex := none
  votesByPeer := .empty

/-- One more at this place. -/
def bump (counts : List (Option Nat)) (i : Nat) : List (Option Nat) :=
  if i < counts.length then counts.modify i fun c => some (c.getD 0 + 1)
  else counts ++ List.replicate (i - counts.length) none ++ [some 1]

def applyPollVote (current : State) (authorPeerId pollId : String) (optionIndex : Nat)
    (ownPeerId : String) : State :=
  match current.status, current.poll with
  | .active, some poll =>
      if pollId ≠ poll.pollId then current
      else if poll.options.length ≤ optionIndex then current
      else
        let ownVotedIndex := if authorPeerId = ownPeerId then some optionIndex
          else current.ownVotedIndex
        if poll.creatorPeerId ≠ ownPeerId then { current with ownVotedIndex := ownVotedIndex }
        else match current.votesByPeer.get authorPeerId with
          | some _ => current
          | none => { current with
              counts := bump current.counts optionIndex
              totalVotes := current.totalVotes + 1
              ownVotedIndex := ownVotedIndex
              votesByPeer := current.votesByPeer.set authorPeerId optionIndex }
  | _, _ => current

/-- What `applyPollPublish` and `applyPollClose` share: the result they bring. -/
def State.conclude (current : State) (status : PollStatus) (pollId : String) (counts : List Nat)
    (totalVotes : Nat) : State :=
  match current.poll with
  | none => current
  | some poll =>
      if pollId ≠ poll.pollId then current
      else { current with status := status, counts := counts.map some, totalVotes := totalVotes }

def applyPollPublish (current : State) (pollId : String) (counts : List Nat) (totalVotes : Nat) :
    State :=
  current.conclude .published pollId counts totalVotes

def applyPollClose (current : State) (pollId : String) (counts : List Nat) (totalVotes : Nat) :
    State :=
  current.conclude .closed pollId counts totalVotes

def applyPollSnapshot (current : State) (status : PollStatus) (poll : Option PollDefinition)
    (counts : List Nat) (totalVotes : Nat) : State :=
  if status = .none ∨ poll = none then current
  else { current with
    status := status
    poll := poll
    counts := counts.map some
    totalVotes := totalVotes }

/-! ## The service -/

structure Service where
  state : State
  seen : List String

def Service.see (s : Service) (opId : String) : Service := { s with seen := opId :: s.seen }

/-- What the moderation says at the participant. -/
structure Moderation where
  participants : List Participant
  presenterPeerId : String
  ownRole : String
  ownPresenter : Bool

/-- The member is owner or presenter. -/
def Moderation.leads (m : Moderation) (peerId : String) : Bool :=
  (m.participants.any fun p => p.role == "owner" && p.peerId == peerId)
    || m.presenterPeerId == peerId

/-- The room of a membership epoch, and who the participant is. -/
structure Seat where
  own : String
  members : List String
  membershipEpoch : Nat

section Calls

variable (seat : Seat)

def canCreatePoll (m : Moderation) : Bool := m.ownRole == "owner" || m.ownPresenter

def isCreator (s : Service) : Bool := s.state.poll.any fun p => p.creatorPeerId == seat.own

/-- The parsed operation of the participant's own. -/
def ownOperation (payload : Payload) (opId : String) : Option Operation :=
  parsePollOperation ⟨opId, seat.membershipEpoch, seat.own, payload⟩

/-- The answer to a sync request. -/
def syncAnswer (m : Moderation) (s : Service) (opId : String) : Option Operation :=
  if s.state.status ≠ .none ∧ (isCreator seat s = true ∨ m.ownRole = "owner") then
    (s.state.counts.mapM id).bind fun counts =>
      ownOperation seat (.snapshot s.state.status s.state.poll counts s.state.totalVotes) opId
  else none

/-- `ingest`, and what is sent to the origin of the delivery. -/
def ingest (m : Moderation) (opId : String) (s : Service) (d : Delivery) :
    Service × Option Operation :=
  match ingestPollDelivery d seat.membershipEpoch seat.members s.seen with
  | none => (s, none)
  | some op =>
      let seen := s.see op.opId
      match op.payload with
      | .syncRequest => (seen, syncAnswer seat m seen opId)
      | .create pollId question options anonymous =>
          let poll : PollDefinition := ⟨pollId, op.authorPeerId, question, options, anonymous⟩
          ({ seen with state := applyPollCreate poll }, none)
      | .vote pollId optionIndex =>
          ({ seen with state := applyPollVote s.state op.authorPeerId pollId optionIndex seat.own },
            none)
      | .publish pollId counts totalVotes =>
          ({ seen with state := applyPollPublish s.state pollId counts totalVotes }, none)
      | .close pollId counts totalVotes =>
          ({ seen with state := applyPollClose s.state pollId counts totalVotes }, none)
      | .snapshot status poll counts totalVotes =>
          ({ seen with state := applyPollSnapshot s.state status poll counts totalVotes }, none)

/-- `createPoll`, and what is sent to all; `none` when it is refused. -/
def createPoll (m : Moderation) (s : Service) (question : Text) (options : List Text)
    (anonymous : Bool) (pollId opId : String) : Option (Service × Operation) :=
  if canCreatePoll m = false ∨ seat.membershipEpoch < 1 then none
  else if options.length < minOptions ∨ maxOptions < options.length then none
  else match ownOperation seat (.create pollId question options anonymous) opId with
    | none => none
    | some op =>
        match op.payload with
        | .create pollId question options anonymous =>
            let poll : PollDefinition := ⟨pollId, op.authorPeerId, question, options, anonymous⟩
            some ({ s.see opId with state := applyPollCreate poll }, op)
        | _ => none

/-- `vote`, and what is sent to the creator unless the participant is it. -/
def vote (s : Service) (optionIndex : Nat) (opId : String) : Option (Service × Option Operation) :=
  match s.state.status, s.state.poll, s.state.ownVotedIndex with
  | .active, some poll, none =>
      if poll.options.length ≤ optionIndex then none
      else match ownOperation seat (.vote poll.pollId optionIndex) opId with
        | none => none
        | some op =>
            let voted := { s.state with ownVotedIndex := some optionIndex }
            if poll.creatorPeerId = seat.own then
              some ({ s.see opId with
                state := applyPollVote voted seat.own poll.pollId optionIndex seat.own }, none)
            else some ({ s.see opId with state := voted }, some op)
  | _, _, _ => none

/-- The result as the participant has it. -/
def ownResult (s : Service) (payload : String → List Nat → Nat → Payload) (opId : String) :
    Option Operation :=
  s.state.poll.bind fun poll => (s.state.counts.mapM id).bind fun counts =>
    ownOperation seat (payload poll.pollId counts s.state.totalVotes) opId

/-- `publishResults`, and what is sent to all. -/
def publishResults (s : Service) (opId : String) : Option (Service × Operation) :=
  if isCreator seat s = false then none
  else match ownResult seat s .publish opId with
    | none => none
    | some op =>
        match op.payload with
        | .publish pollId counts totalVotes =>
            some ({ s.see opId with state := applyPollPublish s.state pollId counts totalVotes }, op)
        | _ => none

/-- `closePoll`, and what is sent to all. -/
def closePoll (m : Moderation) (s : Service) (opId : String) : Option (Service × Operation) :=
  if isCreator seat s = false ∧ canCreatePoll m = false then none
  else match ownResult seat s .close opId with
    | none => none
    | some op =>
        match op.payload with
        | .close pollId counts totalVotes =>
            some ({ s.see opId with state := applyPollClose s.state pollId counts totalVotes }, op)
        | _ => none

end Calls

/-! ## Runs -/

structure System where
  service : Service
  /-- The polls that an owner or presenter has created so far. -/
  created : List PollDefinition
  /-- The ids of the polls the participant has had, and of those it had closed. -/
  had : List String
  closed : List String

inductive Event
  | createPoll (m : Moderation) (question : Text) (options : List Text) (anonymous : Bool)
      (pollId opId : String)
  | vote (optionIndex : Nat) (opId : String)
  | publishResults (opId : String)
  | closePoll (m : Moderation) (opId : String)
  /-- A delivery, and the id of the answer, if there is one. -/
  | deliver (m : Moderation) (d : Delivery) (opId : String)
  /-- Another member, owner or presenter then, has created a poll. -/
  | elsewhere (m : Moderation) (poll : PollDefinition)

namespace System

variable (seat : Seat) (s : System)

/-- The service goes on, and `polls` have been created. -/
def go (service : Service) (polls : List PollDefinition) : System where
  service := service
  created := polls ++ s.created
  had := (service.state.poll.map PollDefinition.pollId).toList ++ s.had
  closed := if service.state.status = .closed
    then (service.state.poll.map PollDefinition.pollId).toList ++ s.closed else s.closed

/-- The poll that an operation creates, when its author may create one. -/
def creates (m : Moderation) (op : Operation) : List PollDefinition :=
  match op.payload with
  | .create pollId question options anonymous =>
      if m.leads op.authorPeerId = true then
        [⟨pollId, op.authorPeerId, question, options, anonymous⟩]
      else []
  | _ => []

/-- A call that is refused changes nothing. -/
def served : Event → Service
  | .createPoll m question options anonymous pollId opId =>
      ((createPoll seat m s.service question options anonymous pollId opId).map Prod.fst).getD
        s.service
  | .vote optionIndex opId => ((vote seat s.service optionIndex opId).map Prod.fst).getD s.service
  | .publishResults opId => ((publishResults seat s.service opId).map Prod.fst).getD s.service
  | .closePoll m opId => ((closePoll seat m s.service opId).map Prod.fst).getD s.service
  | .deliver m d opId => (ingest seat m opId s.service d).1
  | .elsewhere _ _ => s.service

def polls : Event → List PollDefinition
  | .createPoll m question options anonymous pollId opId =>
      ((createPoll seat m s.service question options anonymous pollId opId).bind fun r =>
        r.1.state.poll).toList
  | .deliver m d _ =>
      ((ingestPollDelivery d seat.membershipEpoch seat.members s.service.seen).map (creates m)).getD
        []
  | .elsewhere _ poll => [poll]
  | _ => []

def next (e : Event) : System := s.go (s.served seat e) (s.polls seat e)

/-- Poll ids are drawn anew, nobody else has the participant's id, and who
creates a poll elsewhere may. -/
def possible : Event → Prop
  | .createPoll _ _ _ _ pollId _ => pollId ∉ s.had ∧ ∀ p ∈ s.created, p.pollId ≠ pollId
  | .deliver _ d _ => d.originPeerId ≠ seat.own
  | .elsewhere m poll => m.leads poll.creatorPeerId = true ∧ poll.creatorPeerId ≠ seat.own
      ∧ poll.pollId ∉ s.had ∧ ∀ p ∈ s.created, p.pollId ≠ poll.pollId
  | _ => True

def Step (s : System) (e : Event) (t : System) : Prop := s.possible seat e ∧ s.next seat e = t

end System

def start : System := ⟨⟨.initial, []⟩, [], [], []⟩

end Polls

end WebrtcMinimize
