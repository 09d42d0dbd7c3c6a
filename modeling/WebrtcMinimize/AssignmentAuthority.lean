import WebrtcMinimize.AssignmentStatus
import WebrtcMinimize.Maps

/-!
# Who may act for an assignment

The assignment slot of the packager's client, the owners of the source
programs that were ever reserved in it, the session flag, the consented
rooms, and the history of assignment ids. Each event is one critical section
of the code: what a call does under `assignmentMu`, or one store to an
atomic.

A reading of the clock has a wall part in milliseconds and a monotonic part
in nanoseconds; only the second is known not to go back. `clock` is the last
reading anybody took. Times that were read before a lock was asked for
(`now`, `started`) come with the event and may be older than that.

The control connection is in one of three phases; a session is authenticated
once on each connection, and a connection that ends frees the slot before
the next one begins. What a program is made of (profile, budgets, device)
takes part in `matchesPrepare` only, as `rest`.
-/

namespace WebrtcMinimize

namespace Packager

open Runs

/-- Two minutes in milliseconds: the longest lease. -/
def assignmentLeaseMaximum : Int := 120000

def maximumSourceAssignmentHistory : Nat := 512

structure Reading where
  wall : Int
  mono : Int
deriving DecidableEq

structure PrepareRequest where
  assignmentId : String
  roomId : String
  programEpoch : Int
  fencingRevision : Int
  expiresAt : Int
  /-- Everything else that a retransmission has to repeat. -/
  rest : String
deriving DecidableEq

/-- A command that names an assignment. -/
structure AssignmentName where
  assignmentId : String
  programEpoch : Int
  fencingRevision : Int
deriving DecidableEq

structure SourceOwner where
  request : PrepareRequest
  state : AssignmentState
  expiresAt : Int
  deadline : Int
  /-- The `done` channel is closed. -/
  done : Bool
deriving DecidableEq

inductive Slot
  | free
  /-- An assignment without a source program. -/
  | legacy
  | source (i : Nat)
deriving DecidableEq

inductive ControlPhase
  | offline
  | online (authenticatedResponse : Bool)
  | leaving
deriving DecidableEq

structure AssignmentRegistry where
  phase : ControlPhase
  sessionAuthenticated : Bool
  rooms : List String
  slot : Slot
  history : KeyedMap String Int
  /-- Every owner that was reserved, the oldest first. -/
  owners : List SourceOwner
  clock : Reading

inductive AuthorityEvent
  | connect
  | authenticate
  /-- `revokeControlSession`: the flag, and later the fence. -/
  | revokeSession
  | fence
  | disconnect
  | closeAssignmentMedia
  | setConsentedRooms (rooms : List String)
  | prepare (r : PrepareRequest) (now : Int) (admissible : Bool) (started now' : Reading)
  | prepareLegacy
  | endLegacy
  | renew (m : AssignmentName) (expiresAt : Int) (now : Int) (now' : Reading)
  | stop (m : AssignmentName)
  | expire (now : Int)
  | drain
  | transition (i : Nat) (state : AssignmentState)
  | fail (i : Nat)
  | cancel (i : Nat)
  | constructionFailed (i : Nat)
  /-- Somebody reads the clock. -/
  | look (now' : Reading)

namespace SourceOwner

def cancelled (o : SourceOwner) : SourceOwner :=
  { o with done := true }

def named (o : SourceOwner) (m : AssignmentName) : Bool :=
  o.request.assignmentId = m.assignmentId ∧ o.request.programEpoch = m.programEpoch
    ∧ o.request.fencingRevision = m.fencingRevision

/-- A retransmission may have the lease of a renewal that was granted. -/
def matchesPrepare (o : SourceOwner) (r : PrepareRequest) : Bool :=
  (r.expiresAt = o.request.expiresAt ∨ r.expiresAt = o.expiresAt)
    ∧ { r with expiresAt := o.request.expiresAt } = o.request

end SourceOwner

/-- `time.Add` of the milliseconds that are left at `t`. -/
def Reading.deadline (t : Reading) (expiresAt : Int) : Int :=
  t.mono + (expiresAt - t.wall) * 1000000

namespace AssignmentRegistry

def start : AssignmentRegistry :=
  ⟨.offline, false, [], .free, .empty, [], ⟨0, 0⟩⟩

variable (s : AssignmentRegistry)

def modifyOwner (i : Nat) (f : SourceOwner → SourceOwner) : AssignmentRegistry :=
  { s with owners := s.owners.modify i f }

/-- The owner whose assignment is in the slot. -/
def current : Option (Nat × SourceOwner) :=
  match s.slot with
  | .source i => (s.owners[i]?).map fun o => (i, o)
  | _ => none

/-- `permitted`, at the last reading of the clock. -/
def permitted (i : Nat) : Bool :=
  (s.owners[i]?).any fun o =>
    !o.done && s.sessionAuthenticated && decide (o.request.roomId ∈ s.rooms)
      && decide (s.slot = .source i) && !o.state.terminal
      && decide (o.expiresAt > s.clock.wall) && decide (s.clock.mono < o.deadline)

/-! ## Prepare -/

def purgeHistory (now : Int) : AssignmentRegistry :=
  { s with history := s.history.keep fun _ until' => decide (now < until') }

def reserve (r : PrepareRequest) (started : Reading) : AssignmentRegistry :=
  { s with
    history := s.history.set r.assignmentId r.expiresAt
    slot := .source s.owners.length
    owners := s.owners ++ [⟨r, .ready, r.expiresAt, started.deadline r.expiresAt, false⟩] }

/-- `prepareSourceProgramAssignment` up to the reservation; `admissible` is
what it checks of the request alone. -/
def prepare (r : PrepareRequest) (now : Int) (admissible : Bool) (started now' : Reading) :
    AssignmentRegistry :=
  if admissible = false ∨ r.expiresAt ≤ now ∨ now + assignmentLeaseMaximum < r.expiresAt then
    s
  else
    let s := { s with clock := now' }
    if (s.current).any (fun io => io.2.matchesPrepare r) then
      s
    else
      let s := s.purgeHistory now'.wall
      if s.sessionAuthenticated ∧ r.roomId ∈ s.rooms ∧ s.slot = .free ∧ now'.wall < r.expiresAt
          ∧ s.history.get r.assignmentId = none
          ∧ s.history.size < maximumSourceAssignmentHistory then
        s.reserve r started
      else
        s

/-! ## Renewal -/

def grantRenewal (i : Nat) (id : String) (expiresAt : Int) (now' : Reading) : AssignmentRegistry :=
  { s.modifyOwner i fun o =>
      { o with expiresAt := expiresAt, deadline := now'.deadline expiresAt } with
    history := s.history.set id expiresAt }

def renewAssignment (m : AssignmentName) (expiresAt : Int) (now : Int) (now' : Reading) :
    AssignmentRegistry :=
  let s := { s with clock := now' }
  match s.current with
  | none => s
  | some (i, o) =>
      if expiresAt ≤ now ∨ now + assignmentLeaseMaximum < expiresAt ∨ o.named m = false
          ∨ o.expiresAt ≤ now then
        s
      else if o.done ∨ s.sessionAuthenticated = false ∨ o.state.terminal
          ∨ expiresAt < o.expiresAt then
        s
      else if o.deadline ≤ now'.mono ∨ expiresAt ≤ now'.wall
          ∨ now'.wall + assignmentLeaseMaximum < expiresAt then
        s
      else if expiresAt = o.expiresAt then
        -- a replay cannot reset the monotonic deadline
        s
      else
        s.grantRenewal i m.assignmentId expiresAt now'

/-! ## The end of an assignment -/

/-- The assignment in the slot ends and the slot is free. -/
def release (i : Nat) (state : AssignmentState) : AssignmentRegistry :=
  { s.modifyOwner i fun o => { o with state := state } with slot := .free }

def stopAssignment (m : AssignmentName) : AssignmentRegistry :=
  match s.current with
  | some (i, o) => if o.named m then s.release i .stopped else s
  | none => s

def expireAssignment (now : Int) : AssignmentRegistry :=
  match s.current with
  | some (i, o) => if o.expiresAt ≤ now then s.release i .failed else s
  | none => s

/-- `reconcileLocalHealth` when the machine is draining. -/
def drain : AssignmentRegistry :=
  match s.current with
  | some (i, _) => s.release i .failed
  | none => s

def transition (i : Nat) (state : AssignmentState) : AssignmentRegistry :=
  match s.current with
  | some (j, o) =>
      if i = j ∧ state ≠ .failed ∧ allowedAssignmentTransition o.state state then
        s.modifyOwner i fun o => { o with state := state }
      else
        s
  | none => s

/-- The assignment keeps its slot until it is stopped. -/
def fail (i : Nat) : AssignmentRegistry :=
  match s.current with
  | some (j, o) =>
      if i = j ∧ allowedAssignmentTransition o.state .failed then
        s.modifyOwner i fun o => { o.cancelled with state := .failed }
      else
        s
  | none => s

/-- What a prepare does whose generation could not be made; the owner was
cancelled before. -/
def constructionFailed (i : Nat) : AssignmentRegistry :=
  match s.current with
  | some (j, o) => if i = j ∧ o.done then s.release i .failed else s
  | none => s

/-- Close the `done` channel of the owner in the slot. -/
def fence : AssignmentRegistry :=
  match s.current with
  | some (i, _) => s.modifyOwner i SourceOwner.cancelled
  | none => s

def setConsentedRooms (rooms : List String) : AssignmentRegistry :=
  let s := { s with rooms := rooms }
  match s.current with
  | some (_, o) => if o.request.roomId ∈ rooms then s else s.fence
  | none => s

/-! ## Steps -/

def next : AuthorityEvent → AssignmentRegistry
  | .connect =>
      if s.phase = .offline then
        { s with phase := .online false, sessionAuthenticated := false }
      else s
  | .authenticate =>
      if s.phase = .online false then
        { s with phase := .online true, sessionAuthenticated := true }
      else s
  | .revokeSession => { s with sessionAuthenticated := false }
  | .fence => s.fence
  | .disconnect =>
      if s.phase = .offline then s
      else { s with phase := .leaving, sessionAuthenticated := false }
  | .closeAssignmentMedia =>
      if s.phase = .leaving then { s with phase := .offline, slot := .free } else s
  | .setConsentedRooms rooms => s.setConsentedRooms rooms
  | .prepare r now admissible started now' => s.prepare r now admissible started now'
  | .prepareLegacy => if s.slot = .free then { s with slot := .legacy } else s
  | .endLegacy => if s.slot = .legacy then { s with slot := .free } else s
  | .renew m expiresAt now now' => s.renewAssignment m expiresAt now now'
  | .stop m => s.stopAssignment m
  | .expire now => s.expireAssignment now
  | .drain => s.drain
  | .transition i state => s.transition i state
  | .fail i => s.fail i
  | .cancel i => s.modifyOwner i SourceOwner.cancelled
  | .constructionFailed i => s.constructionFailed i
  | .look now' => { s with clock := now' }

end AssignmentRegistry

/-- The reading that an event takes. -/
def AuthorityEvent.reading? : AuthorityEvent → Option Reading
  | .prepare _ _ _ _ now' => some now'
  | .renew _ _ _ now' => some now'
  | .look now' => some now'
  | _ => none

namespace AssignmentRegistry

/-- One critical section; the monotonic clock does not go back. -/
def Step (s : AssignmentRegistry) (e : AuthorityEvent) (s' : AssignmentRegistry) : Prop :=
  (∀ t ∈ e.reading?, s.clock.mono ≤ t.mono) ∧ s.next e = s'

end AssignmentRegistry

end Packager

end WebrtcMinimize
