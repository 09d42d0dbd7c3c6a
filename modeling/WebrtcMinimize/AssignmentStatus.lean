import WebrtcMinimize.Runs

/-!
# Assignment status messages

One assignment, of either kind, and the goroutines that report on it. State
changes under `assignmentMu`, which is one step here; the message is sent in
a later step. `sourceProgram` assignments hold `statusMu` from the change to
the end of the send, and what removes one waits for `statusMu` before it
sends. The other kind has no such lock.

A call is where its goroutine is. `resume i` lets call `i` go on to its next
lock or send; a goroutine that needs `statusMu` while it is taken stays
where it is. A failed write breaks the connection: nothing is written to it
after that.
-/

namespace WebrtcMinimize

namespace Packager

open Runs

inductive AssignmentState
  | ready
  | starting
  | running
  | degraded
  | failed
  | stopped
deriving DecidableEq

def allowedAssignmentTransition : AssignmentState → AssignmentState → Bool
  | .ready, .starting => true
  | .ready, .failed => true
  | .starting, .running => true
  | .starting, .degraded => true
  | .starting, .failed => true
  | .running, .degraded => true
  | .running, .failed => true
  | .degraded, .running => true
  | .degraded, .failed => true
  | _, _ => false

/-- No transition leaves these. -/
def AssignmentState.terminal : AssignmentState → Bool
  | .failed => true
  | .stopped => true
  | _ => false

theorem not_terminal_of_allowed {a b : AssignmentState}
    (h : allowedAssignmentTransition a b = true) : a.terminal = false := by
  cases a <;> cases b <;> first | rfl | cases h

structure AssignmentStatus where
  state : AssignmentState
  reasonCode : String
deriving DecidableEq

inductive LocalHealth
  | healthy
  | degraded
  | draining
deriving DecidableEq

/-- Where a goroutine is. -/
inductive StatusCall
  /-- At the start of a transition. -/
  | transition (state : AssignmentState) (reasonCode : String)
  /-- At the head of the loop of `transition`, with `statusMu`. -/
  | loop (state : AssignmentState) (reasonCode : String)
  /-- About to send, without `statusMu`, and then perhaps to go on. -/
  | send (status : AssignmentStatus) (next : Option AssignmentStatus)
  /-- About to send, with `statusMu`. -/
  | sendHeld (status : AssignmentStatus) (next : Option AssignmentStatus)
  /-- In `fail`, after the change. -/
  | failing (reasonCode : String)
  /-- The assignment is removed and its resources are being closed. -/
  | removed (status : AssignmentStatus)
  | returned
deriving DecidableEq

inductive StatusEvent
  | transition (state : AssignmentState) (reasonCode : String)
  /-- A stop command that names this assignment. -/
  | stop
  /-- The lease has run out. -/
  | expire
  | health (health : LocalHealth)
  /-- Call `i` goes on; `permitted` is what the owner answers, `sent` whether
  a write succeeds. -/
  | resume (i : Nat) (permitted sent : Bool)

structure StatusLine where
  sourceProgram : Bool
  state : AssignmentState
  reasonCode : String
  /-- `c.assignment` is this assignment. -/
  current : Bool
  thermalState : Bool
  /-- Whether `statusMu` is taken. -/
  statusMu : Bool
  calls : List StatusCall
  /-- A write to the control connection has failed. -/
  broken : Bool
  /-- The changes of state and reason so far. -/
  changes : List AssignmentStatus
  /-- The messages on the control connection so far. -/
  sent : List AssignmentStatus
deriving DecidableEq

namespace StatusLine

/-- A prepared assignment. -/
def prepared (sourceProgram : Bool) : StatusLine :=
  ⟨sourceProgram, .ready, "CAPABILITY_READY", true, false, false, [], false, [], []⟩

variable (s : StatusLine)

/-- Call `i` is now at `c`. -/
def goTo (i : Nat) (c : StatusCall) : StatusLine :=
  { s with calls := s.calls.set i c }

/-- A change, under `assignmentMu`. -/
def change (x : AssignmentStatus) : StatusLine :=
  { s with state := x.state, reasonCode := x.reasonCode, changes := s.changes ++ [x] }

def lock : StatusLine :=
  { s with statusMu := true }

def unlock : StatusLine :=
  { s with statusMu := false }

/-- `c.send` of the status, and whether it went out. -/
def deliver (x : AssignmentStatus) (ok : Bool) : StatusLine × Bool :=
  if s.broken = false ∧ ok then
    ({ s with sent := s.sent ++ [x] }, true)
  else
    ({ s with broken := true }, false)

/-! ## Removal -/

/-- `stopAssignment`, `expireAssignment` and draining health. -/
def remove (x : AssignmentStatus) : StatusLine :=
  if s.current then
    { s with
      state := x.state
      current := false
      thermalState := false
      calls := s.calls ++ [.removed x]
      changes := s.changes ++ [x] }
  else
    s

def stopAssignment : StatusLine :=
  s.remove ⟨.stopped, "STOP_COMPLETE"⟩

def expireAssignment : StatusLine :=
  s.remove ⟨.failed, "LEASE_EXPIRED"⟩

def reconcileLocalHealth (health : LocalHealth) : StatusLine :=
  if s.current = false then
    s
  else if health = .draining then
    s.remove ⟨.failed, "THERMAL_LIMIT"⟩
  else if health = .degraded ∧ s.state = .running ∧ s.thermalState = false then
    { s with
      thermalState := true
      calls := s.calls ++ [.transition .degraded "THERMAL_PRESSURE"] }
  else if health = .healthy ∧ s.state = .degraded ∧ s.thermalState then
    { s with
      thermalState := false
      calls := s.calls ++ [.transition .running "THERMAL_RECOVERED"] }
  else
    s

/-! ## Transitions -/

/-- `transitionAssignment` without a source program. -/
def transitionAssignment (i : Nat) (state : AssignmentState) (reasonCode : String) : StatusLine :=
  if s.current = false ∨ s.state = state then
    s.goTo i .returned
  else if state = .running ∧ s.state = .ready then
    let x : AssignmentStatus := ⟨.starting, "MEDIA_CONNECTED"⟩
    (s.change x).goTo i (.send x (some ⟨state, reasonCode⟩))
  else if allowedAssignmentTransition s.state state = false then
    s.goTo i .returned
  else
    let x : AssignmentStatus := ⟨state, reasonCode⟩
    (s.change x).goTo i (.send x none)

/-- The first half of `fail`; both locks are free again after it. -/
def fail (i : Nat) (reasonCode : String) : StatusLine :=
  if s.current = false ∨ allowedAssignmentTransition s.state .failed = false then
    s.goTo i .returned
  else
    (s.change ⟨.failed, reasonCode⟩).goTo i (.failing reasonCode)

/-- The second half of `fail`, up to its send. -/
def failed (i : Nat) (reasonCode : String) : StatusLine :=
  if s.current ∧ s.state = .failed then
    s.lock.goTo i (.sendHeld ⟨.failed, reasonCode⟩ none)
  else
    s.goTo i .returned

/-- Return from a call that has `statusMu`. -/
def leave (i : Nat) : StatusLine :=
  s.unlock.goTo i .returned

/-- One round of the loop of the owner's `transition`. -/
def round (i : Nat) (state : AssignmentState) (reasonCode : String) (permitted : Bool) :
    StatusLine :=
  if permitted = false then
    s.leave i
  else if state = .running ∧ reasonCode = "OUTPUT_READY" ∧ s.state = .degraded
      ∧ s.reasonCode ≠ "SOURCE_PROGRAM_RESTARTING" then
    -- output readiness heals only its own restart
    s.leave i
  else if s.current = false then
    s.leave i
  else if s.state = state then
    if state = .degraded ∧ s.reasonCode = "SOURCE_PROGRAM_RESTARTING"
        ∧ reasonCode ≠ "SOURCE_PROGRAM_RESTARTING" then
      let x : AssignmentStatus := ⟨state, reasonCode⟩
      (s.change x).goTo i (.sendHeld x none)
    else
      s.leave i
  else
    let x : AssignmentStatus := if s.state = .ready ∧ state = .running then
      ⟨.starting, "PROGRAM_STARTING"⟩ else ⟨state, reasonCode⟩
    if allowedAssignmentTransition s.state x.state = false then
      s.leave i
    else
      (s.change x).goTo i
        (.sendHeld x (if x.state = state then none else some ⟨state, reasonCode⟩))

/-! ## Steps -/

/-- A send without `statusMu`. -/
def sendFree (i : Nat) (x : AssignmentStatus) (next : Option AssignmentStatus) (ok : Bool) :
    StatusLine :=
  let (s, delivered) := s.deliver x ok
  match next with
  | some y => s.goTo i (if delivered then .transition y.state y.reasonCode else .returned)
  | none => s.goTo i .returned

/-- A send with `statusMu`. -/
def sendLocked (i : Nat) (x : AssignmentStatus) (next : Option AssignmentStatus) (ok : Bool) :
    StatusLine :=
  let (s, delivered) := s.deliver x ok
  match next with
  | some y => if delivered then s.goTo i (.loop y.state y.reasonCode) else s.leave i
  | none => s.leave i

/-- One step of a goroutine. -/
def resume (i : Nat) (permitted sent : Bool) : StatusLine :=
  match s.calls[i]? with
  | some (.transition state reasonCode) =>
      if s.sourceProgram then
        if s.statusMu then s
        else if state = .failed then s.fail i reasonCode
        else s.lock.goTo i (.loop state reasonCode)
      else
        s.transitionAssignment i state reasonCode
  | some (.loop state reasonCode) => s.round i state reasonCode permitted
  | some (.send x next) => s.sendFree i x next sent
  | some (.sendHeld x next) => s.sendLocked i x next sent
  | some (.failing reasonCode) => if s.statusMu then s else s.failed i reasonCode
  | some (.removed x) =>
      -- an in-flight status of the source program is waited for
      if s.sourceProgram ∧ s.statusMu then s else s.goTo i (.send x none)
  | some .returned => s
  | none => s

def next : StatusEvent → StatusLine
  | .transition state reasonCode => { s with calls := s.calls ++ [.transition state reasonCode] }
  | .stop => s.stopAssignment
  | .expire => s.expireAssignment
  | .health health => s.reconcileLocalHealth health
  | .resume i permitted sent => s.resume i permitted sent

def Step (s : StatusLine) (e : StatusEvent) (s' : StatusLine) : Prop :=
  s.next e = s'

end StatusLine

/-! ## What is still to be sent -/

/-- The change that this goroutine still has to report. -/
def StatusCall.pending : StatusCall → Option AssignmentStatus
  | .send x _ => some x
  | .sendHeld x _ => some x
  | .failing reasonCode => some ⟨.failed, reasonCode⟩
  | .removed x => some x
  | _ => none

def StatusLine.pending (s : StatusLine) : List AssignmentStatus :=
  s.calls.filterMap StatusCall.pending

end Packager

end WebrtcMinimize
