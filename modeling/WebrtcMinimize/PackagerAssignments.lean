import WebrtcMinimize.Attempts
import WebrtcMinimize.PackagerBudget
import WebrtcMinimize.Runs

/-!
# The registry of native packager assignments

`NativePackagerAssignmentRegistry` keeps one record for each assignment and
two indexes to the one that is active for a packager and for a program.

Its ports are code of others and may call the registry while it waits for
them. A call is cut where it asks a port: what it still needs is a `Frame`,
the calls that wait are a stack, and whatever a port answers arrives as an
`Answer` to the frame on top. Between two such cuts a call is a computation
on the registry that may throw.
-/

namespace WebrtcMinimize

open Attempts Checks PackagerBudget

namespace NativeAssignments

/-! ## Records -/

inductive State
  | preparing
  | ready
  | starting
  | running
  | degraded
  | draining
  | stopped
  | failed
deriving DecidableEq

/-- `ACTIVE_STATES` -/
def State.active : State → Bool
  | .stopped => false
  | .failed => false
  | _ => true

/-- `RENEWABLE_STATES` -/
def State.renewable : State → Bool
  | .draining => false
  | .stopped => false
  | .failed => false
  | _ => true

theorem State.active_of_renewable {s : State} (h : s.renewable = true) : s.active = true := by
  cases s <;> first | rfl | cases h

/-- The states a report may bring the record to. -/
def State.allowed : State → State → Bool
  | .preparing, s => decide (s ∈ [State.ready, .failed])
  | .ready, s => decide (s ∈ [State.ready, .starting, .draining, .failed])
  | .starting, s => decide (s ∈ [State.starting, .running, .degraded, .draining, .failed])
  | .running, s => decide (s ∈ [State.running, .degraded, .draining, .failed])
  | .degraded, s => decide (s ∈ [State.running, .degraded, .draining, .failed])
  | .draining, s => decide (s ∈ [State.draining, .stopped, .failed])
  | .stopped, s => decide (s = .stopped)
  | .failed, s => decide (s = .failed)

/-- A report leaves a record that is no longer active as it is. -/
theorem State.eq_of_allowed {s t : State} (hs : s.active = false) (h : s.allowed t = true) :
    t = s := by
  cases s <;> simp_all [State.active, State.allowed]

/-- What a source program is bound to at the packager and in its room. -/
structure SourceAuthority where
  generation : Nat
  tenantId : String
  granteeDeviceRef : String
  roomEpoch : Int
deriving DecidableEq

structure Record where
  assignmentId : String
  packagerId : String
  ownerPrincipal : String
  tenantId : String
  /-- The publisher, or the controller of a source program. -/
  peerId : String
  source : Option SourceAuthority
  roomId : String
  programId : String
  programEpoch : Int
  resourceRef : String
  leaseId : String
  fencingRevision : Int
  admission : Admission
  assignmentProtocolVersion : Nat
  state : State
  reasonCode : String
  createdAt : Int
  updatedAt : Int
  expiresAt : Int
  encoderBudgetUntil : Int
  /-- The deadline of the program that `expiresAt` was set under; the code
  does not keep it. -/
  deadline : Int
deriving DecidableEq

def Record.occupant (r : Record) : Occupant := ⟨r.tenantId, r.ownerPrincipal, r.admission⟩

/-- The record takes up its resources: it is active, or it failed and its
lease has not run out. -/
def Record.occupies (r : Record) (now : Int) : Bool :=
  r.state.active || (decide (r.state = .failed) && decide (now < r.expiresAt))

structure Snapshot where
  assignmentId : String
  packagerId : String
  roomId : String
  programId : String
  programEpoch : Int
  fencingRevision : Int
  profileId : String
  renditionIds : List String
  state : State
  reasonCode : String
  createdAt : Int
  updatedAt : Int
  expiresAt : Int
deriving DecidableEq

def snapshot (r : Record) : Snapshot :=
  { assignmentId := r.assignmentId
    packagerId := r.packagerId
    roomId := r.roomId
    programId := r.programId
    programEpoch := r.programEpoch
    fencingRevision := r.fencingRevision
    profileId := r.admission.profileId
    renditionIds := r.admission.renditions.map Rendition.id
    state := r.state
    reasonCode := r.reasonCode
    createdAt := r.createdAt
    updatedAt := r.updatedAt
    expiresAt := r.expiresAt }

/-- The commands that go to the agent. -/
inductive Command
  | prepare (version : Nat) (assignmentId roomId programId : String) (programEpoch : Int)
      (leaseId : String) (fencingRevision : Int) (resourceRef peerId : String)
      (source : Option SourceAuthority) (admission : Admission) (expiresAt : Int)
  | renew (assignmentId : String) (programEpoch fencingRevision expiresAt : Int)
  | stop (assignmentId : String) (programEpoch fencingRevision : Int) (reasonCode : String)
deriving DecidableEq

def prepareCommand (r : Record) : Command :=
  .prepare r.assignmentProtocolVersion r.assignmentId r.roomId r.programId r.programEpoch
    r.leaseId r.fencingRevision r.resourceRef r.peerId r.source r.admission r.expiresAt

def renewCommand (r : Record) : Command :=
  .renew r.assignmentId r.programEpoch r.fencingRevision r.expiresAt

def stopCommand (r : Record) : Command :=
  .stop r.assignmentId r.programEpoch r.fencingRevision r.reasonCode

/-! ## The registry -/

structure Config where
  resources : ResourceLimits
  encoder : EncoderLimits
  /-- There is a usage ledger. -/
  ledger : Bool

/-- The maps name the objects in `records` by their places there; an object
stays when no map names it any more. -/
structure Registry where
  records : List Record
  assignments : KeyedMap String Nat
  byPackager : KeyedMap String Nat
  byProgram : KeyedMap String Nat
  encoderTime : EncoderTime

def Registry.new : Registry := ⟨[], .empty, .empty, .empty, .new⟩

namespace Registry

variable (s : Registry)

/-- The record an index holds, if it is active. -/
def activeIn (index : KeyedMap String Nat) (key : String) : Option Record :=
  ((index.get key).bind fun ref => s.records[ref]?).filter fun r => r.state.active

def activeForPackager (packagerId : String) : Option Record := s.activeIn s.byPackager packagerId

def activeForProgram (programId : String) : Option Record := s.activeIn s.byProgram programId

/-- `#occupiedResources` -/
def occupied (now : Int) : List Occupant :=
  s.assignments.values.filterMap fun ref =>
    (s.records[ref]?.filter fun r => r.occupies now).map Record.occupant

/-- The object changes in place. -/
def put (ref : Nat) (r : Record) : Registry := { s with records := s.records.set ref r }

def releaseIndexes (ref : Nat) (r : Record) : Registry :=
  { s with
    byPackager := if s.byPackager.get r.packagerId = some ref then s.byPackager.erase r.packagerId
      else s.byPackager
    byProgram := if s.byProgram.get r.programId = some ref then s.byProgram.erase r.programId
      else s.byProgram }

/-- The object changes, and leaves the indexes when it is no longer active. -/
def finish (ref : Nat) (r : Record) : Registry :=
  if r.state.active = true then s.put ref r else (s.put ref r).releaseIndexes ref r

def add (r : Record) : Registry :=
  { s with
    records := s.records ++ [r]
    assignments := s.assignments.set r.assignmentId s.records.length
    byPackager := s.byPackager.set r.packagerId s.records.length
    byProgram := s.byProgram.set r.programId s.records.length }

end Registry

/-! ## Preparing -/

structure PrepareCall where
  ownerPrincipal : String
  packagerId : String
  admission : Admission
  leaseId : String
  fencingRevision : Int
  expiresAt : Int
  peerId : String
  sourceProgram : Bool
  now : Int

structure Capability where
  tenantId : String
  supportsV2 : Bool
  supportsV3 : Bool

/-- What the control registry knows of a packager, and what the policy makes
of the request under that capability. -/
structure Candidate where
  online : Bool
  capability : Option Capability
  admission : Except String Admission

/-- What a preparation knows once it was admitted. -/
structure Pending where
  call : PrepareCall
  capability : Capability
  source : Option SourceAuthority
  expiresAt : Int
  deadline : Int

def Pending.occupant (p : Pending) : Occupant :=
  ⟨p.capability.tenantId, p.call.ownerPrincipal, p.call.admission⟩

def Pending.protocolVersion (p : Pending) : Nat :=
  if p.call.sourceProgram then if p.call.admission.audioOutput.isSome then 5 else 4
  else if p.capability.supportsV3 then 3
  else if p.capability.supportsV2 then 2
  else 1

def Pending.record (p : Pending) (assignmentId : String) : Record :=
  { assignmentId := assignmentId
    packagerId := p.call.packagerId
    ownerPrincipal := p.call.ownerPrincipal
    tenantId := p.capability.tenantId
    peerId := p.call.peerId
    source := p.source
    roomId := p.call.admission.roomId
    programId := p.call.admission.programId
    programEpoch := p.call.admission.programEpoch
    resourceRef := p.call.admission.resourceRef
    leaseId := p.call.leaseId
    fencingRevision := p.call.fencingRevision
    admission := p.call.admission
    assignmentProtocolVersion := p.protocolVersion
    state := .preparing
    reasonCode := "AWAITING_AGENT"
    createdAt := p.call.now
    updatedAt := p.call.now
    expiresAt := p.expiresAt
    encoderBudgetUntil := p.expiresAt
    deadline := p.deadline }

/-- A report of the agent. -/
structure StatusMessage where
  assignmentId : String
  programEpoch : Int
  fencingRevision : Int
  state : State
  reasonCode : String
  observedAt : Int

/-- Where a call waits for a port. -/
inductive Frame
  /-- for the control registry, the source authority and the program's deadline -/
  | admitting (call : PrepareCall)
  /-- for the ledger's usage and the id -/
  | identifying (p : Pending)
  /-- for the ICE servers -/
  | equipping (p : Pending) (assignmentId : String)
  /-- for the ledger's usage once more -/
  | checking (p : Pending) (assignmentId : String)
  /-- for the ledger to take the records -/
  | recording (p : Pending) (assignmentId : String)
  /-- for the source authority -/
  | acknowledging (message : StatusMessage) (now : Int) (ref : Nat)
  /-- for the program's deadline -/
  | renewing (packagerId : String) (now : Int) (ref : Nat) (previousExpiry : Int)
  /-- for the source authority -/
  | renewingSource (packagerId : String) (now : Int) (ref : Nat) (previousExpiry deadline : Int)

inductive Output
  | prepared (snapshot : Snapshot) (command : Command)
  | acknowledged (snapshot : Snapshot)
  | renewed (result : Option (Snapshot × String × Command))
  | stopped (snapshot : Snapshot) (command : Option Command)
  | failed (snapshot : Option Snapshot)
  | pruned
deriving DecidableEq

inductive Outcome
  | returns (output : Output)
  | waits (frame : Frame)

def safeInteger (n : Int) : Prop := -(maxSafeInteger : Int) ≤ n ∧ n ≤ maxSafeInteger

instance (n : Int) : Decidable (safeInteger n) := inferInstanceAs (Decidable (_ ∧ _))

/-- `^[A-Z][A-Z0-9_]{1,63}$` -/
def reasonOK (s : String) : Bool :=
  match utf8 s with
  | b :: bs => upperByte b && spanOK (fun b => upperByte b || digitByte b || b == '_'.toNat) 1 63 bs
  | [] => false

/-- The checks of `#prepare` on its arguments. -/
def PrepareCall.ok (c : PrepareCall) : Bool :=
  (c.sourceProgram || decide (c.admission.admissionVersion = 1))
    && refOK "pkr_" c.packagerId && peerIdOK c.peerId && refOK "lea_" c.leaseId
    && decide (safeInteger c.fencingRevision ∧ 1 ≤ c.fencingRevision)
    && decide (safeInteger c.expiresAt ∧ c.now < c.expiresAt ∧ c.expiresAt ≤ c.now + 120000)

section Calls

variable (cfg : Config)

def assertResources (s : Registry) (c : Occupant) (now : Int) : Except String Unit :=
  failIf (¬safeInteger now ∨ now < 1 ∨ allows cfg.resources c (s.occupied now) = false)
    "broadcast_temporarily_unavailable"

def Pending.slots (p : Pending) : Nat := p.call.admission.renditions.length

def assertEncoderTime (p : Pending) : Stateful Registry Unit := do
  let s ← get
  let (time, allowed) := s.encoderTime.allows cfg.encoder p.capability.tenantId
    p.call.ownerPrincipal p.slots p.call.now p.expiresAt p.call.now
  set { s with encoderTime := time }
  failWhen (allowed = false) "broadcast_temporarily_unavailable"

def reserveEncoderTime (tenantId ownerPrincipal : String) (slots : Nat) (start until' now : Int) :
    Stateful Registry Bool := do
  let s ← get
  let (time, reserved) := s.encoderTime.reserve cfg.encoder tenantId ownerPrincipal slots start
    until' now
  set { s with encoderTime := time }
  return reserved

/-- `#prepare`, up to its first port. -/
def prepare (c : PrepareCall) : Stateful Registry Outcome := do
  failWhen (c.ok = false) "invalid_native_packager_assignment"
  return .waits (.admitting c)

/-- Up to the ledger and the id. -/
def admitCandidate (c : PrepareCall) (candidate : Except String Candidate)
    (source : Except String SourceAuthority) (deadline : Except String Int) :
    Stateful Registry Outcome := do
  let packager ← check candidate
  match packager.capability.filter fun _ => packager.online with
  | none => check (.error "native_packager_offline")
  | some capability => do
      let verified ← check packager.admission
      failWhen (verified ≠ c.admission) "native_packager_admission_mismatch"
      let authority ← check (if c.sourceProgram then source.map some else .ok none)
      failWhen ((authority.any fun a => decide (a.tenantId ≠ capability.tenantId)) = true)
        "native_source_program_unavailable"
      let programDeadline ← check deadline
      failWhen (¬safeInteger programDeadline ∨ programDeadline ≤ c.now)
        "native_packager_program_unavailable"
      let p : Pending := ⟨c, capability, authority, min c.expiresAt programDeadline, programDeadline⟩
      let s ← get
      failWhen ((s.activeForPackager c.packagerId).isSome = true
          ∨ (s.activeForProgram c.admission.programId).isSome = true)
        "native_packager_assignment_conflict"
      check (assertResources cfg s p.occupant c.now)
      assertEncoderTime cfg p
      return .waits (.identifying p)

/-- The record is stored. -/
def store (p : Pending) (assignmentId : String) : Stateful Registry Outcome := do
  modify fun s => s.add (p.record assignmentId)
  return .returns (.prepared (snapshot (p.record assignmentId))
    (prepareCommand (p.record assignmentId)))

/-- After the ledger's second answer. -/
def checked (p : Pending) (assignmentId : String) : Stateful Registry Outcome := do
  let s ← get
  failWhen ((s.activeForPackager p.call.packagerId).isSome = true
      ∨ (s.activeForProgram p.call.admission.programId).isSome = true
      ∨ (s.assignments.get assignmentId).isSome = true)
    "native_packager_assignment_conflict"
  let reserved ← reserveEncoderTime cfg p.capability.tenantId p.call.ownerPrincipal p.slots
    p.call.now p.expiresAt p.call.now
  failWhen (reserved = false) "broadcast_temporarily_unavailable"
  if cfg.ledger = true then return .waits (.recording p assignmentId) else store p assignmentId

/-- Once the record is made up. -/
def equipped (p : Pending) (assignmentId : String) : Stateful Registry Outcome := do
  let s ← get
  check (assertResources cfg s p.occupant p.call.now)
  if cfg.ledger = true then return .waits (.checking p assignmentId) else checked cfg p assignmentId

/-- Once the ledger and the id factory have answered. -/
def identified (p : Pending) (usage : Except String Unit) (id : Except String String) :
    Stateful Registry Outcome := do
  check (if cfg.ledger then usage else .ok ())
  let assignmentId ← check id
  let s ← get
  failWhen (refOK "asn_" assignmentId = false ∨ (s.assignments.get assignmentId).isSome = true)
    "invalid_native_packager_assignment_identifier"
  if p.call.sourceProgram = true ∨ p.capability.supportsV3 = true then
    return .waits (.equipping p assignmentId)
  else equipped cfg p assignmentId

/-! ## Reports -/

/-- The last part of `acknowledge`. -/
def transition (m : StatusMessage) (now : Int) (ref : Nat) : Stateful Registry Outcome := do
  let s ← get
  match s.records[ref]? with
  | none => check (.error "TypeError")
  | some r => do
      failWhen (r.state.allowed m.state = false) "invalid_native_packager_assignment_transition"
      let r' := { r with state := m.state, reasonCode := m.reasonCode, updatedAt := now }
      set (s.finish ref r')
      return .returns (.acknowledged (snapshot r'))

def StatusMessage.ok (m : StatusMessage) (now : Int) : Bool :=
  refOK "asn_" m.assignmentId && decide (m.state ≠ .preparing) && reasonOK m.reasonCode
    && decide (safeInteger m.programEpoch ∧ 1 ≤ m.programEpoch)
    && decide (safeInteger m.fencingRevision ∧ 1 ≤ m.fencingRevision)
    && decide (safeInteger m.observedAt ∧ (now - m.observedAt).natAbs ≤ 30000)

def acknowledge (packagerId : String) (m : StatusMessage) (now : Int) :
    Stateful Registry Outcome := do
  failWhen (m.ok now = false) "invalid_native_packager_assignment_status"
  let s ← get
  match s.assignments.get m.assignmentId, (s.assignments.get m.assignmentId).bind (s.records[·]?) with
  | some ref, some r => do
      failWhen (r.packagerId ≠ packagerId ∨ r.programEpoch ≠ m.programEpoch
        ∨ r.fencingRevision ≠ m.fencingRevision) "stale_native_packager_assignment"
      failWhen (r.expiresAt ≤ now ∧ m.state ≠ .stopped ∧ m.state ≠ .failed)
        "expired_native_packager_assignment"
      if 4 ≤ r.assignmentProtocolVersion ∧ m.state ∈ [State.ready, .starting, .running, .degraded] then
        return .waits (.acknowledging m now ref)
      else transition m now ref
  | _, _ => check (.error "stale_native_packager_assignment")

/-- `#sourceCurrent`, on what the authority says now. -/
def sourceCurrent (r : Record) (source : Except String SourceAuthority) : Except String Unit := do
  let current ← source
  failIf (some current ≠ r.source) "stale_native_source_program"

def acknowledged (m : StatusMessage) (now : Int) (ref : Nat)
    (source : Except String SourceAuthority) : Stateful Registry Outcome := do
  let s ← get
  match s.records[ref]? with
  | none => check (.error "TypeError")
  | some r => do
      check (sourceCurrent r source)
      transition m now ref

/-! ## Leases -/

/-- `renew`, up to its first port. -/
def renew (packagerId : String) (now : Int) : Stateful Registry Outcome := do
  failWhen (refOK "pkr_" packagerId = false ∨ ¬safeInteger now)
    "invalid_native_packager_assignment_renewal"
  let s ← get
  match s.byPackager.get packagerId, (s.byPackager.get packagerId).bind (s.records[·]?) with
  | some ref, some r =>
      if r.state.renewable = false ∨ r.expiresAt ≤ now then return .returns (.renewed none)
      else return .waits (.renewing packagerId now ref r.expiresAt)
  | _, _ => return .returns (.renewed none)

def Record.renewed (r : Record) (now deadline : Int) : Record :=
  { r with
    encoderBudgetUntil := max r.encoderBudgetUntil (min (now + 60000) deadline)
    expiresAt := min (now + 60000) deadline
    updatedAt := now
    deadline := deadline }

/-- The last part of `renew`. -/
def extend (packagerId : String) (now : Int) (ref : Nat) (previousExpiry deadline : Int) :
    Stateful Registry Outcome := do
  let s ← get
  match s.records[ref]? with
  | none => check (.error "TypeError")
  | some r =>
      if s.byPackager.get packagerId ≠ some ref ∨ r.state.renewable = false
          ∨ r.expiresAt ≠ previousExpiry then
        return .returns (.renewed none)
      else do
        let reserved ← reserveEncoderTime cfg r.tenantId r.ownerPrincipal
          r.admission.renditions.length r.encoderBudgetUntil
          (max r.encoderBudgetUntil (min (now + 60000) deadline)) now
        if reserved = false then return .returns (.renewed none)
        else do
          let r' := r.renewed now deadline
          modify fun t => t.put ref r'
          return .returns (.renewed (some (snapshot r', r'.resourceRef, renewCommand r')))

/-- Once the program's deadline is known. -/
def renewing (packagerId : String) (now : Int) (ref : Nat) (previousExpiry : Int)
    (deadline : Except String Int) : Stateful Registry Outcome := do
  let programDeadline ← check deadline
  let s ← get
  match s.records[ref]? with
  | none => check (.error "TypeError")
  | some r =>
      if ¬safeInteger programDeadline ∨ programDeadline ≤ now ∨ r.state.renewable = false then
        return .returns (.renewed none)
      else if 4 ≤ r.assignmentProtocolVersion then
        return .waits (.renewingSource packagerId now ref previousExpiry programDeadline)
      else extend cfg packagerId now ref previousExpiry programDeadline

def renewingSource (packagerId : String) (now : Int) (ref : Nat) (previousExpiry deadline : Int)
    (source : Except String SourceAuthority) : Stateful Registry Outcome := do
  let s ← get
  match s.records[ref]? with
  | none => check (.error "TypeError")
  | some r => do
      check (sourceCurrent r source)
      extend cfg packagerId now ref previousExpiry deadline

/-! ## Ends -/

structure StopCall where
  ownerPrincipal : String
  packagerId : String
  assignmentId : String
  reasonCode : String
  now : Int

def Record.drained (r : Record) (reasonCode : String) (now : Int) : Record :=
  { r with state := .draining, reasonCode := reasonCode, updatedAt := now }

def stop (c : StopCall) : Stateful Registry Outcome := do
  failWhen (refOK "pkr_" c.packagerId = false ∨ refOK "asn_" c.assignmentId = false
    ∨ reasonOK c.reasonCode = false) "invalid_native_packager_assignment_stop"
  let s ← get
  match s.assignments.get c.assignmentId, (s.assignments.get c.assignmentId).bind (s.records[·]?) with
  | some ref, some r => do
      failWhen (r.ownerPrincipal ≠ c.ownerPrincipal ∨ r.packagerId ≠ c.packagerId)
        "native_packager_assignment_not_found"
      if r.state = .draining ∨ r.state.active = false then
        return .returns (.stopped (snapshot r) none)
      else do
        let r' := r.drained c.reasonCode c.now
        set (s.put ref r')
        return .returns (.stopped (snapshot r') (some (stopCommand r')))
  | _, _ => check (.error "native_packager_assignment_not_found")

def Record.ended (r : Record) (reasonCode : String) (now : Int) : Record :=
  { r with state := .failed, reasonCode := reasonCode, updatedAt := now }

def failPackager (packagerId reasonCode : String) (now : Int) : Stateful Registry Outcome := do
  let s ← get
  match s.byPackager.get packagerId, (s.byPackager.get packagerId).bind (s.records[·]?) with
  | some ref, some r =>
      if r.state.active = false then return .returns (.failed none)
      else do
        let r' := r.ended reasonCode now
        set (s.finish ref r')
        return .returns (.failed (some (snapshot r')))
  | _, _ => return .returns (.failed none)

/-- What the callback of `prune` does with an assignment that has run out:
it may stop assignments, and it may throw in the end. -/
structure Handled where
  stops : List StopCall
  result : Except String Unit

/-- A call of the callback's; what it throws stays there. -/
def stopQuietly (c : StopCall) : Stateful Registry Unit := fun s => .ok () (after (stop c s))

/-- The record is forgotten an hour after its end. -/
def sweep (now : Int) (ref : Nat) : Stateful Registry Unit :=
  modify fun s => match s.records[ref]? with
    | some r =>
        if r.state.active = false ∧ r.updatedAt ≤ now - 3600000 then
          { s with assignments := s.assignments.erase r.assignmentId }
        else s
    | none => s

/-- One round of `prune`. -/
def pruneRecord (now : Int) (onExpired : Snapshot → Command → Handled) (ref : Nat) :
    Stateful Registry Unit := do
  let s ← get
  match s.records[ref]? with
  | none => pure ()
  | some r => do
      if r.state.active = true ∧ r.expiresAt ≤ now then
        if r.state ≠ .draining ∨ r.reasonCode ≠ "LEASE_EXPIRED" then do
          let r' := r.drained "LEASE_EXPIRED" now
          set (s.put ref r')
          (onExpired (snapshot r') (stopCommand r')).stops.forM stopQuietly
          check (onExpired (snapshot r') (stopCommand r')).result
        else if r.updatedAt ≤ now - 30000 then
          set (s.finish ref (r.ended r.reasonCode now))
        else pure ()
      else pure ()
      sweep now ref

def prune (now : Int) (onExpired : Snapshot → Command → Handled) : Stateful Registry Outcome := do
  let s ← get
  s.assignments.values.forM (pruneRecord now onExpired)
  return .returns .pruned

/-! ## Runs -/

inductive Call
  | prepare (call : PrepareCall)
  | acknowledge (packagerId : String) (message : StatusMessage) (now : Int)
  | renew (packagerId : String) (now : Int)
  | stop (call : StopCall)
  | failPackager (packagerId reasonCode : String) (now : Int)
  | prune (now : Int) (onExpired : Snapshot → Command → Handled)

/-- What the ports say to the call that waits. -/
inductive Answer
  | admission (candidate : Except String Candidate) (source : Except String SourceAuthority)
      (deadline : Except String Int)
  | id (usage : Except String Unit) (id : Except String String)
  | iceServers (result : Except String Unit)
  | ledger (result : Except String Unit)
  | source (result : Except String SourceAuthority)
  | deadline (result : Except String Int)

inductive Event
  | call (call : Call)
  | answer (answer : Answer)

structure System where
  registry : Registry
  stack : List Frame

def begin : Call → Stateful Registry Outcome
  | .prepare c => prepare c
  | .acknowledge packagerId m now => acknowledge packagerId m now
  | .renew packagerId now => renew packagerId now
  | .stop c => stop c
  | .failPackager packagerId reasonCode now => failPackager packagerId reasonCode now
  | .prune now onExpired => prune now onExpired

/-- How a call goes on; an answer to another question is none. -/
def resume : Frame → Answer → Option (Stateful Registry Outcome)
  | .admitting c, .admission candidate source deadline => some (admitCandidate cfg c candidate source deadline)
  | .identifying p, .id usage id => some (identified cfg p usage id)
  | .equipping p id, .iceServers result => some (do
      check result
      equipped cfg p id)
  | .checking p id, .ledger result => some (do
      check result
      checked cfg p id)
  | .recording p id, .ledger result => some (do
      check result
      store p id)
  | .acknowledging m now ref, .source result => some (acknowledged m now ref result)
  | .renewing packagerId now ref previous, .deadline result =>
      some (renewing cfg packagerId now ref previous result)
  | .renewingSource packagerId now ref previous deadline, .source result =>
      some (renewingSource cfg packagerId now ref previous deadline result)
  | _, _ => none

/-- The system after a part of a call. -/
def settle (stack : List Frame) : EStateM.Result String Registry Outcome → System
  | .ok (.waits f) s => ⟨s, f :: stack⟩
  | .ok (.returns _) s => ⟨s, stack⟩
  | .error _ s => ⟨s, stack⟩

def next (s : System) : Event → Option System
  | .call c => some (settle s.stack (begin c s.registry))
  | .answer a =>
      match s.stack with
      | [] => none
      | f :: stack => (resume cfg f a).map fun x => settle stack (x s.registry)

def Step (s : System) (e : Event) (t : System) : Prop := next cfg s e = some t

end Calls

def start : System := ⟨.new, []⟩

/-! ## What the registry is for -/

/-- An active record is the one both indexes hold for its packager and for its
program. -/
def Exclusive (s : Registry) : Prop :=
  ∀ (ref : Nat) (r : Record), s.records[ref]? = some r → r.state.active = true →
    s.assignments.get r.assignmentId = some ref ∧ s.byPackager.get r.packagerId = some ref
      ∧ s.byProgram.get r.programId = some ref

/-- A packager and a program each have one active assignment at most. -/
def AtMostOne (s : Registry) : Prop :=
  ∀ (ref ref' : Nat) (r r' : Record), s.records[ref]? = some r → s.records[ref']? = some r' →
    r.state.active = true → r'.state.active = true →
      r.packagerId = r'.packagerId ∨ r.programId = r'.programId → ref = ref'

/-- No lease outlasts the deadline it was set under, nor the encoder time that
was reserved for it. -/
def Bounded (s : Registry) : Prop :=
  ∀ (ref : Nat) (r : Record), s.records[ref]? = some r →
    r.expiresAt ≤ r.deadline ∧ r.expiresAt ≤ r.encoderBudgetUntil

/-- Records that ended stay as they ended. -/
def StaysEnded (s t : Registry) : Prop :=
  ∀ (ref : Nat) (r : Record), s.records[ref]? = some r → r.state.active = false →
    ∃ r' : Record, t.records[ref]? = some r' ∧ r'.state = r.state

/-- The time of the renewal that waits here. -/
def Frame.renewal : Frame → Option Int
  | .renewing _ now _ _ => some now
  | .renewingSource _ now _ _ _ => some now
  | _ => none

/-- A lease changes in a renewal only, whose time is before the end of the
lease, and not once the record is draining. -/
def RenewsLive (s t : System) : Prop :=
  ∀ (ref : Nat) (r r' : Record), s.registry.records[ref]? = some r →
    t.registry.records[ref]? = some r' → r'.expiresAt ≠ r.expiresAt →
      r.state.renewable = true
        ∧ ∃ now, (s.stack.head?.bind Frame.renewal) = some now ∧ now < r.expiresAt

/-- The ledger is asked for the last time, or told. -/
def Frame.charging : Frame → Bool
  | .checking _ _ => true
  | .recording _ _ => true
  | _ => false

/-- The ledger does not prepare an assignment while a preparation waits for its
last answers. -/
def Calm (s : System) : Event → Prop
  | .call (.prepare _) => ∀ f ∈ s.stack, f.charging = false
  | _ => True

/-- The time a call is made for. -/
def Event.time : Event → Option Int
  | .call (.prepare c) => some c.now
  | .call (.acknowledge _ _ now) => some now
  | .call (.renew _ now) => some now
  | .call (.stop c) => some c.now
  | .call (.failPackager _ _ now) => some now
  | .call (.prune now _) => some now
  | .answer _ => none

/-- No call so far was for a later time. -/
def Before (es : List Event) (until' : Int) : Prop :=
  ∀ e ∈ es, ∀ now, e.time = some now → now ≤ until'

end NativeAssignments

end WebrtcMinimize
