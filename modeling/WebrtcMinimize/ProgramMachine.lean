import WebrtcMinimize.ProgramCommand

/-!
# The broadcast program state machine

`applyBroadcastProgramCommand` and `renewBroadcastWriterLeases`, one
definition for each function of the source and in its order. A handler gets
the validated snapshot together with the program that stands in it and
returns the next snapshot with its effects; the ledger entry is added
afterwards by `recordResult`, which validates the whole snapshot again.

A patch of program fields is given as the patched program: `updateProgram`
and `rollProgramEpoch` then overwrite the fields they own (the revision, the
update time, the epoch).
-/

namespace WebrtcMinimize

open Checks

/-! ## Effects -/

/-- The type of an effect with its own fields. -/
inductive EffectDetail where
  | prepareProgram (requiresConsent : Option Bool) (reasonCode : Option String)
  | programStateChanged (state : ProgramState)
  | fencePreviousWriters (previousLeaseEpoch : Nat) (reasonCode : Option String)
  | cleanupPreviousProgramEpoch (previousProgramEpoch : Nat) (reasonCode : Option String)
  | revokeProgramGrants (previousProgramEpoch : Option Nat) (reasonCode : String)
  | prepareOutputGeneration
  | writerHandoff (role : WriterRole) (leaseId holderRef : String)
      (fencingRevision expiresAt : Nat)
  | stopDelivery (reasonCode : String)
  | cleanupProgramSources (reasonCode : String)
  | fenceWriter (role : WriterRole) (reasonCode : String)
  | requestWriterHandoff (role : WriterRole) (reasonCode : String)
  | cleanupComplete (reasonCode : String)
  | reconfigureDeliveryVisibility (visibility : Visibility) (policyHash : String)
deriving DecidableEq, Repr

structure Effect where
  detail : EffectDetail
  tenantId : String
  roomId : String
  programId : String
  programRevision : Nat
  programEpoch : Nat
  leaseEpoch : Nat
deriving DecidableEq, Repr

/-- An effect of a snapshot; every caller's snapshot has a program. -/
def effect (state : Machine) (detail : EffectDetail) : Effect :=
  { detail
    tenantId := state.scope.tenantId
    roomId := state.scope.roomId
    programId := state.scope.programId
    programRevision := (state.program.map (·.revision)).getD 0
    programEpoch := state.epochs.broadcast
    leaseEpoch := state.epochs.lease }

/-- What a handler returns. -/
structure Applied where
  state : Machine
  effects : List Effect
deriving DecidableEq, Repr

/-- What a command returns. -/
structure CommandResult where
  state : Machine
  duplicate : Bool
  effects : List Effect
deriving DecidableEq, Repr

/-! ## Updates -/

/-- The `broadcast-program` row of `TRANSITIONS`. -/
def ProgramState.targets : ProgramState → List ProgramState
  | .draft => [.preparing, .stopped]
  | .preparing => [.awaitingConsent, .publishing, .stopping, .failed]
  | .awaitingConsent => [.publishing, .stopping, .failed]
  | .publishing => [.live, .degraded, .stopping, .failed]
  | .live => [.degraded, .stopping, .failed]
  | .degraded => [.live, .publishing, .stopping, .failed]
  | .stopping => [.stopped, .failed]
  | .failed => [.preparing, .stopped]
  | .stopped => []

/-- `assertBroadcastTransition` between two programs. -/
def assertBroadcastTransition (previousValue nextValue : Program)
    (context : ContractContext) : Except String Program := do
  let previous ← validateProgram previousValue context
  let next ← validateProgram nextValue context
  failIf (previous.programId ≠ next.programId ∨ previous.tenantId ≠ next.tenantId
      ∨ previous.roomId ≠ next.roomId ∨ previous.programEpoch ≠ next.programEpoch)
    "broadcast_transition_binding_mismatch"
  failIf (next.revision ≠ previous.revision + 1) "stale_broadcast_revision"
  failIf (next.updatedAt < previous.updatedAt) "stale_broadcast_update"
  failIf (previous.state ≠ next.state ∧ next.state ∉ previous.state.targets)
    "invalid_broadcast_transition"
  return next

def updateProgram (state : Machine) (program patched : Program) (now : Nat) :
    Except String Machine := do
  let next := { patched with revision := program.revision + 1, updatedAt := now }
  let program ← assertBroadcastTransition program next
    (broadcastContractContext state.scope state.epochs.broadcast false)
  return { state with program := some program }

def rollProgramEpoch (state : Machine) (program patched : Program) (now : Nat) :
    Except String Machine := do
  let broadcast := state.epochs.broadcast + 1
  let lease := state.epochs.lease + 1
  let next := { patched with
    revision := program.revision + 1, programEpoch := broadcast, updatedAt := now }
  let program ← validateProgram next (broadcastContractContext state.scope broadcast false)
  return { state with
    epochs := { state.epochs with broadcast, lease }
    program := some program
    writerLeases := [] }

def activeWriter (state : Machine) (role : WriterRole) : Option Lease :=
  state.writerLeases.find? fun lease => lease.role == role

def assertFreshWriter (state : Machine) (now : Nat) (role : WriterRole) :
    Except String Unit :=
  failIf ((activeWriter state role).all fun lease => decide (lease.expiresAt ≤ now))
    "broadcast_writer_not_ready"

def assertFreshWriters (state : Machine) (now : Nat) : Except String Unit := do
  assertFreshWriter state now .packagerWriter
  assertFreshWriter state now .gatewayWriter

/-! ## Handlers -/

def applyCreate (state : Machine) (command : Command) (visibility : Visibility)
    (title viewerPolicyId : Option String) (now : Nat) : Except String Applied := do
  failIf (state.program ≠ none) "broadcast_program_already_exists"
  failIf (command.actorSubjectRef ≠ state.scope.ownerSubjectRef) "broadcast_owner_mismatch"
  let program ← validateProgram
    { tenantId := state.scope.tenantId
      ownerSubjectRef := state.scope.ownerSubjectRef
      roomId := state.scope.roomId
      programId := state.scope.programId
      revision := 1
      programEpoch := state.epochs.broadcast
      state := .draft
      visibility, title
      sourceIds := none
      publicationIds := none
      endpointIds := none
      captionTrackIds := none
      viewerPolicyId
      createdAt := now
      updatedAt := now }
    (broadcastContractContext state.scope state.epochs.broadcast false)
  return ⟨{ state with program := some program }, []⟩

def applyStart (state : Machine) (program : Program) (requiresConsent : Bool) (now : Nat) :
    Except String Applied := do
  failIf (program.state ≠ .draft) "invalid_broadcast_start_state"
  let next ← updateProgram state program { program with state := .preparing } now
  return ⟨next, [effect next (.prepareProgram (some requiresConsent) none)]⟩

def applyAdvance (state : Machine) (program : Program) (toState : AdvanceTarget)
    (now : Nat) : Except String Applied :=
  if program.state = toState.state then
    .ok ⟨state, []⟩
  else do
    if toState = .publishing ∨ toState = .live then
      assertFreshWriters state now
    let next ← updateProgram state program { program with state := toState.state } now
    return ⟨next, [effect next (.programStateChanged toState.state)]⟩

/-- The states nothing is published from any more. -/
def ProgramState.ended (s : ProgramState) : Bool :=
  s = .stopping || s = .stopped || s = .failed

def applySourceChange (state : Machine) (program : Program) (sourceIds : List String)
    (now : Nat) : Except String Applied := do
  failIf program.state.ended "invalid_broadcast_source_change_state"
  if program.sourceIds.getD [] = sourceIds then
    return ⟨state, []⟩
  else
    let nextState := if program.state = .draft then .draft else .preparing
    let next ← rollProgramEpoch state program
      { program with state := nextState, sourceIds := some sourceIds } now
    return ⟨next, [effect next (.fencePreviousWriters state.epochs.lease none),
        effect next (.cleanupPreviousProgramEpoch state.epochs.broadcast none),
        effect next (.prepareProgram none none)]⟩

def applyOutputRestart (state : Machine) (program : Program) (expectedLeaseEpoch : Nat)
    (reasonCode : String) (now : Nat) : Except String Applied := do
  failIf (program.state ≠ .live ∧ program.state ≠ .degraded)
    "invalid_broadcast_output_restart_state"
  failIf (expectedLeaseEpoch ≠ state.epochs.lease) "stale_broadcast_lease_epoch"
  let next ← rollProgramEpoch state program { program with state := .preparing } now
  return ⟨next, [effect next (.fencePreviousWriters state.epochs.lease none),
      effect next (.revokeProgramGrants (some state.epochs.broadcast) reasonCode),
      effect next .prepareOutputGeneration]⟩

def applyHandoff (state : Machine) (program : Program) (expectedLeaseEpoch : Nat)
    (value : Lease) (now : Nat) : Except String Applied := do
  failIf program.state.ended "invalid_broadcast_handoff_state"
  failIf (expectedLeaseEpoch ≠ state.epochs.lease) "stale_broadcast_lease_epoch"
  let lease ← validateLease value
    (broadcastContractContext state.scope state.epochs.broadcast true) now
  failIf (lease.status ≠ .active) "invalid_broadcast_writer_lease"
  failIf (lease.fencingRevision ≠ state.epochs.lease + 1)
    "invalid_broadcast_fencing_revision"
  failIf (state.writerLeases.any (·.leaseId = lease.leaseId)) "duplicate_broadcast_lease_id"
  let leases := sortLeases (state.writerLeases.filter (·.role ≠ lease.role) ++ [lease])
  let withLease := { state with
    epochs := { state.epochs with lease := lease.fencingRevision }
    writerLeases := leases }
  let next ← updateProgram withLease program program now
  return ⟨next, [effect next (.writerHandoff lease.role lease.leaseId lease.holderRef
      lease.fencingRevision lease.expiresAt)]⟩

def stopEffects (next : Machine) (reasonCode : String) : List Effect :=
  [effect next (.revokeProgramGrants none reasonCode), effect next (.stopDelivery reasonCode),
    effect next (.cleanupProgramSources reasonCode)]

/-- The extra patch is the source list that a revocation leaves. -/
def requestStop (state : Machine) (program : Program) (reasonCode : String) (now : Nat)
    (extraPatch : Option (List String)) : Except String Applied :=
  let patched := { program with sourceIds := extraPatch.or program.sourceIds }
  match program.state with
  | .draft | .failed => do
      let next ← updateProgram state program { patched with state := .stopped } now
      return ⟨next, stopEffects next reasonCode⟩
  | .stopped => .ok ⟨state, []⟩
  | .stopping =>
      if extraPatch.isSome then do
        let next ← updateProgram state program patched now
        return ⟨next, stopEffects next reasonCode⟩
      else
        .ok ⟨state, []⟩
  | _ => do
      let next ← updateProgram state program { patched with state := .stopping } now
      return ⟨next, stopEffects next reasonCode⟩

def applyRevoke (state : Machine) (program : Program) (target : RevokeTarget)
    (targetRef reasonCode : String) (now : Nat) : Except String Applied :=
  let currentSourceIds := program.sourceIds.getD []
  let nextSourceIds := currentSourceIds.filter (· ≠ targetRef)
  let patch :=
    if target = .source ∧ nextSourceIds.length ≠ currentSourceIds.length then
      some nextSourceIds
    else
      none
  requestStop state program reasonCode now patch

def applyFail (state : Machine) (program : Program) (reasonCode : String) (now : Nat) :
    Except String Applied := do
  failIf (program.state = .stopped) "broadcast_program_terminal"
  failIf (program.state = .draft) "invalid_broadcast_failure_state"
  if program.state = .failed then
    return ⟨state, []⟩
  else
    let next ← updateProgram state program { program with state := .failed } now
    return ⟨next, [effect next (.revokeProgramGrants none reasonCode),
        effect next (.cleanupProgramSources reasonCode)]⟩

def applyRetry (state : Machine) (program : Program) (reasonCode : String) (now : Nat) :
    Except String Applied := do
  failIf (program.state ≠ .failed) "invalid_broadcast_retry_state"
  let next ← rollProgramEpoch state program { program with state := .preparing } now
  return ⟨next, [effect next (.fencePreviousWriters state.epochs.lease (some reasonCode)),
      effect next (.cleanupPreviousProgramEpoch state.epochs.broadcast (some reasonCode)),
      effect next (.prepareProgram none (some reasonCode))]⟩

/-- The lease a writer event is about, if it still is the current one. -/
def assertCurrentLease (state : Machine) (role : Option WriterRole)
    (leaseId : Option String) (fencingRevision : Option Nat) : Except String Lease :=
  match role.bind (activeWriter state) with
  | none => .error "stale_broadcast_writer_event"
  | some lease => do
      failIf (some lease.leaseId ≠ leaseId ∨ some lease.fencingRevision ≠ fencingRevision)
        "stale_broadcast_writer_event"
      return lease

def applyWriterLifecycle (state : Machine) (program : Program)
    (trigger : LifecycleTrigger) (role : Option WriterRole) (leaseId : Option String)
    (fencingRevision : Option Nat) (reasonCode : String) (now : Nat) :
    Except String Applied := do
  let lostLease ← assertCurrentLease state role leaseId fencingRevision
  failIf (program.state = .stopped) "broadcast_program_terminal"
  let withoutWriter := { state with
    epochs := { state.epochs with lease := state.epochs.lease + 1 }
    writerLeases := state.writerLeases.filter (·.role ≠ lostLease.role) }
  if trigger = .processAbort then
    failIf (program.state = .draft) "invalid_broadcast_failure_state"
    let next ←
      if program.state = .failed then
        pure withoutWriter
      else
        updateProgram withoutWriter program { program with state := .failed } now
    return ⟨next, [effect next (.fenceWriter lostLease.role reasonCode),
        effect next (.revokeProgramGrants none reasonCode),
        effect next (.cleanupProgramSources reasonCode)]⟩
  else
    let nextState :=
      if program.state = .publishing ∨ program.state = .live then .degraded
      else program.state
    let degraded ← updateProgram withoutWriter program
      { program with state := nextState } now
    let recoverable := program.state ≠ .stopping ∧ program.state ≠ .failed
    return ⟨degraded, effect degraded (.fenceWriter lostLease.role reasonCode)
        :: if recoverable then
            [effect degraded (.requestWriterHandoff lostLease.role reasonCode)]
          else []⟩

def applyLifecycle (state : Machine) (program : Program) (trigger : LifecycleTrigger)
    (role : Option WriterRole) (leaseId : Option String) (fencingRevision : Option Nat)
    (reasonCode : String) (now : Nat) : Except String Applied :=
  if trigger.writer then
    applyWriterLifecycle state program trigger role leaseId fencingRevision reasonCode now
  else
    requestStop state program reasonCode now none

def applyCleanupComplete (state : Machine) (program : Program) (reasonCode : String)
    (now : Nat) : Except String Applied :=
  if program.state = .stopped then
    .ok ⟨state, []⟩
  else do
    failIf (program.state ≠ .stopping ∧ program.state ≠ .failed)
      "invalid_broadcast_cleanup_state"
    let fenced := { state with
      epochs := { state.epochs with lease := state.epochs.lease + 1 }
      writerLeases := [] }
    let next ← updateProgram fenced program { program with state := .stopped } now
    return ⟨next, [effect next (.cleanupComplete reasonCode)]⟩

def applyVisibilityChange (state : Machine) (program : Program) (visibility : Visibility)
    (policyHash : String) (now : Nat) : Except String Applied := do
  failIf (program.viewerPolicyId = none) "broadcast_viewer_policy_required"
  let next ← rollProgramEpoch state program { program with visibility } now
  return ⟨next,
    [effect next (.fencePreviousWriters state.epochs.lease (some "AUDIENCE_POLICY_CHANGED")),
      effect next (.revokeProgramGrants (some state.epochs.broadcast) "AUDIENCE_POLICY_CHANGED"),
      effect next (.reconfigureDeliveryVisibility visibility policyHash)]⟩

/-! ## Commands -/

def assertScope (state : Machine) (command : Command) : Except String Unit :=
  failIf (state.scope.tenantId ≠ command.tenantId ∨ state.scope.roomId ≠ command.roomId
      ∨ state.scope.programId ≠ command.programId)
    "broadcast_command_scope_mismatch"

/-- The record of an earlier use of the command's key, if there is one. -/
def duplicateRecord (state : Machine) (command : Command) : Option CommandRecord :=
  state.appliedCommands.find? fun record =>
    record.idempotencyKeyHash == command.idempotencyKeyHash

def duplicateResult (state : Machine) (command : Command) (record : CommandRecord) :
    Except String CommandResult := do
  failIf (record.commandHash ≠ broadcastProgramCommandHash command ∨ record.action ≠ command.action)
    "broadcast_idempotency_key_reused"
  return ⟨state, true, []⟩

/-- The program a command other than `create` is about. -/
def assertCurrent (state : Machine) (command : Command) : Except String Program :=
  match state.program with
  | none => .error "broadcast_program_not_created"
  | some program => do
      failIf (command.expectedRevision ≠ some program.revision) "stale_broadcast_revision"
      failIf (command.expectedBroadcastEpoch ≠ some state.epochs.broadcast)
        "stale_broadcast_epoch"
      return program

def recordOf (next : Machine) (command : Command) : CommandRecord :=
  { idempotencyKeyHash := command.idempotencyKeyHash
    commandHash := broadcastProgramCommandHash command
    action := command.action
    appliedRevision := (next.program.map (·.revision)).getD 1 }

def recordResult (previousState : Machine) (applied : Applied) (command : Command) :
    Except String CommandResult := do
  failIf (maxBroadcastIdempotencyRecords ≤ previousState.appliedCommands.length)
    "broadcast_idempotency_capacity_exhausted"
  let state ← validateBroadcastProgramMachine { applied.state with
    appliedCommands := previousState.appliedCommands ++ [recordOf applied.state command] }
  return ⟨state, false, applied.effects⟩

/-- The handler of a command other than `create`. -/
def applyPayload (state : Machine) (program : Program) (now : Nat) :
    Payload → Except String Applied
  | .create .. => .error "broadcast_program_already_exists"
  | .start requiresConsent => applyStart state program requiresConsent now
  | .advance toState => applyAdvance state program toState now
  | .sourceChange sourceIds => applySourceChange state program sourceIds now
  | .outputRestart expectedLeaseEpoch reasonCode =>
      applyOutputRestart state program expectedLeaseEpoch reasonCode now
  | .handoff expectedLeaseEpoch lease => applyHandoff state program expectedLeaseEpoch lease now
  | .revoke target targetRef reasonCode =>
      applyRevoke state program target targetRef reasonCode now
  | .stop reasonCode => requestStop state program reasonCode now none
  | .fail reasonCode => applyFail state program reasonCode now
  | .retry reasonCode => applyRetry state program reasonCode now
  | .lifecycle trigger role leaseId fencingRevision reasonCode =>
      applyLifecycle state program trigger role leaseId fencingRevision reasonCode now
  | .cleanupComplete reasonCode => applyCleanupComplete state program reasonCode now
  | .visibilityChange visibility policyHash =>
      applyVisibilityChange state program visibility policyHash now

/-- The command's handler on the state it expects. -/
def applyCurrent (state : Machine) (command : Command) (now : Nat) :
    Except String Applied :=
  match command.payload with
  | .create visibility title viewerPolicyId =>
      applyCreate state command visibility title viewerPolicyId now
  | payload => do
      let program ← assertCurrent state command
      applyPayload state program now payload

def applyBroadcastProgramCommand (value : Machine) (input : Command) (now : Nat) :
    Except String CommandResult := do
  let state ← validateBroadcastProgramMachine value
  let command ← normalizeBroadcastProgramCommand input
  assertScope state command
  match duplicateRecord state command with
  | some record => duplicateResult state command record
  | none => do
      let result ← applyCurrent state command now
      recordResult state result command

/-! ## Renewal -/

structure Renewal where
  holderRef : String
  fencingRevision : Nat
  expiresAt : Nat
deriving DecidableEq, Repr

/-- The longest a writer lease is renewed for, in milliseconds. -/
def maxLeaseRenewal : Nat := 120000

def renewLease (state : Machine) (expiresAt now : Nat) (current : Lease) :
    Except String Lease :=
  if current.status ≠ .active then
    .ok current
  else
    validateLease
      { current with revision := current.revision + 1, renewedAt := now, expiresAt }
      (broadcastContractContext state.scope state.epochs.broadcast true) now

def renewBroadcastWriterLeases (stateValue : Machine) (renewal : Renewal) (now : Nat) :
    Except String Machine := do
  let state ← validateBroadcastProgramMachine stateValue
  failIf (refOK "pkr_" renewal.holderRef = false ∨ positiveIntegerOK renewal.fencingRevision = false
      ∨ maxSafeInteger < renewal.expiresAt
      ∨ renewal.expiresAt ≤ now ∨ now + maxLeaseRenewal < renewal.expiresAt
      ∨ state.program.any (·.state.ended))
    "invalid_broadcast_lease_renewal"
  let stale := (activeWriter state .packagerWriter).all fun packager =>
    packager.holderRef ≠ renewal.holderRef
      || packager.fencingRevision ≠ renewal.fencingRevision
      || decide (packager.expiresAt ≤ now)
  failIf stale "stale_broadcast_lease_renewal"
  let writerLeases ← state.writerLeases.mapM (renewLease state renewal.expiresAt now)
  validateBroadcastProgramMachine { state with writerLeases }

end WebrtcMinimize
