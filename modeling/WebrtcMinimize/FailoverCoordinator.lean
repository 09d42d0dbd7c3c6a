import WebrtcMinimize.FailoverModel

/-!
# The failover coordinator

The coordinator's calls. A call looks its program up by tenant and program
id and then works on that program alone, in place: what it changed before it
throws stays changed. An attempt is therefore a pair, the program as the call
leaves it and what the call returned or threw.

The failover counters are left out: the coordinator writes them for its
metrics and no decision reads them.
-/

namespace WebrtcMinimize

open Checks

/-- The checked options of the constructor. -/
structure FailoverConfig where
  leaseTtlMs : Nat
  graceMs : Nat
  recoveryDeadlineMs : Nat
  maxStandbys : Nat
  leaseTtl_range : 5000 ≤ leaseTtlMs ∧ leaseTtlMs ≤ 120000
  grace_range : graceMs ≤ leaseTtlMs
  recoveryDeadline_range : graceMs + 1 ≤ recoveryDeadlineMs ∧ recoveryDeadlineMs ≤ 300000
  maxStandbys_range : 1 ≤ maxStandbys ∧ maxStandbys ≤ 4

def createFailoverConfig (leaseTtlMs graceMs recoveryDeadlineMs maxStandbys : Nat) :
    Except String FailoverConfig :=
  if httl : 5000 ≤ leaseTtlMs ∧ leaseTtlMs ≤ 120000 then
    if hgrace : graceMs ≤ leaseTtlMs then
      if hdeadline : graceMs + 1 ≤ recoveryDeadlineMs ∧ recoveryDeadlineMs ≤ 300000 then
        if hstandbys : 1 ≤ maxStandbys ∧ maxStandbys ≤ 4 then
          .ok ⟨leaseTtlMs, graceMs, recoveryDeadlineMs, maxStandbys, httl, hgrace, hdeadline,
            hstandbys⟩
        else .error "invalid_broadcast_failover_config"
      else .error "invalid_broadcast_failover_config"
    else .error "invalid_broadcast_failover_config"
  else .error "invalid_broadcast_failover_config"

/-- The options the constructor has when it is given none. -/
def FailoverConfig.default : FailoverConfig :=
  ⟨15000, 5000, 30000, 2, by decide, by decide, by decide, by decide⟩

/-- The program as a call leaves it, and what the call returned or threw. -/
abbrev Attempt (α : Type) := FailoverProgram × Except String α

/-! ## Results -/

structure StandbyView where
  holderRef : String
  deviceRef : String
  health : Health
  consent : DecryptConsent
deriving DecidableEq, Repr

structure RoleView where
  role : WriterRole
  active : Option ActiveWriter
  standbys : List StandbyView
  failureSince : Option Nat
  lastFailureType : Option FailureType
deriving DecidableEq, Repr

/-- What `acquire` and `evaluate` decided. -/
inductive Decision where
  | none (active : ActiveWriter)
  | grace (failureType : FailureType) (graceUntil : Nat)
  | stop (failureType : FailureType) (recovery : Recovery) (reasonCode : String)
  | acquired (active : ActiveWriter) (recovery : Recovery)
  | takeover (failureType : FailureType) (active : ActiveWriter) (recovery : Recovery)
deriving DecidableEq, Repr

/-- The lease a decision hands out. -/
def Decision.promoted : Decision → Option ActiveWriter
  | .acquired active _ => some active
  | .takeover _ active _ => some active
  | .none _ => Option.none
  | .grace _ _ => Option.none
  | .stop _ _ _ => Option.none

def Decision.isStop : Decision → Bool
  | .stop _ _ _ => true
  | _ => false

inductive HeartbeatResult where
  | missed (graceUntil : Nat)
  | accepted (expiresAt : Nat)
deriving DecidableEq, Repr

/-! ## One program -/

namespace FailoverProgram

def emit (p : FailoverProgram) (type : FailoverEventType) (role : WriterRole)
    (occurredAt : Nat) (fields : EventFields) : Attempt Unit :=
  if maxOutbox ≤ p.outbox.length then (p, .error "broadcast_failover_outbox_exhausted")
  else
    let sequence := increment p.sequence
    let event : OutboxEvent :=
      { eventId := eventId p.scope sequence type
        type
        tenantId := p.scope.tenantId
        roomId := p.scope.roomId
        programId := p.scope.programId
        programEpoch := p.scope.programEpoch
        role, occurredAt, fields }
    ({ p with sequence, outbox := p.outbox ++ [event] }, .ok ())

/-- The lease `#promote` gives a candidate under a fencing revision. -/
def newLease (config : FailoverConfig) (p : FailoverProgram) (role : WriterRole)
    (candidate : Candidate) (fencingRevision now : Nat) : ActiveWriter :=
  { leaseId := leaseId p.scope role fencingRevision candidate.holderRef
    holderRef := candidate.holderRef
    deviceRef := candidate.deviceRef
    fencingRevision
    issuedAt := now
    lastHeartbeatAt := now
    expiresAt := now + config.leaseTtlMs
    access := match role with
      | .packagerWriter => .sourceAndDecrypt
      | .gatewayWriter => .gatewayWriter }

/-- `#promote`; without a failure type it is a first acquisition. -/
def promote (config : FailoverConfig) (p : FailoverProgram) (role : WriterRole)
    (candidate : Candidate) (now : Nat) (failureType : Option FailureType) :
    Attempt Decision :=
  let fencingRevision := increment p.fencingRevision
  let active := newLease config p role candidate fencingRevision now
  let promoted := { p with fencingRevision }.setRole role
    { p.role role with active := some active, failureSince := none }
  let recovery := recoveryFor failureType true
  let sent := promoted.emit
    (if failureType.isSome then .writerTakeover else .writerAcquired) role now
    { failureType := some failureType
      fencingRevision := some active.fencingRevision
      disposition := some recovery.disposition }
  (sent.1, sent.2.map fun _ => match failureType with
    | some failure => .takeover failure active recovery
    | none => .acquired active recovery)

/-- Every role without its lease. -/
def clearActive (roles : RoleStates) : RoleStates :=
  ⟨{ roles.packagerWriter with active := none }, { roles.gatewayWriter with active := none }⟩

def stop (p : FailoverProgram) (role : WriterRole) (failureType : FailureType) (now : Nat)
    (reasonCode : String) : Attempt Decision :=
  let fencingRevision := increment p.fencingRevision
  let stopped := { p with stopped := true, roles := clearActive p.roles, fencingRevision }
  let recovery := recoveryFor (some failureType) false
  let sent := stopped.emit .programStopped role now
    { failureType := some (some failureType)
      fencingRevision := some fencingRevision
      disposition := some recovery.disposition
      reasonCode := some reasonCode }
  (sent.1, sent.2.map fun _ => .stop failureType recovery reasonCode)

/-- The standbys of a role that are not its active holder. -/
def standbys (config : FailoverConfig) (state : RoleState) (now : Nat) : List StandbyView :=
  ((state.candidates.filter fun candidate =>
    some candidate.holderRef ≠ state.active.map (·.holderRef)).take config.maxStandbys).map
    fun candidate =>
      { holderRef := candidate.holderRef
        deviceRef := candidate.deviceRef
        health := candidate.health
        consent := if candidate.decryptConsent ≠ .none ∧ now < candidate.consentExpiresAt then
          candidate.decryptConsent else .none }

def roleSnapshot (config : FailoverConfig) (p : FailoverProgram) (role : WriterRole)
    (now : Nat) : RoleView :=
  let state := p.role role
  { role
    active := state.active
    standbys := standbys config state now
    failureSince := state.failureSince
    lastFailureType := state.lastFailureType }

/-- A candidate's identity is its two references; neither holds the colon the
source joins them with. -/
def configureCandidates (config : FailoverConfig) (p : FailoverProgram) (role : WriterRole)
    (candidatesInput : List Candidate) (now : Nat) : Attempt RoleView :=
  let checked : Except String (List Candidate) := do
    failIf (maxCandidates < candidatesInput.length) "invalid_broadcast_failover_candidates"
    let candidates ← candidatesInput.mapM (normalizeCandidate · now)
    failIf (¬(candidates.map fun c => (c.holderRef, c.deviceRef)).Nodup)
      "duplicate_broadcast_failover_candidate"
    return candidates.insertionSort ConfiguredLe
  match checked with
  | .error code => (p, .error code)
  | .ok candidates =>
      let sent := (p.setRole role { p.role role with candidates }).emit .standbysConfigured role
        now { standbyCount := some (min candidates.length config.maxStandbys) }
      (sent.1, sent.2.map fun _ => sent.1.roleSnapshot config role now)

/-- The failure a role has when no signal names another. -/
def ownFailure : WriterRole → FailureType
  | .packagerWriter => .packager
  | .gatewayWriter => .gateway

def acquire (config : FailoverConfig) (p : FailoverProgram) (role : WriterRole) (now : Nat) :
    Attempt Decision :=
  let state := p.role role
  if p.stopped then (p, .error "broadcast_failover_program_stopped")
  else if state.active.any (now < ·.expiresAt) then (p, .error "broadcast_failover_writer_exists")
  else match deterministicCandidates state.candidates now (state.active.map (·.holderRef)) with
    | [] => p.stop role (ownFailure role) now "NO_AUTHORIZED_STANDBY"
    | candidate :: _ => p.promote config role candidate now none

/-- A heartbeat for the lease that is active counts as healthy with good
health and a quorum, whose votes are then checked. -/
def heartbeatHealthy (input : Heartbeat) : Except String Bool :=
  if input.health = .healthy then quorumHealthy input.quorum else .ok false

def heartbeat (config : FailoverConfig) (p : FailoverProgram) (role : WriterRole)
    (input : Heartbeat) (now : Nat) : Attempt HeartbeatResult :=
  let state := p.role role
  match cloneOK input.toJson "invalid_broadcast_failover_input" with
  | .error code => (p, .error code)
  | .ok () =>
    match state.active with
    | none => (p, .error "stale_broadcast_failover_heartbeat")
    | some active =>
      if active.claim ≠ input.toLeaseClaim then (p, .error "stale_broadcast_failover_heartbeat")
      else match heartbeatHealthy input with
        | .error code => (p, .error code)
        | .ok false =>
            let failureSince := state.failureSince.getD now
            (p.setRole role { state with failureSince := some failureSince },
              .ok (.missed (failureSince + config.graceMs)))
        | .ok true =>
            let expiresAt := now + config.leaseTtlMs
            (p.setRole role { state with
                active := some { active with lastHeartbeatAt := now, expiresAt }
                failureSince := none },
              .ok (.accepted expiresAt))

/-- The role needs no failover: its lease is good, no signal is bad and no
failure is being timed. -/
def undisturbed (state : RoleState) (signals : Signals) (now : Nat) : Bool :=
  state.active.any (now < ·.expiresAt) && signals.healthy && state.failureSince.isNone

def failureTypeOf (role : WriterRole) (signals : Signals) : FailureType :=
  if signals.writer = .unavailable ∨ signals.healthy then ownFailure role
  else classifyBroadcastFailure signals

/-- When the failure that is being timed began; an expiry of zero counts as
none. -/
def failureStart (state : RoleState) (now : Nat) : Nat :=
  state.failureSince.getD (min now (match state.active with
    | some active => if active.expiresAt = 0 then now else active.expiresAt
    | none => now))

/-- The role with the failure noted. -/
def noted (p : FailoverProgram) (role : WriterRole) (signals : Signals) (now : Nat) :
    FailoverProgram :=
  let state := p.role role
  p.setRole role
    { state with
      failureSince := some (failureStart state now)
      lastFailureType := some (failureTypeOf role signals) }

/-- Report the lease that is taken away, and take it away. -/
def fence (p : FailoverProgram) (role : WriterRole) (failureType : FailureType) (now : Nat) :
    Attempt Unit :=
  let state := p.role role
  match state.active with
  | none => (p, .ok ())
  | some active =>
    match p.emit .writerFenced role now
        { failureType := some (some failureType)
          fencingRevision := some active.fencingRevision } with
    | (q, .error code) => (q, .error code)
    | (q, .ok ()) => (q.setRole role { state with active := none }, .ok ())

/-- Too late, or nothing to take over from. -/
def unsafeRecovery (config : FailoverConfig) (role : WriterRole) (signals : Signals)
    (failureSince now : Nat) : Bool :=
  decide (failureTypeOf role signals = .browser)
    || decide (failureSince + config.recoveryDeadlineMs < now)

/-- `evaluate` behind the grace period, on the program without the lease. -/
def recover (config : FailoverConfig) (p : FailoverProgram) (role : WriterRole)
    (signals : Signals) (failureSince : Nat) (excludeRef : Option String) (now : Nat) :
    Attempt Decision :=
  let failureType := failureTypeOf role signals
  if unsafeRecovery config role signals failureSince now then
    p.stop role failureType now "RECOVERY_NOT_SAFE"
  else match deterministicCandidates (p.role role).candidates now excludeRef with
    | [] => p.stop role failureType now "NO_AUTHORIZED_STANDBY"
    | candidate :: _ => p.promote config role candidate now (some failureType)

def evaluate (config : FailoverConfig) (p : FailoverProgram) (role : WriterRole)
    (signals : Signals) (now : Nat) : Attempt Decision :=
  let state := p.role role
  match state.active, undisturbed state signals now with
  | some active, true => (p, .ok (.none active))
  | _, _ =>
      let failureType := failureTypeOf role signals
      let failureSince := failureStart state now
      let p := p.noted role signals now
      if now < failureSince + config.graceMs then
        (p, .ok (.grace failureType (failureSince + config.graceMs)))
      else match p.fence role failureType now with
        | (q, .error code) => (q, .error code)
        | (q, .ok ()) =>
            q.recover config role signals failureSince (state.active.map (·.holderRef)) now

def authorizeWriter (p : FailoverProgram) (role : WriterRole) (lease : LeaseClaim)
    (now : Nat) : Except String Unit := do
  cloneOK lease.toJson "invalid_broadcast_failover_input"
  failIf (p.stopped = true ∨ ¬(p.role role).active.any fun active =>
      now < active.expiresAt ∧ active.claim = lease)
    "invalid_broadcast_failover_fence"

def acknowledge (p : FailoverProgram) (eventId : String) : Attempt Bool :=
  if sha256OK eventId then
    let outbox := p.outbox.filter (·.eventId ≠ eventId)
    ({ p with outbox }, .ok (decide (p.outbox.length ≠ outbox.length)))
  else (p, .error "invalid_broadcast_failover_event")

def snapshot (p : FailoverProgram) : FailoverSnapshot :=
  { scope := p.scope
    fencingRevision := p.fencingRevision
    stopped := p.stopped
    roles := [WriterRole.packagerWriter, .gatewayWriter].map fun role =>
      { role
        active := (p.role role).active
        failureSince := (p.role role).failureSince
        lastFailureType := (p.role role).lastFailureType }
    outbox := p.outbox
    sequence := p.sequence }

end FailoverProgram

/-! ## Restoring a program -/

/-- The bytes of a text in lower case. -/
def lowerBytes (bytes : List Nat) : List Nat :=
  bytes.map fun b => if upperByte b then b + 32 else b

/-- `text.includes(part)` -/
def includesBytes (part : List Nat) : List Nat → Bool
  | [] => part.isEmpty
  | b :: bs => part.isPrefixOf (b :: bs) || includesBytes part bs

/-- Words that may not stand as a text of their own in a snapshot. -/
def forbiddenTerms : List String :=
  ["media", "sframe", "decryptkey", "transcript", "captiontext"]

def forbiddenRecoveryState (snapshot : FailoverSnapshot) : Bool :=
  let text := lowerBytes snapshot.toJson.render
  forbiddenTerms.any fun term => includesBytes (Json.quote term) text

/-- The role states of a snapshot, role by role. -/
def restoreRoles (fencingRevision : Nat) :
    List RoleSnapshot → List WriterRole → RoleStates → Except String RoleStates
  | [], _, roles => .ok roles
  | state :: rest, seen, roles => do
      failIf (state.role ∈ seen) "invalid_broadcast_failover_snapshot"
      let active ← normalizeActive state.active
      failIf (state.failureSince.any (timestampOK · = false)) "invalid_broadcast_failover_snapshot"
      failIf (active.any (fencingRevision < ·.fencingRevision))
        "invalid_broadcast_failover_snapshot"
      restoreRoles fencingRevision rest (state.role :: seen)
        (roles.set state.role ⟨[], active, state.failureSince, state.lastFailureType⟩)

/-- `restore` up to the point where the program is stored. -/
def restoreProgram (snapshot : FailoverSnapshot) : Except String FailoverProgram := do
  cloneOK snapshot.toJson "invalid_broadcast_failover_snapshot"
  failIf (snapshot.roles.length ≠ 2) "invalid_broadcast_failover_snapshot"
  failIf (maxOutbox < snapshot.outbox.length) "invalid_broadcast_failover_snapshot"
  let scope ← normalizeFailoverScope snapshot.scope
  failIf (forbiddenRecoveryState snapshot = true) "forbidden_broadcast_recovery_state"
  failIf (snapshot.fencingRevision < scope.leaseEpoch ∨ maxSafeInteger < snapshot.fencingRevision)
    "invalid_broadcast_failover_snapshot"
  let outbox ← snapshot.outbox.mapM (normalizeOutboxEvent · scope)
  failIf (maxSafeInteger < snapshot.sequence) "invalid_broadcast_failover_snapshot"
  let roles ← restoreRoles snapshot.fencingRevision snapshot.roles [] .initial
  return { scope, fencingRevision := snapshot.fencingRevision, roles, outbox
           sequence := snapshot.sequence, stopped := snapshot.stopped }

/-! ## The coordinator -/

structure FailoverCoordinator where
  config : FailoverConfig
  programs : KeyedMap String FailoverProgram

def scopeKey (scope : FailoverScope) : String := scope.tenantId ++ ":" ++ scope.programId

namespace FailoverCoordinator

def new (config : FailoverConfig) : FailoverCoordinator := ⟨config, .empty⟩

/-- `#get` -/
def getProgram (c : FailoverCoordinator) (scopeInput : FailoverScope) :
    Except String FailoverProgram := do
  cloneOK scopeInput.toJson "invalid_broadcast_failover_input"
  let scope ← normalizeFailoverScope scopeInput
  match c.programs.get (scopeKey scope) with
  | none => .error "broadcast_failover_program_not_found"
  | some program =>
      if program.scope.roomId ≠ scope.roomId ∨ program.scope.programEpoch ≠ scope.programEpoch
      then .error "broadcast_failover_program_not_found"
      else .ok program

/-- Look a program up and work on it in place. -/
def onProgram {α : Type} (c : FailoverCoordinator) (scopeInput : FailoverScope)
    (work : FailoverProgram → Attempt α) : FailoverCoordinator × Except String α :=
  match c.getProgram scopeInput with
  | .error code => (c, .error code)
  | .ok program =>
      let attempt := work program
      ({ c with programs := c.programs.set (scopeKey scopeInput) attempt.1 }, attempt.2)

def snapshot (c : FailoverCoordinator) (scopeInput : FailoverScope) :
    Except String FailoverSnapshot := do
  let program ← c.getProgram scopeInput
  return program.snapshot

/-- The program `register` starts with. -/
def newProgram (scope : FailoverScope) : FailoverProgram :=
  { scope, fencingRevision := scope.leaseEpoch, roles := .initial, outbox := [], sequence := 0
    stopped := false }

def register (c : FailoverCoordinator) (input : FailoverScope) :
    FailoverCoordinator × Except String FailoverSnapshot :=
  let checked : Except String FailoverScope := do
    cloneOK input.toJson "invalid_broadcast_failover_input"
    normalizeFailoverScope input
  match checked with
  | .error code => (c, .error code)
  | .ok scope =>
    match c.programs.get (scopeKey scope) with
    | some existing =>
        if existing.scope.roomId ≠ scope.roomId ∨ existing.scope.programEpoch ≠ scope.programEpoch
        then (c, .error "broadcast_failover_scope_conflict")
        else (c, c.snapshot scope)
    | none =>
        let registered := { c with programs := c.programs.set (scopeKey scope) (newProgram scope) }
        (registered, registered.snapshot scope)

def restore (c : FailoverCoordinator) (input : FailoverSnapshot) :
    FailoverCoordinator × Except String FailoverSnapshot :=
  match restoreProgram input with
  | .error code => (c, .error code)
  | .ok program =>
      let restored := { c with programs := c.programs.set (scopeKey program.scope) program }
      (restored, restored.snapshot program.scope)

def configureCandidates (c : FailoverCoordinator) (scopeInput : FailoverScope)
    (role : WriterRole) (candidatesInput : List Candidate) (now : Nat) :
    FailoverCoordinator × Except String RoleView :=
  c.onProgram scopeInput (·.configureCandidates c.config role candidatesInput now)

def acquire (c : FailoverCoordinator) (scopeInput : FailoverScope) (role : WriterRole)
    (now : Nat) : FailoverCoordinator × Except String Decision :=
  c.onProgram scopeInput (·.acquire c.config role now)

def heartbeat (c : FailoverCoordinator) (scopeInput : FailoverScope) (role : WriterRole)
    (input : Heartbeat) (now : Nat) : FailoverCoordinator × Except String HeartbeatResult :=
  c.onProgram scopeInput (·.heartbeat c.config role input now)

def evaluate (c : FailoverCoordinator) (scopeInput : FailoverScope) (role : WriterRole)
    (signals : Signals) (now : Nat) : FailoverCoordinator × Except String Decision :=
  c.onProgram scopeInput (·.evaluate c.config role signals now)

def authorizeWriter (c : FailoverCoordinator) (scopeInput : FailoverScope) (role : WriterRole)
    (lease : LeaseClaim) (now : Nat) : Except String Unit := do
  let program ← c.getProgram scopeInput
  program.authorizeWriter role lease now

def acknowledge (c : FailoverCoordinator) (scopeInput : FailoverScope) (eventId : String) :
    FailoverCoordinator × Except String Bool :=
  c.onProgram scopeInput (·.acknowledge eventId)

def roleSnapshot (c : FailoverCoordinator) (scopeInput : FailoverScope) (role : WriterRole)
    (now : Nat) : Except String RoleView := do
  let program ← c.getProgram scopeInput
  return program.roleSnapshot c.config role now

end FailoverCoordinator

end WebrtcMinimize
