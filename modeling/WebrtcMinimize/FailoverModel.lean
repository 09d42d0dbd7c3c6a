import WebrtcMinimize.Maps
import WebrtcMinimize.Sha256
import WebrtcMinimize.ProgramModel

/-!
# Failover data

What the failover coordinator keeps for one program: for each writer role
the standby candidates and at most one active lease, one fencing revision
the roles share, and an outbox of events. The snapshot of a program is what
a restarted control plane restores it from; the candidates are not in it.

The enumerations of the inputs are inductive types, so the checks of their
words have nothing left to refuse. Times are natural numbers and add up
exactly, as clock values do; the two counters are numbers a caller may
start at the largest safe integer, so they are increased as doubles are.
-/

namespace WebrtcMinimize

open Checks
open Json (optField)
open Json

def maxCandidates : Nat := 8

def maxOutbox : Nat := 256

def maxFailoverInputBytes : Nat := 256 * 1024

/-- `n + 1` on doubles up to `2 ^ 53`, where the sum rounds back to `n`. -/
def increment (n : Nat) : Nat := if n ≤ maxSafeInteger then n + 1 else n

theorem le_increment (n : Nat) : n ≤ increment n := by
  unfold increment
  split <;> omega

theorem lt_increment {n : Nat} (h : n ≤ maxSafeInteger) : n < increment n := by
  rw [increment, if_pos h]
  omega

/-! ## Words -/

inductive Health where
  | healthy | degraded | unavailable
deriving DecidableEq, Repr

def Health.text : Health → String
  | .healthy => "healthy"
  | .degraded => "degraded"
  | .unavailable => "unavailable"

inductive DecryptConsent where
  | none | approved | preauthorized
deriving DecidableEq, Repr

def DecryptConsent.text : DecryptConsent → String
  | .none => "none"
  | .approved => "approved"
  | .preauthorized => "preauthorized"

inductive FailureType where
  | packager | browser | gateway | host | network | provider
deriving DecidableEq, Repr

def FailureType.text : FailureType → String
  | .packager => "packager"
  | .browser => "browser"
  | .gateway => "gateway"
  | .host => "host"
  | .network => "network"
  | .provider => "provider"

inductive FailoverEventType where
  | standbysConfigured | writerAcquired | writerFenced | writerTakeover | programStopped
deriving DecidableEq, Repr

def FailoverEventType.text : FailoverEventType → String
  | .standbysConfigured => "standbys-configured"
  | .writerAcquired => "writer-acquired"
  | .writerFenced => "writer-fenced"
  | .writerTakeover => "writer-takeover"
  | .programStopped => "program-stopped"

inductive Disposition where
  | resume | visibleStop
deriving DecidableEq, Repr

def Disposition.text : Disposition → String
  | .resume => "resume"
  | .visibleStop => "visible-stop"

inductive WriterAccess where
  | sourceAndDecrypt | gatewayWriter
deriving DecidableEq, Repr

def WriterAccess.text : WriterAccess → String
  | .sourceAndDecrypt => "source-and-decrypt"
  | .gatewayWriter => "gateway-writer"

/-! ## Records -/

structure FailoverScope where
  tenantId : String
  roomId : String
  programId : String
  programEpoch : Nat
  leaseEpoch : Nat
deriving DecidableEq, Repr

/-- A standby; its access is always `none`. -/
structure Candidate where
  holderRef : String
  deviceRef : String
  priority : Nat
  volunteerConsent : Bool
  decryptConsent : DecryptConsent
  consentExpiresAt : Nat
  health : Health
  quorumEligible : Bool
deriving DecidableEq, Repr

/-- The active lease of a role. -/
structure ActiveWriter where
  leaseId : String
  holderRef : String
  deviceRef : String
  fencingRevision : Nat
  issuedAt : Nat
  lastHeartbeatAt : Nat
  expiresAt : Nat
  access : WriterAccess
deriving DecidableEq, Repr

structure RoleState where
  candidates : List Candidate
  active : Option ActiveWriter
  failureSince : Option Nat
  lastFailureType : Option FailureType
deriving DecidableEq, Repr

def RoleState.initial : RoleState := ⟨[], none, none, none⟩

/-- The fields an event has beside the common ones; a failure type may be
absent, null or a word. -/
structure EventFields where
  standbyCount : Option Nat := none
  failureType : Option (Option FailureType) := none
  fencingRevision : Option Nat := none
  disposition : Option Disposition := none
  reasonCode : Option String := none
deriving DecidableEq, Repr

structure OutboxEvent where
  eventId : String
  type : FailoverEventType
  tenantId : String
  roomId : String
  programId : String
  programEpoch : Nat
  role : WriterRole
  occurredAt : Nat
  fields : EventFields
deriving DecidableEq, Repr

/-- One state for each of the two roles. -/
structure RoleStates where
  packagerWriter : RoleState
  gatewayWriter : RoleState
deriving DecidableEq, Repr

namespace RoleStates

def get (roles : RoleStates) : WriterRole → RoleState
  | .packagerWriter => roles.packagerWriter
  | .gatewayWriter => roles.gatewayWriter

def set (roles : RoleStates) (role : WriterRole) (state : RoleState) : RoleStates :=
  match role with
  | .packagerWriter => { roles with packagerWriter := state }
  | .gatewayWriter => { roles with gatewayWriter := state }

def initial : RoleStates := ⟨.initial, .initial⟩

@[simp] theorem get_initial (role : WriterRole) : initial.get role = .initial := by
  cases role <;> rfl

@[simp] theorem get_set_self (roles : RoleStates) (role : WriterRole) (state : RoleState) :
    (roles.set role state).get role = state := by
  cases role <;> rfl

theorem get_set_of_ne (roles : RoleStates) {role other : WriterRole} (state : RoleState)
    (h : other ≠ role) : (roles.set role state).get other = roles.get other := by
  cases role <;> cases other <;> first | rfl | exact absurd rfl h

end RoleStates

structure FailoverProgram where
  scope : FailoverScope
  fencingRevision : Nat
  roles : RoleStates
  outbox : List OutboxEvent
  sequence : Nat
  stopped : Bool
deriving DecidableEq, Repr

/-- The state of one role. -/
abbrev FailoverProgram.role (p : FailoverProgram) (role : WriterRole) : RoleState :=
  p.roles.get role

def FailoverProgram.setRole (p : FailoverProgram) (role : WriterRole) (state : RoleState) :
    FailoverProgram :=
  { p with roles := p.roles.set role state }

structure RoleSnapshot where
  role : WriterRole
  active : Option ActiveWriter
  failureSince : Option Nat
  lastFailureType : Option FailureType
deriving DecidableEq, Repr

structure FailoverSnapshot where
  scope : FailoverScope
  fencingRevision : Nat
  stopped : Bool
  roles : List RoleSnapshot
  outbox : List OutboxEvent
  sequence : Nat
deriving DecidableEq, Repr

structure Signals where
  writer : Health
  browserSource : Health
  gateway : Health
  host : Health
  network : Health
  provider : Health
deriving DecidableEq, Repr

structure Quorum where
  healthyVotes : Nat
  totalVotes : Nat
deriving DecidableEq, Repr

/-- A lease as a writer presents it. -/
structure LeaseClaim where
  leaseId : String
  holderRef : String
  fencingRevision : Nat
deriving DecidableEq, Repr

/-- A heartbeat; the quorum is read only when the health is good. -/
structure Heartbeat extends LeaseClaim where
  health : Health
  quorum : Option Quorum
deriving DecidableEq, Repr

def ActiveWriter.claim (a : ActiveWriter) : LeaseClaim :=
  ⟨a.leaseId, a.holderRef, a.fencingRevision⟩

/-! ## JSON texts -/

def orNull (value : Option Json) : Json := value.getD .null

def FailoverScope.toJson (s : FailoverScope) : Json :=
  .obj [("tenantId", .str s.tenantId), ("roomId", .str s.roomId),
    ("programId", .str s.programId), ("programEpoch", .num s.programEpoch),
    ("leaseEpoch", .num s.leaseEpoch)]

def Candidate.toJson (c : Candidate) : Json :=
  .obj [("holderRef", .str c.holderRef), ("deviceRef", .str c.deviceRef),
    ("priority", .num c.priority), ("volunteerConsent", .bool c.volunteerConsent),
    ("decryptConsent", .str c.decryptConsent.text),
    ("consentExpiresAt", .num c.consentExpiresAt), ("health", .str c.health.text),
    ("quorumEligible", .bool c.quorumEligible)]

def ActiveWriter.toJson (a : ActiveWriter) : Json :=
  .obj [("leaseId", .str a.leaseId), ("holderRef", .str a.holderRef),
    ("deviceRef", .str a.deviceRef), ("fencingRevision", .num a.fencingRevision),
    ("issuedAt", .num a.issuedAt), ("lastHeartbeatAt", .num a.lastHeartbeatAt),
    ("expiresAt", .num a.expiresAt), ("access", .str a.access.text)]

def OutboxEvent.toJson (e : OutboxEvent) : Json :=
  .obj ([("eventVersion", .num 1), ("eventId", .str e.eventId), ("type", .str e.type.text),
    ("tenantId", .str e.tenantId), ("roomId", .str e.roomId),
    ("programId", .str e.programId), ("programEpoch", .num e.programEpoch),
    ("role", .str e.role.text), ("occurredAt", .num e.occurredAt)]
    ++ optField "standbyCount" (e.fields.standbyCount.map .num)
    ++ optField "failureType" (e.fields.failureType.map fun t => orNull (t.map (.str ·.text)))
    ++ optField "fencingRevision" (e.fields.fencingRevision.map .num)
    ++ optField "disposition" (e.fields.disposition.map (.str ·.text))
    ++ optField "reasonCode" (e.fields.reasonCode.map .str))

def RoleSnapshot.toJson (r : RoleSnapshot) : Json :=
  .obj [("role", .str r.role.text), ("active", orNull (r.active.map ActiveWriter.toJson)),
    ("failureSince", orNull (r.failureSince.map .num)),
    ("lastFailureType", orNull (r.lastFailureType.map (.str ·.text)))]

def FailoverSnapshot.toJson (s : FailoverSnapshot) : Json :=
  .obj [("snapshotVersion", .num 1), ("scope", s.scope.toJson),
    ("fencingRevision", .num s.fencingRevision), ("stopped", .bool s.stopped),
    ("roles", .arr (s.roles.map RoleSnapshot.toJson)),
    ("outbox", .arr (s.outbox.map OutboxEvent.toJson)), ("sequence", .num s.sequence)]

def LeaseClaim.toJson (l : LeaseClaim) : Json :=
  .obj [("leaseId", .str l.leaseId), ("holderRef", .str l.holderRef),
    ("fencingRevision", .num l.fencingRevision)]

def Heartbeat.toJson (h : Heartbeat) : Json :=
  .obj ([("leaseId", .str h.leaseId), ("holderRef", .str h.holderRef),
    ("fencingRevision", .num h.fencingRevision), ("health", .str h.health.text)]
    ++ optField "quorum" (h.quorum.map fun q =>
      .obj [("healthyVotes", .num q.healthyVotes), ("totalVotes", .num q.totalVotes)]))

/-- `clone`: what is left of it on data is its limit on the size. -/
def cloneOK (value : Json) (code : String) : Except String Unit :=
  failIf (maxFailoverInputBytes < value.byteLength) code

/-! ## Validation -/

def deviceRefOK (s : String) : Bool := refOK "dev_" s

def normalizeFailoverScope (value : FailoverScope) : Except String FailoverScope := do
  failIf (refOK "tn_" value.tenantId = false) "invalid_broadcast_failover_scope"
  failIf (roomIdOK value.roomId = false) "invalid_broadcast_failover_scope"
  failIf (refOK "prg_" value.programId = false) "invalid_broadcast_failover_scope"
  failIf (positiveIntegerOK value.programEpoch = false) "invalid_broadcast_failover_scope"
  failIf (positiveIntegerOK value.leaseEpoch = false) "invalid_broadcast_failover_scope"
  return value

/-- A consent that has run out is dropped. -/
def normalizeCandidate (value : Candidate) (now : Nat) : Except String Candidate := do
  cloneOK value.toJson "invalid_broadcast_failover_input"
  failIf (value.volunteerConsent = false) "invalid_broadcast_failover_candidate"
  failIf (principalRefOK value.holderRef = false) "invalid_broadcast_failover_candidate"
  failIf (deviceRefOK value.deviceRef = false) "invalid_broadcast_failover_candidate"
  failIf (1000 < value.priority) "invalid_broadcast_failover_candidate"
  failIf (timestampOK value.consentExpiresAt = false) "invalid_broadcast_failover_candidate"
  if value.decryptConsent ≠ .none ∧ value.consentExpiresAt ≤ now then
    return { value with decryptConsent := .none }
  else
    return value

def normalizeActive (value : Option ActiveWriter) : Except String (Option ActiveWriter) :=
  match value with
  | none => .ok none
  | some active => do
      failIf (refOK "lea_" active.leaseId = false) "invalid_broadcast_failover_snapshot"
      failIf (principalRefOK active.holderRef = false) "invalid_broadcast_failover_snapshot"
      failIf (deviceRefOK active.deviceRef = false) "invalid_broadcast_failover_snapshot"
      failIf (positiveIntegerOK active.fencingRevision = false)
        "invalid_broadcast_failover_snapshot"
      failIf (timestampOK active.issuedAt = false) "invalid_broadcast_failover_snapshot"
      failIf (timestampOK active.lastHeartbeatAt = false) "invalid_broadcast_failover_snapshot"
      failIf (timestampOK active.expiresAt = false) "invalid_broadcast_failover_snapshot"
      failIf (active.lastHeartbeatAt < active.issuedAt ∨ active.expiresAt ≤ active.lastHeartbeatAt)
        "invalid_broadcast_failover_snapshot"
      return some active

def normalizeOutboxEvent (value : OutboxEvent) (scope : FailoverScope) :
    Except String OutboxEvent := do
  failIf (value.tenantId ≠ scope.tenantId ∨ value.roomId ≠ scope.roomId
    ∨ value.programId ≠ scope.programId ∨ value.programEpoch ≠ scope.programEpoch)
    "invalid_broadcast_failover_snapshot"
  failIf (sha256OK value.eventId = false) "invalid_broadcast_failover_snapshot"
  failIf (timestampOK value.occurredAt = false) "invalid_broadcast_failover_snapshot"
  failIf (value.fields.fencingRevision.any (positiveIntegerOK · = false))
    "invalid_broadcast_failover_snapshot"
  failIf (value.fields.standbyCount.any (4 < ·)) "invalid_broadcast_failover_snapshot"
  failIf (value.fields.reasonCode.any (reasonCodeOK · = false))
    "invalid_broadcast_failover_snapshot"
  return value

/-! ## Decisions -/

/-- `classifyBroadcastFailure` on signals that passed their check. -/
def classifyBroadcastFailure (signals : Signals) : FailureType :=
  if signals.browserSource = .unavailable then .browser
  else if signals.host = .unavailable then .host
  else if signals.network = .unavailable then .network
  else if signals.provider = .unavailable then .provider
  else if signals.gateway = .unavailable then .gateway
  else .packager

/-- No signal is `unavailable`. -/
def Signals.healthy (s : Signals) : Bool :=
  [s.writer, s.browserSource, s.gateway, s.host, s.network, s.provider].all (· ≠ .unavailable)

def quorumHealthy (input : Option Quorum) : Except String Bool :=
  match input with
  | none => .error "invalid_broadcast_failover_quorum"
  | some quorum => do
      failIf (quorum.totalVotes < 1 ∨ 31 < quorum.totalVotes) "invalid_broadcast_failover_quorum"
      failIf (quorum.totalVotes < quorum.healthyVotes) "invalid_broadcast_failover_quorum"
      return decide (quorum.totalVotes / 2 + 1 ≤ quorum.healthyVotes)

/-- The primary weight of a reference's character in the root collation: `_`,
`-`, the digits, the letters of either case. -/
def collationWeight (b : Nat) : Nat :=
  if b = '_'.toNat then 0 else if b = '-'.toNat then 1 else if upperByte b then b + 32 else b

/-- `left.localeCompare(right) <= 0` on references: case counts only between
texts that are otherwise equal, and then the lower case comes first. -/
def localeLe (left right : String) : Bool :=
  let l := utf8 left
  let r := utf8 right
  if l.map collationWeight = r.map collationWeight then
    lexLe (l.map fun b => if upperByte b then 1 else 0)
      (r.map fun b => if upperByte b then 1 else 0)
  else
    lexLe (l.map collationWeight) (r.map collationWeight)

/-- The order `configureCandidates` keeps the candidates in. -/
def ConfiguredLe (left right : Candidate) : Prop :=
  right.priority < left.priority
    ∨ left.priority = right.priority ∧ localeLe left.holderRef right.holderRef = true

instance : DecidableRel ConfiguredLe := fun _ _ => inferInstanceAs (Decidable (_ ∨ _))

/-- The order a candidate is promoted in. -/
def PromotionLe (left right : Candidate) : Prop :=
  right.priority < left.priority
    ∨ left.priority = right.priority ∧ (left.holderRef = right.holderRef
        ∧ localeLe left.deviceRef right.deviceRef = true
      ∨ left.holderRef ≠ right.holderRef ∧ localeLe left.holderRef right.holderRef = true)

instance : DecidableRel PromotionLe := fun _ _ => inferInstanceAs (Decidable (_ ∨ _))

def deterministicCandidates (candidates : List Candidate) (now : Nat)
    (excludeRef : Option String) : List Candidate :=
  (candidates.filter fun candidate =>
    some candidate.holderRef ≠ excludeRef ∧ candidate.health = .healthy
      ∧ candidate.quorumEligible = true ∧ candidate.decryptConsent ≠ .none
      ∧ now < candidate.consentExpiresAt).insertionSort PromotionLe

/-- Texts joined with colons. -/
def colonJoined (parts : List (List Nat)) : List Nat := List.intercalate [':'.toNat] parts

def leaseId (scope : FailoverScope) (role : WriterRole) (fencingRevision : Nat)
    (holderRef : String) : String :=
  let digest := Sha256.base64 (colonJoined [utf8 scope.tenantId, utf8 scope.programId,
    digits scope.programEpoch, utf8 role.text, digits fencingRevision, utf8 holderRef])
  "lea_" ++ String.ofList (digest.toList.take 24)

def eventId (scope : FailoverScope) (sequence : Nat) (type : FailoverEventType) : String :=
  Sha256.hex (colonJoined [utf8 scope.tenantId, utf8 scope.programId,
    digits scope.programEpoch, digits sequence, utf8 type.text])

structure Recovery where
  disposition : Disposition
  discontinuity : Bool
  playerRestart : Bool
deriving DecidableEq, Repr

def recoveryFor (failureType : Option FailureType) (tookOver : Bool) : Recovery :=
  if tookOver = false ∨ failureType = some .browser then ⟨.visibleStop, false, false⟩
  else ⟨.resume, true, true⟩

end WebrtcMinimize
