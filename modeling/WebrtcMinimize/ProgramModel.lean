import WebrtcMinimize.Json

/-!
# The broadcast program snapshot

The state a broadcast program's control plane keeps: its scope, five
independent epochs, the program contract, at most one writer lease for each
role, and the ledger of applied commands. `validateBroadcastProgramMachine`
is the gate every operation passes its snapshot through, on the way in and
on the way out.

The JSON schema's enumerations are inductive types here, and the fields a
schema fixes to one constant (`contractVersion`, `type`, `machineVersion`)
appear only in the JSON texts.
-/

namespace WebrtcMinimize

open Checks
open Json (optField strList)

def maxSafeInteger : Nat := 9007199254740991

def maxBroadcastIdempotencyRecords : Nat := 256

def maxMachineBytes : Nat := 256 * 1024

/-! ## Identifiers -/

def lowerDigit (b : Nat) : Bool := lowerByte b || digitByte b

/-- `^[a-z0-9][a-z0-9-]{5,47}$` -/
def roomIdOK (s : String) : Bool :=
  match utf8 s with
  | b :: bs => lowerDigit b && spanOK (fun b => lowerDigit b || b == '-'.toNat) 5 47 bs
  | [] => false

/-- `^[a-f0-9]{16}$` -/
def peerIdOK (s : String) : Bool := spanOK hexByte 16 16 (utf8 s)

/-- `^[A-Z][A-Z0-9_]{1,31}$` -/
def reasonCodeOK (s : String) : Bool :=
  match utf8 s with
  | b :: bs =>
      upperByte b && spanOK (fun b => upperByte b || digitByte b || b == '_'.toNat) 1 31 bs
  | [] => false

/-- A person's or a packager's reference. -/
def principalRefOK (s : String) : Bool := refOK "sub_" s || refOK "pkr_" s

def positiveIntegerOK (n : Nat) : Bool := decide (1 ≤ n) && decide (n ≤ maxSafeInteger)

def timestampOK (n : Nat) : Bool := decide (n ≤ maxSafeInteger)

/-! ## Data -/

inductive ProgramState where
  | draft | preparing | awaitingConsent | publishing | live | degraded
  | stopping | stopped | failed
deriving DecidableEq, Repr

def ProgramState.text : ProgramState → String
  | .draft => "draft"
  | .preparing => "preparing"
  | .awaitingConsent => "awaiting_consent"
  | .publishing => "publishing"
  | .live => "live"
  | .degraded => "degraded"
  | .stopping => "stopping"
  | .stopped => "stopped"
  | .failed => "failed"

inductive Visibility where
  | secluded | unlisted | listed
deriving DecidableEq, Repr

/-- The source's words; two of them are reserved in Lean. -/
def Visibility.text : Visibility → String
  | .secluded => "private"
  | .unlisted => "unlisted"
  | .listed => "public"

inductive WriterRole where
  | packagerWriter | gatewayWriter
deriving DecidableEq, Repr

def WriterRole.text : WriterRole → String
  | .packagerWriter => "packager-writer"
  | .gatewayWriter => "gateway-writer"

inductive LeaseStatus where
  | active | released | expired | lost
deriving DecidableEq, Repr

def LeaseStatus.text : LeaseStatus → String
  | .active => "active"
  | .released => "released"
  | .expired => "expired"
  | .lost => "lost"

inductive ProgramAction where
  | create | start | advance | sourceChange | outputRestart | handoff | revoke | stop
  | fail | retry | lifecycle | cleanupComplete | visibilityChange
deriving DecidableEq, Repr

def ProgramAction.text : ProgramAction → String
  | .create => "create"
  | .start => "start"
  | .advance => "advance"
  | .sourceChange => "source-change"
  | .outputRestart => "output-restart"
  | .handoff => "handoff"
  | .revoke => "revoke"
  | .stop => "stop"
  | .fail => "fail"
  | .retry => "retry"
  | .lifecycle => "lifecycle"
  | .cleanupComplete => "cleanup-complete"
  | .visibilityChange => "visibility-change"

structure Scope where
  tenantId : String
  ownerSubjectRef : String
  roomId : String
  programId : String
deriving DecidableEq, Repr

structure Epochs where
  membership : Nat
  route : Nat
  topology : Nat
  broadcast : Nat
  lease : Nat
deriving DecidableEq, Repr

/-- A `broadcast-program` contract. -/
structure Program where
  tenantId : String
  ownerSubjectRef : String
  roomId : String
  programId : String
  revision : Nat
  programEpoch : Nat
  state : ProgramState
  visibility : Visibility
  title : Option String
  sourceIds : Option (List String)
  publicationIds : Option (List String)
  endpointIds : Option (List String)
  captionTrackIds : Option (List String)
  viewerPolicyId : Option String
  createdAt : Nat
  updatedAt : Nat
deriving DecidableEq, Repr

/-- A `lease` contract. -/
structure Lease where
  tenantId : String
  holderRef : String
  roomId : String
  programId : String
  leaseId : String
  revision : Nat
  programEpoch : Nat
  role : WriterRole
  status : LeaseStatus
  fencingRevision : Nat
  acquiredAt : Nat
  renewedAt : Nat
  expiresAt : Nat
  releasedAt : Option Nat
deriving DecidableEq, Repr

/-- One entry of the idempotency ledger. -/
structure CommandRecord where
  idempotencyKeyHash : String
  commandHash : String
  action : ProgramAction
  appliedRevision : Nat
deriving DecidableEq, Repr

structure Machine where
  scope : Scope
  epochs : Epochs
  program : Option Program
  writerLeases : List Lease
  appliedCommands : List CommandRecord
deriving DecidableEq, Repr

/-! ## JSON texts -/

def Scope.toJson (s : Scope) : Json :=
  .obj [("tenantId", .str s.tenantId), ("ownerSubjectRef", .str s.ownerSubjectRef),
    ("roomId", .str s.roomId), ("programId", .str s.programId)]

def Epochs.toJson (e : Epochs) : Json :=
  .obj [("membership", .num e.membership), ("route", .num e.route),
    ("topology", .num e.topology), ("broadcast", .num e.broadcast), ("lease", .num e.lease)]

def Program.toJson (p : Program) : Json :=
  .obj ([("contractVersion", .num 1), ("type", .str "broadcast-program"),
    ("tenantId", .str p.tenantId), ("ownerSubjectRef", .str p.ownerSubjectRef),
    ("roomId", .str p.roomId), ("programId", .str p.programId),
    ("revision", .num p.revision), ("programEpoch", .num p.programEpoch),
    ("state", .str p.state.text), ("visibility", .str p.visibility.text)]
    ++ optField "title" (p.title.map .str)
    ++ optField "sourceIds" (p.sourceIds.map strList)
    ++ optField "publicationIds" (p.publicationIds.map strList)
    ++ optField "endpointIds" (p.endpointIds.map strList)
    ++ optField "captionTrackIds" (p.captionTrackIds.map strList)
    ++ optField "viewerPolicyId" (p.viewerPolicyId.map .str)
    ++ [("createdAt", .num p.createdAt), ("updatedAt", .num p.updatedAt)])

def Lease.toJson (l : Lease) : Json :=
  .obj ([("contractVersion", .num 1), ("type", .str "lease"),
    ("tenantId", .str l.tenantId), ("holderRef", .str l.holderRef),
    ("roomId", .str l.roomId), ("programId", .str l.programId),
    ("leaseId", .str l.leaseId), ("revision", .num l.revision),
    ("programEpoch", .num l.programEpoch), ("role", .str l.role.text),
    ("status", .str l.status.text), ("fencingRevision", .num l.fencingRevision),
    ("acquiredAt", .num l.acquiredAt), ("renewedAt", .num l.renewedAt),
    ("expiresAt", .num l.expiresAt)]
    ++ optField "releasedAt" (l.releasedAt.map .num))

def CommandRecord.toJson (r : CommandRecord) : Json :=
  .obj [("idempotencyKeyHash", .str r.idempotencyKeyHash),
    ("commandHash", .str r.commandHash), ("action", .str r.action.text),
    ("appliedRevision", .num r.appliedRevision)]

def Machine.toJson (s : Machine) : Json :=
  .obj [("machineVersion", .num 1), ("scope", s.scope.toJson), ("epochs", s.epochs.toJson),
    ("program", match s.program with
      | some p => p.toJson
      | none => .null),
    ("writerLeases", .arr (s.writerLeases.map Lease.toJson)),
    ("appliedCommands", .arr (s.appliedCommands.map CommandRecord.toJson))]

/-! ## Contracts -/

/-- `broadcastContractContext`: what a contract must be bound to. -/
structure ContractContext where
  tenantId : String
  roomId : String
  programId : String
  programEpoch : Nat
  requireFresh : Bool
deriving DecidableEq, Repr

def broadcastContractContext (scope : Scope) (programEpoch : Nat)
    (requireFresh : Bool) : ContractContext :=
  ⟨scope.tenantId, scope.roomId, scope.programId, programEpoch, requireFresh⟩

def assertBinding (context : ContractContext) (tenantId roomId programId : String)
    (programEpoch : Nat) : Except String Unit := do
  failIf (tenantId ≠ context.tenantId) "broadcast_tenant_id_mismatch"
  failIf (roomId ≠ context.roomId) "broadcast_room_id_mismatch"
  failIf (programId ≠ context.programId) "broadcast_program_id_mismatch"
  failIf (programEpoch ≠ context.programEpoch) "broadcast_program_epoch_mismatch"

/-- 1 to 80 characters, none of them a control character. -/
def titleOK (s : String) : Bool :=
  spanOK (fun c => Nat.ble 0x20 c && c != 0x7f) 1 80 (s.toList.map Char.toNat)

/-- A list of distinct references of one kind. -/
def refListOK (tag : String) (maxItems : Nat) (ids : List String) : Bool :=
  decide (ids.length ≤ maxItems) && decide ids.Nodup && ids.all (refOK tag)

/-- `broadcast-program.v1.schema.json` -/
def Program.schemaOK (p : Program) : Bool :=
  refOK "tn_" p.tenantId && refOK "sub_" p.ownerSubjectRef && roomIdOK p.roomId
    && refOK "prg_" p.programId && positiveIntegerOK p.revision
    && positiveIntegerOK p.programEpoch && p.title.all titleOK
    && p.sourceIds.all (refListOK "src_" 20) && p.publicationIds.all (refListOK "pub_" 8)
    && p.endpointIds.all (refListOK "end_" 8)
    && p.captionTrackIds.all (refListOK "cpt_" 8)
    && p.viewerPolicyId.all (refOK "pol_") && timestampOK p.createdAt
    && timestampOK p.updatedAt

/-- `lease.v1.schema.json` -/
def Lease.schemaOK (l : Lease) : Bool :=
  refOK "tn_" l.tenantId && principalRefOK l.holderRef && roomIdOK l.roomId
    && refOK "prg_" l.programId && refOK "lea_" l.leaseId && positiveIntegerOK l.revision
    && positiveIntegerOK l.programEpoch && positiveIntegerOK l.fencingRevision
    && timestampOK l.acquiredAt && timestampOK l.renewedAt && timestampOK l.expiresAt
    && l.releasedAt.all timestampOK
    && decide (l.status = .released ↔ l.releasedAt.isSome)

/-- `validateBroadcastContract` on a program. -/
def validateProgram (value : Program) (context : ContractContext) :
    Except String Program := do
  failIf (value.schemaOK = false) "invalid_broadcast_contract"
  assertBinding context value.tenantId value.roomId value.programId value.programEpoch
  failIf (value.updatedAt < value.createdAt) "invalid_broadcast_time_order"
  return value

/-- `validateBroadcastContract` on a lease. -/
def validateLease (value : Lease) (context : ContractContext) (now : Nat) :
    Except String Lease := do
  failIf (value.schemaOK = false) "invalid_broadcast_contract"
  assertBinding context value.tenantId value.roomId value.programId value.programEpoch
  failIf (value.renewedAt < value.acquiredAt) "invalid_broadcast_time_order"
  failIf (value.expiresAt < value.renewedAt) "invalid_broadcast_time_order"
  failIf (value.releasedAt.any (· < value.acquiredAt)) "invalid_broadcast_time_order"
  failIf (context.requireFresh ∧ value.status = .active ∧ value.expiresAt ≤ now)
    "expired_broadcast_contract"
  return value

/-! ## The snapshot -/

def normalizeScope (scope : Scope) : Except String Scope := do
  failIf (refOK "tn_" scope.tenantId = false) "invalid_broadcast_scope"
  failIf (refOK "sub_" scope.ownerSubjectRef = false) "invalid_broadcast_scope"
  failIf (roomIdOK scope.roomId = false) "invalid_broadcast_scope"
  failIf (refOK "prg_" scope.programId = false) "invalid_broadcast_scope"
  return scope

def normalizeEpochs (epochs : Epochs) : Except String Epochs := do
  failIf (positiveIntegerOK epochs.membership = false) "invalid_broadcast_epochs"
  failIf (positiveIntegerOK epochs.route = false) "invalid_broadcast_epochs"
  failIf (positiveIntegerOK epochs.topology = false) "invalid_broadcast_epochs"
  failIf (positiveIntegerOK epochs.broadcast = false) "invalid_broadcast_epochs"
  failIf (positiveIntegerOK epochs.lease = false) "invalid_broadcast_epochs"
  return epochs

def normalizeIdempotencyRecord (record : CommandRecord) : Except String Unit := do
  failIf (sha256OK record.idempotencyKeyHash = false) "invalid_broadcast_idempotency_record"
  failIf (sha256OK record.commandHash = false) "invalid_broadcast_idempotency_record"
  failIf (positiveIntegerOK record.appliedRevision = false)
    "invalid_broadcast_idempotency_record"

/-- `left.role.localeCompare(right.role)` puts the gateway first. -/
def RoleLe (a b : Lease) : Prop := a.role = .gatewayWriter ∨ b.role = .packagerWriter

instance : DecidableRel RoleLe := fun _ _ => inferInstanceAs (Decidable (_ ∨ _))

def sortLeases (leases : List Lease) : List Lease := leases.insertionSort RoleLe

/-- The checks on the program of a snapshot, and on what may not stand
without one. -/
def validateMachineProgram (state : Machine) : Except String Unit :=
  match state.program with
  | none =>
      failIf (0 < state.writerLeases.length ∨ 0 < state.appliedCommands.length)
        "broadcast_state_without_program"
  | some program => do
      let _ ← validateProgram program
        (broadcastContractContext state.scope state.epochs.broadcast false)
      failIf (program.ownerSubjectRef ≠ state.scope.ownerSubjectRef)
        "broadcast_owner_mismatch"
      failIf (program.programEpoch ≠ state.epochs.broadcast) "broadcast_epoch_mismatch"
      failIf (state.appliedCommands.any (program.revision < ·.appliedRevision))
        "invalid_broadcast_idempotency_ledger"

/-- The checks on one writer lease of a snapshot. The context asks for no
freshness, so the time is not read. -/
def validateWriterLease (state : Machine) (lease : Lease) : Except String Unit := do
  let validated ← validateLease lease
    (broadcastContractContext state.scope state.epochs.broadcast false) 0
  failIf (validated.status ≠ .active ∨ state.epochs.lease < validated.fencingRevision)
    "invalid_broadcast_writer_lease"

def validateBroadcastProgramMachine (value : Machine) : Except String Machine := do
  failIf (maxMachineBytes < value.toJson.byteLength) "invalid_broadcast_machine"
  let scope ← normalizeScope value.scope
  let epochs ← normalizeEpochs value.epochs
  failIf (2 < value.writerLeases.length) "invalid_broadcast_writer_leases"
  failIf (maxBroadcastIdempotencyRecords < value.appliedCommands.length)
    "invalid_broadcast_idempotency_ledger"
  value.appliedCommands.forM normalizeIdempotencyRecord
  failIf (¬(value.appliedCommands.map (·.idempotencyKeyHash)).Nodup)
    "invalid_broadcast_idempotency_ledger"
  validateMachineProgram value
  value.writerLeases.forM (validateWriterLease value)
  let writerLeases := sortLeases value.writerLeases
  failIf (¬(writerLeases.map (·.role)).Nodup) "duplicate_active_broadcast_writer"
  failIf (¬(writerLeases.map (·.leaseId)).Nodup) "duplicate_broadcast_lease_id"
  return { scope, epochs, program := value.program, writerLeases,
           appliedCommands := value.appliedCommands }

def initializeBroadcastProgramMachine (scope : Scope) (epochs : Epochs) :
    Except String Machine :=
  validateBroadcastProgramMachine
    { scope, epochs, program := none, writerLeases := [], appliedCommands := [] }

/-! ## Room epochs -/

/-- The epochs an update names; at least one. -/
structure RoomEpochs where
  membership : Option Nat
  route : Option Nat
  topology : Option Nat
deriving DecidableEq, Repr

/-- One epoch of an update: positive, and not behind the current one. -/
def advanceRoomEpoch (current : Nat) (update : Option Nat) : Except String Nat :=
  match update with
  | none => .ok current
  | some next => do
      failIf (positiveIntegerOK next = false) "invalid_broadcast_room_epochs"
      failIf (next < current) "stale_broadcast_room_epoch"
      return next

def synchronizeBroadcastRoomEpochs (value : Machine) (updates : RoomEpochs) :
    Except String Machine := do
  let state ← validateBroadcastProgramMachine value
  failIf (updates = ⟨none, none, none⟩) "invalid_broadcast_room_epochs"
  let membership ← advanceRoomEpoch state.epochs.membership updates.membership
  let route ← advanceRoomEpoch state.epochs.route updates.route
  let topology ← advanceRoomEpoch state.epochs.topology updates.topology
  return { state with epochs := { state.epochs with membership, route, topology } }

end WebrtcMinimize
