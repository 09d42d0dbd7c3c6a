import Mathlib.Algebra.Ring.Nat
import WebrtcMinimize.ProgramModel
import WebrtcMinimize.Sha256

/-!
# Broadcast program commands

The thirteen commands of a program, the checks `normalizeBroadcastProgramCommand`
makes before the state machine sees one, and the fingerprint the idempotency
ledger keeps of it. A field that a JavaScript object may leave out is an
`Option`; the two expectations every command but `create` carries are such
fields, since `create` must not carry them.

The fingerprint is a hash of the canonical JSON text, and the text loses
nothing: `canonicalJson_injective` reads the command back from it field by
field. Everything the ledger promises about reused keys rests on that and on
the hash alone.
-/

namespace WebrtcMinimize

open Checks
open Json (optField strList)
open Json Option List

def maxCommandBytes : Nat := 16 * 1024

/-! ## Data -/

inductive LifecycleTrigger where
  | leave | logout | roomEnded | consentRevoked | sourceEnded | leaseLost | processAbort
deriving DecidableEq, Repr

def LifecycleTrigger.text : LifecycleTrigger → String
  | .leave => "leave"
  | .logout => "logout"
  | .roomEnded => "room-ended"
  | .consentRevoked => "consent-revoked"
  | .sourceEnded => "source-ended"
  | .leaseLost => "lease-lost"
  | .processAbort => "process-abort"

/-- The triggers that name one writer; the others stop the program. -/
def LifecycleTrigger.writer : LifecycleTrigger → Bool
  | .leaseLost | .processAbort => true
  | _ => false

inductive RevokeTarget where
  | consent | source
deriving DecidableEq, Repr

def RevokeTarget.text : RevokeTarget → String
  | .consent => "consent"
  | .source => "source"

/-- The reference pattern of a revoked target. -/
def RevokeTarget.tag : RevokeTarget → String
  | .consent => "cns_"
  | .source => "src_"

/-- The states `advance` may ask for. -/
inductive AdvanceTarget where
  | awaitingConsent | publishing | live | degraded
deriving DecidableEq, Repr

def AdvanceTarget.state : AdvanceTarget → ProgramState
  | .awaitingConsent => .awaitingConsent
  | .publishing => .publishing
  | .live => .live
  | .degraded => .degraded

/-- What one command asks for, with the fields of its action. -/
inductive Payload where
  | create (visibility : Visibility) (title viewerPolicyId : Option String)
  | start (requiresConsent : Bool)
  | advance (toState : AdvanceTarget)
  | sourceChange (sourceIds : List String)
  | outputRestart (expectedLeaseEpoch : Nat) (reasonCode : String)
  | handoff (expectedLeaseEpoch : Nat) (lease : Lease)
  | revoke (target : RevokeTarget) (targetRef reasonCode : String)
  | stop (reasonCode : String)
  | fail (reasonCode : String)
  | retry (reasonCode : String)
  | lifecycle (trigger : LifecycleTrigger) (role : Option WriterRole)
      (leaseId : Option String) (fencingRevision : Option Nat) (reasonCode : String)
  | cleanupComplete (reasonCode : String)
  | visibilityChange (visibility : Visibility) (policyHash : String)
deriving DecidableEq, Repr

def Payload.action : Payload → ProgramAction
  | .create .. => .create
  | .start .. => .start
  | .advance .. => .advance
  | .sourceChange .. => .sourceChange
  | .outputRestart .. => .outputRestart
  | .handoff .. => .handoff
  | .revoke .. => .revoke
  | .stop .. => .stop
  | .fail .. => .fail
  | .retry .. => .retry
  | .lifecycle .. => .lifecycle
  | .cleanupComplete .. => .cleanupComplete
  | .visibilityChange .. => .visibilityChange

structure Command where
  tenantId : String
  actorSubjectRef : String
  roomId : String
  programId : String
  idempotencyKeyHash : String
  expectedRevision : Option Nat
  expectedBroadcastEpoch : Option Nat
  payload : Payload
deriving DecidableEq, Repr

def Command.action (c : Command) : ProgramAction := c.payload.action

/-! ## JSON text -/

def Payload.fields : Payload → List (String × Json)
  | .create visibility title viewerPolicyId =>
      [("visibility", .str visibility.text)] ++ optField "title" (title.map .str)
        ++ optField "viewerPolicyId" (viewerPolicyId.map .str)
  | .start requiresConsent => [("requiresConsent", .bool requiresConsent)]
  | .advance toState => [("toState", .str toState.state.text)]
  | .sourceChange sourceIds => [("sourceIds", strList sourceIds)]
  | .outputRestart expectedLeaseEpoch reasonCode =>
      [("expectedLeaseEpoch", .num expectedLeaseEpoch), ("reasonCode", .str reasonCode)]
  | .handoff expectedLeaseEpoch lease =>
      [("expectedLeaseEpoch", .num expectedLeaseEpoch), ("lease", lease.toJson)]
  | .revoke target targetRef reasonCode =>
      [("target", .str target.text), ("targetRef", .str targetRef), ("reasonCode", .str reasonCode)]
  | .stop reasonCode | .fail reasonCode | .retry reasonCode
  | .cleanupComplete reasonCode => [("reasonCode", .str reasonCode)]
  | .lifecycle trigger role leaseId fencingRevision reasonCode =>
      [("trigger", .str trigger.text)] ++ optField "role" (role.map (.str ·.text))
        ++ optField "leaseId" (leaseId.map .str)
        ++ optField "fencingRevision" (fencingRevision.map .num)
        ++ [("reasonCode", .str reasonCode)]
  | .visibilityChange visibility policyHash =>
      [("visibility", .str visibility.text), ("policyHash", .str policyHash)]

def Command.toJson (c : Command) : Json :=
  .obj ([("commandVersion", .num 1), ("action", .str c.action.text),
    ("tenantId", .str c.tenantId), ("actorSubjectRef", .str c.actorSubjectRef),
    ("roomId", .str c.roomId), ("programId", .str c.programId),
    ("idempotencyKeyHash", .str c.idempotencyKeyHash)]
    ++ optField "expectedRevision" (c.expectedRevision.map .num)
    ++ optField "expectedBroadcastEpoch" (c.expectedBroadcastEpoch.map .num)
    ++ c.payload.fields)

def canonicalJson (c : Command) : List Nat := canonicalText c.toJson

def broadcastProgramCommandHash (c : Command) : String :=
  Sha256.hex (canonicalJson c)

/-! ## Normalization -/

/-- The length JavaScript gives a string. -/
def utf16Length (s : String) : Nat :=
  (s.toList.map fun c => if c.toNat < 0x10000 then 1 else 2).sum

def commandTitleOK (s : String) : Bool :=
  decide (1 ≤ utf16Length s) && decide (utf16Length s ≤ 80)

def normalizeSourceIds (sourceIds : List String) : Except String Unit := do
  failIf (20 < sourceIds.length) "invalid_broadcast_source_ids"
  failIf (sourceIds.all (refOK "src_") = false) "invalid_broadcast_command"
  failIf (¬sourceIds.Nodup) "invalid_broadcast_source_ids"

/-- The fields of one action. The reason code of any action is checked
against its pattern before them. -/
def normalizePayload : Payload → Except String Unit
  | .create _ title viewerPolicyId => do
      failIf (title.all commandTitleOK = false) "invalid_broadcast_command"
      failIf (viewerPolicyId.all (refOK "pol_") = false) "invalid_broadcast_command"
  | .start _ => .ok ()
  | .advance _ => .ok ()
  | .sourceChange sourceIds => normalizeSourceIds sourceIds
  | .outputRestart expectedLeaseEpoch reasonCode => do
      failIf (reasonCodeOK reasonCode = false) "invalid_broadcast_command"
      failIf (positiveIntegerOK expectedLeaseEpoch = false) "invalid_broadcast_command"
      failIf (reasonCode ≠ "PACKAGER_HANDOFF") "invalid_broadcast_command"
  | .handoff expectedLeaseEpoch _ =>
      failIf (positiveIntegerOK expectedLeaseEpoch = false) "invalid_broadcast_command"
  | .revoke target targetRef reasonCode => do
      failIf (reasonCodeOK reasonCode = false) "invalid_broadcast_command"
      failIf (refOK target.tag targetRef = false) "invalid_broadcast_command"
  | .stop reasonCode | .fail reasonCode | .retry reasonCode
  | .cleanupComplete reasonCode =>
      failIf (reasonCodeOK reasonCode = false) "invalid_broadcast_command"
  | .lifecycle trigger role leaseId fencingRevision reasonCode => do
      failIf (reasonCodeOK reasonCode = false) "invalid_broadcast_command"
      if trigger.writer then
        failIf (role = none) "invalid_broadcast_command"
        failIf (leaseId.any (refOK "lea_") = false) "invalid_broadcast_command"
        failIf (fencingRevision.any positiveIntegerOK = false) "invalid_broadcast_command"
      else
        failIf (role ≠ none ∨ leaseId ≠ none ∨ fencingRevision ≠ none)
          "invalid_broadcast_command"
  | .visibilityChange _ policyHash =>
      failIf (sha256OK policyHash = false) "invalid_broadcast_command"

/-- The expectations: `create` has no such fields, every other action needs
both. -/
def normalizeExpectations (c : Command) : Except String Unit :=
  if c.action = .create then
    failIf (c.expectedRevision ≠ none ∨ c.expectedBroadcastEpoch ≠ none)
      "invalid_broadcast_command"
  else do
    failIf (c.expectedRevision.any positiveIntegerOK = false) "invalid_broadcast_command"
    failIf (c.expectedBroadcastEpoch.any positiveIntegerOK = false)
      "invalid_broadcast_command"

def normalizeBroadcastProgramCommand (value : Command) : Except String Command := do
  failIf (maxCommandBytes < value.toJson.byteLength) "invalid_broadcast_command"
  failIf (refOK "tn_" value.tenantId = false) "invalid_broadcast_command"
  failIf (refOK "sub_" value.actorSubjectRef = false) "invalid_broadcast_command"
  failIf (roomIdOK value.roomId = false) "invalid_broadcast_command"
  failIf (refOK "prg_" value.programId = false) "invalid_broadcast_command"
  failIf (sha256OK value.idempotencyKeyHash = false) "invalid_broadcast_command"
  normalizeExpectations value
  normalizePayload value.payload
  return value

/-! ## The text determines the command -/

theorem Visibility.text_injective {a b : Visibility} (h : a.text = b.text) : a = b := by
  cases a <;> cases b <;> first | rfl | exact absurd h (by decide)

theorem WriterRole.text_injective {a b : WriterRole} (h : a.text = b.text) : a = b := by
  cases a <;> cases b <;> first | rfl | exact absurd h (by decide)

theorem LeaseStatus.text_injective {a b : LeaseStatus} (h : a.text = b.text) : a = b := by
  cases a <;> cases b <;> first | rfl | exact absurd h (by decide)

theorem ProgramAction.text_injective {a b : ProgramAction} (h : a.text = b.text) : a = b := by
  cases a <;> cases b <;> first | rfl | exact absurd h (by decide)

theorem LifecycleTrigger.text_injective {a b : LifecycleTrigger} (h : a.text = b.text) : a = b := by
  cases a <;> cases b <;> first | rfl | exact absurd h (by decide)

theorem RevokeTarget.text_injective {a b : RevokeTarget} (h : a.text = b.text) : a = b := by
  cases a <;> cases b <;> first | rfl | exact absurd h (by decide)

theorem AdvanceTarget.text_injective {a b : AdvanceTarget}
    (h : a.state.text = b.state.text) : a = b := by
  cases a <;> cases b <;> first | rfl | exact absurd h (by decide)

theorem map_str_injective {a b : Option String}
    (h : (a.map str).map canonical = (b.map str).map canonical) :
    a = b := by
  cases a <;> cases b <;> simp_all

theorem map_num_injective {a b : Option Nat}
    (h : (a.map num).map canonical = (b.map num).map canonical) :
    a = b := by
  cases a <;> cases b <;> simp_all

theorem map_role_injective {a b : Option WriterRole} (h : (a.map (str ·.text)).map canonical
      = (b.map (str ·.text)).map canonical) : a = b := by
  cases a <;> cases b <;> simp_all
  exact WriterRole.text_injective h

theorem Lease.eq_of_canonical {a b : Lease}
    (h : canonical a.toJson = canonical b.toJson) : a = b := by
  have field := get?_of_canonical h
  simp only [Lease.toJson, get?, cons_append, nil_append, lookup_field] at field
  have tenantId := field "tenantId"
  have holderRef := field "holderRef"
  have roomId := field "roomId"
  have programId := field "programId"
  have leaseId := field "leaseId"
  have revision := field "revision"
  have programEpoch := field "programEpoch"
  have role := field "role"
  have status := field "status"
  have fencingRevision := field "fencingRevision"
  have acquiredAt := field "acquiredAt"
  have renewedAt := field "renewedAt"
  have expiresAt := field "expiresAt"
  have releasedAt := field "releasedAt"
  simp only [String.reduceEq, ↓reduceIte, lookup_optField_last, map_some,
    some.injEq, canonical_str, canonical_num, str.injEq,
    num.injEq] at *
  cases a
  cases b
  simp only at *
  rw [tenantId, holderRef, roomId, programId, leaseId, revision, programEpoch,
    WriterRole.text_injective role, LeaseStatus.text_injective status, fencingRevision,
    acquiredAt, renewedAt, expiresAt, map_num_injective releasedAt]

/-- The keys a command has beside those of its action. -/
def commonCommandFields : List String :=
  ["commandVersion", "action", "tenantId", "actorSubjectRef", "roomId", "programId",
    "idempotencyKeyHash", "expectedRevision", "expectedBroadcastEpoch"]

theorem lookup_expected (p : Payload) {key : String}
    (h : key = "expectedRevision" ∨ key = "expectedBroadcastEpoch") :
    p.fields.lookup key = none := by
  rcases h with rfl | rfl <;> cases p <;>
    simp [Payload.fields, lookup_field, lookup_optField, lookup_optField_last]

theorem get?_payload {c : Command} {key : String} (h : key ∉ commonCommandFields) :
    c.toJson.get? key = c.payload.fields.lookup key := by
  simp only [commonCommandFields, mem_cons, not_mem_nil, or_false, not_or] at h
  simp only [Command.toJson, get?, cons_append, nil_append, append_assoc,
    lookup_field, lookup_optField, h, ↓reduceIte]

/-- The fields of an action, read under its own keys, determine the payload. -/
theorem Payload.eq_of_fields {p q : Payload} (ha : p.action = q.action)
    (h : ∀ key ∉ commonCommandFields,
      (p.fields.lookup key).map canonical = (q.fields.lookup key).map canonical) :
    p = q := by
  cases p <;> cases q <;> cases ha
  all_goals
    simp only [Payload.fields, cons_append, nil_append, append_assoc,
      lookup_field, lookup_optField, lookup_optField_last, lookup_nil] at h
  case create.create v t p v' t' p' =>
      have hv := h "visibility" (by decide)
      have ht := h "title" (by decide)
      have hp := h "viewerPolicyId" (by decide)
      simp only [String.reduceEq, ↓reduceIte, or_none] at hv ht hp
      have hv' : v.text = v'.text := by simpa using hv
      rw [Visibility.text_injective hv', map_str_injective ht, map_str_injective hp]
  case start.start b b' =>
      have hb := h "requiresConsent" (by decide)
      simpa using hb
  case advance.advance t t' =>
      have ht := h "toState" (by decide)
      rw [AdvanceTarget.text_injective (a := t) (b := t') (by simpa using ht)]
  case sourceChange.sourceChange ids ids' =>
      have hids := h "sourceIds" (by decide)
      simp only [↓reduceIte, map_some, canonical_strList, some.injEq] at hids
      rw [strList_injective hids]
  case outputRestart.outputRestart e r e' r' =>
      have he := h "expectedLeaseEpoch" (by decide)
      have hr := h "reasonCode" (by decide)
      simp_all
  case handoff.handoff e l e' l' =>
      have he := h "expectedLeaseEpoch" (by decide)
      have hl := h "lease" (by decide)
      simp only [String.reduceEq, ↓reduceIte, map_some, some.injEq,
        canonical_num, num.injEq] at he hl
      rw [he, Lease.eq_of_canonical hl]
  case revoke.revoke t f r t' f' r' =>
      have ht := h "target" (by decide)
      have hf := h "targetRef" (by decide)
      have hr := h "reasonCode" (by decide)
      simp only [String.reduceEq, ↓reduceIte, map_some, some.injEq,
        canonical_str, str.injEq] at ht hf hr
      rw [RevokeTarget.text_injective ht, hf, hr]
  case lifecycle.lifecycle t o l f r t' o' l' f' r' =>
      have ht := h "trigger" (by decide)
      have ho := h "role" (by decide)
      have hl := h "leaseId" (by decide)
      have hf := h "fencingRevision" (by decide)
      have hr := h "reasonCode" (by decide)
      simp only [String.reduceEq, ↓reduceIte, map_some, some.injEq,
        canonical_str, str.injEq, or_none] at ht ho hl hf hr
      rw [LifecycleTrigger.text_injective ht, map_role_injective ho, map_str_injective hl,
        map_num_injective hf, hr]
  case visibilityChange.visibilityChange v p v' p' =>
      have hv := h "visibility" (by decide)
      have hp := h "policyHash" (by decide)
      simp only [String.reduceEq, ↓reduceIte, map_some, some.injEq,
        canonical_str, str.injEq] at hv hp
      rw [Visibility.text_injective hv, hp]
  -- what is left has a reason code and nothing else
  all_goals
    have hr := h "reasonCode" (by decide)
    simpa using hr

theorem Command.eq_of_canonical {a b : Command}
    (h : canonical a.toJson = canonical b.toJson) : a = b := by
  have field := get?_of_canonical h
  have hpayload : a.payload = b.payload := by
    apply Payload.eq_of_fields
    · have haction := field "action"
      simp only [Command.toJson, get?, cons_append, nil_append,
        lookup_field, String.reduceEq, ↓reduceIte, map_some, some.injEq,
        canonical_str, str.injEq] at haction
      exact ProgramAction.text_injective haction
    · intro key hkey
      rw [← get?_payload hkey, ← get?_payload hkey]
      exact field key
  simp only [Command.toJson, get?, cons_append, nil_append,
    append_assoc, lookup_field, lookup_optField] at field
  have tenantId := field "tenantId"
  have actorSubjectRef := field "actorSubjectRef"
  have roomId := field "roomId"
  have programId := field "programId"
  have idempotencyKeyHash := field "idempotencyKeyHash"
  have revision := field "expectedRevision"
  have epoch := field "expectedBroadcastEpoch"
  rw [lookup_expected _ (.inl rfl), lookup_expected _ (.inl rfl)] at revision
  rw [lookup_expected _ (.inr rfl), lookup_expected _ (.inr rfl)] at epoch
  simp only [String.reduceEq, ↓reduceIte, or_none, map_some,
    some.injEq, canonical_str, str.injEq] at *
  cases a
  cases b
  simp only at *
  rw [tenantId, actorSubjectRef, roomId, programId, idempotencyKeyHash, hpayload,
    map_num_injective revision, map_num_injective epoch]

theorem canonicalJson_injective {a b : Command} (h : canonicalJson a = canonicalJson b) : a = b :=
  Command.eq_of_canonical (canonical_of_canonicalText h)

/-- The hash does not take two different canonical texts of these commands
to one value. -/
def NoCollision (commands : Command → Prop) : Prop :=
  ∀ a b, commands a → commands b →
    broadcastProgramCommandHash a = broadcastProgramCommandHash b →
      canonicalJson a = canonicalJson b

theorem NoCollision.eq {commands : Command → Prop} (h : NoCollision commands)
    {a b : Command} (ha : commands a) (hb : commands b)
    (hash : broadcastProgramCommandHash a = broadcastProgramCommandHash b) : a = b :=
  canonicalJson_injective (h a b ha hb hash)

end WebrtcMinimize
