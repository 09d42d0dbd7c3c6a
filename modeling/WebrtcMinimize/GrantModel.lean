import WebrtcMinimize.Attempts
import WebrtcMinimize.Maps
import WebrtcMinimize.ProgramCommand
import WebrtcMinimize.Runs

/-!
# The grant authority

Grants for publishing, packaging and watching a program. `issue` checks a
request, reserves its place and signs; `authorizeBearer` verifies a token
and, where the grant is for single use, consumes it. Signing and verifying
are the two awaits: a pending issuance or authorization goes on in a step of
its own, with the signature's outcome as the event brings it. What stands
before an issuance's reservation (the request's shape, the identity, the
policy) only throws; an issuance begins here with a request it let through
and the verdict of the device proof.

A record is known by its number, since an id may be made again once its
record is gone.
-/

namespace WebrtcMinimize

open Attempts Checks Runs

/-! ## Paths -/

/-- The bytes that `decodeURIComponent` makes, before they are read as text. -/
def decodePercent : List Nat → Option (List Nat)
  | [] => some []
  | 37 :: hi :: lo :: rest =>
      match hexValue hi, hexValue lo with
      | some h, some l => (decodePercent rest).map ((16 * h + l) :: ·)
      | _, _ => none
  | 37 :: _ => none
  | b :: rest => (decodePercent rest).map (b :: ·)

def within (lo hi b : Nat) : Bool := Nat.ble lo b && Nat.ble b hi

def utf8Text : List Nat → Bool
  | [] => true
  | b0 :: rest =>
      if b0 < 128 then utf8Text rest
      else match rest with
        | [] => false
        | b1 :: rest =>
            if within 194 223 b0 && within 128 191 b1 then utf8Text rest
            else match rest with
              | [] => false
              | b2 :: rest =>
                  if (b0 == 224 && within 160 191 b1 || within 225 236 b0 && within 128 191 b1
                      || b0 == 237 && within 128 159 b1 || within 238 239 b0 && within 128 191 b1)
                      && within 128 191 b2 then utf8Text rest
                  else match rest with
                    | [] => false
                    | b3 :: rest =>
                        (b0 == 240 && within 144 191 b1 || within 241 243 b0 && within 128 191 b1
                          || b0 == 244 && within 128 143 b1)
                          && within 128 191 b2 && within 128 191 b3 && utf8Text rest

/-- The part occurs in the bytes. -/
def occursIn (part : List Nat) : List Nat → Bool
  | [] => part.isEmpty
  | b :: bs => part.isPrefixOf (b :: bs) || occursIn part bs

def normalizeBroadcastGrantPath (value : String) : Except String String := do
  let bytes := utf8 value
  failIf (utf16Length value < 2 ∨ 256 < utf16Length value ∨ bytes.head? ≠ some 47 ∨ 92 ∈ bytes
    ∨ bytes.any (fun b => Nat.ble b 31 || b == 127 || b == 63 || b == 35)
    ∨ ["//", "%2f", "%2F", "%5c", "%5C"].any (fun part => occursIn (utf8 part) bytes))
    "invalid_broadcast_grant_path"
  match decodePercent bytes with
  | none => .error "invalid_broadcast_grant_path"
  | some decoded => do
      failIf (utf8Text decoded = false
        ∨ (decoded.splitOn 47).any (fun segment => segment = utf8 "." ∨ segment = utf8 ".."))
        "invalid_broadcast_grant_path"
      return if 2 < utf16Length value then
        String.ofList (value.toList.reverse.dropWhile (· = '/')).reverse else value

def broadcastGrantPathHash (pathPrefix : String) : Except String String := do
  let normalized ← normalizeBroadcastGrantPath pathPrefix
  return Sha256.hex (utf8 ("path-prefix-v1\x00" ++ normalized))

def broadcastGrantPathMatches (path pathPrefix : String) : Except String Bool := do
  let normalized ← normalizeBroadcastGrantPath path
  let directory := if pathPrefix.toList.getLast? = some '/' then pathPrefix else pathPrefix ++ "/"
  return normalized == pathPrefix || (utf8 directory).isPrefixOf (utf8 normalized)

/-! ## Grants -/

inductive GrantKind where
  | publisher | packager | playback
deriving DecidableEq, Repr

/-- `BROADCAST_GRANT_AUDIENCE` -/
def GrantKind.audience : GrantKind → String
  | .publisher => "broadcast-publisher"
  | .packager => "broadcast-packager"
  | .playback => "broadcast-playback"

/-- `KIND_ACTIONS` -/
def GrantKind.actions : GrantKind → List String
  | .publisher => ["whip:create", "whip:update", "whip:delete", "moq:publish"]
  | .packager => ["whip:create", "whip:update", "whip:delete", "moq:publish"]
  | .playback => ["playback:manifest", "playback:segment", "whep:read", "moq:subscribe"]

inductive GrantStatus where
  | issued | consumed | revoked | expired
deriving DecidableEq, Repr

/-- A `grant` contract. -/
structure BroadcastGrant where
  tenantId : String
  issuerSubjectRef : String
  roomId : String
  programId : String
  grantId : String
  grantKind : GrantKind
  tokenAudience : String
  audienceRef : String
  deviceRef : String
  revision : Nat
  programEpoch : Nat
  actions : List String
  resourceRef : String
  pathHash : String
  policyId : Option String
  policyRevision : Option Nat
  status : GrantStatus
  singleUse : Bool
  issuedAt : Nat
  notBefore : Nat
  expiresAt : Nat
  consumedAt : Option Nat
  revokedAt : Option Nat
deriving DecidableEq, Repr

namespace BroadcastGrant

variable (grant : BroadcastGrant)

/-- The `grant` schema. -/
def shapeOK : Bool :=
  refOK "tn_" grant.tenantId && refOK "sub_" grant.issuerSubjectRef && roomIdOK grant.roomId
    && refOK "prg_" grant.programId && refOK "grt_" grant.grantId
    && grant.tokenAudience == grant.grantKind.audience && principalRefOK grant.audienceRef
    && refOK "dev_" grant.deviceRef && positiveIntegerOK grant.revision
    && positiveIntegerOK grant.programEpoch
    && decide (1 ≤ grant.actions.length) && decide (grant.actions.length ≤ 8)
    && decide grant.actions.Nodup && grant.actions.all grant.grantKind.actions.contains
    && refOK "res_" grant.resourceRef && sha256OK grant.pathHash
    && grant.policyId.all (refOK "pol_") && grant.policyRevision.all positiveIntegerOK
    && grant.policyId.isSome == (grant.grantKind == .playback)
    && grant.policyRevision.isSome == (grant.grantKind == .playback)
    && grant.singleUse == (grant.grantKind != .playback)
    && timestampOK grant.issuedAt && timestampOK grant.notBefore && timestampOK grant.expiresAt
    && grant.consumedAt.all timestampOK && grant.revokedAt.all timestampOK
    && grant.consumedAt.isSome == (grant.status == .consumed)
    && grant.revokedAt.isSome == (grant.status == .revoked)

def assertTimes : Except String Unit :=
  failIf (grant.notBefore < grant.issuedAt ∨ grant.expiresAt < grant.notBefore
    ∨ grant.consumedAt.any (· < grant.notBefore) ∨ grant.revokedAt.any (· < grant.issuedAt))
    "invalid_broadcast_time_order"

/-- `validateBroadcastContract`, which does not ask whether the grant is fresh. -/
def checked : Except String Unit := do
  failIf (grant.shapeOK = false) "invalid_broadcast_contract"
  grant.assertTimes

def checkedFresh (now : Nat) : Except String Unit := do
  grant.checked
  failIf (grant.status = .issued ∧ grant.expiresAt ≤ now) "expired_broadcast_contract"
  failIf (grant.status = .issued ∧ now < grant.notBefore) "broadcast_grant_not_yet_valid"

/-- The grant in a status it did not have, by `#transition`. -/
def moved (status : GrantStatus) (now : Nat) : BroadcastGrant := { grant with
  revision := grant.revision + 1
  status := status
  consumedAt := if status = .consumed then some now else grant.consumedAt
  revokedAt := if status = .revoked then some now else grant.revokedAt }

end BroadcastGrant

/-! ## Requests -/

/-- What `normalizeBroadcastGrantRequest` returns. -/
structure GrantRequest where
  kind : GrantKind
  roomId : String
  programId : String
  programRevision : Nat
  programEpoch : Nat
  audienceRef : String
  actions : List String
  resourceRef : String
  pathPrefix : String
deriving DecidableEq, Repr

/-- What the policy lets a request act for. -/
structure GrantAuthorization where
  identityExpiresAt : Nat
  tenantId : String
  subjectRef : String
  membershipFingerprint : String
  granteeFingerprint : String
  viewerPolicy : Option (String × Nat)
deriving DecidableEq, Repr

structure VerifiedDevice where
  fingerprint : String
  deviceRef : String
deriving DecidableEq, Repr

structure GrantExpectation where
  audience : String
  action : String
  tenantId : String
  subjectRef : String
  audienceRef : String
  deviceRef : String
  roomId : String
  programId : String
  programRevision : Nat
  programEpoch : Nat
  resourceRef : String
  path : String
  policyId : Option String
  policyRevision : Option Nat
deriving DecidableEq, Repr

def normalizeBroadcastGrantExpectation (expected : GrantExpectation) :
    Except String GrantExpectation := do
  failIf (expected.audience ∉ ["broadcast-publisher", "broadcast-packager", "broadcast-playback"]
    ∨ principalRefOK expected.audienceRef = false ∨ refOK "dev_" expected.deviceRef = false
    ∨ refOK "res_" expected.resourceRef = false) "invalid_broadcast_grant_expectation"
  failIf (positiveIntegerOK expected.programRevision = false)
    "invalid_broadcast_grant_expectation"
  failIf (positiveIntegerOK expected.programEpoch = false) "invalid_broadcast_grant_expectation"
  let path ← normalizeBroadcastGrantPath expected.path
  failIf (expected.policyId.isSome ≠ expected.policyRevision.isSome)
    "invalid_broadcast_grant_expectation"
  failIf (expected.policyRevision.all positiveIntegerOK = false)
    "invalid_broadcast_grant_expectation"
  return { expected with path := path }

/-- What an authorization header holds. The text of a token is read as far
as it can be without its key. -/
inductive Bearer where
  | malformed
  | missing
  | tooLong
  | token (header : Option (String × String × String)) (jti : Option String)
deriving DecidableEq, Repr

/-- The claims of a token that was verified. -/
structure GrantClaims where
  jti : String
  sub : String
  tenantRef : String
  actorRef : String
  audienceRef : String
  deviceRef : String
  roomId : String
  programId : String
  programRevision : Nat
  programEpoch : Nat
  grantKind : GrantKind
  actions : List String
  resourceRef : String
  pathHash : String
  policyId : Option String
  policyRevision : Option Nat
  keyGeneration : Nat
deriving DecidableEq, Repr

/-! ## The authority -/

structure SigningKey where
  kid : String
  generation : Nat
  enabled : Bool
deriving DecidableEq, Repr

structure GrantRecord where
  grant : BroadcastGrant
  programRevision : Nat
  pathPrefix : String
  kid : String
  keyGeneration : Nat
  /-- The number of the record. -/
  object : Nat
deriving DecidableEq, Repr

/-- A reservation, and what its issuance goes on with. -/
structure PendingIssue where
  grant : BroadcastGrant
  cancelled : Bool
  programRevision : Nat
  pathPrefix : String
  key : SigningKey
  object : Nat
deriving DecidableEq, Repr

structure PendingAuthorization where
  key : SigningKey
  expected : GrantExpectation
  now : Nat
deriving DecidableEq, Repr

structure GrantConfig where
  ttlMs : GrantKind → Nat
  retentionMs : Nat
  subjectLimit : Nat
  tenantLimit : Nat
  programLimit : Nat

structure BroadcastGrantAuthority where
  keys : KeyedMap String SigningKey
  activeKid : String
  keyGeneration : Nat
  records : KeyedMap String GrantRecord
  pendingIssues : KeyedMap String PendingIssue
  revokedEpochs : List String
  authorizations : KeyedMap Nat PendingAuthorization
  /-- Authorizations begun so far. -/
  begun : Nat
  /-- Grants made so far. -/
  objects : Nat

/-- The record after `#transition`. -/
def GrantRecord.transition (record : GrantRecord) (status : GrantStatus) (now : Nat) :
    Except String GrantRecord :=
  if record.grant.status ≠ .issued then .ok record
  else do
    let next := record.grant.moved status now
    next.checked
    return { record with grant := next }

/-- The grant a token was issued for, as an authorization expects it. -/
def GrantRecord.expectation (record : GrantRecord) (action path : String) : GrantExpectation where
  audience := record.grant.tokenAudience
  action := action
  tenantId := record.grant.tenantId
  subjectRef := record.grant.issuerSubjectRef
  audienceRef := record.grant.audienceRef
  deviceRef := record.grant.deviceRef
  roomId := record.grant.roomId
  programId := record.grant.programId
  programRevision := record.programRevision
  programEpoch := record.grant.programEpoch
  resourceRef := record.grant.resourceRef
  path := path
  policyId := record.grant.policyId
  policyRevision := record.grant.policyRevision

/-- The claims are the grant's own. -/
def GrantRecord.claimed (record : GrantRecord) (payload : GrantClaims) : Bool :=
  let grant := record.grant
  payload.tenantRef == grant.tenantId && payload.actorRef == grant.issuerSubjectRef
    && payload.audienceRef == grant.audienceRef && payload.deviceRef == grant.deviceRef
    && payload.roomId == grant.roomId && payload.programId == grant.programId
    && payload.programRevision == record.programRevision
    && payload.programEpoch == grant.programEpoch && payload.grantKind == grant.grantKind
    && payload.resourceRef == grant.resourceRef && payload.pathHash == grant.pathHash
    && payload.policyId == grant.policyId && payload.policyRevision == grant.policyRevision
    && payload.sub == grant.audienceRef && payload.actions == grant.actions

/-- The grant is of the scope that was asked for. -/
def GrantRecord.inScope (record : GrantRecord) (expected : GrantExpectation) : Bool :=
  let grant := record.grant
  grant.tokenAudience == expected.audience && grant.tenantId == expected.tenantId
    && grant.issuerSubjectRef == expected.subjectRef && grant.audienceRef == expected.audienceRef
    && grant.deviceRef == expected.deviceRef && grant.roomId == expected.roomId
    && grant.programId == expected.programId && record.programRevision == expected.programRevision
    && grant.programEpoch == expected.programEpoch && grant.resourceRef == expected.resourceRef
    && grant.policyId == expected.policyId && grant.policyRevision == expected.policyRevision

namespace BroadcastGrantAuthority

/-- The authority as it is made with its keys, the first of them active where
none is named. -/
def new (kids : List String) (activeKid : String) : BroadcastGrantAuthority where
  keys := KeyedMap.collect SigningKey.kid (kids.map fun kid => ⟨kid, 1, true⟩)
  activeKid := activeKid
  keyGeneration := 1
  records := .empty
  pendingIssues := .empty
  revokedEpochs := []
  authorizations := .empty
  begun := 0
  objects := 0

def epochKey (tenantId programId : String) (programEpoch : Nat) : String :=
  Keys.joined [tenantId, programId, toString programEpoch]

def activeRecords (s : BroadcastGrantAuthority) (now : Nat) : List GrantRecord :=
  s.records.values.filter fun record =>
    decide (record.grant.status = .issued ∧ now < record.grant.expiresAt)

/-- The grants that take a place at a time. -/
def occupied (s : BroadcastGrantAuthority) (now : Nat) : List BroadcastGrant :=
  (s.activeRecords now).map GrantRecord.grant ++ s.pendingIssues.values.map PendingIssue.grant

def assertQuota (config : GrantConfig) (s : BroadcastGrantAuthority)
    (tenantId subjectRef programId : String) (now : Nat) : Except String Unit :=
  let active := s.occupied now
  failIf (config.subjectLimit ≤ active.countP (fun grant => grant.issuerSubjectRef = subjectRef)
    ∨ config.tenantLimit ≤ active.countP (fun grant => grant.tenantId = tenantId)
    ∨ config.programLimit ≤ active.countP (fun grant => grant.programId = programId))
    "broadcast_grant_quota_reached"

/-- `#transition`, which writes the record it was given. -/
def transition (record : GrantRecord) (status : GrantStatus) (now : Nat) :
    Stateful BroadcastGrantAuthority BroadcastGrant := do
  let next ← check (record.transition status now)
  modify fun s => { s with records := s.records.set next.grant.grantId next }
  return next.grant

/-- A grant whose time is over expires. -/
def expire (record : GrantRecord) (now : Nat) : Stateful BroadcastGrantAuthority Unit :=
  if record.grant.status = .issued ∧ record.grant.expiresAt ≤ now then do
    let _ ← transition record .expired now
  else return ()

/-- The retention of a record is over. -/
def forget (config : GrantConfig) (record : GrantRecord) (now : Nat) :
    Stateful BroadcastGrantAuthority Unit :=
  if record.grant.expiresAt + config.retentionMs ≤ now then
    modify fun s => { s with records := s.records.erase record.grant.grantId }
  else return ()

def prune (config : GrantConfig) (now : Nat) : Stateful BroadcastGrantAuthority Unit := do
  let s ← get
  s.records.values.forM fun record => do
    expire record now
    forget config record now

/-- `#issueAuthorized`, up to the signature. -/
def issue (config : GrantConfig) (request : GrantRequest) (authorized : GrantAuthorization)
    (proof : Except String VerifiedDevice) (grantId : String) (now : Nat) :
    Stateful BroadcastGrantAuthority Unit := do
  let s ← get
  failWhen (epochKey authorized.tenantId request.programId request.programEpoch ∈ s.revokedEpochs)
    "revoked_broadcast_program_epoch"
  prune config now
  let s ← get
  check (assertQuota config s authorized.tenantId authorized.subjectRef request.programId now)
  let pathHash ← check (broadcastGrantPathHash request.pathPrefix)
  let proof ← check proof
  failWhen (proof.fingerprint ≠ authorized.granteeFingerprint) "broadcast_grant_device_mismatch"
  failWhen (request.kind ≠ .packager
    ∧ authorized.membershipFingerprint ≠ authorized.granteeFingerprint)
    "broadcast_grant_device_mismatch"
  failWhen (refOK "grt_" grantId = false ∨ (s.records.get grantId).isSome
    ∨ (s.pendingIssues.get grantId).isSome) "invalid_broadcast_grant_id"
  let expiresAt := min (now + config.ttlMs request.kind) authorized.identityExpiresAt
  failWhen (expiresAt ≤ now) "invalid_broadcast_oidc_identity"
  let grant : BroadcastGrant := {
    tenantId := authorized.tenantId
    issuerSubjectRef := authorized.subjectRef
    roomId := request.roomId
    programId := request.programId
    grantId := grantId
    grantKind := request.kind
    tokenAudience := request.kind.audience
    audienceRef := request.audienceRef
    deviceRef := proof.deviceRef
    revision := 1
    programEpoch := request.programEpoch
    actions := request.actions
    resourceRef := request.resourceRef
    pathHash := pathHash
    policyId := authorized.viewerPolicy.map Prod.fst
    policyRevision := authorized.viewerPolicy.map Prod.snd
    status := .issued
    singleUse := request.kind != .playback
    issuedAt := now
    notBefore := now
    expiresAt := expiresAt
    consumedAt := none
    revokedAt := none }
  check (grant.checkedFresh now)
  match s.keys.get s.activeKid with
  | none => check (.error "inactive_broadcast_grant")
  | some key => modify fun s => { s with
      pendingIssues := s.pendingIssues.set grantId {
        grant := grant
        cancelled := false
        programRevision := request.programRevision
        pathPrefix := request.pathPrefix
        key := key
        object := s.objects }
      objects := s.objects + 1 }

/-- A pending issuance once its grant is signed. -/
def completeIssue (grantId : String) (signed : Except String Unit) :
    Stateful BroadcastGrantAuthority (Option BroadcastGrant) := do
  let s ← get
  match s.pendingIssues.get grantId with
  | none => return none
  | some pending => do
      modify fun s => { s with pendingIssues := s.pendingIssues.erase grantId }
      check signed
      let grant := pending.grant
      failWhen (epochKey grant.tenantId grant.programId grant.programEpoch ∈ s.revokedEpochs)
        "revoked_broadcast_program_epoch"
      failWhen (pending.cancelled = true ∨ s.keys.get pending.key.kid ≠ some pending.key
        ∨ pending.key.enabled = false ∨ s.activeKid ≠ pending.key.kid
        ∨ s.keyGeneration ≠ pending.key.generation) "inactive_broadcast_grant"
      modify fun s => { s with
        records := s.records.set grantId {
          grant := grant
          programRevision := pending.programRevision
          pathPrefix := pending.pathPrefix
          kid := pending.key.kid
          keyGeneration := pending.key.generation
          object := pending.object } }
      return some grant

/-- `authorizeBearer`, up to the verification. -/
def authorizeBearer (bearer : Bearer) (expectation : GrantExpectation) (now : Nat) :
    Stateful BroadcastGrantAuthority Unit :=
  match bearer with
  | .malformed => check (.error "invalid_broadcast_authorization_header")
  | .missing => check (.error "broadcast_grant_required")
  | .tooLong => check (.error "invalid_broadcast_grant")
  | .token header _ => do
      let expected ← check (normalizeBroadcastGrantExpectation expectation)
      let s ← get
      match header with
      | none => check (.error "invalid_broadcast_grant")
      | some (kid, alg, typ) =>
          match s.keys.get kid with
          | none => check (.error "invalid_broadcast_grant")
          | some key => do
              failWhen (key.enabled = false ∨ alg ≠ "ES256" ∨ typ ≠ "JWT") "invalid_broadcast_grant"
              modify fun s => { s with
                authorizations := s.authorizations.set s.begun ⟨key, expected, now⟩
                begun := s.begun + 1 }

def authorizeGatewayBearer (bearer : Bearer) (action path : String) (grantKinds : List GrantKind)
    (now : Nat) : Stateful BroadcastGrantAuthority Unit := do
  failWhen (grantKinds.length < 1) "invalid_broadcast_gateway_authorization"
  match bearer with
  | .malformed => check (.error "invalid_broadcast_authorization_header")
  | .missing => check (.error "broadcast_grant_required")
  | .tooLong => check (.error "broadcast_grant_required")
  | .token _ none => check (.error "invalid_broadcast_grant")
  | .token _ (some jti) => do
      let s ← get
      match s.records.get jti with
      | none => check (.error "inactive_broadcast_grant")
      | some record => do
          failWhen (record.grant.grantKind ∉ grantKinds) "inactive_broadcast_grant"
          authorizeBearer bearer (record.expectation action path) now

/-- A pending authorization once its token is verified, `none` where it is
not. -/
def completeAuthorization (id : Nat) (payload : Option GrantClaims) :
    Stateful BroadcastGrantAuthority (Option BroadcastGrant) := do
  let s ← get
  match s.authorizations.get id with
  | none => return none
  | some pending => do
      modify fun s => { s with authorizations := s.authorizations.erase id }
      match payload with
      | none => check (.error "invalid_broadcast_grant")
      | some payload =>
          match s.records.get payload.jti with
          | none => check (.error "inactive_broadcast_grant")
          | some record => do
              let grant := record.grant
              failWhen (epochKey grant.tenantId grant.programId grant.programEpoch
                ∈ s.revokedEpochs) "revoked_broadcast_program_epoch"
              failWhen (grant.status ≠ .issued ∨ grant.expiresAt ≤ pending.now
                ∨ record.kid ≠ pending.key.kid ∨ record.keyGeneration ≠ payload.keyGeneration)
                "inactive_broadcast_grant"
              failWhen (record.claimed payload = false) "invalid_broadcast_grant"
              failWhen (record.inScope pending.expected = false)
                "broadcast_grant_scope_mismatch"
              failWhen (pending.expected.action ∉ grant.actions) "broadcast_grant_action_denied"
              let matched ← check (broadcastGrantPathMatches pending.expected.path
                record.pathPrefix)
              let pathHash ← check (broadcastGrantPathHash record.pathPrefix)
              failWhen (matched = false ∨ grant.pathHash ≠ pathHash)
                "broadcast_grant_path_mismatch"
              if grant.singleUse then return some (← transition record .consumed pending.now)
              else return some grant

def revokeGrant (grantId : String) (now : Nat) : Stateful BroadcastGrantAuthority Bool := do
  let s ← get
  match s.pendingIssues.get grantId with
  | some pending => do
      modify fun s => { s with
        pendingIssues := s.pendingIssues.set grantId { pending with cancelled := true } }
      return true
  | none =>
      match s.records.get grantId with
      | none => return false
      | some record => do
          let _ ← transition record .revoked now
          return true

/-- The number of grants it revokes. -/
def revokeProgramEpoch (tenantId programId : String) (programEpoch now : Nat) :
    Stateful BroadcastGrantAuthority Nat := do
  failWhen (positiveIntegerOK programEpoch = false) "invalid_broadcast_program_epoch"
  modify fun s => { s with
    revokedEpochs := epochKey tenantId programId programEpoch :: s.revokedEpochs }
  let s ← get
  let issued := s.records.values.filter fun record =>
    record.grant.tenantId = tenantId ∧ record.grant.programId = programId
      ∧ record.grant.programEpoch = programEpoch ∧ record.grant.status = .issued
  issued.forM fun record => do
    let _ ← transition record .revoked now
  return issued.length

def rotateSigningKey (kid : String) (now : Nat) : Stateful BroadcastGrantAuthority Unit := do
  let s ← get
  let generation := s.keyGeneration + 1
  failWhen (spanOK refByte 1 64 (utf8 kid) = false) "invalid_broadcast_signing_key"
  failWhen ((s.keys.get kid).isSome) "duplicate_broadcast_signing_key"
  modify fun s => { s with keyGeneration := generation }
  s.records.values.forM fun record => do
    let _ ← transition record .revoked now
  modify fun s => { s with keys := s.keys.set kid ⟨kid, generation, true⟩, activeKid := kid }

def disableSigningKey (kid : String) (now : Nat) : Stateful BroadcastGrantAuthority Unit := do
  let s ← get
  match s.keys.get kid with
  | none => check (.error "invalid_broadcast_signing_key_state")
  | some current => do
      failWhen (kid = s.activeKid) "invalid_broadcast_signing_key_state"
      modify fun s => { s with keys := s.keys.set kid { current with enabled := false } }
      (s.records.values.filter fun record => record.kid = kid).forM fun record => do
        let _ ← transition record .revoked now

end BroadcastGrantAuthority

/-- What happens at the authority, with the time it happens at. A call begins
with its `now` and goes on at a later time. -/
inductive GrantEvent where
  | issue (request : GrantRequest) (authorized : GrantAuthorization)
      (proof : Except String VerifiedDevice) (grantId : String) (now : Nat)
  | completeIssue (grantId : String) (signed : Except String Unit) (now : Nat)
  | authorizeBearer (bearer : Bearer) (expectation : GrantExpectation) (now : Nat)
  | authorizeGatewayBearer (bearer : Bearer) (action path : String) (grantKinds : List GrantKind)
      (now : Nat)
  | completeAuthorization (id : Nat) (payload : Option GrantClaims) (now : Nat)
  | revokeGrant (grantId : String) (now : Nat)
  | revokeProgramEpoch (tenantId programId : String) (programEpoch now : Nat)
  | rotateSigningKey (kid : String) (now : Nat)
  | disableSigningKey (kid : String) (now : Nat)
  | prune (now : Nat)

namespace GrantEvent

def time : GrantEvent → Nat
  | .issue _ _ _ _ now => now
  | .completeIssue _ _ now => now
  | .authorizeBearer _ _ now => now
  | .authorizeGatewayBearer _ _ _ _ now => now
  | .completeAuthorization _ _ now => now
  | .revokeGrant _ now => now
  | .revokeProgramEpoch _ _ _ now => now
  | .rotateSigningKey _ now => now
  | .disableSigningKey _ now => now
  | .prune now => now

def apply (config : GrantConfig) (s : BroadcastGrantAuthority) :
    GrantEvent → BroadcastGrantAuthority
  | .issue request authorized proof grantId now =>
      after (BroadcastGrantAuthority.issue config request authorized proof grantId now s)
  | .completeIssue grantId signed _ =>
      after (BroadcastGrantAuthority.completeIssue grantId signed s)
  | .authorizeBearer bearer expectation now =>
      after (BroadcastGrantAuthority.authorizeBearer bearer expectation now s)
  | .authorizeGatewayBearer bearer action path grantKinds now =>
      after (BroadcastGrantAuthority.authorizeGatewayBearer bearer action path grantKinds now s)
  | .completeAuthorization id payload _ =>
      after (BroadcastGrantAuthority.completeAuthorization id payload s)
  | .revokeGrant grantId now => after (BroadcastGrantAuthority.revokeGrant grantId now s)
  | .revokeProgramEpoch tenantId programId programEpoch now =>
      after (BroadcastGrantAuthority.revokeProgramEpoch tenantId programId programEpoch now s)
  | .rotateSigningKey kid now => after (BroadcastGrantAuthority.rotateSigningKey kid now s)
  | .disableSigningKey kid now => after (BroadcastGrantAuthority.disableSigningKey kid now s)
  | .prune now => after (BroadcastGrantAuthority.prune config now s)

end GrantEvent

def GrantStep (config : GrantConfig) (s : BroadcastGrantAuthority) (event : GrantEvent)
    (t : BroadcastGrantAuthority) : Prop :=
  t = event.apply config s

end WebrtcMinimize
