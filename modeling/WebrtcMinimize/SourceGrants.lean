import WebrtcMinimize.MediaModel
import WebrtcMinimize.ProgramCommand
import WebrtcMinimize.TrustedReceiver

/-!
# Grants of trusted broadcast sources

`TrustedBroadcastSourceGrants` turns a publisher's approval of an invitation
into a consent and answers the packager as long as nothing the consent was
bound to has changed; the consents themselves are issued and revoked by a
`TrustedDecryptConsentAuthority`, which keeps its own records.

A call is a computation on the state that may throw. What its ports answer,
the readings of its clock and the ids it draws come with the call; each check
of a record asks the ports anew.
-/

namespace WebrtcMinimize

open Attempts Checks

/-! ## Identities -/

/-- `^[^\u0000-\u001f\u007f]{1,1024}$` -/
def safeComponentOK (s : String) : Bool :=
  decide (1 ≤ utf16Length s) && decide (utf16Length s ≤ 1024)
    && s.toList.all fun c => Nat.ble 0x20 c.toNat && c.toNat != 0x7f

/-- `digest`: a reference of one kind made from a text. -/
def digestRef (tag : String) (length : Nat) (text : String) : String :=
  tag ++ String.ofList ((Sha256.base64 (utf8 text)).toList.take length)

def broadcastTenantRef (issuer : String) : String := digestRef "tn_" 32 ("issuer\x00" ++ issuer)

def broadcastSubjectRef (issuer subject : String) : String :=
  digestRef "sub_" 32 ("subject\x00" ++ issuer ++ "\x00" ++ subject)

/-- `^[A-Za-z0-9_-]{43}$` -/
def fingerprintOK (s : String) : Bool := spanOK refByte 43 43 (utf8 s)

namespace SourceGrants

open TrustedSFrame (positive maxSafeInteger)

/-! ## What the ports answer -/

/-- A connection of a room; `ref` tells the objects apart. -/
structure Peer where
  ref : Nat
  id : String
  principal : String
  deviceFingerprint : String
  roomId : String
  authenticated : Bool
  machine : Bool
  creator : Bool
deriving DecidableEq

structure Bound where
  id : String
  principal : String
  fingerprint : String
deriving DecidableEq

/-- A verified account. -/
structure Identity where
  issuer : String
  subject : String
deriving DecidableEq

structure Invite where
  requestId : String
  roomId : String
  programId : String
  programRevision : Int
  programEpoch : Int
  packagerRef : String
  fencingRevision : Int
  sourceKind : String
  expiresAt : Int
  owner : Bound
  publisher : Bound
  ownerIdentity : Identity
deriving DecidableEq

structure Publication where
  publicationId : String
  publicationEpoch : Int
  source : String
deriving DecidableEq

structure Writer where
  tenantId : String
  ownerSubjectRef : String
  programEpoch : Int
  programRevision : Int
  fencingRevision : Int
  sourceAuthorityRevision : Int
  packagerRef : String
  leaseId : String
  state : String
  expiresAt : Int
deriving DecidableEq

structure Capability where
  agentId : String
  tenantId : String
  ownerSubjectRef : String
  deviceRef : String
  consentedRoomIds : List String
  health : String
  expiresAt : Int
deriving DecidableEq

structure Candidate where
  id : String
  online : Bool
  /-- The frozen object that stands for the agent's connection. -/
  generation : Option Nat
  capability : Option Capability
deriving DecidableEq

/-- The ports' answers to one check; `writer` may throw. -/
structure Answers where
  members : List Peer
  publication : Option Publication
  membershipEpoch : Int
  writer : Option Writer
  packager : Option Candidate

/-! ## Identifiers -/

def sourceKinds : List String := ["microphone", "camera", "screen", "screen-audio"]

/-- `^bsr_[A-Za-z0-9_-]{24}$` -/
def requestIdOK (s : String) : Bool := taggedOK "bsr_" 24 24 s

def oidcPrincipal (identity : Identity) : Except String String := do
  failIf (safeComponentOK identity.issuer = false) "invalid_broadcast_oidc_issuer"
  failIf (safeComponentOK identity.subject = false) "invalid_broadcast_oidc_subject"
  return identity.issuer ++ "|" ++ identity.subject

def broadcastDeviceRef (fingerprint : String) : String :=
  digestRef "dev_" 32 ("device\x00" ++ fingerprint)

/-! ## The consent authority -/

inductive ConsentStatus
  | active
  | revoked
deriving DecidableEq

structure Consent where
  consentId : String
  tenantId : String
  roomId : String
  roomEpoch : Int
  programId : String
  programEpoch : Int
  grantorSubjectRef : String
  granteePackagerRef : String
  granteeDeviceRef : String
  sourceId : String
  sourceKind : String
  status : ConsentStatus
  grantedAt : Int
  expiresAt : Int
  revokedAt : Option Int
deriving DecidableEq

structure ConsentRequest where
  requestId : String
  tenantId : String
  roomId : String
  roomEpoch : Int
  programId : String
  programEpoch : Int
  sourceId : String
  sourceKind : String
  granteePackagerRef : String
  granteeDeviceRef : String
  ttlMs : Int
deriving DecidableEq

structure MembershipSource where
  sourceId : String
  sourceKind : String
  active : Bool
deriving DecidableEq

/-- The context of a request, in the order of its five objects. -/
structure ConsentContext where
  identityTenant : String
  subjectRef : String
  memberTenant : String
  memberRoom : String
  memberRoomEpoch : Int
  memberSubject : String
  memberDevice : String
  memberSources : List MembershipSource
  packagerRef : String
  packagerDevice : String
  leaseRoom : String
  leaseProgram : String
  leaseEpoch : Int
  leaseHolder : String
  leaseDevice : String
  leaseExpiresAt : Int
  programTenant : String
  programRoom : String
  programId : String
  programEpoch : Int
  programState : String
  programSources : List String

structure AuthorityRecord where
  consent : Consent
  requestId : String
  grantorDeviceRef : String
deriving DecidableEq

structure PreviousRequest where
  request : ConsentRequest
  consentId : String
deriving DecidableEq

structure Authority where
  records : KeyedMap String AuthorityRecord
  requests : KeyedMap String PreviousRequest

def maxRecords : Nat := 1024

/-- `normalizeRequest` accepts. -/
def requestOK (q : ConsentRequest) : Bool :=
  TrustedSFrame.tokenPattern q.requestId && refOK "tn_" q.tenantId
    && TrustedSFrame.roomPattern q.roomId && refOK "prg_" q.programId && refOK "src_" q.sourceId
    && decide (q.sourceKind ∈ sourceKinds) && refOK "pkr_" q.granteePackagerRef
    && refOK "dev_" q.granteeDeviceRef && decide (positive q.roomEpoch)
    && decide (positive q.programEpoch) && decide (5000 ≤ q.ttlMs ∧ q.ttlMs ≤ 600000)

/-- `authorize`; the flags of the context are all set by the one caller. -/
def authorize (q : ConsentRequest) (c : ConsentContext) (now : Int) : Except String Unit := do
  failIf (c.identityTenant ≠ q.tenantId ∨ refOK "sub_" c.subjectRef = false)
    "trusted_decrypt_authentication_required"
  failIf (c.memberTenant ≠ q.tenantId ∨ c.memberRoom ≠ q.roomId ∨ c.memberRoomEpoch ≠ q.roomEpoch
      ∨ c.memberSubject ≠ c.subjectRef ∨ refOK "dev_" c.memberDevice = false
      ∨ 4 < c.memberSources.length)
    "invalid_trusted_decrypt_membership"
  failIf (((c.memberSources.find? fun x => x.sourceId == q.sourceId).any fun x =>
      x.active && x.sourceKind == q.sourceKind) = false)
    "trusted_decrypt_source_unauthorized"
  failIf (c.programTenant ≠ q.tenantId ∨ c.programRoom ≠ q.roomId ∨ c.programId ≠ q.programId
      ∨ c.programEpoch ≠ q.programEpoch
      ∨ c.programState ∉ ["preparing", "awaiting_consent", "publishing", "live", "degraded"]
      ∨ q.sourceId ∉ c.programSources)
    "invalid_trusted_decrypt_program"
  failIf (c.packagerRef ≠ q.granteePackagerRef ∨ c.packagerDevice ≠ q.granteeDeviceRef)
    "invalid_trusted_decrypt_packager"
  failIf (c.leaseRoom ≠ q.roomId ∨ c.leaseProgram ≠ q.programId ∨ c.leaseEpoch ≠ q.programEpoch
      ∨ c.leaseHolder ≠ q.granteePackagerRef ∨ c.leaseDevice ≠ q.granteeDeviceRef
      ∨ c.leaseExpiresAt ≤ now)
    "invalid_trusted_decrypt_lease"

def Consent.revoked (c : Consent) (now : Int) : Consent :=
  { c with status := .revoked, revokedAt := some now }

def AuthorityRecord.revoked (r : AuthorityRecord) (now : Int) : AuthorityRecord :=
  { r with consent := r.consent.revoked now }

/-- A record after `revokeExpired`. -/
def AuthorityRecord.aged (r : AuthorityRecord) (now : Int) : AuthorityRecord :=
  if r.consent.status = .active ∧ r.consent.expiresAt ≤ now then r.revoked now else r

def revokeExpired (now : Int) : Stateful Authority Unit :=
  modify fun a => { a with records := a.records.mapValues fun _ r => r.aged now }

/-- The first record that is not active makes room. -/
def makeRoom : Stateful Authority Unit := do
  let a ← get
  match a.records.entries.find? fun e => decide (e.2.consent.status ≠ .active) with
  | none => check (.error "trusted_decrypt_consent_quota_reached")
  | some e => set { a with
      records := a.records.erase e.1
      requests := a.requests.erase e.2.requestId }

/-- As many rounds as there are records too many. -/
def evict : Nat → Stateful Authority Unit
  | 0 => pure ()
  | rounds + 1 => do
      makeRoom
      evict rounds

def newConsent (q : ConsentRequest) (c : ConsentContext) (now expiresAt : Int)
    (drawn : String) : Consent :=
  { consentId := drawn
    tenantId := q.tenantId
    roomId := q.roomId
    roomEpoch := q.roomEpoch
    programId := q.programId
    programEpoch := q.programEpoch
    grantorSubjectRef := c.subjectRef
    granteePackagerRef := q.granteePackagerRef
    granteeDeviceRef := q.granteeDeviceRef
    sourceId := q.sourceId
    sourceKind := q.sourceKind
    status := .active
    grantedAt := now
    expiresAt := expiresAt
    revokedAt := none }

def Authority.store (a : Authority) (q : ConsentRequest) (c : ConsentContext) (d : Consent) :
    Authority :=
  { a with
    records := a.records.set d.consentId ⟨d, q.requestId, c.memberDevice⟩
    requests := a.requests.set q.requestId ⟨q, d.consentId⟩ }

/-- `issue` of an authority for `limit` records. -/
def issueUpTo (limit : Nat) (q : ConsentRequest) (c : ConsentContext) (now : Int)
    (drawn : String) : Stateful Authority Consent := do
  failWhen (requestOK q = false) "invalid_trusted_decrypt_request"
  check (authorize q c now)
  let a ← get
  match a.requests.get q.requestId with
  | some previous =>
      failWhen (previous.request ≠ q
          ∨ (a.records.get previous.consentId).map (fun r => r.consent.grantorSubjectRef)
            ≠ some c.subjectRef
          ∨ (a.records.get previous.consentId).map (fun r => r.grantorDeviceRef)
            ≠ some c.memberDevice)
        "trusted_decrypt_request_replay"
      revokeExpired now
      let b ← get
      match b.records.get previous.consentId with
      | none => check (.error "TypeError")
      | some r => do
          failWhen (r.consent.status ≠ .active) "inactive_trusted_decrypt_consent"
          failWhen (c.leaseExpiresAt < r.consent.expiresAt) "invalid_trusted_decrypt_lease"
          return r.consent
  | none =>
      revokeExpired now
      let b ← get
      failWhen (b.records.values.any (fun r => decide (r.consent.status = .active
          ∧ r.consent.programId = q.programId ∧ r.consent.programEpoch = q.programEpoch
          ∧ r.consent.sourceId = q.sourceId)) = true)
        "trusted_decrypt_source_already_consented"
      evict (b.records.size + 1 - limit)
      let expiresAt := min (now + q.ttlMs) c.leaseExpiresAt
      failWhen (expiresAt - now < 5000) "trusted_decrypt_lease_too_short"
      failWhen (refOK "cns_" drawn = false) "invalid_trusted_decrypt_consent_id"
      modify fun t => t.store q c (newConsent q c now expiresAt drawn)
      return newConsent q c now expiresAt drawn

def issue (q : ConsentRequest) (c : ConsentContext) (now : Int) (drawn : String) :
    Stateful Authority Consent :=
  issueUpTo maxRecords q c now drawn

/-- `revoke`; the reasons of the one caller are all known. -/
def revokeConsent (consentId subjectRef : String) (now : Int) :
    Stateful Authority (Option Consent) := do
  let a ← get
  match a.records.get consentId with
  | none => return none
  | some r => do
      failWhen (r.consent.grantorSubjectRef ≠ subjectRef) "trusted_decrypt_revoke_forbidden"
      if r.consent.status = .revoked then return some r.consent
      else do
        set { a with records := a.records.set consentId (r.revoked now) }
        return some (r.consent.revoked now)

/-! ## Grants -/

/-- A normalized approval. -/
structure Approval where
  requestId : String
  roomId : String
  deviceFingerprint : String
  publicationId : String
  expectedPublicationEpoch : Int
  ttlMs : Int
deriving DecidableEq

/-- `normalizeTrustedSourceApproval` accepts. -/
def Approval.ok (i : Approval) : Bool :=
  requestIdOK i.requestId && roomIdOK i.roomId && fingerprintOK i.deviceFingerprint
    && trackIdOK i.publicationId && decide (positive i.expectedPublicationEpoch)
    && decide (5000 ≤ i.ttlMs ∧ i.ttlMs ≤ 600000)

/-- The scope a record has from its approval on. -/
structure Scope where
  invite : Invite
  publisherIdentity : Identity
  publicationId : String
  publicationEpoch : Int
  input : Approval
  createdAt : Int
deriving DecidableEq

/-- A record of `#records`, named by the id it is stored under. -/
structure Record where
  scope : Scope
  active : Bool
  /-- `null` once the authority has dropped its own record. -/
  consent : Option Consent
  roomEpoch : Int
  leaseId : String
  sourceAuthorityRevision : Int
  generation : Nat
  retainUntil : Int
deriving DecidableEq

structure Rate where
  count : Nat
  expiresAt : Int
deriving DecidableEq

structure GrantsState where
  authority : Authority
  records : KeyedMap String Record
  byRequest : KeyedMap String String
  rates : KeyedMap String Rate
  lastNow : Int
  closed : Bool

def init : GrantsState :=
  { authority := ⟨.empty, .empty⟩
    records := .empty
    byRequest := .empty
    rates := .empty
    lastNow := 0
    closed := false }

def GrantsState.setRecord (s : GrantsState) (id : String) (r : Record) : GrantsState :=
  { s with records := s.records.set id r }

def onAuthority {α : Type} (x : Stateful Authority α) : Stateful GrantsState α := fun s =>
  match x s.authority with
  | .ok a t => .ok a { s with authority := t }
  | .error code t => .error code { s with authority := t }

/-! ### Checks -/

def member (peers : List Peer) (b : Bound) : Option Peer :=
  peers.find? fun peer => decide (peer.id = b.id ∧ peer.principal = b.principal
    ∧ peer.deviceFingerprint = b.fingerprint ∧ peer.authenticated = true ∧ peer.machine = false)

structure Checked where
  writer : Writer
  capability : Capability
  epoch : Int
  generation : Nat

/-- What `#check` compares once a record has its consent. -/
structure Bindings where
  consent : Consent
  roomEpoch : Int
  leaseId : String
  sourceAuthorityRevision : Int
  generation : Nat

def Record.bindings (r : Record) : Option Bindings :=
  r.consent.map fun c => ⟨c, r.roomEpoch, r.leaseId, r.sourceAuthorityRevision, r.generation⟩

def writerOK (x : Scope) (b : Option Bindings) (w : Writer) (now : Int) : Bool :=
  decide (positive w.sourceAuthorityRevision) && decide (w.sourceAuthorityRevision ≤ w.programRevision)
    && (match b with
      | some b => decide (w.sourceAuthorityRevision = b.sourceAuthorityRevision)
      | none => decide (w.programRevision = x.invite.programRevision))
    && decide (w.programEpoch = x.invite.programEpoch)
    && decide (w.packagerRef = x.invite.packagerRef)
    && decide (w.fencingRevision = x.invite.fencingRevision)
    && decide (w.tenantId = broadcastTenantRef x.publisherIdentity.issuer)
    && safeComponentOK x.invite.ownerIdentity.issuer
    && safeComponentOK x.invite.ownerIdentity.subject
    && decide (w.ownerSubjectRef
        = broadcastSubjectRef x.invite.ownerIdentity.issuer x.invite.ownerIdentity.subject)
    && refOK "lea_" w.leaseId && decide (positive w.expiresAt) && decide (now < w.expiresAt)
    && decide (w.state ∈ ["live", "degraded"])

def packagerOK (x : Scope) (w : Writer) (p : Candidate) (c : Capability) (now : Int) : Bool :=
  decide (p.id = x.invite.packagerRef) && p.online
    && decide (c.agentId = x.invite.packagerRef) && decide (c.tenantId = w.tenantId)
    && decide (c.ownerSubjectRef = w.ownerSubjectRef) && refOK "dev_" c.deviceRef
    && decide (positive c.expiresAt) && decide (now < c.expiresAt)
    && decide (x.invite.roomId ∈ c.consentedRoomIds)
    && decide (c.health ∈ ["healthy", "degraded"])

/-- The comparison with what the consent was bound to. -/
def boundOK (b : Option Bindings) (epoch : Int) (w : Writer) (c : Capability)
    (generation : Nat) : Bool :=
  match b with
  | some b => decide (b.roomEpoch = epoch) && decide (b.leaseId = w.leaseId)
      && decide (b.generation = generation) && decide (b.consent.granteeDeviceRef = c.deviceRef)
      && decide (b.consent.expiresAt ≤ w.expiresAt)
  | none => true

/-- `#check`; `none` for the answers stands for a port that throws. -/
def checkScope (x : Scope) (b : Option Bindings) (now : Int) (answers : Option Answers) :
    Except String Checked :=
  match answers with
  | none => .error "port"
  | some a =>
      match member a.members x.invite.publisher, member a.members x.invite.owner,
          a.publication with
      | some _, some _, some publication =>
          if ¬positive a.membershipEpoch
              ∨ publication.publicationEpoch ≠ x.publicationEpoch
              ∨ publication.source ≠ x.invite.sourceKind
              ∨ publication.publicationId ≠ x.publicationId then
            .error "trusted_source_publication_unavailable"
          else match a.writer with
            | none => .error "port"
            | some w =>
                if writerOK x b w now = false then .error "trusted_source_writer_unavailable"
                else match a.packager with
                  | none => .error "trusted_source_packager_unavailable"
                  | some p =>
                      match p.capability, p.generation with
                      | some c, some generation =>
                          if packagerOK x w p c now = false then
                            .error "trusted_source_packager_unavailable"
                          else if boundOK b a.membershipEpoch w c generation = false then
                            .error "stale_trusted_source_scope"
                          else .ok ⟨w, c, a.membershipEpoch, generation⟩
                      | _, _ => .error "trusted_source_packager_unavailable"
      | _, _, _ => .error "trusted_source_publication_unavailable"

/-! ### Records -/

def invalidate (id : String) (now : Int) : Stateful GrantsState Unit := do
  let s ← get
  match s.records.get id with
  | none => pure ()
  | some r =>
      if r.active = false then pure ()
      else do
        set (s.setRecord id { r with active := false })
        match r.consent with
        | none => check (.error "TypeError")
        | some c => do
            let consent ← onAuthority (revokeConsent c.consentId c.grantorSubjectRef now)
            modify fun t => t.setRecord id { r with active := false, consent := consent }

def current (id : String) (now : Int) (answers : Option Answers) : Stateful GrantsState Bool := do
  let s ← get
  match s.records.get id with
  | none => return false
  | some r =>
      if r.active = false then return false
      else match r.consent with
        | none => check (.error "TypeError")
        | some c =>
            if c.expiresAt ≤ now then do
              invalidate id now
              return false
            else match checkScope r.scope r.bindings now answers with
              | .ok _ => return true
              | .error _ => do
                  invalidate id now
                  return false

def destroy : Stateful GrantsState Unit := do
  let s ← get
  if s.closed = true then pure ()
  else do
    set { s with closed := true }
    s.records.keys.forM fun id => invalidate id s.lastNow
    modify fun t => { t with records := .empty, byRequest := .empty, rates := .empty }

/-- `#now` -/
def readNow (reading : Int) : Stateful GrantsState Int := do
  let s ← get
  failWhen (s.closed = true) "trusted_sources_closed"
  if ¬positive reading ∨ maxSafeInteger - 600000 < reading ∨ reading < s.lastNow then do
    destroy
    check (.error "invalid_trusted_source_clock")
  else do
    set { s with lastNow := reading }
    return reading

def liveRates (rates : KeyedMap String Rate) (now : Int) : KeyedMap String Rate :=
  rates.keep fun _ rate => decide (now < rate.expiresAt)

/-- `#rate` -/
def takeRate (principal : String) (now : Int) : Stateful GrantsState Unit := do
  let s ← get
  match (s.rates.get principal).filter fun rate => decide (now < rate.expiresAt) with
  | some rate => do
      set { s with rates := s.rates.set principal { rate with count := rate.count + 1 } }
      failWhen (60 < rate.count + 1) "trusted_source_rate"
  | none => do
      let rates := s.rates.erase principal
      let rates := if 2048 ≤ rates.size then liveRates rates now else rates
      set { s with rates := rates }
      failWhen (2048 ≤ rates.size) "trusted_source_rate"
      set { s with rates := rates.set principal { count := 1, expiresAt := now + 60000 } }

/-- One round of `#prune`. -/
def pruneRecord (now : Int) (answers : String → Option Answers) (id : String) :
    Stateful GrantsState Unit := do
  let _ ← current id now (answers id)
  modify fun s =>
    match s.records.get id with
    | none => s
    | some r =>
        if r.retainUntil ≤ now then
          { s with
            records := s.records.erase id
            byRequest := s.byRequest.erase r.scope.invite.requestId }
        else s

def GrantsState.activeAt (s : GrantsState) (id : String) : Bool :=
  (s.records.get id).any Record.active

/-- `#prune`; the result lists the records that lost their consent in it. -/
def prune (now : Int) (answers : String → Option Answers) :
    Stateful GrantsState (List String) := do
  let s ← get
  s.records.keys.forM (pruneRecord now answers)
  modify fun t => { t with rates := liveRates t.rates now }
  let t ← get
  return s.records.keys.filter fun id => s.activeAt id && !t.activeAt id

/-! ### Approvals -/

structure ApproveCall where
  identity : Identity
  input : Approval
  actor : Option Peer
  /-- The members of the room at the first look. -/
  members : Option (List Peer)
  reading : Int
  /-- What the ports answer for each record while it is pruned. -/
  pruning : String → Option Answers
  invite : Except String Invite
  /-- The reading after the invitation was resolved. -/
  resolved : Int
  /-- What the ports answer when the approval itself is checked. -/
  answers : Option Answers
  sourceId : Except String String
  /-- The id the authority draws. -/
  drawn : String

def connected (c : ApproveCall) (principal : String) : Option Peer :=
  match c.actor, c.members with
  | some actor, some members =>
      if actor ∈ members ∧ actor.authenticated = true ∧ actor.machine = false
          ∧ actor.principal = principal ∧ actor.deviceFingerprint = c.input.deviceFingerprint then
        some actor
      else none
  | _, _ => none

/-- An approval of a request that has its record. -/
def replay (c : ApproveCall) (actor : Peer) (id : String) (now : Int) :
    Stateful GrantsState Consent := do
  let s ← get
  match s.records.get id with
  | none => check (.error "TypeError")
  | some r => do
      failWhen (r.scope.invite.publisher.principal ≠ actor.principal) "trusted_source_unavailable"
      failWhen (r.scope.invite.publisher.id ≠ actor.id) "trusted_source_connection_required"
      failWhen (r.scope.input ≠ c.input) "stale_trusted_source_approval"
      let live ← current id now c.answers
      failWhen (live = false) "stale_trusted_source_approval"
      let t ← get
      match (t.records.get id).bind Record.consent with
      | none => check (.error "TypeError")
      | some consent => return consent

def newScope (c : ApproveCall) (invite : Invite) (now : Int) : Scope :=
  { invite := invite
    publisherIdentity := c.identity
    publicationId := c.input.publicationId
    publicationEpoch := c.input.expectedPublicationEpoch
    input := c.input
    createdAt := now }

/-- The quotas of `approve` on the records there are. -/
def quotaReached (records : List Record) (x : Scope) : Bool :=
  Nat.ble 1024 records.length
    || Nat.ble 80 (records.countP fun r => decide (r.scope.invite.programId = x.invite.programId))
    || Nat.ble 4 (records.countP fun r => decide (r.scope.invite.programId = x.invite.programId
        ∧ r.scope.invite.publisher.id = x.invite.publisher.id))

/-- The program, the publisher's connection and the publication of a record. -/
def Scope.slot (x : Scope) : String × String × String :=
  (x.invite.programId, x.invite.publisher.id, x.publicationId)

/-- The request `approve` puts to the authority. -/
def consentRequest (x : Scope) (k : Checked) (sourceId : String) : ConsentRequest :=
  { requestId := x.input.requestId
    tenantId := broadcastTenantRef x.publisherIdentity.issuer
    roomId := x.invite.roomId
    roomEpoch := k.epoch
    programId := x.invite.programId
    programEpoch := x.invite.programEpoch
    sourceId := sourceId
    sourceKind := x.invite.sourceKind
    granteePackagerRef := x.invite.packagerRef
    granteeDeviceRef := k.capability.deviceRef
    ttlMs := x.input.ttlMs }

def consentContext (x : Scope) (k : Checked) (sourceId : String) : ConsentContext :=
  let tenantId := broadcastTenantRef x.publisherIdentity.issuer
  let subjectRef := broadcastSubjectRef x.publisherIdentity.issuer x.publisherIdentity.subject
  { identityTenant := tenantId
    subjectRef := subjectRef
    memberTenant := tenantId
    memberRoom := x.invite.roomId
    memberRoomEpoch := k.epoch
    memberSubject := subjectRef
    memberDevice := broadcastDeviceRef x.invite.publisher.fingerprint
    memberSources := [⟨sourceId, x.invite.sourceKind, true⟩]
    packagerRef := x.invite.packagerRef
    packagerDevice := k.capability.deviceRef
    leaseRoom := x.invite.roomId
    leaseProgram := x.invite.programId
    leaseEpoch := x.invite.programEpoch
    leaseHolder := x.invite.packagerRef
    leaseDevice := k.capability.deviceRef
    leaseExpiresAt := k.writer.expiresAt
    programTenant := tenantId
    programRoom := x.invite.roomId
    programId := x.invite.programId
    programEpoch := x.invite.programEpoch
    programState := k.writer.state
    programSources := [sourceId] }

def newRecord (x : Scope) (k : Checked) (consent : Consent) : Record :=
  { scope := x
    active := true
    consent := some consent
    roomEpoch := k.epoch
    leaseId := k.writer.leaseId
    sourceAuthorityRevision := k.writer.sourceAuthorityRevision
    generation := k.generation
    retainUntil := max x.invite.expiresAt consent.expiresAt }

/-- An approval of a request without a record. -/
def admitSource (c : ApproveCall) (actor : Peer) : Stateful GrantsState Consent := do
  let invite ← check c.invite
  let now ← readNow c.resolved
  failWhen (invite.publisher.id ≠ actor.id ∨ invite.publisher.principal ≠ actor.principal
      ∨ invite.publisher.fingerprint ≠ c.input.deviceFingerprint ∨ invite.roomId ≠ c.input.roomId
      ∨ invite.expiresAt ≤ now) "trusted_source_invitation_unavailable"
  let x := newScope c invite now
  let k ← check (checkScope x none now c.answers)
  let s ← get
  failWhen (quotaReached s.records.values x = true) "trusted_source_quota"
  failWhen (s.records.values.any (fun r => r.active && decide (r.scope.slot = x.slot)) = true)
    "trusted_source_already_consented"
  let sourceId ← check c.sourceId
  failWhen (refOK "src_" sourceId = false) "invalid_trusted_source_identifier"
  -- a record whose consent is gone makes the comparison throw
  failWhen (s.records.values.any (fun r => match r.consent with
      | none => true
      | some d => decide (d.sourceId = sourceId)) = true) "invalid_trusted_source_identifier"
  let consent ← onAuthority (issue (consentRequest x k sourceId) (consentContext x k sourceId)
    now c.drawn)
  modify fun t => { t with
    records := t.records.set consent.consentId (newRecord x k consent)
    byRequest := t.byRequest.set c.input.requestId consent.consentId }
  return consent

def approve (c : ApproveCall) : Stateful GrantsState Consent := do
  failWhen (c.input.ok = false) "invalid_trusted_source_approval"
  let principal ← check (oidcPrincipal c.identity)
  let now ← readNow c.reading
  match connected c principal with
  | none => check (.error "trusted_source_connection_required")
  | some actor => do
      takeRate principal now
      let _ ← prune now c.pruning
      let s ← get
      match s.byRequest.get c.input.requestId with
      | some id => replay c actor id now
      | none => admitSource c actor

/-! ### The other calls -/

structure SourceScope where
  consent : Consent
  publisherPeerId : String
  publisherDeviceRef : String
  publicationId : String
  publicationEpoch : Int
  leaseId : String
  fencingRevision : Int
deriving DecidableEq

def sourceScope (r : Record) (consent : Consent) : SourceScope :=
  { consent := consent
    publisherPeerId := r.scope.invite.publisher.id
    publisherDeviceRef := broadcastDeviceRef r.scope.invite.publisher.fingerprint
    publicationId := r.scope.publicationId
    publicationEpoch := r.scope.publicationEpoch
    leaseId := r.leaseId
    fencingRevision := r.scope.invite.fencingRevision }

def forPackager (consentId packagerRef deviceRef : String) (reading : Int)
    (answers : Option Answers) : Stateful GrantsState (Option SourceScope) := do
  let now ← readNow reading
  let s ← get
  match s.records.get consentId with
  | none => return none
  | some r =>
      if r.scope.invite.packagerRef ≠ packagerRef then return none
      else match r.consent with
        | none => check (.error "TypeError")
        | some consent =>
            if consent.granteeDeviceRef ≠ deviceRef then return none
            else do
              let live ← current consentId now answers
              return if live then some (sourceScope r consent) else none

def revoke (identity : Identity) (deviceFingerprint consentId : String) (reading : Int) :
    Stateful GrantsState (Option Consent) := do
  let now ← readNow reading
  let s ← get
  match s.records.get consentId with
  | none => check (.error "trusted_source_unavailable")
  | some r => do
      let principal ← check (oidcPrincipal identity)
      failWhen (r.scope.invite.publisher.principal ≠ principal
          ∨ r.scope.invite.publisher.fingerprint ≠ deviceFingerprint) "trusted_source_unavailable"
      invalidate consentId now
      let t ← get
      return (t.records.get consentId).bind Record.consent

/-- A call of the owner of a program, with what the ports answer to it. -/
structure OwnerCall where
  identity : Identity
  actor : Option Peer
  programId : String
  programEpoch : Int
  reading : Int
  members : Option (List Peer)
  writer : Option Writer
  /-- What the ports answer for each record that is checked. -/
  answers : String → Option Answers

def owned (r : Record) (actor : Peer) (c : OwnerCall) : Bool :=
  decide (r.scope.invite.roomId = actor.roomId ∧ r.scope.invite.programId = c.programId
    ∧ r.scope.invite.programEpoch = c.programEpoch ∧ r.scope.invite.owner.id = actor.id
    ∧ r.scope.invite.owner.principal = actor.principal
    ∧ r.scope.invite.owner.fingerprint = actor.deviceFingerprint)

def ownerActor (c : OwnerCall) (principal : String) : Option Peer :=
  match c.actor, c.members with
  | some actor, some members =>
      if actor.authenticated = true ∧ actor.machine = false ∧ actor.creator = true
          ∧ actor ∈ members ∧ actor.principal = principal ∧ refOK "prg_" c.programId = true
          ∧ positive c.programEpoch then
        some actor
      else none
  | _, _ => none

def ownerWriterOK (c : OwnerCall) (w : Writer) (now : Int) : Bool :=
  decide (w.programEpoch = c.programEpoch) && decide (positive w.programRevision)
    && decide (positive w.fencingRevision)
    && decide (w.tenantId = broadcastTenantRef c.identity.issuer)
    && decide (w.ownerSubjectRef = broadcastSubjectRef c.identity.issuer c.identity.subject)
    && decide (positive w.expiresAt) && decide (now < w.expiresAt)
    && decide (w.state ∈ ["live", "degraded"])

def owner (c : OwnerCall) : Stateful GrantsState (Peer × Writer × Int) := do
  let now ← readNow c.reading
  let principal ← check (oidcPrincipal c.identity)
  match ownerActor c principal with
  | none => check (.error "trusted_source_owner_required")
  | some actor => do
      takeRate principal now
      match c.writer with
      | none => check (.error "port")
      | some w => do
          failWhen (ownerWriterOK c w now = false) "stale_source_moderation"
          return (actor, w, now)

structure OwnedSource where
  consentId : String
  sourceId : String
  sourceKind : String
  publisherPeerId : String
  expiresAt : Int
deriving DecidableEq

structure OwnedSources where
  programId : String
  programEpoch : Int
  programRevision : Int
  fencingRevision : Int
  observedAt : Int
  expiresAt : Int
  sources : List OwnedSource
deriving DecidableEq

/-- A source of the owner's list, if its consent still stands. -/
def ownedSource (id : String) (r : Record) : Option OwnedSource :=
  r.consent.map fun c =>
    { consentId := id
      sourceId := c.sourceId
      sourceKind := r.scope.invite.sourceKind
      publisherPeerId := r.scope.invite.publisher.id
      expiresAt := c.expiresAt }

def listForOwner (c : OwnerCall) : Stateful GrantsState OwnedSources := do
  let (actor, w, now) ← owner c
  let s ← get
  let mine := s.records.keys.filter fun id => (s.records.get id).any fun r => owned r actor c
  mine.forM fun id => do
    let _ ← current id now (c.answers id)
    pure ()
  let t ← get
  return {
    programId := c.programId
    programEpoch := c.programEpoch
    programRevision := w.programRevision
    fencingRevision := w.fencingRevision
    observedAt := now
    expiresAt := min (now + 5000) w.expiresAt
    sources := (mine.filter t.activeAt).filterMap fun id =>
      (t.records.get id).bind (ownedSource id) }

def revokeForOwner (c : OwnerCall) (programRevision fencingRevision : Int) (consentId : String) :
    Stateful GrantsState Unit := do
  let (actor, w, now) ← owner c
  failWhen (w.programRevision ≠ programRevision ∨ w.fencingRevision ≠ fencingRevision)
    "stale_source_moderation"
  let s ← get
  match s.records.get consentId with
  | none => check (.error "trusted_source_unavailable")
  | some r => do
      failWhen (owned r actor c = false) "trusted_source_unavailable"
      if r.active = true then do
        let live ← current consentId now (c.answers consentId)
        failWhen (live = false) "stale_source_moderation"
        invalidate consentId now
      else pure ()

/-! ## Calls -/

inductive Event
  | approve (call : ApproveCall)
  | forPackager (consentId packagerRef deviceRef : String) (reading : Int)
      (answers : Option Answers)
  | revoke (identity : Identity) (deviceFingerprint consentId : String) (reading : Int)
  | listForOwner (call : OwnerCall)
  | revokeForOwner (call : OwnerCall) (programRevision fencingRevision : Int)
      (consentId : String)
  | prune (reading : Int) (answers : String → Option Answers)
  | destroy

inductive Output
  | consent (c : Consent)
  | scope (x : Option SourceScope)
  | revoked (c : Option Consent)
  | sources (xs : OwnedSources)
  | moderated
  | pruned (ids : List String)
  | destroyed
deriving DecidableEq

def run : Event → Stateful GrantsState Output
  | .approve call => .consent <$> approve call
  | .forPackager consentId packagerRef deviceRef reading answers =>
      .scope <$> forPackager consentId packagerRef deviceRef reading answers
  | .revoke identity deviceFingerprint consentId reading =>
      .revoked <$> revoke identity deviceFingerprint consentId reading
  | .listForOwner call => .sources <$> listForOwner call
  | .revokeForOwner call programRevision fencingRevision consentId =>
      (fun _ => .moderated) <$> revokeForOwner call programRevision fencingRevision consentId
  | .prune reading answers => .pruned <$> (do
      let now ← readNow reading
      prune now answers)
  | .destroy => (fun _ => .destroyed) <$> destroy

/-- A call with what it returns; `none` when it throws. -/
abbrev Call := Event × Option Output

def Step (s : GrantsState) (call : Call) (t : GrantsState) : Prop :=
  t = after (run call.1 s) ∧ call.2 = returned (run call.1 s)

/-! ## What the grants are for -/

/-- What a consent is bound to, as the ports show it at one check. -/
structure Facts where
  publicationEpoch : Int
  roomEpoch : Int
  leaseId : String
  fencingRevision : Int
  sourceAuthorityRevision : Int
  generation : Nat
deriving DecidableEq

/-- The facts, where the publisher and the owner are members. -/
def factsOf (answers : Option Answers) (publisher owner : Bound) : Option Facts := do
  let a ← answers
  let _ ← member a.members publisher
  let _ ← member a.members owner
  let publication ← a.publication
  let w ← a.writer
  let p ← a.packager
  let generation ← p.generation
  return {
    publicationEpoch := publication.publicationEpoch
    roomEpoch := a.membershipEpoch
    leaseId := w.leaseId
    fencingRevision := w.fencingRevision
    sourceAuthorityRevision := w.sourceAuthorityRevision
    generation := generation }

/-- The facts a record was approved with. -/
def Record.facts (r : Record) : Facts :=
  { publicationEpoch := r.scope.publicationEpoch
    roomEpoch := r.roomEpoch
    leaseId := r.leaseId
    fencingRevision := r.scope.invite.fencingRevision
    sourceAuthorityRevision := r.sourceAuthorityRevision
    generation := r.generation }

/-- The consent stored under the id is over: its record was dropped with all
others or alone, it was revoked, or its time has passed. -/
def Gone (s : GrantsState) (id : String) : Prop :=
  s.closed = true ∨ ∀ r c, s.records.get id = some r → r.active = true → r.consent = some c →
    c.expiresAt ≤ s.lastNow

/-- The id a call would draw for a consent. -/
def drawnOf : Event → Option String
  | .approve call => some call.drawn
  | _ => none

def drawnIds (h : List Call) : List String := h.filterMap fun call => drawnOf call.1

/-- The invitation port answers with the request it was asked for and the one
time this request expires at. -/
def Honest (expiry : String → Int) : Event → Prop
  | .approve call => ∀ invite, call.invite = .ok invite →
      invite.requestId = call.input.requestId ∧ invite.expiresAt = expiry call.input.requestId
  | _ => True

/-- The call returns the consent with the id. -/
def Returns (call : Call) (id : String) : Prop :=
  match call.2 with
  | some (.consent c) => c.consentId = id
  | some (.scope (some x)) => x.consent.consentId = id
  | _ => False

/-- All approvals of a request that return a consent return the same one. -/
def OneConsent (h : List Call) : Prop :=
  ∀ a b c d, (.approve a, some (.consent c)) ∈ h → (.approve b, some (.consent d)) ∈ h →
    a.input.requestId = b.input.requestId → c = d

/-- A packager is only shown what the approvals of the consent were bound to. -/
def Shown (h : List Call) : Call → Prop
  | (.forPackager id _ _ _ answers, some (.scope (some x))) =>
      x.consent.consentId = id ∧ ∃ invite f, invite.publisher.id = x.publisherPeerId
        ∧ factsOf answers invite.publisher invite.owner = some f
        ∧ (∃ a, (.approve a, some (.consent x.consent)) ∈ h ∧ a.invite = .ok invite)
        ∧ ∀ a c, (.approve a, some (.consent c)) ∈ h → c.consentId = id →
          c = x.consent ∧ factsOf a.answers invite.publisher invite.owner = some f
  | _ => True

/-- One active consent for each program, publisher and publication, and the
authority holds no other consent active. -/
def OneActive (s : GrantsState) : Prop :=
  (∀ id r id' r', s.records.get id = some r → s.records.get id' = some r' →
    r.active = true → r'.active = true → r.scope.slot = r'.scope.slot → id = id')
  ∧ ∀ id ar, s.authority.records.get id = some ar → ar.consent.status = .active →
    ∃ r, s.records.get id = some r ∧ r.active = true ∧ r.consent = some ar.consent

/-- The first reading of a call that gets as far as its clock. -/
def readingOf : Event → Option Int
  | .approve call =>
      if call.input.ok = true ∧ (oidcPrincipal call.identity).toOption.isSome = true then
        some call.reading
      else none
  | .forPackager _ _ _ reading _ => some reading
  | .revoke _ _ _ reading => some reading
  | .listForOwner call => some call.reading
  | .revokeForOwner call _ _ _ => some call.reading
  | .prune reading _ => some reading
  | .destroy => none

/-- The record's check fails at the reading. -/
def Stale (s : GrantsState) (id : String) (now : Int) (answers : Option Answers) : Prop :=
  ∃ r, s.records.get id = some r ∧ ∀ k, checkScope r.scope r.bindings now answers ≠ .ok k

/-- What ends the consent stored under the id: a clock that went back, a
revocation, or a call that finds it stale. -/
inductive Ends (s : GrantsState) (id : String) : Call → Prop
  | rollback {e : Event} {out : Option Output} {reading : Int} (hread : readingOf e = some reading)
      (hback : reading < s.lastNow) : Ends s id (e, out)
  | revoked {identity : Identity} {deviceFingerprint : String} {reading : Int}
      {c : Option Consent} : Ends s id (.revoke identity deviceFingerprint id reading,
        some (.revoked c))
  | moderated {call : OwnerCall} {programRevision fencingRevision : Int} :
      Ends s id (.revokeForOwner call programRevision fencingRevision id, some .moderated)
  | found {packagerRef deviceRef : String} {reading : Int} {answers : Option Answers}
      {r : Record} {c : Consent} (hr : s.records.get id = some r) (hc : r.consent = some c)
      (hpackager : r.scope.invite.packagerRef = packagerRef)
      (hdevice : c.granteeDeviceRef = deviceRef) :
      Ends s id (.forPackager id packagerRef deviceRef reading answers, some (.scope none))
  | pruned {reading : Int} {answers : String → Option Answers} {ids : List String}
      (hstale : Stale s id reading (answers id)) :
      Ends s id (.prune reading answers, some (.pruned ids))
  | listed {call : OwnerCall} {xs : OwnedSources} {actor : Peer} {r : Record}
      (hr : s.records.get id = some r) (hactor : call.actor = some actor)
      (hmine : owned r actor call = true)
      (hstale : Stale s id call.reading (call.answers id)) :
      Ends s id (.listForOwner call, some (.sources xs))

end SourceGrants

end WebrtcMinimize
