import WebrtcMinimize.Base64url
import WebrtcMinimize.Maps
import WebrtcMinimize.ProgramModel

/-!
# The browser's vault of decrypt keys

`TrustedDecryptKeyLifecycle`: consents that were authorised, each with an
agreement key, and the keys that were installed under them. `authorize` and
`install` suspend at every call of the crypto library; a suspended call is a
task, which a later step resumes with the library's answer. An install keeps
the entry it has found, so that entries are objects here and the map has their
places.

The log has what the vault calls and returns, in order.
-/

namespace WebrtcMinimize

namespace DecryptLifecycle

open Checks

/-! ## Consents and envelopes -/

inductive SourceKind
  | microphone
  | camera
  | screen
  | screenAudio
deriving DecidableEq

/-- `TrustedDecryptConsent`, without the fields that are always the same. -/
structure Consent where
  consentId : String
  tenantId : String
  roomId : String
  roomEpoch : Nat
  programId : String
  programEpoch : Nat
  grantorSubjectRef : String
  granteePackagerRef : String
  granteeDeviceRef : String
  sourceId : String
  sourceKind : SourceKind
  grantedAt : Int
  expiresAt : Int
deriving DecidableEq

structure Jwk where
  x : String
  y : String
deriving DecidableEq

/-- `TrustedPackagerKeyAnnouncement` -/
structure Announcement where
  consentId : String
  granteePackagerRef : String
  granteeDeviceRef : String
  roomId : String
  roomEpoch : Nat
  programId : String
  programEpoch : Nat
  agreementKeyId : String
  publicKey : Jwk
  issuedAt : Int
  expiresAt : Int
deriving DecidableEq

/-- `TrustedDecryptKeyEnvelope` -/
structure Envelope where
  envelopeId : String
  consentId : String
  tenantId : String
  roomId : String
  roomEpoch : Nat
  programId : String
  programEpoch : Nat
  grantorSubjectRef : String
  granteePackagerRef : String
  granteeDeviceRef : String
  sourceId : String
  sourceKind : SourceKind
  keyId : String
  agreementKeyId : String
  senderPublicKey : Jwk
  createdAt : Int
  expiresAt : Int
  nonce : String
  ciphertext : String
deriving DecidableEq

def maxClockSkewMs : Int := 5000

def maxConsentTtlMs : Int := 10 * 60000

def maxKeyTtlMs : Int := 60000

def sframeBaseKeyBytes : Nat := 16

def safeInteger (n : Int) : Bool :=
  decide (-9007199254740991 ≤ n) && decide (n ≤ 9007199254740991)

/-- `TOKEN` -/
def tokenOK (s : String) : Bool := spanOK refByte 16 64 (utf8 s)

/-- `CONTEXT_ID` -/
def contextIdOK (s : String) : Bool :=
  spanOK (fun b => refByte b || b == ':'.toNat || b == '='.toNat || b == 0x7b || b == 0x7d) 1 196
    (utf8 s)

/-- `validPublicJwk` -/
def Jwk.ok (key : Jwk) : Bool :=
  spanOK refByte 43 43 (utf8 key.x) && spanOK refByte 43 43 (utf8 key.y)

/-- `parseTrustedDecryptConsent` accepts. -/
def Consent.ok (c : Consent) (now : Int) : Bool :=
  refOK "cns_" c.consentId && refOK "tn_" c.tenantId && roomIdOK c.roomId
    && positiveIntegerOK c.roomEpoch && refOK "prg_" c.programId
    && positiveIntegerOK c.programEpoch && refOK "sub_" c.grantorSubjectRef
    && refOK "pkr_" c.granteePackagerRef && refOK "dev_" c.granteeDeviceRef
    && refOK "src_" c.sourceId && safeInteger c.grantedAt && safeInteger c.expiresAt
    && decide (c.grantedAt ≤ now + maxClockSkewMs) && decide (now < c.expiresAt)
    && decide (c.expiresAt - c.grantedAt ≤ maxConsentTtlMs)

/-- `decode(value).length === n` -/
def decodesTo (value : String) (n : Nat) : Bool :=
  (Base64url.decode value.toList).any fun bytes => bytes.length == n

/-- `parseTrustedDecryptKeyEnvelope` accepts. What passes the other checks is
always shorter than 8 KiB. -/
def Envelope.ok (e : Envelope) (c : Consent) (now : Int) : Bool :=
  tokenOK e.envelopeId && e.consentId == c.consentId && e.tenantId == c.tenantId
    && e.roomId == c.roomId && e.roomEpoch == c.roomEpoch && e.programId == c.programId
    && e.programEpoch == c.programEpoch && e.grantorSubjectRef == c.grantorSubjectRef
    && e.granteePackagerRef == c.granteePackagerRef && e.granteeDeviceRef == c.granteeDeviceRef
    && e.sourceId == c.sourceId && e.sourceKind == c.sourceKind
    && spanOK hexByte 16 16 (utf8 e.keyId) && tokenOK e.agreementKeyId && e.senderPublicKey.ok
    && safeInteger e.createdAt && safeInteger e.expiresAt
    && decide (e.createdAt ≤ now + maxClockSkewMs) && decide (now < e.expiresAt)
    && decide (e.expiresAt ≤ c.expiresAt) && decide (e.expiresAt - e.createdAt ≤ maxKeyTtlMs)
    && decodesTo e.nonce 12 && decodesTo e.ciphertext 32

/-! ## The vault -/

/-- `VaultEntry` -/
structure Entry where
  consent : Consent
  agreementKeyId : String
  seen : List String
  contexts : List String
deriving DecidableEq

inductive EventType
  | consentAuthorized
  | keyInstalled
  | consentRevoked
deriving DecidableEq

/-- An install that has found its entry. -/
structure Install where
  entry : Nat
  envelope : Envelope
  contextId : String
  now : Int
deriving DecidableEq

/-- A call, and what it waits for. -/
inductive Task
  | generateKey (consent : Consent) (now : Int)
  | exportKey (consent : Consent) (now : Int) (agreementKeyId : String)
  | importKey (x : Install)
  | deriveKey (x : Install)
  | decrypt (x : Install)
deriving DecidableEq

inductive Action
  /-- `authorize` returns. -/
  | announced (a : Announcement)
  /-- A call fails with the code. -/
  | failed (code : String)
  | installKey (consent : Consent) (contextId keyId envelopeId : String) (now : Int)
      (accepted : Bool)
  | clearContext (contextId : String)
  | audit (eventType : EventType) (consent : Consent) (reasonCode : String) (occurredAt : Int)
  /-- The consent is revoked, or its vault destroyed; nothing reads these two. -/
  | revoked (consent : Consent)
  | destroyed
deriving DecidableEq

structure Vault where
  objects : List Entry
  entries : KeyedMap String Nat
  destroyed : Bool
  tasks : List Task
  /-- The places of the entries whose expiry timers run. -/
  timers : List Nat
  log : List Action
  /-- The consents that `authorize` has taken; nothing reads them. -/
  known : List Consent

def empty : Vault := ⟨[], .empty, false, [], [], [], []⟩

namespace Vault

variable (v : Vault)

def emit (actions : List Action) : Vault := { v with log := v.log ++ actions }

def fail (code : String) : Vault := v.emit [.failed code]

def suspend (task : Task) : Vault := { v with tasks := v.tasks ++ [task] }

def entry? (consentId : String) : Option Entry :=
  (v.entries.get consentId).bind fun i => v.objects[i]?

def setEntry (i : Nat) (f : Entry → Entry) : Vault := { v with objects := v.objects.modify i f }

/-- `authorize`, as far as it goes at once. -/
def authorize (consent : Consent) (now : Int) : Vault :=
  if v.destroyed = true then v.fail "trusted_decrypt_lifecycle_destroyed"
  else if consent.ok now = false then v.fail "invalid_trusted_decrypt_consent"
  else if (v.entries.get consent.consentId).isSome = true then
    v.fail "trusted_decrypt_consent_already_authorized"
  else { v.suspend (.generateKey consent now) with known := consent :: v.known }

/-- `install`, as far as it goes at once. -/
def install (envelope : Envelope) (consent : Consent) (contextId : String) (now : Int) : Vault :=
  if v.destroyed = true ∨ contextIdOK contextId = false then
    v.fail "invalid_trusted_decrypt_context"
  else if consent.ok now = false then v.fail "invalid_trusted_decrypt_consent"
  else match v.entries.get consent.consentId with
    | none => v.fail "inactive_trusted_decrypt_consent"
    | some i =>
        match v.objects[i]? with
        | none => v.fail "inactive_trusted_decrypt_consent"
        | some entry =>
            if entry.consent ≠ consent then v.fail "inactive_trusted_decrypt_consent"
            else if envelope.ok consent now = false then v.fail "invalid_trusted_decrypt_key"
            else if envelope.agreementKeyId ≠ entry.agreementKeyId then
              v.fail "stale_trusted_decrypt_key"
            else if envelope.envelopeId ∈ entry.seen then v.fail "replayed_trusted_decrypt_key"
            else (v.setEntry i fun e => { e with seen := envelope.envelopeId :: e.seen }).suspend
              (.importKey ⟨i, envelope, contextId, now⟩)

def revoke (consentId reasonCode : String) (now : Int) : Vault :=
  match v.entries.get consentId with
  | none => v
  | some i =>
      match v.objects[i]? with
      | none => v
      | some entry =>
          { (v.setEntry i fun e => { e with contexts := [], seen := [] }).emit
              (entry.contexts.map .clearContext
                ++ [.audit .consentRevoked entry.consent reasonCode now]) with
            timers := v.timers.filter fun j => decide (j ≠ i)
            entries := v.entries.erase consentId }

/-- The ids of the entries whose consents have the property. -/
def matching (p : Consent → Bool) : List String :=
  v.entries.keys.filter fun id => (v.entry? id).any fun e => p e.consent

def revokeEach (ids : List String) (reasonCode : String) (now : Int) : Vault :=
  ids.foldl (fun v id => v.revoke id reasonCode now) v

def revokeProgram (programId : String) (now : Int) : Vault :=
  v.revokeEach (v.matching fun c => c.programId == programId) "packager-handoff" now

def revokeRoom (roomId : String) (now : Int) : Vault :=
  v.revokeEach (v.matching fun c => c.roomId == roomId) "room-left" now

def otherEpoch (roomId : String) (roomEpoch : Nat) (programId : String) (programEpoch : Nat)
    (c : Consent) : Bool :=
  c.roomId == roomId
    && (c.roomEpoch != roomEpoch || c.programId != programId || c.programEpoch != programEpoch)

def retainEpochs (roomId : String) (roomEpoch : Nat) (programId : String) (programEpoch : Nat)
    (now : Int) : Vault :=
  v.revokeEach (v.matching (otherEpoch roomId roomEpoch programId programEpoch)) "epoch-changed" now

def revokeExpired (now : Int) : Vault :=
  v.revokeEach (v.matching fun c => decide (c.expiresAt ≤ now)) "expired" now

def destroy (now : Int) : Vault :=
  { (v.revokeEach v.entries.keys "destroyed" now).emit [.destroyed] with destroyed := true }

/-! ### Resuming -/

/-- What the crypto library has answered, and what else the rest of the call reads. -/
structure Answer where
  ok : Bool
  /-- The id that `authorize` draws, and the key it exports. -/
  agreementKeyId : String
  publicKey : Jwk
  plaintext : List UInt8
  /-- What `installKey` returns, and when it is called. -/
  accepted : Bool
  now : Int

/-- The rest of `authorize`. -/
def register (consent : Consent) (now : Int) (agreementKeyId : String) (publicKey : Jwk) : Vault :=
  { v.emit [.audit .consentAuthorized consent "user-action" now,
      .announced ⟨consent.consentId, consent.granteePackagerRef, consent.granteeDeviceRef,
        consent.roomId, consent.roomEpoch, consent.programId, consent.programEpoch, agreementKeyId,
        publicKey, now, consent.expiresAt⟩] with
    objects := v.objects ++ [⟨consent, agreementKeyId, [], []⟩]
    timers := v.timers ++ [v.objects.length]
    entries := v.entries.set consent.consentId v.objects.length }

/-- The `catch` of `install`. -/
def giveUp (x : Install) (code : String) : Vault :=
  (v.setEntry x.entry fun e => { e with seen := e.seen.filter fun id => id ≠ x.envelope.envelopeId
    }).fail code

/-- The rest of `install`. -/
def complete (x : Install) (answer : Answer) : Vault :=
  match v.objects[x.entry]? with
  | none => v
  | some entry =>
      if answer.plaintext.length ≠ sframeBaseKeyBytes then
        v.giveUp x "trusted_decrypt_key_install_failed"
      else
        let called := v.emit [.installKey entry.consent x.contextId x.envelope.keyId
          x.envelope.envelopeId answer.now answer.accepted]
        if answer.accepted = false then called.giveUp x "trusted_decrypt_key_install_failed"
        else (called.setEntry x.entry fun e => { e with
            contexts := if x.contextId ∈ e.contexts then e.contexts else e.contexts ++ [x.contextId]
          }).emit [.audit .keyInstalled entry.consent "source-key-installed" x.now]

def goOn (answer : Answer) : Task → Vault
  | .generateKey consent now =>
      if answer.ok = false then v.fail "OperationError"
      else v.suspend (.exportKey consent now answer.agreementKeyId)
  | .exportKey consent now agreementKeyId =>
      if answer.ok = false then v.fail "OperationError"
      else v.register consent now agreementKeyId answer.publicKey
  | .importKey x =>
      if answer.ok = false then v.giveUp x "trusted_decrypt_key_authentication_failed"
      else v.suspend (.deriveKey x)
  | .deriveKey x =>
      if answer.ok = false then v.giveUp x "trusted_decrypt_key_authentication_failed"
      else v.suspend (.decrypt x)
  | .decrypt x =>
      if answer.ok = false then v.giveUp x "trusted_decrypt_key_authentication_failed"
      else v.complete x answer

end Vault

/-! ## Runs -/

inductive Event
  | authorize (consent : Consent) (now : Int)
  | install (envelope : Envelope) (consent : Consent) (contextId : String) (now : Int)
  /-- The task at this place goes on. -/
  | resume (i : Nat) (answer : Vault.Answer)
  | revoke (consentId reasonCode : String) (now : Int)
  | revokeProgram (programId : String) (now : Int)
  | revokeRoom (roomId : String) (now : Int)
  | retainEpochs (roomId : String) (roomEpoch : Nat) (programId : String) (programEpoch : Nat)
      (now : Int)
  | revokeExpired (now : Int)
  /-- The expiry timer of the entry at this place. -/
  | expiry (i : Nat)
  | destroy (now : Int)

namespace Vault

variable (v : Vault)

/-- The known consents with the property are revoked from here on. -/
def mark (p : Consent → Bool) : Vault := v.emit ((v.known.filter p).map .revoked)

def next : Event → Vault
  | .authorize consent now => v.authorize consent now
  | .install envelope consent contextId now => v.install envelope consent contextId now
  | .resume i answer =>
      match v.tasks[i]? with
      | none => v
      | some task => { v with tasks := v.tasks.eraseIdx i }.goOn answer task
  | .revoke consentId reasonCode now =>
      (v.mark fun c => c.consentId == consentId).revoke consentId reasonCode now
  | .revokeProgram programId now =>
      (v.mark fun c => c.programId == programId).revokeProgram programId now
  | .revokeRoom roomId now => (v.mark fun c => c.roomId == roomId).revokeRoom roomId now
  | .retainEpochs roomId roomEpoch programId programEpoch now =>
      (v.mark (otherEpoch roomId roomEpoch programId programEpoch)).retainEpochs roomId roomEpoch
        programId programEpoch now
  | .revokeExpired now => (v.mark fun c => decide (c.expiresAt ≤ now)).revokeExpired now
  | .expiry i =>
      match v.objects[i]? with
      | none => v
      | some entry =>
          if i ∉ v.timers then v
          else { v.mark fun c => c.consentId == entry.consent.consentId with
            timers := v.timers.erase i }.revoke entry.consent.consentId "expired"
              entry.consent.expiresAt
  | .destroy now => (v.mark fun _ => true).destroy now

def Step (v : Vault) (e : Event) (w : Vault) : Prop := v.next e = w

end Vault

end DecryptLifecycle

end WebrtcMinimize
