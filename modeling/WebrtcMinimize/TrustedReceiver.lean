import WebrtcMinimize.TrustedKeys

/-!
# The trusted receiver and its source

A `Receiver` holds one consent and its decoder; it takes key envelopes that
match the consent and unwraps them with an agreement key of its own. A
`SourceReceiver` puts a receiver under a short lease that is renewed while
the consent stays what it was. Each looks at the reading it is given before
anything else, as the decoder does.

The policy is asked at the places the source asks it; its answers are part
of the call, and so is whether the real-time deadline of a lease has passed
when it is looked at. Timers are calls of their own. `agree` is what the key
agreement makes of an envelope: its base key, or the error.
-/

namespace WebrtcMinimize

open Attempts Bytes Checks Runs

namespace TrustedSFrame

open SFrame (Suite)

def maxSafeInteger : Int := 9007199254740991

def positive (n : Int) : Prop := 0 < n ∧ n ≤ maxSafeInteger

instance (n : Int) : Decidable (positive n) := inferInstanceAs (Decidable (_ ∧ _))

def tokenPattern (value : String) : Bool := spanOK refByte 16 64 (utf8 value)

def roomPattern (value : String) : Bool :=
  match utf8 value with
  | [] => false
  | b :: rest => (lowerByte b || digitByte b)
      && spanOK (fun b => lowerByte b || digitByte b || b == '-'.toNat) 5 47 rest

def keyIDPattern (value : String) : Bool := spanOK hexByte 16 16 (utf8 value)

/-! ## Consents -/

structure Consent where
  version : Int
  type : String
  trigger : String
  consentId : String
  tenantId : String
  roomId : String
  roomEpoch : Int
  programId : String
  programEpoch : Int
  grantorSubjectRef : String
  granteePackagerRef : String
  granteeDeviceRef : String
  sourceId : String
  sourceKind : String
  purpose : String
  status : String
  grantedAt : Int
  expiresAt : Int
deriving DecidableEq

/-- The checks of `parseConsent` on an object with exactly the fields. -/
def consentOK (c : Consent) (now : Int) : Prop :=
  positive now ∧ now ≤ maxSafeInteger - 600000 ∧ c.version = 1
    ∧ c.type = "trusted-decrypt-consent" ∧ c.trigger = "user-action"
    ∧ c.purpose = "broadcast-program" ∧ c.status = "active"
    ∧ refOK "cns_" c.consentId ∧ refOK "tn_" c.tenantId ∧ roomPattern c.roomId
    ∧ positive c.roomEpoch ∧ refOK "prg_" c.programId ∧ positive c.programEpoch
    ∧ refOK "sub_" c.grantorSubjectRef ∧ refOK "pkr_" c.granteePackagerRef
    ∧ refOK "dev_" c.granteeDeviceRef ∧ refOK "src_" c.sourceId
    ∧ positive c.grantedAt ∧ positive c.expiresAt ∧ c.grantedAt ≤ now + 5000
    ∧ now < c.expiresAt ∧ c.grantedAt < c.expiresAt ∧ c.expiresAt - c.grantedAt ≤ 600000
    ∧ c.sourceKind ∈ ["microphone", "camera", "screen", "screen-audio"]

instance (c : Consent) (now : Int) : Decidable (consentOK c now) :=
  inferInstanceAs (Decidable (_ ∧ _))

/-- `none` is text that is not an object with exactly the fields. -/
def parseConsent (raw : Option Consent) (now : Int) : Except String Consent :=
  match raw with
  | none => .error errKey
  | some c => if consentOK c now then .ok c else .error errKey

def audio (sourceKind : String) : Bool :=
  sourceKind == "microphone" || sourceKind == "screen-audio"

/-- The codec a source of the kind has to have. -/
def codecFits (sourceKind codec : String) : Prop :=
  codec = if audio sourceKind then "audio/opus" else "video/vp8"

instance (sourceKind codec : String) : Decidable (codecFits sourceKind codec) :=
  inferInstanceAs (Decidable (_ = _))

/-! ## The receiver -/

structure KeyEnvelope where
  version : Int
  type : String
  envelopeId : String
  consentId : String
  tenantId : String
  roomId : String
  roomEpoch : Int
  programId : String
  programEpoch : Int
  grantorSubjectRef : String
  granteePackagerRef : String
  granteeDeviceRef : String
  sourceId : String
  sourceKind : String
  purpose : String
  keyId : String
  frameEnvelope : String
  agreementKeyId : String
  senderPublicKey : String
  createdAt : Int
  expiresAt : Int
  nonce : String
  ciphertext : String
deriving DecidableEq

structure Receiver where
  consent : Consent
  agreementID : String
  decoder : Decoder
  seen : List String
  /-- the key ids whose timers are running -/
  keyTimers : List UInt64
  expiresAt : Int
  lastNow : Int
  closed : Bool

/-- `NewReceiver`, with the answer of `authorize` and the random agreement id. -/
def newReceiver (rawConsent : Option Consent) (packagerRef deviceRef codec : String)
    (allowed : Bool) (agreementID : String) (now : Int) : Except String Receiver := do
  let c ← parseConsent rawConsent now
  failIf (c.granteePackagerRef ≠ packagerRef ∨ c.granteeDeviceRef ≠ deviceRef ∨ allowed = false)
    errKey
  failIf (¬codecFits c.sourceKind codec) errKey
  let expiresAt := min c.expiresAt (now + 600000)
  let d ← new "codec-prefix-v1" codec now expiresAt
  return {
    consent := c
    agreementID := agreementID
    decoder := d
    seen := []
    keyTimers := []
    expiresAt := expiresAt
    lastNow := now
    closed := false
  }

def Receiver.destroy (r : Receiver) : Receiver :=
  if r.closed then r
  else { r with closed := true, keyTimers := [], decoder := r.decoder.destroy, seen := [] }

/-- `current`, with the answer of `authorize` -/
def receiverCurrent (now : Int) (allowed : Bool) : Stateful Receiver Unit := fun r =>
  if r.closed then .error errClosed r
  else if now < r.lastNow ∨ r.expiresAt ≤ now ∨ allowed = false then .error errClosed r.destroy
  else .ok () { r with lastNow := now }

/-- An operation of the receiver's decoder. -/
def onDecoder {α : Type} (x : Stateful Decoder α) : Stateful Receiver α := fun r =>
  match x r.decoder with
  | .ok a d => .ok a { r with decoder := d }
  | .error code d => .error code { r with decoder := d }

/-- What an envelope has to be under the receiver's consent. -/
def envelopeOK (r : Receiver) (e : KeyEnvelope) (now : Int) : Prop :=
  let c := r.consent
  e.version = 1 ∧ e.type = "trusted-decrypt-key" ∧ tokenPattern e.envelopeId
    ∧ e.consentId = c.consentId ∧ e.tenantId = c.tenantId ∧ e.roomId = c.roomId
    ∧ e.roomEpoch = c.roomEpoch ∧ e.programId = c.programId ∧ e.programEpoch = c.programEpoch
    ∧ e.grantorSubjectRef = c.grantorSubjectRef ∧ e.granteePackagerRef = c.granteePackagerRef
    ∧ e.granteeDeviceRef = c.granteeDeviceRef ∧ e.sourceId = c.sourceId
    ∧ e.sourceKind = c.sourceKind ∧ e.purpose = c.purpose ∧ keyIDPattern e.keyId
    ∧ e.frameEnvelope = "codec-prefix-v1" ∧ e.agreementKeyId = r.agreementID
    ∧ positive e.createdAt ∧ positive e.expiresAt ∧ e.createdAt ≤ now + 5000
    ∧ c.grantedAt - 5000 ≤ e.createdAt ∧ now < e.expiresAt ∧ e.createdAt < e.expiresAt
    ∧ e.expiresAt ≤ r.expiresAt ∧ e.expiresAt - e.createdAt ≤ 60000

instance (r : Receiver) (e : KeyEnvelope) (now : Int) : Decidable (envelopeOK r e now) :=
  inferInstanceAs (Decidable (_ ∧ _))

/-- `strconv.ParseUint(keyId, 16, 64)` on sixteen hexadecimal digits -/
def kidOf (keyId : String) : UInt64 :=
  UInt64.ofNat ((utf8 keyId).foldl (fun v b => 16 * v + (hexValue b).getD 0) 0)

/-- How long an envelope's key is installed for. -/
def expiryOf (e : KeyEnvelope) (now : Int) : Int := min e.expiresAt (now + 60000)

section Agreement

variable (suite : Suite) (agree : KeyEnvelope → Except String (List UInt8))

/-- `Install`; `authorize` is asked before and after the key agreement. -/
def receiverInstall (raw : Option KeyEnvelope) (now : Int) (allowed again : Bool) :
    Stateful Receiver String := do
  receiverCurrent now allowed
  let r ← get
  match raw with
  | none => check (.error errKey)
  | some e => do
      failWhen (¬envelopeOK r e now) errKey
      failWhen (e.envelopeId ∈ r.seen) errReplay
      failWhen (512 ≤ r.seen.length) errKey
      let base ← check (agree e)
      failWhen (base.length ≠ 16) errKey
      receiverCurrent now again
      onDecoder (install suite (kidOf e.keyId) base now (expiryOf e now))
      modify fun r => { r with
        seen := e.envelopeId :: r.seen
        keyTimers := if kidOf e.keyId ∈ r.keyTimers then r.keyTimers
          else kidOf e.keyId :: r.keyTimers }
      return e.keyId

def receiverDecrypt (frame : List UInt8) (now : Int) (allowed : Bool) :
    Stateful Receiver (List UInt8) := do
  receiverCurrent now allowed
  onDecoder (decrypt suite frame now)

inductive ReceiverCall
  | announcement (now : Int) (allowed : Bool)
  | install (raw : Option KeyEnvelope) (now : Int) (allowed again : Bool)
  | decrypt (frame : List UInt8) (now : Int) (allowed : Bool)
  | keyTimer (kid : UInt64)
  | destroy

def ReceiverCall.reading : ReceiverCall → Option Int
  | .announcement now _ => some now
  | .install _ now _ _ => some now
  | .decrypt _ now _ => some now
  | .keyTimer _ => none
  | .destroy => none

/-- The timer of a key. -/
def Receiver.timer (r : Receiver) (kid : UInt64) : Receiver :=
  if r.closed then r
  else { r with decoder := r.decoder.remove kid, keyTimers := r.keyTimers.erase kid }

/-- The receiver after a call. -/
def ReceiverCall.next (r : Receiver) : ReceiverCall → Receiver
  | .announcement now allowed => after (receiverCurrent now allowed r)
  | .install raw now allowed again => after (receiverInstall suite agree raw now allowed again r)
  | .decrypt frame now allowed => after (receiverDecrypt suite frame now allowed r)
  | .keyTimer kid => r.timer kid
  | .destroy => r.destroy

/-- A timer runs out only where it is running. -/
def ReceiverStep (r : Receiver) (call : ReceiverCall) (t : Receiver) : Prop :=
  t = call.next suite agree r ∧ ∀ kid, call = .keyTimer kid → kid ∈ r.keyTimers

end Agreement

/-! ## The source -/

structure SourceLease where
  version : Int
  type : String
  sourceLeaseId : String
  revision : Int
  consent : Consent
  assignmentId : String
  writerLeaseId : String
  fencingRevision : Int
  publisherPeerId : String
  publisherDeviceRef : String
  publicationId : String
  publicationEpoch : Int
  codec : String
  frameEnvelope : String
  issuedAt : Int
  expiresAt : Int
deriving DecidableEq

def publicationPattern (value : String) : Bool :=
  spanOK (fun b => refByte b || b == '='.toNat || b == '{'.toNat || b == '}'.toNat || b == ':'.toNat)
    1 128 (utf8 value)

def peerPattern (value : String) : Bool := spanOK hexByte 16 16 (utf8 value)

/-- The checks of `ParseSourceLease` on a lease whose consent was parsed. -/
def leaseOK (lease : SourceLease) (now : Int) : Prop :=
  lease.version = 1 ∧ lease.type = "trusted-source-lease" ∧ refOK "sls_" lease.sourceLeaseId
    ∧ positive lease.revision ∧ lease.revision ≤ 1024 ∧ refOK "asn_" lease.assignmentId
    ∧ refOK "lea_" lease.writerLeaseId ∧ positive lease.fencingRevision
    ∧ peerPattern lease.publisherPeerId ∧ refOK "dev_" lease.publisherDeviceRef
    ∧ publicationPattern lease.publicationId ∧ positive lease.publicationEpoch
    ∧ lease.frameEnvelope = "codec-prefix-v1" ∧ positive lease.issuedAt ∧ positive lease.expiresAt
    ∧ lease.issuedAt ≤ now + 1000 ∧ lease.consent.grantedAt - 5000 ≤ lease.issuedAt
    ∧ now < lease.expiresAt ∧ lease.issuedAt < lease.expiresAt
    ∧ lease.expiresAt - lease.issuedAt ≤ 5000 ∧ lease.expiresAt ≤ now + 5000
    ∧ lease.expiresAt ≤ lease.consent.expiresAt ∧ codecFits lease.consent.sourceKind lease.codec

instance (lease : SourceLease) (now : Int) : Decidable (leaseOK lease now) :=
  inferInstanceAs (Decidable (_ ∧ _))

def parseSourceLease (raw : Option SourceLease) (now : Int) : Except String SourceLease :=
  match raw with
  | none => .error errKey
  | some lease => do
      let c ← parseConsent (some lease.consent) now
      failIf (¬leaseOK { lease with consent := c } now) errKey
      return { lease with consent := c }

/-- `invalid` is left out: it is set only where the receiver then closes, and
every caller closes with the receiver. -/
structure SourceReceiver where
  lease : SourceLease
  receiver : Receiver
  lastNow : Int
  closed : Bool

/-- The reading of a call, the answers of the policy in the order it is
asked, and whether the deadline has passed where it is looked at. -/
structure Circumstances where
  now : Int
  policy : Nat → Bool
  overdue : Nat → Bool

def sourceLeaseBinding (lease : SourceLease) : SourceLease :=
  { lease with revision := 0, issuedAt := 0, expiresAt := 0 }

/-- What `authorize` answers the receiver of a source. -/
def authorized (lease : SourceLease) (c : Consent) (now : Int) (policy : Bool) : Bool :=
  decide (c = lease.consent) && decide (now < lease.expiresAt) && policy

/-- `NewSourceReceiver`, with the policy's answer -/
def newSourceReceiver (raw : Option SourceLease) (packagerRef deviceRef : String) (policy : Bool)
    (agreementID : String) (now : Int) : Except String SourceReceiver := do
  let lease ← parseSourceLease raw now
  failIf (lease.revision ≠ 1) errKey
  let r ← newReceiver (some lease.consent) packagerRef deviceRef lease.codec
    (authorized lease lease.consent now policy) agreementID now
  return { lease := lease, receiver := r, lastNow := now, closed := false }

def SourceReceiver.destroy (s : SourceReceiver) : SourceReceiver :=
  if s.closed then s else { s with closed := true, receiver := s.receiver.destroy }

/-- `current`; `at` counts the earlier looks of the call at policy and deadline. -/
def sourceCurrent (env : Circumstances) (asked looked : Nat) : Stateful SourceReceiver Unit :=
  fun s =>
    if s.closed then .error errClosed s
    else if env.now < s.lastNow ∨ s.lease.expiresAt ≤ env.now ∨ env.overdue looked
        ∨ env.policy asked = false then .error errClosed s.destroy
    else .ok () { s with lastNow := env.now }

/-- An operation of the source's receiver, which closes the source where it
finds the receiver closed. -/
def onReceiver {α : Type} (x : Stateful Receiver α) : Stateful SourceReceiver α := fun s =>
  match x s.receiver with
  | .ok a r => .ok a { s with receiver := r }
  | .error code r =>
      if code = errClosed then .error code (SourceReceiver.destroy { s with receiver := r })
      else .error code { s with receiver := r }

section Source

variable (suite : Suite) (agree : KeyEnvelope → Except String (List UInt8))

def SourceReceiver.allowed (s : SourceReceiver) (env : Circumstances) (asked : Nat) : Bool :=
  authorized s.lease s.receiver.consent env.now (env.policy asked)

def sourceAnnouncement (env : Circumstances) : Stateful SourceReceiver Unit := do
  sourceCurrent env 0 0
  let s ← get
  onReceiver (receiverCurrent env.now (s.allowed env 1))

def acceptKey (raw : Option KeyEnvelope) (env : Circumstances) : Stateful SourceReceiver String := do
  sourceCurrent env 0 0
  let s ← get
  let kid ← onReceiver
    (receiverInstall suite agree raw env.now (s.allowed env 1) (s.allowed env 2))
  sourceCurrent env 3 1
  return kid

/-- `decrypt` -/
def sourceDecrypt (frame : List UInt8) (env : Circumstances) :
    Stateful SourceReceiver (List UInt8) := do
  sourceCurrent env 0 0
  let s ← get
  let output ← onReceiver (receiverDecrypt suite frame env.now (s.allowed env 1))
  sourceCurrent env 2 1
  return output

def renew (raw : Option SourceLease) (env : Circumstances) : Stateful SourceReceiver Unit := do
  sourceCurrent env 0 0
  let s ← get
  let next ← check (parseSourceLease raw env.now)
  if next = s.lease then return ()
  else do
    failWhen (sourceLeaseBinding s.lease ≠ sourceLeaseBinding next
      ∨ next.revision ≠ s.lease.revision + 1 ∨ next.issuedAt < s.lease.issuedAt
      ∨ next.expiresAt ≤ s.lease.expiresAt ∨ env.policy 1 = false) errKey
    modify fun s => { s with lease := next }

inductive SourceCall
  | announcement (env : Circumstances)
  | acceptKey (raw : Option KeyEnvelope) (env : Circumstances)
  | decrypt (frame : List UInt8) (env : Circumstances)
  | alive (env : Circumstances)
  | renew (raw : Option SourceLease) (env : Circumstances)
  | expire (overdue : Bool)
  | destroy
  /-- a timer of the receiver -/
  | keyTimer (kid : UInt64)
  | receiverTimer

def SourceCall.reading : SourceCall → Option Int
  | .announcement env => some env.now
  | .acceptKey _ env => some env.now
  | .decrypt _ env => some env.now
  | .alive env => some env.now
  | .renew _ env => some env.now
  | .expire _ => none
  | .destroy => none
  | .keyTimer _ => none
  | .receiverTimer => none

/-- The source after a call. -/
def SourceCall.next (s : SourceReceiver) : SourceCall → SourceReceiver
  | .announcement env => after (sourceAnnouncement env s)
  | .acceptKey raw env => after (TrustedSFrame.acceptKey suite agree raw env s)
  | .decrypt frame env => after (sourceDecrypt suite frame env s)
  | .alive env => after (sourceCurrent env 0 0 s)
  | .renew raw env => after (TrustedSFrame.renew raw env s)
  | .expire overdue => if overdue then s.destroy else s
  | .destroy => s.destroy
  | .keyTimer kid => { s with receiver := s.receiver.timer kid }
  | .receiverTimer => { s with receiver := s.receiver.destroy }

def SourceStep (s : SourceReceiver) (call : SourceCall) (t : SourceReceiver) : Prop :=
  t = call.next suite agree s ∧ ∀ kid, call = .keyTimer kid → kid ∈ s.receiver.keyTimers

end Source

end TrustedSFrame

end WebrtcMinimize
