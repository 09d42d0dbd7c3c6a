import WebrtcMinimize.TrustedReceiver
import WebrtcMinimize.DecryptLifecycle

/-!
# Key exchange under renewed leases

A `TrustedSourcePublisher` after its negotiation, joined to the `SourceReceiver`
by the key channel. The publisher answers the receiver's announcement with a
sealed key, activates it when it is acknowledged, and makes the next one before
its lifetime is over. The server renews the lease of the receiver, and then the
publisher's with the same lease; an acknowledgement carries the lease that the
receiver has when it installs the key.

Track, authority and policy are there throughout, and both sides read one clock,
so that deadlines are the expiries of the leases. What is random in a key, and
whether a platform call succeeds, come with the events.
-/

namespace WebrtcMinimize

open Attempts Bytes Checks

namespace SourceKeys

open TrustedSFrame SFrame

/-! ## Contracts -/

/-- `TrustedPackagerKeyAnnouncement` -/
structure Announcement where
  version : Int
  type : String
  consentId : String
  granteePackagerRef : String
  granteeDeviceRef : String
  roomId : String
  roomEpoch : Int
  programId : String
  programEpoch : Int
  agreementKeyId : String
  publicKey : DecryptLifecycle.Jwk
  issuedAt : Int
  expiresAt : Int
deriving DecidableEq

/-- The `trusted-source-key-ack` of a receiver. -/
structure KeyAck where
  version : Int
  type : String
  sourceLeaseId : String
  leaseRevision : Int
  consentId : String
  agreementKeyId : String
  envelopeId : String
  keyId : String
  state : String
  expiresAt : Int
deriving DecidableEq

def safeInteger (n : Int) : Prop := -maxSafeInteger ≤ n ∧ n ≤ maxSafeInteger

instance (n : Int) : Decidable (safeInteger n) := inferInstanceAs (Decidable (_ ∧ _))

/-- `parseTrustedDecryptConsent` accepts. -/
def decryptConsentOK (c : Consent) (now : Int) : Prop :=
  c.version = 1 ∧ c.type = "trusted-decrypt-consent" ∧ c.trigger = "user-action"
    ∧ refOK "cns_" c.consentId ∧ refOK "tn_" c.tenantId ∧ roomPattern c.roomId
    ∧ positive c.roomEpoch ∧ refOK "prg_" c.programId ∧ positive c.programEpoch
    ∧ refOK "sub_" c.grantorSubjectRef ∧ refOK "pkr_" c.granteePackagerRef
    ∧ refOK "dev_" c.granteeDeviceRef ∧ refOK "src_" c.sourceId
    ∧ c.sourceKind ∈ ["microphone", "camera", "screen", "screen-audio"]
    ∧ c.purpose = "broadcast-program" ∧ c.status = "active"
    ∧ safeInteger c.grantedAt ∧ safeInteger c.expiresAt ∧ c.grantedAt ≤ now + 5000
    ∧ now < c.expiresAt ∧ c.expiresAt - c.grantedAt ≤ 600000

instance (c : Consent) (now : Int) : Decidable (decryptConsentOK c now) :=
  inferInstanceAs (Decidable (_ ∧ _))

/-- `parseTrustedSourceLease` accepts an object with exactly the fields. -/
def sourceLeaseOK (l : SourceLease) (now : Int) : Prop :=
  decryptConsentOK l.consent now ∧ positive l.consent.grantedAt
    ∧ l.consent.grantedAt < l.consent.expiresAt ∧ l.version = 1 ∧ l.type = "trusted-source-lease"
    ∧ refOK "sls_" l.sourceLeaseId ∧ positive l.revision ∧ l.revision ≤ 1024
    ∧ refOK "asn_" l.assignmentId ∧ refOK "lea_" l.writerLeaseId ∧ positive l.fencingRevision
    ∧ peerPattern l.publisherPeerId ∧ refOK "dev_" l.publisherDeviceRef
    ∧ publicationPattern l.publicationId ∧ positive l.publicationEpoch
    ∧ l.codec = (if audio l.consent.sourceKind then "audio/opus" else "video/vp8")
    ∧ l.frameEnvelope = "codec-prefix-v1" ∧ positive l.issuedAt ∧ positive l.expiresAt
    ∧ l.issuedAt ≤ now + 1000 ∧ l.consent.grantedAt - 5000 ≤ l.issuedAt ∧ now < l.expiresAt
    ∧ l.issuedAt < l.expiresAt ∧ l.expiresAt - l.issuedAt ≤ 5000 ∧ l.expiresAt ≤ now + 5000
    ∧ l.expiresAt ≤ l.consent.expiresAt

instance (l : SourceLease) (now : Int) : Decidable (sourceLeaseOK l now) :=
  inferInstanceAs (Decidable (_ ∧ _))

def sameTrustedSource (a b : SourceLease) : Prop :=
  a.version = b.version ∧ a.type = b.type ∧ a.sourceLeaseId = b.sourceLeaseId
    ∧ a.assignmentId = b.assignmentId ∧ a.writerLeaseId = b.writerLeaseId
    ∧ a.fencingRevision = b.fencingRevision ∧ a.publisherPeerId = b.publisherPeerId
    ∧ a.publisherDeviceRef = b.publisherDeviceRef ∧ a.publicationId = b.publicationId
    ∧ a.publicationEpoch = b.publicationEpoch ∧ a.codec = b.codec
    ∧ a.frameEnvelope = b.frameEnvelope ∧ a.consent = b.consent

instance (a b : SourceLease) : Decidable (sameTrustedSource a b) :=
  inferInstanceAs (Decidable (_ ∧ _))

/-- `parseTrustedPackagerKey` accepts an object with exactly the fields. -/
def packagerKeyOK (a : Announcement) (c : Consent) (now : Int) : Prop :=
  a.version = 1 ∧ a.type = "trusted-packager-key" ∧ a.consentId = c.consentId
    ∧ a.granteePackagerRef = c.granteePackagerRef ∧ a.granteeDeviceRef = c.granteeDeviceRef
    ∧ a.roomId = c.roomId ∧ a.roomEpoch = c.roomEpoch ∧ a.programId = c.programId
    ∧ a.programEpoch = c.programEpoch ∧ tokenPattern a.agreementKeyId ∧ a.publicKey.ok
    ∧ safeInteger a.issuedAt ∧ safeInteger a.expiresAt ∧ a.issuedAt ≤ now + 5000
    ∧ now < a.expiresAt ∧ a.expiresAt ≤ c.expiresAt

instance (a : Announcement) (c : Consent) (now : Int) : Decidable (packagerKeyOK a c now) :=
  inferInstanceAs (Decidable (_ ∧ _))

/-- `verifyTrustedSourceAck` accepts an object with exactly the fields. -/
def sourceAckOK (a : KeyAck) (lease : SourceLease) (pending : KeyEnvelope) (minimumRevision now : Int) :
    Prop :=
  a.version = 1 ∧ a.type = "trusted-source-key-ack" ∧ a.state = "key-installed"
    ∧ a.sourceLeaseId = lease.sourceLeaseId ∧ a.consentId = lease.consent.consentId
    ∧ a.agreementKeyId = pending.agreementKeyId ∧ a.envelopeId = pending.envelopeId
    ∧ a.keyId = pending.keyId ∧ positive a.leaseRevision ∧ a.leaseRevision ≤ lease.revision
    ∧ minimumRevision ≤ a.leaseRevision ∧ positive a.expiresAt ∧ now < a.expiresAt
    ∧ a.expiresAt ≤ min lease.expiresAt pending.expiresAt

instance (a : KeyAck) (lease : SourceLease) (pending : KeyEnvelope) (minimumRevision now : Int) :
    Decidable (sourceAckOK a lease pending minimumRevision now) :=
  inferInstanceAs (Decidable (_ ∧ _))

/-- What `rotateKey` and `sealTrustedDecryptKey` draw and compute for a key. -/
structure Drawn where
  keyId : String
  envelopeId : String
  senderPublicKey : String
  nonce : String
  ciphertext : String
deriving DecidableEq

/-- The envelope of `sealTrustedDecryptKey`. -/
def sealed (c : Consent) (a : Announcement) (drawn : Drawn) (now : Int) : KeyEnvelope where
  version := 1
  type := "trusted-decrypt-key"
  envelopeId := drawn.envelopeId
  consentId := c.consentId
  tenantId := c.tenantId
  roomId := c.roomId
  roomEpoch := c.roomEpoch
  programId := c.programId
  programEpoch := c.programEpoch
  grantorSubjectRef := c.grantorSubjectRef
  granteePackagerRef := c.granteePackagerRef
  granteeDeviceRef := c.granteeDeviceRef
  sourceId := c.sourceId
  sourceKind := c.sourceKind
  purpose := c.purpose
  keyId := drawn.keyId
  frameEnvelope := "codec-prefix-v1"
  agreementKeyId := a.agreementKeyId
  senderPublicKey := drawn.senderPublicKey
  createdAt := now
  expiresAt := min (min c.expiresAt a.expiresAt) (now + 60000)
  nonce := drawn.nonce
  ciphertext := drawn.ciphertext

/-! ## The publisher -/

inductive Message
  | announcement (a : Announcement)
  | ack (a : KeyAck)
deriving DecidableEq

/-- What the chain has still to do. -/
inductive Operation
  | keyMessage (value : Message)
  | rotateKey
deriving DecidableEq

def Operation.ack? : Operation → Option KeyAck
  | .keyMessage (.ack a) => some a
  | _ => none

/-- What the operation under way waits for. -/
inductive Task
  | sealing (envelope : KeyEnvelope)
  | activating (envelope : KeyEnvelope)
deriving DecidableEq

structure PendingKey where
  envelope : KeyEnvelope
  revision : Int
deriving DecidableEq

inductive Action
  /-- A message on the key channel is not what the publisher waits for. -/
  | refused (value : Message)
  | activated (envelope : KeyEnvelope) (now : Int)
  | renewed (accepted : Bool)
deriving DecidableEq

/-- `TrustedSourcePublisher`, after the answer to its offer. A timer is the time at
which it runs out. -/
structure Publisher where
  lease : SourceLease
  closed : Bool
  announcement : Option Announcement
  pending : Option PendingKey
  keyIds : List String
  task : Option Task
  operations : List Operation
  lastNow : Int
  keyTimer : Option Int
  rotationTimer : Option Int
  ackTimer : Option Int
  startupTimer : Option Int
  /-- What is on its way on the key channel. -/
  channel : List KeyEnvelope
  log : List Action

/-- `start`, with a live track, authority and an open connection. -/
def Publisher.start (lease : SourceLease) (now : Int) : Option Publisher :=
  if sourceLeaseOK lease now ∧ lease.revision = 1 then some {
    lease := lease
    closed := false
    announcement := none
    pending := none
    keyIds := []
    task := none
    operations := []
    lastNow := now
    keyTimer := none
    rotationTimer := none
    ackTimer := none
    startupTimer := some (now + 5000)
    channel := []
    log := []
  }
  else none

namespace Publisher

variable (p : Publisher) (now : Int)

def stop : Publisher :=
  if p.closed then p
  else { p with
    closed := true
    announcement := none
    pending := none
    keyIds := []
    keyTimer := none
    rotationTimer := none
    ackTimer := none
    startupTimer := none }

def record (action : Action) : Publisher := { p with log := p.log ++ [action] }

/-- `assertCurrent` passes. -/
def current : Prop := p.closed = false ∧ p.lastNow ≤ now ∧ now < p.lease.expiresAt

instance : Decidable (p.current now) := inferInstanceAs (Decidable (_ ∧ _))

/-- `assertCurrent`, and what comes after it. -/
def whenCurrent (next : Publisher → Publisher) : Publisher :=
  if p.current now then next { p with lastNow := now } else p.stop

def enqueue (operation : Operation) : Publisher :=
  if p.closed then p
  else if 32 ≤ p.operations.length + p.task.toList.length then p.stop
  else { p with operations := p.operations ++ [operation] }

def renew (next : SourceLease) : Publisher :=
  p.whenCurrent now fun p =>
    if ¬sourceLeaseOK next now ∨ ¬sameTrustedSource p.lease next then
      (p.record (.renewed false)).stop
    else if next.revision = p.lease.revision ∧ next.issuedAt = p.lease.issuedAt
        ∧ next.expiresAt = p.lease.expiresAt then p
    else if next.revision ≠ p.lease.revision + 1 ∨ next.issuedAt < p.lease.issuedAt
        ∨ next.expiresAt ≤ p.lease.expiresAt then (p.record (.renewed false)).stop
    else { p.record (.renewed true) with lease := next }

/-- `rotateKey`, until the key is sealed. -/
def rotateKey (drawn : Drawn) : Publisher :=
  p.whenCurrent now fun p =>
    match p.announcement with
    | none => p.stop
    | some a =>
        if p.pending.isSome ∨ 512 ≤ p.keyIds.length ∨ drawn.keyId ∈ p.keyIds then p.stop
        else if ¬decryptConsentOK p.lease.consent now ∨ ¬packagerKeyOK a p.lease.consent now
            ∨ keyIDPattern drawn.keyId = false then p.stop
        else { p with
          keyIds := p.keyIds ++ [drawn.keyId]
          task := some (.sealing (sealed p.lease.consent a drawn now)) }

/-- `keyMessage`, until the key is sealed or the sender has its parameters;
`installed` is the answer of `setSenderKey`. -/
def keyMessage (value : Message) (drawn : Drawn) (installed : Bool) : Publisher :=
  p.whenCurrent now fun p =>
    match p.announcement, value with
    | none, .announcement a =>
        if packagerKeyOK a p.lease.consent now then
          rotateKey { p with announcement := some a } now drawn
        else (p.record (.refused value)).stop
    | none, .ack _ => (p.record (.refused value)).stop
    | some _, .announcement _ => (p.record (.refused value)).stop
    | some _, .ack a =>
        match p.pending with
        | none => (p.record (.refused value)).stop
        | some pending =>
            if ¬sourceAckOK a p.lease pending.envelope pending.revision now then
              (p.record (.refused value)).stop
            else if installed = false then p.stop
            else { p.record (.activated pending.envelope now) with
              keyTimer := some (max now pending.envelope.expiresAt)
              pending := none
              task := some (.activating pending.envelope) }

/-- The next operation of the chain. -/
def run (drawn : Drawn) (installed : Bool) : Publisher :=
  match p.task, p.operations with
  | none, operation :: rest =>
      let p := { p with operations := rest }
      if p.closed then p
      else match operation with
        | .keyMessage value => p.keyMessage now value drawn installed
        | .rotateKey => p.rotateKey now drawn
  | _, _ => p

/-- The rest of `rotateKey`, with a channel that takes the envelope. -/
def offer (envelope : KeyEnvelope) : Publisher :=
  p.whenCurrent now fun p => { p with
    pending := some ⟨envelope, p.lease.revision⟩
    channel := p.channel ++ [envelope]
    ackTimer := some (now + 3000) }

/-- When the key is followed by the next one. -/
def rotation (envelope : KeyEnvelope) : Option Int :=
  if p.announcement.any (fun a => decide (envelope.expiresAt < min p.lease.consent.expiresAt a.expiresAt))
      ∧ 2000 < envelope.expiresAt - now then some (now + max 1000 (envelope.expiresAt - now - 15000))
  else p.rotationTimer

/-- The rest of `keyMessage`. -/
def activate (envelope : KeyEnvelope) : Publisher :=
  p.whenCurrent now fun p => { p with
    ackTimer := none
    startupTimer := none
    rotationTimer := p.rotation now envelope }

/-- What the operation under way waits for is there, or has failed. -/
def resume (done : Bool) : Publisher :=
  match p.task with
  | none => p
  | some task =>
      let p := { p with task := none }
      if done = false then p.stop
      else match task with
        | .sealing envelope => p.offer now envelope
        | .activating envelope => p.activate now envelope

inductive Timer
  | lease
  | key
  | ack
  | startup
  | rotation
deriving DecidableEq

/-- When the timer runs out. -/
def deadline : Timer → Option Int
  | .lease => some p.lease.expiresAt
  | .key => p.keyTimer
  | .ack => p.ackTimer
  | .startup => p.startupTimer
  | .rotation => p.rotationTimer

def expire : Timer → Publisher
  | .rotation => { p with rotationTimer := none }.enqueue .rotateKey
  | _ => p.stop

end Publisher

/-! ## Both sides -/

structure Exchange where
  now : Int
  receiver : SourceReceiver
  publisher : Publisher
  /-- What the receiver says when the channel opens. -/
  announcement : Announcement
  opened : Bool
  /-- What is on its way to the publisher on the key channel. -/
  messages : List Message
  /-- The leases of the receiver that are on their way to the publisher. -/
  renewals : List SourceLease
  installed : List KeyEnvelope

/-- The announcement of `NewReceiver`. -/
def announcementOf (r : Receiver) (publicKey : DecryptLifecycle.Jwk) (now : Int) : Announcement where
  version := 1
  type := "trusted-packager-key"
  consentId := r.consent.consentId
  granteePackagerRef := r.consent.granteePackagerRef
  granteeDeviceRef := r.consent.granteeDeviceRef
  roomId := r.consent.roomId
  roomEpoch := r.consent.roomEpoch
  programId := r.consent.programId
  programEpoch := r.consent.programEpoch
  agreementKeyId := r.agreementID
  publicKey := publicKey
  issuedAt := now
  expiresAt := r.expiresAt

/-- The acknowledgement of `acceptKey`. -/
def ackOf (lease : SourceLease) (e : KeyEnvelope) (kid : String) : KeyAck where
  version := 1
  type := "trusted-source-key-ack"
  sourceLeaseId := lease.sourceLeaseId
  leaseRevision := lease.revision
  consentId := lease.consent.consentId
  agreementKeyId := e.agreementKeyId
  envelopeId := e.envelopeId
  keyId := kid
  state := "key-installed"
  expiresAt := min lease.expiresAt e.expiresAt

/-- Both sides, with the lease they start with. -/
def start (raw : Option SourceLease) (packagerRef deviceRef agreementID : String)
    (publicKey : DecryptLifecycle.Jwk) (now : Int) : Option Exchange :=
  match newSourceReceiver raw packagerRef deviceRef true agreementID now with
  | .error _ => none
  | .ok receiver =>
      (Publisher.start receiver.lease now).map fun publisher => {
        now := now
        receiver := receiver
        publisher := publisher
        announcement := announcementOf receiver.receiver publicKey now
        opened := false
        messages := []
        renewals := []
        installed := []
      }

inductive Event
  | tick (ms : Nat)
  /-- The key channel opens. -/
  | announce
  /-- The server renews the receiver's lease. -/
  | renewReceiver (next : SourceLease)
  /-- The next lease of the receiver reaches the publisher. -/
  | renewPublisher
  /-- A key reaches the receiver. -/
  | deliver
  /-- A message reaches the publisher. -/
  | receive
  | run (drawn : Drawn) (installed : Bool)
  | resume (done : Bool)
  | expire (timer : Publisher.Timer)
  /-- The publisher is stopped by its owner, or its channel is closed. -/
  | stop
  /-- The receiver takes a frame. -/
  | decrypt (frame : List UInt8)
  | keyTimer (kid : UInt64)
deriving DecidableEq

namespace Exchange

variable (x : Exchange)

/-- Policy and deadline of the receiver, on the one clock. -/
def circumstances : Circumstances := ⟨x.now, fun _ => true, fun _ => false⟩

section Steps

variable (suite : Suite) (agree : KeyEnvelope → Except String (List UInt8))

/-- `OnOpen` -/
def announce : Exchange :=
  if x.opened then x
  else match sourceAnnouncement x.circumstances x.receiver with
    | .ok _ receiver =>
        { x with opened := true, receiver := receiver, messages := x.messages ++ [.announcement x.announcement] }
    | .error _ receiver => { x with opened := true, receiver := receiver.destroy }

/-- The receiver is renewed, and its next lease goes to the publisher. -/
def renewReceiver (next : SourceLease) : Exchange :=
  let receiver := after (TrustedSFrame.renew (some next) x.circumstances x.receiver)
  if receiver.lease = x.receiver.lease then { x with receiver := receiver }
  else { x with receiver := receiver, renewals := x.renewals ++ [receiver.lease] }

def renewPublisher : Exchange :=
  match x.renewals with
  | [] => x
  | next :: rest => { x with publisher := x.publisher.renew x.now next, renewals := rest }

/-- `OnMessage` -/
def deliver : Exchange :=
  match x.publisher.channel with
  | [] => x
  | e :: rest =>
      let taken := { x with publisher := { x.publisher with channel := rest } }
      match acceptKey suite agree (some e) x.circumstances x.receiver with
      | .ok kid receiver => { taken with
          receiver := receiver
          messages := x.messages ++ [.ack (ackOf receiver.lease e kid)]
          installed := x.installed ++ [e] }
      | .error _ receiver => { taken with receiver := receiver.destroy }

def receive : Exchange :=
  match x.messages with
  | [] => x
  | value :: rest =>
      { x with publisher := x.publisher.enqueue (.keyMessage value), messages := rest }

def next : Event → Exchange
  | .tick ms => { x with now := x.now + ms }
  | .announce => x.announce
  | .renewReceiver next => x.renewReceiver next
  | .renewPublisher => x.renewPublisher
  | .deliver => x.deliver suite agree
  | .receive => x.receive
  | .run drawn installed => { x with publisher := x.publisher.run x.now drawn installed }
  | .resume done => { x with publisher := x.publisher.resume x.now done }
  | .expire timer =>
      match x.publisher.deadline timer with
      | some time => if time ≤ x.now then { x with publisher := x.publisher.expire timer } else x
      | none => x
  | .stop => { x with publisher := x.publisher.stop }
  | .decrypt frame =>
      { x with receiver := after (sourceDecrypt suite frame x.circumstances x.receiver) }
  | .keyTimer kid => { x with receiver := { x.receiver with receiver := x.receiver.receiver.timer kid } }

end Steps

/-- The keys on their way, and the acknowledgements that the publisher has not looked at. -/
def underway : Nat :=
  x.publisher.channel.length
    + (x.publisher.operations ++ x.messages.map Operation.keyMessage).countP fun operation =>
      operation.ack?.isSome

end Exchange

end SourceKeys

end WebrtcMinimize
