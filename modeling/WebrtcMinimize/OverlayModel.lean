import Mathlib.Algebra.Ring.Nat
import WebrtcMinimize.Base64url
import WebrtcMinimize.Json
import WebrtcMinimize.Maps

/-!
# The opaque data overlay

The overlay carries encrypted messages between peers, in chunks and over
relays. One `receive` awaits the digest, the key and the decryption, and other
calls run while it waits: its parts are functions of their own (`begin`,
`claim`, `derived`, `finish`), and `receive` is all of them in a row.

An object of which only the identity is looked at (a lifetime, a key, the
operation of an import) is a number, fresh for each one. AES-GCM and the key
agreement are not code of the repository: a `Crypto` supplies them. A packet
that arrives is a `RawPacket`, its fields after the coercions `String(value)`
and `Number(value)`, with `none` where a number is not a safe integer or a
path does not have the shape that is asked for.
-/

namespace WebrtcMinimize

open Checks

namespace Overlay

open Json

/-- ECDH key agreement and AES-GCM. -/
structure Crypto where
  KeyPair : Type
  PublicKey : Type
  Key : Type
  agree : KeyPair → PublicKey → Key
  encrypt : Key → (iv additionalData plaintext : List UInt8) → List UInt8
  decrypt : Key → (iv additionalData ciphertext : List UInt8) → Option (List UInt8)

/-! ## Packets -/

structure OverlayPacket where
  packetId : String
  originPeerId : String
  destinationPeerId : String
  membershipEpoch : Int
  routeEpoch : Int
  trafficClass : String
  createdAt : Int
  expiresAt : Int
  path : List String
  hop : Nat
  chunkIndex : Nat
  chunkCount : Nat
  nonce : String
  ciphertext : String
  digest : String
deriving DecidableEq

structure RawPacket where
  /-- whether its keys are exactly the known ones -/
  exactKeys : Bool
  version : Option Int
  type : Option String
  packetId : String
  originPeerId : String
  destinationPeerId : String
  membershipEpoch : Option Int
  routeEpoch : Option Int
  trafficClass : String
  createdAt : Option Int
  expiresAt : Option Int
  path : Option (List (Option String))
  hop : Option Int
  chunkIndex : Option Int
  chunkCount : Option Int
  nonce : String
  ciphertext : String
  digest : String

/-- `PEER_ID` -/
def peerIdOK (s : String) : Bool := spanOK hexByte 16 16 (utf8 s)

/-- `TOKEN` -/
def tokenOK (s : String) : Bool := spanOK refByte 16 64 (utf8 s)

def trafficClasses : List String := ["control", "rekey", "event", "bulk"]

def maxChunkBytes : Nat := 12 * 1024

def maxChunks : Nat := 96

def maxPath : Nat := 5

def maxTtlMs : Int := 60000

def encode (bytes : List UInt8) : String := String.ofList (Base64url.encode bytes)

/-- `none` where it throws -/
def decode (value : String) : Option (List UInt8) :=
  if value = "" then none else Base64url.decode value.toList

def sha256 (bytes : List UInt8) : String := Sha256.base64 (bytes.map UInt8.toNat)

/-- The length JavaScript gives a text. -/
def utf16Length (s : String) : Nat := (s.toList.map fun c => if c.toNat < 65536 then 1 else 2).sum

/-- The text of an integer. -/
def intText : Int → List Nat
  | .ofNat n => digits n
  | .negSucc n => '-'.toNat :: digits (n + 1)

/-- The text of an array, from the texts of its items. -/
def arrayText (items : List (List Nat)) : List Nat :=
  '['.toNat :: (List.intercalate [','.toNat] items ++ [']'.toNat])

/-- The additional data of a packet, which leaves out the hop, the nonce, the
ciphertext and the digest. -/
def aad (packet : OverlayPacket) : List UInt8 :=
  (arrayText [ digits 1, quote "overlay-packet", quote packet.packetId, quote packet.originPeerId,
    quote packet.destinationPeerId,
    intText packet.membershipEpoch,
    intText packet.routeEpoch,
    quote packet.trafficClass,
    intText packet.createdAt,
    intText packet.expiresAt,
    arrayText (packet.path.map quote),
    digits packet.chunkIndex,
    digits packet.chunkCount]).map UInt8.ofNat

/-- What the fields of a packet have to be at a time. -/
def packetOK (packet : OverlayPacket) (now : Int) : Prop :=
  tokenOK packet.packetId = true ∧ peerIdOK packet.originPeerId = true
    ∧ peerIdOK packet.destinationPeerId = true ∧ 1 ≤ packet.membershipEpoch
    ∧ 1 ≤ packet.routeEpoch ∧ packet.trafficClass ∈ trafficClasses
    ∧ packet.createdAt ≤ now + 5000 ∧ now < packet.expiresAt
    ∧ packet.expiresAt - packet.createdAt ≤ maxTtlMs
    ∧ 2 ≤ packet.path.length ∧ packet.path.length ≤ maxPath
    ∧ (∀ peerId ∈ packet.path, peerIdOK peerId = true) ∧ packet.path.Nodup
    ∧ packet.path.head? = some packet.originPeerId
    ∧ packet.path.getLast? = some packet.destinationPeerId
    ∧ 1 ≤ packet.hop ∧ packet.hop < packet.path.length
    ∧ 1 ≤ packet.chunkCount ∧ packet.chunkCount ≤ maxChunks
    ∧ packet.chunkIndex < packet.chunkCount
    ∧ tokenOK packet.nonce = true ∧ tokenOK packet.digest = true
    ∧ utf16Length packet.ciphertext ≤ 24000

instance (packet : OverlayPacket) (now : Int) : Decidable (packetOK packet now) :=
  inferInstanceAs (Decidable (_ ∧ _))

def parseOverlayPacket (raw : RawPacket) (now : Int) : Option OverlayPacket :=
  if raw.exactKeys = false ∨ raw.version ≠ some 1 ∨ raw.type ≠ some "overlay-packet" then none
  else
    match raw.membershipEpoch, raw.routeEpoch, raw.createdAt, raw.expiresAt,
      raw.path.bind fun path => path.mapM id, raw.hop, raw.chunkIndex, raw.chunkCount with
    | some membershipEpoch, some routeEpoch, some createdAt, some expiresAt, some path,
        some (.ofNat hop), some (.ofNat chunkIndex), some (.ofNat chunkCount) =>
        let packet : OverlayPacket := {
          packetId := raw.packetId
          originPeerId := raw.originPeerId
          destinationPeerId := raw.destinationPeerId
          membershipEpoch := membershipEpoch
          routeEpoch := routeEpoch
          trafficClass := raw.trafficClass
          createdAt := createdAt
          expiresAt := expiresAt
          path := path
          hop := hop
          chunkIndex := chunkIndex
          chunkCount := chunkCount
          nonce := raw.nonce
          ciphertext := raw.ciphertext
          digest := raw.digest
        }
        if packetOK packet now then some packet else none
    | _, _, _, _, _, _, _, _ => none

/-- A packet as it is sent. -/
def wire (packet : OverlayPacket) : RawPacket where
  exactKeys := true
  version := some 1
  type := some "overlay-packet"
  packetId := packet.packetId
  originPeerId := packet.originPeerId
  destinationPeerId := packet.destinationPeerId
  membershipEpoch := some packet.membershipEpoch
  routeEpoch := some packet.routeEpoch
  trafficClass := packet.trafficClass
  createdAt := some packet.createdAt
  expiresAt := some packet.expiresAt
  path := some (packet.path.map some)
  hop := some packet.hop
  chunkIndex := some packet.chunkIndex
  chunkCount := some packet.chunkCount
  nonce := packet.nonce
  ciphertext := packet.ciphertext
  digest := packet.digest

/-! ## The state -/

structure Assembly where
  expiresAt : Int
  parts : KeyedMap Nat (List UInt8)
  count : Nat
  bytes : Nat
  originPeerId : String
  trafficClass : String

structure Outbound where
  expiresAt : Int
  packets : List OverlayPacket

structure State (C : Crypto) where
  /-- the objects made so far -/
  objects : Nat
  lifetime : Nat
  peerImports : KeyedMap String Nat
  ownPeerId : String
  keyPair : Option (Nat × C.KeyPair)
  peerKeys : KeyedMap String (Nat × C.PublicKey)
  derivedKeys : KeyedMap String C.Key
  seen : KeyedMap String Int
  assemblies : KeyedMap String Assembly
  outbound : KeyedMap String Outbound

variable {C : Crypto}

/-- What `#current(peerId)` remembers. -/
structure Current where
  lifetime : Nat
  keyPair : Option Nat
  peerKey : Option Nat
  imported : Option Nat
deriving DecidableEq

def State.current (s : State C) (peerId : String) : Current where
  lifetime := s.lifetime
  keyPair := s.keyPair.map Prod.fst
  peerKey := (s.peerKeys.get peerId).map Prod.fst
  imported := s.peerImports.get peerId

def State.prune (s : State C) (now : Int) : State C :=
  { s with
    seen := s.seen.keep fun _ expiresAt => decide (now < expiresAt)
    assemblies := s.assemblies.keep fun _ assembly => decide (now < assembly.expiresAt)
    outbound := s.outbound.keep fun _ outbound => decide (now < outbound.expiresAt) }

def State.removePeer (s : State C) (peerId : String) : State C :=
  { s with
    peerImports := s.peerImports.erase peerId
    peerKeys := s.peerKeys.erase peerId
    derivedKeys := s.derivedKeys.erase peerId
    assemblies := s.assemblies.keep fun _ assembly => assembly.originPeerId != peerId
    outbound := s.outbound.keep fun _ outbound =>
      !outbound.packets.any fun packet => packet.path.contains peerId }

/-! ## Sending -/

structure EncryptContext where
  membershipEpoch : Int
  routeEpoch : Int
  trafficClass : String
  path : List String

/-- `Math.max(1, Math.ceil(data.byteLength / MAX_CHUNK_BYTES))` -/
def chunkCount (data : List UInt8) : Nat := max 1 ((data.length + maxChunkBytes - 1) / maxChunkBytes)

def chunk (data : List UInt8) (chunkIndex : Nat) : List UInt8 :=
  (data.drop (chunkIndex * maxChunkBytes)).take maxChunkBytes

/-- The random bytes of one `encrypt`. -/
structure Randoms where
  packetId : List UInt8
  nonce : Nat → List UInt8

/-- `#derive(peerId)`, where the key is in hand at once. -/
def State.derive (s : State C) (peerId : String) : Except String C.Key :=
  match s.derivedKeys.get peerId with
  | some cached => .ok cached
  | none =>
      match s.keyPair, s.peerKeys.get peerId with
      | some (_, keyPair), some (_, peerKey) => .ok (C.agree keyPair peerKey)
      | _, _ => .error "overlay_key_unavailable"

/-- The packet of one chunk. -/
def sealChunk (key : C.Key) (ownPeerId destinationPeerId : String) (data : List UInt8)
    (context : EncryptContext) (randoms : Randoms) (now : Int) (chunkIndex : Nat) :
    OverlayPacket :=
  let immutable : OverlayPacket := {
    packetId := encode randoms.packetId
    originPeerId := ownPeerId
    destinationPeerId := destinationPeerId
    membershipEpoch := context.membershipEpoch
    routeEpoch := context.routeEpoch
    trafficClass := context.trafficClass
    createdAt := now
    expiresAt := now + maxTtlMs
    path := context.path
    hop := 1
    chunkIndex := chunkIndex
    chunkCount := chunkCount data
    nonce := ""
    ciphertext := ""
    digest := ""
  }
  let ciphertext := C.encrypt key (randoms.nonce chunkIndex) (aad immutable) (chunk data chunkIndex)
  { immutable with
    nonce := encode (randoms.nonce chunkIndex)
    ciphertext := encode ciphertext
    digest := sha256 ciphertext }

/-- `encrypt`, where nothing changes while it runs. -/
def State.encrypt (s : State C) (destinationPeerId : String) (data : List UInt8)
    (context : EncryptContext) (randoms : Randoms) (now : Int) :
    Except String (State C × List OverlayPacket) := do
  failIf (maxChunkBytes * maxChunks < data.length) "overlay_payload_too_large"
  failIf (context.path.head? ≠ some s.ownPeerId ∨ context.path.getLast? ≠ some destinationPeerId)
    "invalid_overlay_path"
  let key ← s.derive destinationPeerId
  let packets := (List.range (chunkCount data)).map
    (sealChunk key s.ownPeerId destinationPeerId data context randoms now)
  return ({ s with
    derivedKeys := s.derivedKeys.set destinationPeerId key
    outbound := s.outbound.set (encode randoms.packetId) ⟨now + maxTtlMs, packets⟩ }, packets)

def State.resume (s : State C) (packetId : String) (missing : List Int) :
    State C × List OverlayPacket :=
  match s.outbound.get packetId with
  | none => (s, [])
  | some outbound =>
      if maxChunks < missing.length
          ∨ (∃ index ∈ missing, index < 0 ∨ (outbound.packets.length : Int) ≤ index) then (s, [])
      else if missing = [] then ({ s with outbound := s.outbound.erase packetId }, [])
      else (s, missing.dedup.filterMap fun index => outbound.packets[index.toNat]?)

/-! ## Receiving -/

structure ReceiveContext where
  membershipEpoch : Int
  routeEpoch : Int
  memberPeerIds : List String

inductive Result where
  | forward (nextPeerId : String) (packet : OverlayPacket)
  | delivered (packetId originPeerId trafficClass : String) (data : List UInt8)
  | pending (packetId originPeerId : String) (missing : List Nat)
  | drop (reason : String)
  /-- the call rejects -/
  | throws (error : String)
deriving DecidableEq

/-- A call of `receive` that awaits something. -/
structure Call where
  packet : OverlayPacket
  ciphertext : List UInt8
  current : Current

inductive Waiting (C : Crypto) where
  | digest (call : Call)
  | key (call : Call) (cached : Bool) (key : C.Key)
  | cleartext (call : Call) (key : C.Key)

/-- A part of a call ends with its result, or awaits something. -/
inductive Progress (C : Crypto) where
  | done (result : Result)
  | await (waiting : Waiting C)

def OverlayPacket.replayKey (packet : OverlayPacket) : String :=
  packet.packetId ++ ":" ++ toString packet.chunkIndex

def OverlayPacket.assemblyKey (packet : OverlayPacket) : String :=
  packet.originPeerId ++ ":" ++ packet.packetId

/-- Up to the digest. -/
def State.begin (s : State C) (raw : RawPacket) (previousPeerId : String)
    (context : ReceiveContext) (now : Int) : State C × Progress C :=
  let s := s.prune now
  match parseOverlayPacket raw now with
  | none => (s, .done (.drop "invalid_packet"))
  | some packet =>
      if packet.membershipEpoch ≠ context.membershipEpoch
          ∨ (packet.path.length ≠ 2 ∧ packet.routeEpoch ≠ context.routeEpoch) then
        (s, .done (.drop "stale_epoch"))
      else if (∃ peerId ∈ packet.path, peerId ∉ context.memberPeerIds)
          ∨ packet.path[packet.hop]? ≠ some s.ownPeerId
          ∨ packet.path[packet.hop - 1]? ≠ some previousPeerId then
        (s, .done (.drop "unauthorized_path"))
      else if (s.seen.get packet.replayKey).isSome then (s, .done (.drop "replay"))
      else
        match decode packet.ciphertext with
        | none => (s, .done (.throws "invalid_base64url"))
        | some ciphertext =>
            (s, .await (.digest ⟨packet, ciphertext, s.current packet.originPeerId⟩))

/-- The mark against a replay. -/
def State.mark (s : State C) (packet : OverlayPacket) : State C :=
  { s with seen := s.seen.set packet.replayKey packet.expiresAt }

/-- From the digest to the key. -/
def State.claim (s : State C) (call : Call) : State C × Progress C :=
  let packet := call.packet
  if sha256 call.ciphertext ≠ packet.digest then (s, .done (.drop "digest_mismatch"))
  else if s.current packet.originPeerId ≠ call.current then (s, .done (.drop "lifecycle_changed"))
  else if (s.seen.get packet.replayKey).isSome then (s, .done (.drop "replay"))
  else
    let s := s.mark packet
    if s.ownPeerId ≠ packet.destinationPeerId then
      match packet.path[packet.hop + 1]? with
      | none => (s, .done (.drop "hop_limit"))
      | some nextPeerId => (s, .done (.forward nextPeerId { packet with hop := packet.hop + 1 }))
    else
      match s.derive packet.originPeerId with
      | .error _ => (s, .done (.drop "decrypt_failed"))
      | .ok key => (s, .await (.key call (s.derivedKeys.get packet.originPeerId).isSome key))

/-- From the key to the decryption; a key that was not there yet is kept. -/
def State.derived (s : State C) (call : Call) (cached : Bool) (key : C.Key) :
    State C × Progress C :=
  if s.current call.packet.originPeerId ≠ call.current then (s, .done (.drop "decrypt_failed"))
  else
    (if cached then s else { s with derivedKeys := s.derivedKeys.set call.packet.originPeerId key },
      .await (.cleartext call key))

/-- The parts one after the other in a buffer of a size, `none` where they do
not fit; what they leave is zero. -/
def blit (size : Nat) (parts : List (List UInt8)) : Option (List UInt8) :=
  if size < parts.flatten.length then none
  else some (parts.flatten ++ List.replicate (size - parts.flatten.length) 0)

/-- The parts of the indices from 0 on. -/
def Assembly.inOrder (assembly : Assembly) : Option (List (List UInt8)) :=
  (List.range assembly.count).mapM assembly.parts.get

/-- The assembly a first chunk starts. -/
def OverlayPacket.newAssembly (packet : OverlayPacket) : Assembly where
  expiresAt := packet.expiresAt
  parts := .empty
  count := packet.chunkCount
  bytes := 0
  originPeerId := packet.originPeerId
  trafficClass := packet.trafficClass

def Assembly.add (assembly : Assembly) (chunkIndex : Nat) (cleartext : List UInt8) : Assembly :=
  { assembly with
    parts := assembly.parts.set chunkIndex cleartext
    bytes := assembly.bytes + cleartext.length }

def State.keepAssembly (s : State C) (packet : OverlayPacket) (assembly : Assembly) : State C :=
  { s with assemblies := s.assemblies.set packet.assemblyKey assembly }

def State.clearAssembly (s : State C) (packet : OverlayPacket) : State C :=
  { s with assemblies := s.assemblies.erase packet.assemblyKey }

/-- An assembly to which a part was added is delivered when it has all. -/
def State.settle (s : State C) (packet : OverlayPacket) (assembly : Assembly) : State C × Result :=
  if assembly.parts.size ≠ assembly.count then
    (s.keepAssembly packet assembly, .pending packet.packetId packet.originPeerId
      ((List.range assembly.count).filter fun index => (assembly.parts.get index).isNone))
  else
    match assembly.inOrder with
    | none => (s.keepAssembly packet assembly, .drop "assembly_incomplete")
    | some parts =>
        match blit assembly.bytes parts with
        | none => (s.keepAssembly packet assembly, .drop "decrypt_failed")
        | some data =>
            (s.clearAssembly packet,
              .delivered packet.packetId assembly.originPeerId assembly.trafficClass data)

/-- A cleartext is put in its place in an assembly. -/
def State.place (s : State C) (packet : OverlayPacket) (found : Assembly)
    (cleartext : List UInt8) : State C × Result :=
  if found.count ≠ packet.chunkCount
      ∨ maxChunkBytes * maxChunks < found.bytes + cleartext.length then
    (s.clearAssembly packet, .drop "assembly_limit")
  else s.settle packet (found.add packet.chunkIndex cleartext)

def State.assemble (s : State C) (packet : OverlayPacket) (cleartext : List UInt8) :
    State C × Result :=
  s.place packet ((s.assemblies.get packet.assemblyKey).getD packet.newAssembly) cleartext

/-- What the decryption of a call gives, where the nonce can be read. -/
def Call.decrypt (call : Call) (key : C.Key) : Option (List UInt8) :=
  (decode call.packet.nonce).bind fun nonce =>
    C.decrypt key nonce (aad call.packet) call.ciphertext

/-- From the decryption to the end. -/
def State.finish (s : State C) (call : Call) (key : C.Key) : State C × Result :=
  match call.decrypt key with
  | none => (s, .drop "decrypt_failed")
  | some cleartext =>
      if s.current call.packet.originPeerId ≠ call.current then (s, .drop "lifecycle_changed")
      else s.assemble call.packet cleartext

/-- What a call does when what it awaits is there. -/
def State.advance (s : State C) : Waiting C → State C × Progress C
  | .digest call => s.claim call
  | .key call cached key => s.derived call cached key
  | .cleartext call key => ((s.finish call key).1, .done (s.finish call key).2)

/-- A call goes on, and no other runs in between. -/
def State.goOn (s : State C) : (parts : Nat) → Progress C → State C × Progress C
  | 0, progress => (s, progress)
  | _ + 1, .done result => (s, .done result)
  | parts + 1, .await waiting => (s.advance waiting).1.goOn parts (s.advance waiting).2

def Progress.result : Progress C → Option Result
  | .done result => some result
  | .await _ => none

/-- A call to its end, which comes after three parts at the latest
(`receive_ends`). -/
def State.receive (s : State C) (raw : RawPacket) (previousPeerId : String)
    (context : ReceiveContext) (now : Int) : State C × Option Result :=
  let begun := s.begin raw previousPeerId context now
  let ended := begun.1.goOn 3 begun.2
  (ended.1, ended.2.result)

/-! ## Keys of peers -/

/-- `setPeerKey` up to the import of the key; the operation is a new object. -/
def State.setPeerKey (s : State C) (peerId : String) : State C :=
  let s := s.removePeer peerId
  { s with objects := s.objects + 1, peerImports := s.peerImports.set peerId s.objects }

/-- The import of an operation is there. -/
def State.imported (s : State C) (peerId : String) (operation : Nat) (key : C.PublicKey) : State C :=
  if s.peerImports.get peerId = some operation then
    { s with
      objects := s.objects + 1
      peerKeys := s.peerKeys.set peerId (s.objects, key)
      derivedKeys := s.derivedKeys.erase peerId }
  else s

/-! ## A peer -/

/-- The overlay of a peer, the calls that wait, and what those that are over
returned, the last one first. -/
structure Peer (C : Crypto) where
  state : State C
  waiting : List (Waiting C)
  results : List Result

inductive Event (C : Crypto) where
  /-- a packet arrives -/
  | arrive (raw : RawPacket) (previousPeerId : String) (context : ReceiveContext) (now : Int)
  /-- what the call at the index awaits is there -/
  | advance (index : Nat)
  | removePeer (peerId : String)
  | setPeerKey (peerId : String)
  | imported (peerId : String) (operation : Nat) (key : C.PublicKey)
  /-- a message of its own is encrypted -/
  | encrypt (destinationPeerId : String) (data : List UInt8) (context : EncryptContext)
      (randoms : Randoms) (now : Int)
  | resume (packetId : String) (missing : List Int)

/-- A part of a call is over. -/
def Peer.after (waiting : List (Waiting C)) (results : List Result) (part : State C × Progress C) :
    Peer C :=
  match part.2 with
  | .done result => ⟨part.1, waiting, result :: results⟩
  | .await w => ⟨part.1, w :: waiting, results⟩

def Peer.next (p : Peer C) : Event C → Peer C
  | .arrive raw previousPeerId context now =>
      Peer.after p.waiting p.results (p.state.begin raw previousPeerId context now)
  | .advance index =>
      match p.waiting[index]? with
      | none => p
      | some w => Peer.after (p.waiting.eraseIdx index) p.results (p.state.advance w)
  | .removePeer peerId => { p with state := p.state.removePeer peerId }
  | .setPeerKey peerId => { p with state := p.state.setPeerKey peerId }
  | .imported peerId operation key => { p with state := p.state.imported peerId operation key }
  | .encrypt destinationPeerId data context randoms now =>
      match p.state.encrypt destinationPeerId data context randoms now with
      | .error _ => p
      | .ok (state, _) => { p with state := state }
  | .resume packetId missing => { p with state := (p.state.resume packetId missing).1 }

end Overlay

end WebrtcMinimize
