import WebrtcMinimize.Bytes
import WebrtcMinimize.Checks

/-!
# SFrame headers, keys and media envelopes

What the browser writes and reads for one frame: the header with the key id
and the counter, the key and salt derived from the base key, and around the
encrypted payload of a media frame the prefix its packetizer needs in the
clear. Big integers are naturals and are checked against 64 bits where the
source checks them.

HKDF and AES-GCM are not code of the repository: a `Suite` supplies them.
-/

namespace WebrtcMinimize

open Bytes Checks List

namespace SFrame

/-- HKDF-SHA-256 without a salt, and AES-GCM with its tag at the end of the
ciphertext. -/
structure Suite where
  hkdf : (base info : List UInt8) → (length : Nat) → List UInt8
  encrypt : (key nonce associated plaintext : List UInt8) → List UInt8
  decrypt : (key nonce associated ciphertext : List UInt8) → Option (List UInt8)

/-- `SFRAME_CIPHER_SUITE` -/
def cipherSuite : Nat := 0x0004

/-- `SFRAME_BASE_KEY_BYTES` -/
def baseKeyBytes : Nat := 16

/-- `SFRAME_TAG_BYTES` -/
def tagBytes : Nat := 16

def keyLabel : List UInt8 := "SFrame 1.0 Secret key ".toUTF8.toList

def saltLabel : List UInt8 := "SFrame 1.0 Secret salt ".toUTF8.toList

def assertUint64 (value : Nat) (name : String) : Except String Unit :=
  failIf (2 ^ 64 ≤ value) (name ++ "_out_of_range")

def integerBytes (value width : Nat) : Except String (List UInt8) := do
  failIf (256 ^ width ≤ value) "integer_overflow"
  return bigEndian width value

/-- The widths from `width` on, as many as the fuel allows, until one holds
the value. -/
def widen (value : Nat) : (fuel width : Nat) → Nat
  | 0, width => width
  | fuel + 1, width => if 256 ^ width ≤ value then widen value fuel (width + 1) else width

def minimalIntegerBytes (value : Nat) : Except String (List UInt8) :=
  integerBytes value (widen value value 1)

/-! ## Headers -/

/-- The first byte, from the bytes of a long key id and counter. -/
def configByte (kid counter : Nat) (kidBytes counterBytes : List UInt8) : UInt8 :=
  (if 7 < kid then (0x80 : UInt8) ||| (UInt8.ofNat (kidBytes.length - 1) <<< 4)
      else UInt8.ofNat kid <<< 4)
    ||| (if 7 < counter then (0x08 : UInt8) ||| UInt8.ofNat (counterBytes.length - 1)
      else UInt8.ofNat counter)

/-- The bytes of a key id or counter behind the first byte. -/
def extendedBytes (value : Nat) : Except String (List UInt8) :=
  if 7 < value then minimalIntegerBytes value else .ok []

def encodeSFrameHeader (kid counter : Nat) : Except String (List UInt8) := do
  assertUint64 kid "kid"
  assertUint64 counter "counter"
  let kidBytes ← extendedBytes kid
  let counterBytes ← extendedBytes counter
  return configByte kid counter kidBytes counterBytes :: (kidBytes ++ counterBytes)

structure SFrameHeader where
  kid : Nat
  counter : Nat
  bytes : List UInt8
  length : Nat
deriving DecidableEq

/-- The bytes of a field, `width` of them at `offset`. -/
def slice (wire : List UInt8) (offset width : Nat) : List UInt8 := (wire.drop offset).take width

/-- A long field: too small for one, or with a zero in front. -/
def nonCanonical (field : List UInt8) : Prop :=
  value field ≤ 7 ∨ (1 < field.length ∧ field.head? = some 0)

instance (field : List UInt8) : Decidable (nonCanonical field) :=
  inferInstanceAs (Decidable (_ ∨ _))

def kidWidth (config : UInt8) : Nat :=
  if config &&& 0x80 ≠ 0 then ((config >>> 4) &&& 0x07).toNat + 1 else 0

def counterWidth (config : UInt8) : Nat :=
  if config &&& 0x08 ≠ 0 then (config &&& 0x07).toNat + 1 else 0

def decodeSFrameHeader : List UInt8 → Except String SFrameHeader
  | [] => .error "header_missing"
  | config :: wire => do
      let length := 1 + kidWidth config + counterWidth config
      failIf ((config :: wire).length < length) "header_truncated"
      let kidField := slice wire 0 (kidWidth config)
      let counterField := slice wire (kidWidth config) (counterWidth config)
      failIf ((config &&& 0x80 ≠ 0 ∧ nonCanonical kidField)
        ∨ (config &&& 0x08 ≠ 0 ∧ nonCanonical counterField)) "header_non_canonical"
      return {
        kid := if config &&& 0x80 ≠ 0 then value kidField else ((config >>> 4) &&& 0x07).toNat
        counter := if config &&& 0x08 ≠ 0 then value counterField else (config &&& 0x07).toNat
        bytes := (config :: wire).take length
        length := length
      }

/-! ## Keys -/

structure DerivedKey where
  key : List UInt8
  salt : List UInt8
deriving DecidableEq

def deriveKey (suite : Suite) (baseKey : List UInt8) (kid : Nat) : Except String DerivedKey := do
  failIf (baseKey.length ≠ baseKeyBytes) "base_key_length"
  assertUint64 kid "kid"
  let kidBytes ← integerBytes kid 8
  let suiteBytes ← integerBytes cipherSuite 2
  let suffix := kidBytes ++ suiteBytes
  return {
    key := suite.hkdf baseKey (keyLabel ++ suffix) 16
    salt := suite.hkdf baseKey (saltLabel ++ suffix) 12
  }

def nonceFor (salt : List UInt8) (counter : Nat) : Except String (List UInt8) := do
  let nonce ← integerBytes counter salt.length
  return xor nonce salt

def encryptWithDerivedKey (suite : Suite) (derived : DerivedKey) (kid counter : Nat)
    (plaintext metadata : List UInt8) : Except String (List UInt8) := do
  let header ← encodeSFrameHeader kid counter
  let nonce ← nonceFor derived.salt counter
  return header ++ suite.encrypt derived.key nonce (header ++ metadata) plaintext

def decryptWithDerivedKey (suite : Suite) (derived : DerivedKey) (header : SFrameHeader)
    (ciphertext metadata : List UInt8) : Except String (List UInt8) := do
  failIf (ciphertext.length < header.length + tagBytes) "ciphertext_truncated"
  let nonce ← nonceFor derived.salt header.counter
  match suite.decrypt derived.key nonce (header.bytes ++ metadata)
      (ciphertext.drop header.length) with
  | some plaintext => .ok plaintext
  | none => .error "authentication_failed"

/-! ## Media envelopes -/

inductive FrameType
  | key
  | delta
deriving DecidableEq

structure EncodedMediaFrame where
  data : List UInt8
  type : Option FrameType
  /-- what the frame's metadata names, if it has any -/
  mimeType : Option String
deriving DecidableEq

structure CodecLayout where
  codecId : UInt8
  prefixBytes : Nat
deriving DecidableEq

def envelopeMagic : List UInt8 := [0x53, 0x46, 0x01]

def codecLayout (frame : EncodedMediaFrame) : Except String CodecLayout :=
  let mimeType := (frame.mimeType.getD "").toLower
  if mimeType = "video/vp8" ∨ (mimeType = "" ∧ frame.type.isSome) then
    match frame.type with
    | none => .error "media_frame_type"
    | some .key => .ok { codecId := 1, prefixBytes := 10 }
    | some .delta => .ok { codecId := 1, prefixBytes := 3 }
  else if mimeType = "audio/opus" ∨ (mimeType = "" ∧ frame.type = none) then
    .ok { codecId := 2, prefixBytes := 1 }
  else .error "media_codec_unsupported"

def envelopeHeader (codecId : UInt8) : List UInt8 := envelopeMagic ++ [codecId]

/-- What a frame is split into: its prefix, its payload and the metadata
that is authenticated with them. -/
structure SplitFrame where
  clear : List UInt8
  payload : List UInt8
  header : List UInt8
  authenticatedMetadata : List UInt8

def splitPrefix (data : List UInt8) (layout : CodecLayout) : Except String SplitFrame := do
  failIf (data.length < layout.prefixBytes) "media_frame_too_short"
  let header := envelopeHeader layout.codecId
  return {
    clear := data.take layout.prefixBytes
    payload := data.drop layout.prefixBytes
    header := header
    authenticatedMetadata := header ++ data.take layout.prefixBytes
  }

/-- The envelope of a frame under a context that has reserved `counter`. -/
def encryptMediaFrame (suite : Suite) (derived : DerivedKey) (kid counter : Nat)
    (frame : EncodedMediaFrame) : Except String (List UInt8) := do
  let layout ← codecLayout frame
  let split ← splitPrefix frame.data layout
  let ciphertext ← encryptWithDerivedKey suite derived kid counter split.payload
    split.authenticatedMetadata
  return split.clear ++ split.header ++ ciphertext

/-- What a receiving envelope is split into before its context sees it. -/
def openEnvelope (frame : EncodedMediaFrame) : Except String SplitFrame := do
  let layout ← codecLayout frame
  let ciphertextOffset := layout.prefixBytes + envelopeMagic.length + 1
  failIf (frame.data.length ≤ ciphertextOffset) "media_frame_too_short"
  let header := slice frame.data layout.prefixBytes (envelopeMagic.length + 1)
  failIf (header ≠ envelopeHeader layout.codecId) "media_envelope_version"
  return {
    clear := frame.data.take layout.prefixBytes
    payload := frame.data.drop ciphertextOffset
    header := header
    authenticatedMetadata := header ++ frame.data.take layout.prefixBytes
  }

/-! ## The encryption context

A call waits for the cryptography, and is two events: up to its `await` and
from there. Those of many calls interleave freely. -/

structure EncryptCall where
  counter : Nat
  frame : EncodedMediaFrame
  /-- once the call has ended -/
  result : Option (Except String (List UInt8))

structure SFrameEncryptContext where
  kid : Nat
  derived : DerivedKey
  counter : Nat
  destroyed : Bool
  /-- the calls that reserved a counter -/
  calls : List EncryptCall

inductive EncryptEvent
  | encrypt (frame : EncodedMediaFrame)
  | resume (counter : Nat)
  | destroy

namespace SFrameEncryptContext

def new (kid : Nat) (derived : DerivedKey) (initialCounter : UInt64) : SFrameEncryptContext :=
  ⟨kid, derived, initialCounter.toNat, false, []⟩

/-- A frame that cannot be split reserves no counter. -/
def encrypt (c : SFrameEncryptContext) (frame : EncodedMediaFrame) :
    Except String SFrameEncryptContext := do
  let _ ← codecLayout frame >>= splitPrefix frame.data
  failIf (c.destroyed = true) "context_destroyed"
  failIf (2 ^ 64 ≤ c.counter) "counter_exhausted"
  return { c with counter := c.counter + 1, calls := ⟨c.counter, frame, none⟩ :: c.calls }

def resumed (suite : Suite) (c : SFrameEncryptContext) (call : EncryptCall) :
    Except String (List UInt8) := do
  let envelope ← encryptMediaFrame suite c.derived c.kid call.counter call.frame
  failIf (c.destroyed = true) "context_destroyed"
  return envelope

def next (suite : Suite) (c : SFrameEncryptContext) : EncryptEvent → SFrameEncryptContext
  | .encrypt frame => (c.encrypt frame).toOption.getD c
  | .resume counter => { c with
      calls := c.calls.map fun call => if call.counter = counter ∧ call.result.isNone
        then { call with result := some (c.resumed suite call) } else call }
  | .destroy => { c with destroyed := true, counter := 2 ^ 64 }

def counters (c : SFrameEncryptContext) : List Nat := c.calls.map EncryptCall.counter

structure OK (c : SFrameEncryptContext) : Prop where
  once : c.counters.Nodup
  below : ∀ n ∈ c.counters, n < c.counter
  limit : c.counter ≤ 2 ^ 64

variable {c : SFrameEncryptContext} {suite : Suite}

theorem OK.next (h : c.OK) (e : EncryptEvent) : (c.next suite e).OK := by
  cases e with
  | encrypt frame =>
      rw [SFrameEncryptContext.next]
      cases ht : c.encrypt frame with
      | error code => exact h
      | ok t =>
          simp only [encrypt, bind_ok_iff, failIf_ok_iff, pure_ok_iff] at ht
          obtain ⟨_, -, _, -, _, hroom, rfl⟩ := ht
          refine ⟨nodup_cons.mpr ⟨fun hmem => absurd (h.below _ hmem) (lt_irrefl _), h.once⟩,
            fun n hn => ?_, not_le.mp hroom⟩
          rcases mem_cons.mp hn with rfl | hn
          · exact Nat.lt_succ_self _
          · exact Nat.lt_succ_of_lt (h.below n hn)
  | resume counter =>
      have hsame : (c.next suite (.resume counter)).counters = c.counters := by
        simp only [counters, SFrameEncryptContext.next, map_map]
        refine map_congr_left fun call _ => ?_
        rw [Function.comp_apply]
        split <;> rfl
      exact ⟨hsame ▸ h.once, fun n hn => h.below n (hsame ▸ hn), h.limit⟩
  | destroy => exact ⟨h.once, fun n hn => lt_of_lt_of_le (h.below n hn) h.limit, le_refl _⟩

end SFrameEncryptContext

end SFrame

end WebrtcMinimize
