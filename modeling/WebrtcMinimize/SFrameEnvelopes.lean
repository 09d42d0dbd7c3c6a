import WebrtcMinimize.SFrameHeaders
import WebrtcMinimize.TrustedKeys

/-!
# Media envelopes between the browser and the packager

A frame the browser encrypts is opened by the packager's decoder to the same
bytes, and what the decoder opens is, byte for byte, an envelope of a frame
that was encrypted: prefix, marker and header are all authenticated, and the
header says where it ends.

`Sealing` is what is asked of the cryptography: the lengths, and that a key
which only the two ends have opens what they sealed with it and nothing else.
-/

namespace WebrtcMinimize

open Attempts Bytes Checks Runs

namespace TrustedSFrame

open SFrame List Nat

/-- A media frame of the codec, with a key-frame bit that matches its type. -/
def Declared (codec : Codec) (frame : EncodedMediaFrame) : Prop :=
  let mimeType := (frame.mimeType.getD "").toLower
  match codec with
  | .vp8 => (mimeType = "video/vp8" ∨ mimeType = "") ∧ frame.type.isSome = true
      ∧ (frame.type = some .key ↔ frame.data.headD 0 &&& 1 = 0)
  | .opus => mimeType = "audio/opus" ∨ (mimeType = "" ∧ frame.type = none)

/-- A frame as it is encrypted: with the base key, the key id and the
counter its context reserved for it. -/
structure Sent where
  base : List UInt8
  kid : UInt64
  counter : UInt64
  codec : Codec
  frame : EncodedMediaFrame
  base_length : base.length = 16
  declared : Declared codec frame
  whole : prefixBytes codec frame.data ≤ frame.data.length

/-- The four bytes between the prefix and the header. -/
def marker (codec : Codec) : List UInt8 := [0x53, 0x46, 1, codecID codec]

namespace Sent

variable (suite : Suite) (f : Sent)

/-- What the browser makes of the frame. -/
def encrypted : Except String (List UInt8) := do
  let derived ← deriveKey suite f.base f.kid.toNat
  encryptMediaFrame suite derived f.kid.toNat f.counter.toNat f.frame

def clear : List UInt8 := f.frame.data.take (prefixBytes f.codec f.frame.data)

def payload : List UInt8 := f.frame.data.drop (prefixBytes f.codec f.frame.data)

def header : List UInt8 := headerBytes f.kid.toNat f.counter.toNat

def key : Key := Key.of suite f.kid f.base 0

def nonce : List UInt8 := TrustedSFrame.nonce (f.key suite).salt f.counter

def aad : List UInt8 := f.header ++ (marker f.codec ++ f.clear)

def ciphertext : List UInt8 :=
  suite.encrypt (f.key suite).aead (f.nonce suite) f.aad f.payload

def envelope : List UInt8 :=
  f.clear ++ marker f.codec ++ (f.header ++ f.ciphertext suite)

end Sent

/-- What is asked of the cryptography, for the base keys that only the two
ends have and the frames that were sent. -/
structure Sealing (suite : Suite) (honest : List (List UInt8)) (sent : List Sent) : Prop where
  hkdf_length : ∀ base info length, (suite.hkdf base info length).length = length
  tag : ∀ f ∈ sent, (f.ciphertext suite).length = f.payload.length + 16
  opens : ∀ f ∈ sent,
    suite.decrypt (f.key suite).aead (f.nonce suite) f.aad (f.ciphertext suite) = some f.payload
  only : ∀ base ∈ honest, ∀ kid nonce aad ciphertext plaintext,
    suite.decrypt (Key.of suite kid base 0).aead nonce aad ciphertext = some plaintext →
      ∃ f ∈ sent, nonce = f.nonce suite ∧ aad = f.aad ∧ ciphertext = f.ciphertext suite
        ∧ plaintext = f.payload

/-! ## What the browser writes -/

theorem codecLayout_ok (f : Sent) : codecLayout f.frame = .ok {
    codecId := codecID f.codec
    prefixBytes := prefixBytes f.codec f.frame.data } := by
  have hdeclared := f.declared
  rw [codecLayout]
  cases hcodec : f.codec with
  | vp8 =>
      rw [hcodec] at hdeclared
      obtain ⟨hmime, htype, hkey⟩ := hdeclared
      have hvideo : (f.frame.mimeType.getD "").toLower = "video/vp8" ∨
          ((f.frame.mimeType.getD "").toLower = "" ∧ f.frame.type.isSome = true) :=
        hmime.imp_right fun hnone => ⟨hnone, htype⟩
      rw [if_pos hvideo]
      cases hframe : f.frame.type with
      | none =>
          rw [hframe] at htype
          cases htype
      | some type =>
          cases type with
          | key =>
              have hbit := hkey.mp hframe
              simp only [prefixBytes, if_pos hbit]
              rfl
          | delta =>
              have hbit : ¬(f.frame.data.headD 0 &&& 1 = 0) := fun hbit => by
                have htype := hkey.mpr hbit
                rw [hframe] at htype
                cases htype
              simp only [prefixBytes, if_neg hbit]
              rfl
  | opus =>
      rw [hcodec] at hdeclared
      have hvideo : ¬((f.frame.mimeType.getD "").toLower = "video/vp8" ∨
          ((f.frame.mimeType.getD "").toLower = "" ∧ f.frame.type.isSome = true)) := by
        rcases hdeclared with hmime | ⟨hmime, htype⟩
        · rw [hmime]
          rintro (heq | ⟨heq, -⟩)
          · exact absurd heq (by decide)
          · exact absurd heq (by decide)
        · rw [hmime, htype]
          rintro (heq | ⟨-, hsome⟩)
          · exact absurd heq (by decide)
          · cases hsome
      have haudio : (f.frame.mimeType.getD "").toLower = "audio/opus" ∨
          ((f.frame.mimeType.getD "").toLower = "" ∧ f.frame.type = none) := hdeclared
      rw [if_neg hvideo, if_pos haudio]
      rfl

theorem deriveKey_ok (suite : Suite) (f : Sent) : deriveKey suite f.base f.kid.toNat = .ok {
    key := (f.key suite).aead
    salt := (f.key suite).salt } := by
  have hkid : f.kid.toNat < 2 ^ 64 := f.kid.toNat_lt
  have hlength : f.base.length = baseKeyBytes := f.base_length
  rw [deriveKey, failIf_of_not _ (fun h => h hlength), ok_bind, assertUint64,
    failIf_of_not _ (not_le.mpr hkid), ok_bind, integerBytes_ok hkid]
  rfl

theorem xor_append {a b c d : List UInt8} (h : a.length = b.length) :
    xor (a ++ c) (b ++ d) = xor a b ++ xor c d := zipWith_append h

theorem xor_zeros : ∀ xs : List UInt8, xor (replicate xs.length 0) xs = xs
  | [] => rfl
  | x :: xs => by
      show (0 ^^^ x) :: xor (replicate xs.length 0) xs = _
      rw [xor_zeros xs, UInt8.zero_xor]

theorem xor_comm (xs ys : List UInt8) : xor xs ys = xor ys xs := zipWith_comm_of_comm UInt8.xor_comm

/-- Both sides put the counter into the last eight bytes of the salt. -/
theorem nonceFor_ok {salt : List UInt8} (hsalt : salt.length = 12) (counter : UInt64) :
    nonceFor salt counter.toNat = .ok (nonce salt counter) := by
  have hcounter : counter.toNat < 256 ^ 8 := counter.toNat_lt
  have hfits : counter.toNat < 256 ^ salt.length :=
    hcounter.trans_le (Nat.pow_le_pow_right (by decide) (by omega))
  have hwide : bigEndian salt.length counter.toNat
      = replicate 4 0 ++ bigEndian 8 counter.toNat := by
    rw [hsalt, show 12 = 4 + 8 from rfl, bigEndian_add hcounter]
  have hfront : (salt.take 4).length = 4 := by
    rw [length_take]
    omega
  have hzeros : xor (replicate 4 0) (salt.take 4) = salt.take 4 := by
    have h := xor_zeros (salt.take 4)
    rwa [hfront] at h
  have hnonce : xor (bigEndian salt.length counter.toNat) salt = nonce salt counter := by
    calc xor (bigEndian salt.length counter.toNat) salt
        = xor (replicate 4 0 ++ bigEndian 8 counter.toNat) (salt.take 4 ++ salt.drop 4) := by
          rw [hwide, take_append_drop]
      _ = xor (replicate 4 0) (salt.take 4) ++ xor (bigEndian 8 counter.toNat) (salt.drop 4) :=
          xor_append (by rw [length_replicate, hfront])
      _ = nonce salt counter := by rw [hzeros, xor_comm, nonce]
  rw [nonceFor, integerBytes_ok hfits, ok_bind, hnonce]
  rfl

theorem encrypted_ok {suite : Suite} {honest : List (List UInt8)} {sent : List Sent}
    (h : Sealing suite honest sent) (f : Sent) : f.encrypted suite = .ok (f.envelope suite) := by
  have hsalt : (f.key suite).salt.length = 12 := h.hkdf_length _ _ _
  rw [Sent.encrypted, deriveKey_ok, ok_bind, encryptMediaFrame, codecLayout_ok, ok_bind,
    splitPrefix, failIf_of_not _ (not_lt.mpr f.whole), ok_bind]
  show (encryptWithDerivedKey suite _ _ _ _ _ >>= _) = _
  rw [encryptWithDerivedKey, encodeSFrameHeader_ok f.kid.toNat_lt f.counter.toNat_lt, ok_bind]
  rw [nonceFor_ok hsalt]
  rfl

/-! ## What the packager reads -/

theorem marker_length (codec : Codec) : (marker codec).length = 4 := rfl

theorem prefixBytes_pos (codec : Codec) (frame : List UInt8) : 0 < prefixBytes codec frame := by
  cases codec with
  | vp8 =>
      rw [prefixBytes]
      split <;> decide
  | opus => exact one_pos

theorem clear_length (f : Sent) : f.clear.length = prefixBytes f.codec f.frame.data := by
  rw [Sent.clear, length_take]
  exact min_eq_left f.whole

/-- The first byte of a frame says how much of it is in the clear. -/
theorem prefixBytes_clear (f : Sent) (rest : List UInt8) :
    prefixBytes f.codec (f.clear ++ rest) = prefixBytes f.codec f.frame.data := by
  have hhead : (f.clear ++ rest).headD 0 = f.frame.data.headD 0 := by
    have hpos := prefixBytes_pos f.codec f.frame.data
    have hwhole := f.whole
    rw [Sent.clear]
    cases hdata : f.frame.data with
    | nil =>
        rw [hdata] at hpos hwhole
        exact absurd hwhole (not_le.mpr hpos)
    | cons b bs =>
        rw [hdata] at hpos
        obtain ⟨n, hn⟩ : ∃ n, prefixBytes f.codec (b :: bs) = n + 1 := ⟨_, (succ_pred hpos.ne').symm⟩
        rw [hn]
        rfl
  cases hcodec : f.codec with
  | vp8 => simp only [prefixBytes, hhead]
  | opus => rfl

section Envelope

variable {suite : Suite} {honest : List (List UInt8)} {sent : List Sent} {f : Sent}

theorem envelope_prefixBytes : prefixBytes f.codec (f.envelope suite) = f.clear.length := by
  rw [Sent.envelope, append_assoc, prefixBytes_clear, clear_length]

theorem envelope_take : (f.envelope suite).take f.clear.length = f.clear := by
  rw [Sent.envelope, append_assoc, take_left']
  rfl

theorem envelope_slice : slice (f.envelope suite) f.clear.length 4 = marker f.codec := by
  exact slice_middle f.clear (marker f.codec) _

theorem envelope_drop :
    (f.envelope suite).drop (f.clear.length + 4) = f.header ++ f.ciphertext suite := by
  rw [Sent.envelope, drop_left']
  rw [length_append, marker_length]

theorem header_envelope : TrustedSFrame.header (f.header ++ f.ciphertext suite) = .ok {
    __ := f
    size := f.header.length } := header_encoded f.kid f.counter _

theorem header_length_pos : 1 ≤ f.header.length := by
  rw [Sent.header, headerBytes, length_cons]
  omega

theorem clear_append_payload : f.clear ++ f.payload = f.frame.data := take_append_drop _ _

/-- The decoder has the key of the frame and has not seen its counter. -/
structure Ready (d : Decoder) (f : Sent) (now : Int) : Prop where
  current : Current d now
  codec : d.codec = f.codec
  key : ∃ entry, d.keys.get f.kid = some entry ∧ entry.base = f.base ∧ now < entry.expiresAt
    ∧ entry.replay.canAccept f.counter = true

/-- The decoders there are. -/
def Reachable (suite : Suite) (d : Decoder) : Prop :=
  ∃ envelope codec start expiresAt d₀ calls, new envelope codec start expiresAt = .ok d₀
    ∧ Path (Step suite) d₀ calls d

theorem Reachable.sound {d : Decoder} (h : Reachable suite d) : Sound suite d := by
  obtain ⟨_, _, _, _, d₀, calls, hnew, hrun⟩ := h
  exact (sound_new hnew).run hrun

theorem ready_of_install {d t : Decoder} {now later expiry : Int} {v : Unit}
    (hcodec : d.codec = f.codec) (hunseen : f.kid ∉ d.seen)
    (h : install suite f.kid f.base now expiry d = .ok v t) (hreach : Reachable suite d)
    (hnow : now ≤ later) (hlater : later < expiry) : Ready t f later := by
  obtain ⟨hcurrent, hbad, ⟨entry, hheld, -⟩ | ⟨-, rfl⟩⟩ := install_ok h
  · exact absurd (hreach.sound.seen (get_ticked.mp hheld).1) hunseen
  · rw [badInstall] at hbad
    have hget : ((d.ticked now).added suite f.kid f.base expiry).keys.get f.kid
        = some (Key.of suite f.kid f.base expiry) := by
      rw [get_added, if_pos rfl]
    refine ⟨⟨hcurrent.live, hnow, ?_⟩, hcodec, _, hget, rfl, hlater,
      ReplayWindow.canAccept_fresh f.counter⟩
    show later < d.expiresAt
    omega

/-- **The round trip of a frame.** -/
theorem opened_envelope {d : Decoder} {now : Int} (h : Sealing suite honest sent) (hf : f ∈ sent)
    (hsound : Sound suite d) (hready : Ready d f now)
    (hsize : (f.envelope suite).length ≤ maxFrameBytes) :
    ∃ o, opened suite (d.ticked now) (f.envelope suite) = .ok o ∧ o.header.kid = f.kid
      ∧ o.header.counter = f.counter ∧ o.output = f.frame.data := by
  obtain ⟨entry, hget, hbase, hlive, haccept⟩ := hready.key
  have hderived := hsound.derived hget
  have haead : entry.aead = (f.key suite).aead := by
    rw [hderived.aead, hbase]
    rfl
  have hsalt : entry.salt = (f.key suite).salt := by
    rw [hderived.salt, hbase]
    rfl
  have hlength : (f.envelope suite).length
      = f.clear.length + 4 + (f.header.length + (f.payload.length + 16)) := by
    rw [Sent.envelope, length_append, length_append, length_append, marker_length, h.tag f hf]
  have hheader := header_length_pos (f := f)
  have hcodec : (d.ticked now).codec = f.codec := hready.codec
  refine ⟨{ header := { kid := f.kid, counter := f.counter, size := f.header.length }
            entry := entry
            output := f.frame.data }, ?_, rfl, rfl, rfl⟩
  rw [opened, failIf_of_not _ (by omega), ok_bind]
  simp only [hcodec, envelope_prefixBytes, envelope_slice, envelope_drop, envelope_take]
  rw [failIf_of_not _ (not_or.mpr ⟨by omega, fun hne => hne rfl⟩), ok_bind, header_envelope, ok_bind]
  have htag : ¬((f.header ++ f.ciphertext suite).length - f.header.length < 16) := by
    rw [length_append, h.tag f hf]
    omega
  rw [failIf_of_not _ htag, ok_bind]
  have hheld : (d.ticked now).keys.get f.kid = some entry := get_ticked.mpr ⟨hget, hlive⟩
  simp only [hheld]
  rw [failIf_of_not _ (by rw [haccept]; decide), ok_bind, take_left', drop_left', haead,
    hsalt, append_assoc]
  · have hopens := h.opens f hf
    rw [Sent.aad, Sent.nonce] at hopens
    rw [hopens]
    show Except.ok _ = Except.ok _
    rw [clear_append_payload]
  · rfl
  · rfl

/-- **What is opened was sealed**, byte for byte. -/
theorem envelope_of_opened {d : Decoder} {bytes : List UInt8} {o : Opened}
    (h : Sealing suite honest sent) (hsound : Sound suite d)
    (hhonest : ∀ {kid entry}, d.keys.get kid = some entry → entry.base ∈ honest)
    (ho : opened suite d bytes = .ok o) :
    ∃ f ∈ sent, d.codec = f.codec ∧ bytes = f.envelope suite ∧ o.output = f.frame.data
      ∧ o.header.kid = f.kid ∧ o.header.counter = f.counter := by
  simp only [opened, Checks.bind_ok_iff, failIf_ok_iff] at ho
  obtain ⟨_, -, _, hmarker, hd, hheader, _, -, hrest⟩ := ho
  rw [not_or, not_not] at hmarker
  split at hrest
  · cases hrest
  · rename_i entry hget
    simp only [Checks.bind_ok_iff, failIf_ok_iff] at hrest
    obtain ⟨_, -, hrest⟩ := hrest
    split at hrest
    · cases hrest
    · rename_i plaintext hdecrypt
      cases hrest
      have haead : entry.aead = (Key.of suite hd.kid entry.base 0).aead :=
        (hsound.derived hget).aead
      rw [haead] at hdecrypt
      obtain ⟨f, hf, -, haad, hciphertext, hplain⟩ := h.only _ (hhonest hget) _ _ _ _ _ hdecrypt
      obtain ⟨hread, hsize⟩ := header_take hheader
      -- both headers are read from the same bytes
      have hsame : hd = { kid := f.kid, counter := f.counter, size := f.header.length } := by
        have hencoded := header_encoded f.kid f.counter (marker f.codec ++ f.clear)
        have hbytes : header ((bytes.drop (prefixBytes d.codec bytes + 4)).take hd.size
            ++ (SFrame.slice bytes (prefixBytes d.codec bytes) 4
              ++ bytes.take (prefixBytes d.codec bytes))) = .ok hd := hread
        rw [← append_assoc, haad] at hbytes
        exact Except.ok.inj (hbytes.symm.trans hencoded)
      subst hsame
      have htake : ((bytes.drop (prefixBytes d.codec bytes + 4)).take f.header.length).length
          = f.header.length := by
        rw [length_take]
        exact min_eq_left hsize
      rw [append_assoc, Sent.aad] at haad
      obtain ⟨hfront, hback⟩ := append_inj haad htake
      rw [hmarker.2] at hback
      obtain ⟨hid, hclear⟩ := append_inj hback rfl
      have hcodec : d.codec = f.codec := by
        have hcid : codecID d.codec = codecID f.codec := by
          simpa [marker] using hid
        revert hcid
        cases d.codec <;> cases f.codec <;> decide
      have hwire : bytes.drop (prefixBytes d.codec bytes + 4) = f.header ++ f.ciphertext suite := by
        rw [← take_append_drop f.header.length (bytes.drop (prefixBytes d.codec bytes + 4))]
        exact congrArg₂ _ hfront hciphertext
      refine ⟨f, hf, hcodec, ?_, ?_, rfl, rfl⟩
      · calc bytes
            = bytes.take (prefixBytes d.codec bytes)
                ++ (SFrame.slice bytes (prefixBytes d.codec bytes) 4
                  ++ bytes.drop (prefixBytes d.codec bytes + 4)) := by
              rw [SFrame.slice, ← drop_drop, take_append_drop, take_append_drop]
          _ = f.envelope suite := by
              rw [hclear, hmarker.2, hwire, Sent.envelope, hcodec, append_assoc]
              rfl
      · rw [hclear, hplain, clear_append_payload]

end Envelope

/-- **The two implementations of the envelope agree.** Every frame that was
sent is written by the browser and opened by a decoder that has its key to
the same bytes, under the same kind, key id and counter; after its first
installation a key takes every counter; and what a decoder returns was sent
by the browser in exactly the bytes that came in, under the decoder's kind. -/
theorem envelopes_agree (suite : Suite) (honest : List (List UInt8)) (sent : List Sent)
    (h : Sealing suite honest sent) :
    (∀ f ∈ sent, ∃ envelope, f.encrypted suite = .ok envelope ∧
      ∀ d now, Reachable suite d → Ready d f now → envelope.length ≤ maxFrameBytes →
        ∃ o, opened suite (d.ticked now) envelope = .ok o ∧ d.codec = f.codec
          ∧ o.header.kid = f.kid ∧ o.header.counter = f.counter
          ∧ decrypt suite envelope now d = .ok f.frame.data ((d.ticked now).accepted o)) ∧
    (∀ f d t now later expiry, Reachable suite d → d.codec = f.codec → f.kid ∉ d.seen →
      install suite f.kid f.base now expiry d = .ok () t → now ≤ later → later < expiry →
        Ready t f later) ∧
    (∀ d t now bytes output, Reachable suite d →
      (∀ kid entry, d.keys.get kid = some entry → entry.base ∈ honest) →
        decrypt suite bytes now d = .ok output t →
          ∃ f ∈ sent, d.codec = f.codec ∧ f.encrypted suite = .ok bytes
            ∧ output = f.frame.data) := by
  refine ⟨fun f hf => ⟨_, encrypted_ok h f, fun d now hreach hready hsize => ?_⟩, ?_, ?_⟩
  · obtain ⟨o, ho, hkid, hcounter, houtput⟩ := opened_envelope h hf hreach.sound hready hsize
    refine ⟨o, ho, hready.codec, hkid, hcounter, ?_⟩
    rw [← houtput]
    exact decrypt_of_opened hready.current ho
  · intro f d t now later expiry hreach hcodec hunseen hinstall hnow hlater
    exact ready_of_install hcodec hunseen hinstall hreach hnow hlater
  · intro d t now bytes output hreach hhonest hdecrypt
    obtain ⟨hcurrent, o, ho, rfl, -⟩ := decrypt_ok hdecrypt
    have hheld : ∀ {kid entry}, (d.ticked now).keys.get kid = some entry → entry.base ∈ honest :=
      fun hget => hhonest _ _ (get_ticked.mp hget).1
    obtain ⟨f, hf, hcodec, rfl, houtput, -⟩ := envelope_of_opened h hreach.sound.ticked hheld ho
    exact ⟨f, hf, hcodec, encrypted_ok h f, houtput⟩

/-- A key frame with two bytes behind its prefix. -/
def sampleSent : Sent where
  base := replicate 16 9
  kid := 4660
  counter := 258
  codec := .vp8
  frame := {
    data := [16, 1, 2, 3, 4, 5, 6, 7, 8, 9, 21, 22]
    type := some .key
    mimeType := some "video/VP8"
  }
  base_length := rfl
  declared := ⟨.inl (by decide +kernel), rfl, fun _ => by decide, fun _ => rfl⟩
  whole := by decide

/-- A suite that opens the one frame that was sealed with it. -/
def sampleSuite : Suite where
  hkdf _ _ length := replicate length 0
  encrypt _ _ _ plaintext := plaintext ++ replicate 16 0
  decrypt _ nonce aad ciphertext :=
    if nonce = TrustedSFrame.nonce (replicate 12 0) sampleSent.counter
        ∧ aad = sampleSent.aad ∧ ciphertext = sampleSent.payload ++ replicate 16 0 then
      some sampleSent.payload
    else none

theorem sampleSuite_decrypt (key nonce aad ciphertext : List UInt8) :
    sampleSuite.decrypt key nonce aad ciphertext =
      if nonce = TrustedSFrame.nonce (replicate 12 0) sampleSent.counter
          ∧ aad = sampleSent.aad ∧ ciphertext = sampleSent.payload ++ replicate 16 0 then
        some sampleSent.payload
      else none := rfl

theorem sealing_sample : Sealing sampleSuite [sampleSent.base] [sampleSent] where
  hkdf_length _ _ _ := length_replicate
  tag f hf := by
    exact length_append
  opens f hf := by
    rw [mem_singleton.mp hf]
    have hnonce : sampleSent.nonce sampleSuite
        = TrustedSFrame.nonce (replicate 12 0) sampleSent.counter := rfl
    have hciphertext : sampleSent.ciphertext sampleSuite
        = sampleSent.payload ++ replicate 16 0 := rfl
    have hsame : sampleSent.nonce sampleSuite
          = TrustedSFrame.nonce (replicate 12 0) sampleSent.counter
        ∧ sampleSent.aad = sampleSent.aad ∧ sampleSent.ciphertext sampleSuite
          = sampleSent.payload ++ replicate 16 0 := ⟨hnonce, rfl, hciphertext⟩
    rw [sampleSuite_decrypt, if_pos hsame]
  only base _ kid nonce aad ciphertext plaintext hopen := by
    refine ⟨sampleSent, mem_singleton_self _, ?_⟩
    rw [sampleSuite_decrypt] at hopen
    split at hopen
    · rename_i hsame
      obtain ⟨hnonce, haad, hciphertext⟩ := hsame
      exact ⟨hnonce, haad, hciphertext, (Option.some.inj hopen).symm⟩
    · cases hopen

def sampleStart : Decoder where
  keys := .empty
  seen := []
  expiresAt := 5000
  lastNow := 1000
  closed := false
  codec := .vp8

theorem envelopes_agree_sample : ∃ envelope d t, sampleSent.encrypted sampleSuite = .ok envelope
      ∧ install sampleSuite sampleSent.kid sampleSent.base 1100 3000 sampleStart = .ok () d
      ∧ decrypt sampleSuite envelope 1200 d = .ok sampleSent.frame.data t := by
  obtain ⟨hsent, hready, -⟩ :=
    envelopes_agree sampleSuite [sampleSent.base] [sampleSent] sealing_sample
  obtain ⟨envelope, hencrypted, hdecrypts⟩ := hsent sampleSent (mem_singleton_self _)
  have hnew : new "codec-prefix-v1" "video/vp8" 1000 5000 = .ok sampleStart := rfl
  have hstart : Reachable sampleSuite sampleStart :=
    ⟨_, _, _, _, sampleStart, [], hnew, .nil sampleStart⟩
  have hinstall : install sampleSuite sampleSent.kid sampleSent.base 1100 3000 sampleStart
      = .ok () ((sampleStart.ticked 1100).added sampleSuite sampleSent.kid sampleSent.base 3000) :=
    rfl
  have hreach : Reachable sampleSuite
      ((sampleStart.ticked 1100).added sampleSuite sampleSent.kid sampleSent.base 3000) :=
    ⟨_, _, _, _, sampleStart, [.install sampleSent.kid sampleSent.base 1100 3000], hnew,
      .single (by rw [Step, Call.next, hinstall]; rfl)⟩
  have hsize : envelope.length ≤ maxFrameBytes := by
    have hbytes := encrypted_ok sealing_sample sampleSent
    rw [hencrypted] at hbytes
    cases hbytes
    decide
  obtain ⟨o, -, -, -, -, hdecrypt⟩ := hdecrypts _ 1200 hreach
    (hready _ _ _ 1100 1200 3000 hstart rfl not_mem_nil hinstall (by decide) (by decide)) hsize
  exact ⟨envelope, _, _, hencrypted, hinstall, hdecrypt⟩

end TrustedSFrame

end WebrtcMinimize
