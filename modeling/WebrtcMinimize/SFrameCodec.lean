import WebrtcMinimize.SFrameHeaders

/-!
# The header codec

The browser's reader accepts the headers its writer makes and no others, and
the packager's reader is the same partial function: both take the widths off
the first byte and refuse a long field that would have fitted a shorter form
(`field_canonical` is that rule, read backwards). What follows a header is
not looked at, so an accepted string is a header and a rest.
-/

namespace WebrtcMinimize

open Bytes Checks List

namespace SFrame

open List UInt8

/-! ## Fields in their shortest form -/

/-- A number has one string in each width. -/
theorem bigEndian_value (bs : List UInt8) : bigEndian bs.length (value bs) = bs := by
  induction bs using append_induction with
  | hnil => rfl
  | hsnoc bs b ih =>
      have hb : b.toNat < 256 := b.toNat_lt
      rw [length_append, length_singleton, bigEndian, value_concat,
        show (256 * value bs + b.toNat) / 256 = value bs by omega,
        show (256 * value bs + b.toNat) % 256 = b.toNat by omega, ih, UInt8.ofNat_toNat]

/-- The shortest form is the only one without a zero in front. -/
theorem fieldWidth_value {bs : List UInt8} (hpos : 0 < bs.length)
    (hhead : 1 < bs.length → bs.head? ≠ some 0) : fieldWidth (value bs) = bs.length := by
  have hlt := value_lt bs
  have hwidth := lt_fieldWidth (value bs)
  have hone := fieldWidth_pos (value bs)
  refine Nat.le_antisymm ?_ ?_
  · by_contra hgt
    have hmin : 256 ^ (fieldWidth (value bs) - 1) ≤ value bs := fieldWidth_minimal (by omega)
    have hpow : 256 ^ bs.length ≤ 256 ^ (fieldWidth (value bs) - 1) :=
      Nat.pow_le_pow_right (by decide) (by omega)
    omega
  · by_contra hgt
    obtain ⟨w, hw⟩ : ∃ w, bs.length = w + 1 := ⟨bs.length - 1, by omega⟩
    have hpow : 256 ^ fieldWidth (value bs) ≤ 256 ^ w := Nat.pow_le_pow_right (by decide) (by omega)
    -- one byte less would do, so the first one is zero
    have hzero : bs.head? = some 0 := by
      have h := (head?_bigEndian_eq_zero_iff (hw ▸ hlt)).mpr (hwidth.trans_le hpow)
      rwa [← hw, bigEndian_value] at h
    exact hhead (by omega) hzero

/-- A long field that the readers take is the one the writer makes. -/
theorem field_canonical {bs : List UInt8} (hpos : 0 < bs.length) (h : ¬nonCanonical bs) :
    7 < value bs ∧ longField (value bs) = bs := by
  obtain ⟨hlong, hhead⟩ := not_or.mp h
  rw [Nat.not_le] at hlong
  refine ⟨hlong, ?_⟩
  rw [longField, if_pos hlong, fieldWidth_value hpos fun hlen hzero => hhead ⟨hlen, hzero⟩,
    bigEndian_value]

/-! ## What the browser reads -/

theorem length_slice {wire : List UInt8} {offset width : Nat} (h : offset + width ≤ wire.length) :
    (slice wire offset width).length = width := by
  rw [slice, length_take, length_drop]
  omega

/-- The number of a field: its long form, or the bits of the first byte. -/
def number (long : Prop) [Decidable long] (field : List UInt8) (bits : UInt8) : Nat :=
  if long then value field else bits.toNat

/-- What is accepted, and what is made of it. -/
structure Reads (config : UInt8) (wire : List UInt8) (h : SFrameHeader) : Prop where
  whole : kidWidth config + counterWidth config ≤ wire.length
  kidField : config &&& 0x80 ≠ 0 → ¬nonCanonical (slice wire 0 (kidWidth config))
  counterField : config &&& 0x08 ≠ 0 →
    ¬nonCanonical (slice wire (kidWidth config) (counterWidth config))
  kid : h.kid = number (config &&& 0x80 ≠ 0) (slice wire 0 (kidWidth config))
    ((config >>> 4) &&& 0x07)
  counter : h.counter = number (config &&& 0x08 ≠ 0)
    (slice wire (kidWidth config) (counterWidth config)) (config &&& 0x07)
  bytes : h.bytes = config :: wire.take (kidWidth config + counterWidth config)
  length : h.length = kidWidth config + counterWidth config + 1

theorem decodeSFrameHeader_cons {config : UInt8} {wire : List UInt8} {h : SFrameHeader} :
    decodeSFrameHeader (config :: wire) = .ok h ↔ Reads config wire h := by
  have hsize : 1 + kidWidth config + counterWidth config
      = kidWidth config + counterWidth config + 1 := by omega
  simp only [decodeSFrameHeader, bind_ok_iff, failIf_ok_iff, pure_ok_iff, hsize,
    length_cons, take_succ_cons]
  constructor
  · rintro ⟨_, hlen, _, hfields, rfl⟩
    rw [not_or, not_and, not_and] at hfields
    exact ⟨by omega, hfields.1, hfields.2, rfl, rfl, rfl, rfl⟩
  · rintro ⟨hwhole, hkid, hcounter, hk, hc, hbytes, hlength⟩
    refine ⟨(), by omega, (), fun hbad => hbad.elim (fun h => hkid h.1 h.2)
      (fun h => hcounter h.1 h.2), ?_⟩
    cases h
    simp only at hk hc hbytes hlength
    rw [hk, hc, hbytes, hlength]
    rfl

/-- The bits of a first byte make the byte, for all its values. -/
theorem config_parts : ∀ n : Fin 256, let config := ofNat n
    ((config >>> 4) &&& 0x07).toNat < 8 ∧ (config &&& 0x07).toNat < 8
      ∧ config = (if config &&& 0x80 ≠ 0
            then (0x80 : UInt8) ||| (ofNat ((config >>> 4) &&& 0x07).toNat <<< 4)
            else ofNat ((config >>> 4) &&& 0x07).toNat <<< 4)
          ||| (if config &&& 0x08 ≠ 0 then (0x08 : UInt8) ||| ofNat (config &&& 0x07).toNat
            else ofNat (config &&& 0x07).toNat) := by
  decide +kernel

theorem config_whole (config : UInt8) :
    ((config >>> 4) &&& 0x07).toNat < 8 ∧ (config &&& 0x07).toNat < 8
      ∧ config = (if config &&& 0x80 ≠ 0
            then (0x80 : UInt8) ||| (ofNat ((config >>> 4) &&& 0x07).toNat <<< 4)
            else ofNat ((config >>> 4) &&& 0x07).toNat <<< 4)
          ||| (if config &&& 0x08 ≠ 0 then (0x08 : UInt8) ||| ofNat (config &&& 0x07).toNat
            else ofNat (config &&& 0x07).toNat) := by
  have h := config_parts ⟨config.toNat, config.toNat_lt⟩
  simpa only [UInt8.ofNat_toNat] using h

/-- The number of a field that is taken: its bytes are the writer's, and the
first byte tells its form. -/
theorem number_spec {long : Prop} [Decidable long] {field : List UInt8} {bits : UInt8}
    (hbits : bits.toNat < 8) (hlen : field.length = if long then bits.toNat + 1 else 0)
    (hfield : long → ¬nonCanonical field) :
    longField (number long field bits) = field ∧ number long field bits < 2 ^ 64
      ∧ (7 < number long field bits ↔ long) := by
  by_cases hlong : long
  · rw [if_pos hlong] at hlen
    obtain ⟨hgt, hcanonical⟩ := field_canonical (by omega) (hfield hlong)
    have hpow : 256 ^ field.length ≤ 256 ^ 8 := Nat.pow_le_pow_right (by decide) (by omega)
    rw [number, if_pos hlong]
    exact ⟨hcanonical, (value_lt field).trans_le hpow, fun _ => hlong, fun _ => hgt⟩
  · rw [if_neg hlong] at hlen
    rw [number, if_neg hlong, longField, if_neg (by omega), length_eq_zero_iff.mp hlen]
    exact ⟨rfl, by omega, fun hgt => absurd hgt (by omega), fun hl => absurd hl hlong⟩

section Accepted

variable {config : UInt8} {wire : List UInt8} {h : SFrameHeader}

section

variable (hr : Reads config wire h)

include hr

theorem Reads.kid_spec :
    longField h.kid = slice wire 0 (kidWidth config) ∧ h.kid < 2 ^ 64
      ∧ (7 < h.kid ↔ config &&& 0x80 ≠ 0) := by
  have hwhole := hr.whole
  rw [hr.kid]
  refine number_spec (config_whole config).1 ?_ hr.kidField
  rw [length_slice (by omega), kidWidth]

theorem Reads.counter_spec :
    longField h.counter = slice wire (kidWidth config) (counterWidth config)
      ∧ h.counter < 2 ^ 64 ∧ (7 < h.counter ↔ config &&& 0x08 ≠ 0) := by
  rw [hr.counter]
  refine number_spec (config_whole config).2.1 ?_ hr.counterField
  rw [length_slice hr.whole, counterWidth]

theorem Reads.configByte_eq :
    configByte h.kid h.counter (longField h.kid) (longField h.counter) = config := by
  obtain ⟨hkid, -, hlongKid⟩ := hr.kid_spec
  obtain ⟨hcounter, -, hlongCounter⟩ := hr.counter_spec
  have hwhole := hr.whole
  have hkidLen := length_slice (show 0 + kidWidth config ≤ wire.length by omega)
  have hcounterLen := length_slice hr.whole
  -- the three bits of each field, whichever form it has
  have hkidPart : (if 7 < h.kid then (0x80 : UInt8) ||| (ofNat ((longField h.kid).length - 1)
        <<< 4) else ofNat h.kid <<< 4)
      = if config &&& 0x80 ≠ 0
          then (0x80 : UInt8) ||| (ofNat ((config >>> 4) &&& 0x07).toNat <<< 4)
          else ofNat ((config >>> 4) &&& 0x07).toNat <<< 4 := by
    by_cases hlong : config &&& 0x80 ≠ 0
    · rw [if_pos (hlongKid.mpr hlong), if_pos hlong, hkid, hkidLen, kidWidth, if_pos hlong,
        Nat.add_sub_cancel]
    · rw [if_neg (fun hgt => hlong (hlongKid.mp hgt)), if_neg hlong, hr.kid, number, if_neg hlong]
  have hcounterPart : (if 7 < h.counter then (0x08 : UInt8)
        ||| ofNat ((longField h.counter).length - 1) else ofNat h.counter)
      = if config &&& 0x08 ≠ 0 then (0x08 : UInt8) ||| ofNat (config &&& 0x07).toNat
          else ofNat (config &&& 0x07).toNat := by
    by_cases hlong : config &&& 0x08 ≠ 0
    · rw [if_pos (hlongCounter.mpr hlong), if_pos hlong, hcounter, hcounterLen, counterWidth,
        if_pos hlong, Nat.add_sub_cancel]
    · rw [if_neg (fun hgt => hlong (hlongCounter.mp hgt)), if_neg hlong, hr.counter, number,
        if_neg hlong]
  rw [configByte, hkidPart, hcounterPart]
  exact (config_whole config).2.2.symm

/-- The bytes of an accepted header are the writer's. -/
theorem Reads.headerBytes_eq :
    headerBytes h.kid h.counter = h.bytes := by
  rw [headerBytes, hr.configByte_eq, hr.kid_spec.1, hr.counter_spec.1, hr.bytes, slice, slice,
    drop_zero, ← take_add]

end

end Accepted

/-- **What is accepted is canonical.** -/
theorem decoded_canonical {wire : List UInt8} {h : SFrameHeader}
    (hok : decodeSFrameHeader wire = .ok h) :
    h.kid < 2 ^ 64 ∧ h.counter < 2 ^ 64 ∧ encodeSFrameHeader h.kid h.counter = .ok h.bytes
      ∧ h.length = h.bytes.length ∧ wire = h.bytes ++ wire.drop h.length := by
  cases wire with
  | nil => cases hok
  | cons config wire =>
      have hr := decodeSFrameHeader_cons.mp hok
      have hkid := hr.kid_spec.2.1
      have hcounter := hr.counter_spec.2.1
      refine ⟨hkid, hcounter, ?_, ?_, ?_⟩
      · rw [encodeSFrameHeader_ok hkid hcounter, hr.headerBytes_eq]
      · rw [hr.length, hr.bytes, length_cons, length_take_of_le hr.whole]
      · rw [hr.length, hr.bytes, drop_succ_cons, cons_append, take_append_drop]

end SFrame

/-! ## The two readers -/

namespace TrustedSFrame

open SFrame

/-- A header of the packager as the browser gives it. -/
def Header.toSFrame (h : Header) (wire : List UInt8) : SFrameHeader where
  kid := h.kid.toNat
  counter := h.counter.toNat
  bytes := wire.take h.size
  length := h.size

/-- Up to eight bytes the two readers refuse the same fields. -/
theorem badField_iff {field : List UInt8} (hlen : field.length ≤ 8) :
    badField field ↔ nonCanonical field := by
  rw [badField, nonCanonical, UInt64.le_iff_toNat_le, toNat_read64 hlen]
  rfl

section

variable (config : UInt8)

theorem kw_pos_iff : 0 < kw config ↔ config &&& 0x80 ≠ 0 := by
  rw [kw]
  split <;> simp [*]

theorem cw_pos_iff : 0 < cw config ↔ config &&& 0x08 ≠ 0 := by
  rw [cw]
  split <;> simp [*]

theorem kw_le : kw config ≤ 8 := by
  have h := (config_whole config).1
  rw [kw]
  split <;> omega

theorem cw_le : cw config ≤ 8 := by
  have h := (config_whole config).2.1
  rw [cw]
  split <;> omega

end

/-- The number of a field is the same for both. -/
theorem toNat_number {long : Prop} [Decidable long] {width : Nat} (hlong : 0 < width ↔ long)
    {field : List UInt8} (hlen : field.length ≤ 8) (bits : UInt8) :
    (if 0 < width then read64 field else bits.toUInt64).toNat = number long field bits := by
  rw [number]
  by_cases h : long
  · rw [if_pos (hlong.mpr h), if_pos h, toNat_read64 hlen]
  · rw [if_neg (fun hpos => h (hlong.mp hpos)), if_neg h, UInt8.toNat_toUInt64]

theorem header_cons {config : UInt8} {wire : List UInt8} {h : SFrameHeader} :
    (∃ g, header (config :: wire) = .ok g ∧ g.toSFrame (config :: wire) = h)
      ↔ Reads config wire h := by
  have hkidLen : (slice wire 0 (kw config)).length ≤ 8 :=
    (length_take_le _ _).trans (kw_le config)
  have hcounterLen : (slice wire (kw config) (cw config)).length ≤ 8 :=
    (length_take_le _ _).trans (cw_le config)
  -- the widths of the two readers are the same
  have hkw : kidWidth config = kw config := rfl
  have hcw : counterWidth config = cw config := rfl
  have hkid := toNat_number (kw_pos_iff config) hkidLen ((config >>> 4) &&& 7)
  have hcounter := toNat_number (cw_pos_iff config) hcounterLen (config &&& 7)
  have hsize : 1 + kw config + cw config = kw config + cw config + 1 := by omega
  simp only [header, bind_ok_iff, failIf_ok_iff, pure_ok_iff, kw_pos_iff, cw_pos_iff,
    badField_iff hkidLen, badField_iff hcounterLen]
  constructor
  · rintro ⟨g, ⟨_, hlen, _, hbadKid, _, hbadCounter, rfl⟩, rfl⟩
    rw [length_cons] at hlen
    refine ⟨?_, fun hl hbad => hbadKid ⟨hl, hbad⟩, fun hl hbad => hbadCounter ⟨hl, hbad⟩,
      ?_, ?_, ?_, ?_⟩
    · omega
    · simpa only [Header.toSFrame, kw_pos_iff, hkw] using hkid
    · simpa only [Header.toSFrame, cw_pos_iff, hkw, hcw] using hcounter
    · show (config :: wire).take (1 + kw config + cw config) = _
      rw [hsize, take_succ_cons]
      rfl
    · exact hsize
  · rintro ⟨hwhole, hbadKid, hbadCounter, hk, hc, hbytes, hlength⟩
    refine ⟨_, ⟨(), ?_, (), fun hbad => hbadKid hbad.1 hbad.2, (),
      fun hbad => hbadCounter hbad.1 hbad.2, rfl⟩, ?_⟩
    · rw [length_cons]
      omega
    · cases h
      simp only at hk hc hbytes hlength
      simp only [Header.toSFrame, hsize, take_succ_cons, SFrameHeader.mk.injEq]
      refine ⟨?_, ?_, hbytes.symm, hlength.symm⟩
      · simpa only [hk, kw_pos_iff, hkw] using hkid
      · simpa only [hc, cw_pos_iff, hkw, hcw] using hcounter

/-- The two readers are one partial function. -/
theorem readers_agree (wire : List UInt8) (h : SFrameHeader) :
    decodeSFrameHeader wire = .ok h ↔ ∃ g, header wire = .ok g ∧ g.toSFrame wire = h := by
  cases wire with
  | nil =>
      constructor
      · intro hok
        cases hok
      · rintro ⟨g, hg, -⟩
        cases hg
  | cons config wire => rw [decodeSFrameHeader_cons, header_cons]

/-- **The header codec.** For all key ids, counters and byte strings: a written
header is read back from in front of anything; what is accepted is the canonical
header of the result and whatever follows it; and the packager accepts the same
strings with the same result. -/
theorem header_codec : (∀ (kid counter : UInt64) (rest : List UInt8), ∃ bytes,
      encodeSFrameHeader kid.toNat counter.toNat = .ok bytes
        ∧ decodeSFrameHeader (bytes ++ rest) = .ok {
            kid := kid.toNat
            counter := counter.toNat
            bytes := bytes
            length := bytes.length })
    ∧ (∀ (wire : List UInt8) (h : SFrameHeader), decodeSFrameHeader wire = .ok h →
        h.kid < 2 ^ 64 ∧ h.counter < 2 ^ 64 ∧ encodeSFrameHeader h.kid h.counter = .ok h.bytes
          ∧ h.length = h.bytes.length ∧ wire = h.bytes ++ wire.drop h.length)
    ∧ ∀ (wire : List UInt8) (h : SFrameHeader),
        decodeSFrameHeader wire = .ok h ↔ ∃ g, header wire = .ok g ∧ g.toSFrame wire = h := by
  refine ⟨fun kid counter rest => ?_, fun wire h => decoded_canonical, readers_agree⟩
  refine ⟨headerBytes kid.toNat counter.toNat, encodeSFrameHeader_ok kid.toNat_lt counter.toNat_lt,
    (readers_agree _ _).mpr ⟨_, header_encoded kid counter rest, ?_⟩⟩
  rw [Header.toSFrame, take_left]

end TrustedSFrame

end WebrtcMinimize
