import WebrtcMinimize.TrustedDecoder

/-!
# The header between the two implementations

The browser writes a header in the shortest form and the packager reads
only that form. `header_encoded` is the round trip for every key id and
every 64-bit counter, whatever follows; `header_take` says that a reader
looks at nothing behind the header, so a header tells where it ends.
-/

namespace WebrtcMinimize

open Bytes Checks List Nat

namespace SFrame

open UInt8

/-! ## Widths -/

theorem pow_gt (n : Nat) : n < 256 ^ n := Nat.lt_pow_self (by decide)

variable {value : Nat}

theorem widen_spec : ∀ (fuel width : Nat), value < 256 ^ (fuel + width) →
    (width = 1 ∨ 256 ^ (width - 1) ≤ value) → 1 ≤ width →
      value < 256 ^ widen value fuel width ∧ 1 ≤ widen value fuel width
        ∧ (widen value fuel width = 1 ∨ 256 ^ (widen value fuel width - 1) ≤ value) := by
  intro fuel
  induction fuel with
  | zero =>
      intro width hlt hmin hpos
      rw [zero_add] at hlt
      exact ⟨hlt, hpos, hmin⟩
  | succ fuel ih =>
      intro width hlt hmin hpos
      rw [widen]
      split
      · rename_i hle
        refine ih (width + 1) ?_ (.inr hle) (by omega)
        rwa [show fuel + (width + 1) = fuel + 1 + width by omega]
      · exact ⟨by omega, hpos, hmin⟩

/-- The width of the shortest form. -/
def fieldWidth (value : Nat) : Nat := widen value value 1

theorem lt_fieldWidth (value : Nat) : value < 256 ^ fieldWidth value := by
  have hlt : value < 256 ^ (value + 1) :=
    (pow_gt value).trans_le (Nat.pow_le_pow_right (by decide) (by omega))
  exact (widen_spec value 1 hlt (.inl rfl) le_rfl).1

theorem fieldWidth_pos (value : Nat) : 1 ≤ fieldWidth value := by
  have hlt : value < 256 ^ (value + 1) :=
    (pow_gt value).trans_le (Nat.pow_le_pow_right (by decide) (by omega))
  exact (widen_spec value 1 hlt (.inl rfl) le_rfl).2.1

theorem fieldWidth_minimal (h : fieldWidth value ≠ 1) : 256 ^ (fieldWidth value - 1) ≤ value := by
  have hlt : value < 256 ^ (value + 1) :=
    (pow_gt value).trans_le (Nat.pow_le_pow_right (by decide) (by omega))
  exact (widen_spec value 1 hlt (.inl rfl) le_rfl).2.2.resolve_left h

theorem fieldWidth_le (h : value < 2 ^ 64) : fieldWidth value ≤ 8 := by
  by_contra hgt
  have hmin : 256 ^ (fieldWidth value - 1) ≤ value := fieldWidth_minimal (by omega)
  have hpow : 256 ^ 8 ≤ 256 ^ (fieldWidth value - 1) := Nat.pow_le_pow_right (by decide) (by omega)
  omega

theorem integerBytes_ok {width : Nat} (h : value < 256 ^ width) :
    integerBytes value width = .ok (bigEndian width value) := by
  rw [integerBytes, failIf_of_not _ (by omega)]
  rfl

/-- The bytes of a key id or counter that does not fit the first byte. -/
def longField (value : Nat) : List UInt8 :=
  if 7 < value then bigEndian (fieldWidth value) value else []

theorem longField_ok (value : Nat) : extendedBytes value = .ok (longField value) := by
  rw [extendedBytes, longField]
  split
  · exact integerBytes_ok (lt_fieldWidth value)
  · rfl

theorem length_longField (h : value < 2 ^ 64) : (longField value).length ≤ 8 := by
  rw [longField]
  split
  · rw [length_bigEndian]
    exact fieldWidth_le h
  · exact zero_le _

theorem longField_length_pos (h : 7 < value) : 0 < (longField value).length := by
  rw [longField, if_pos h, length_bigEndian]
  exact fieldWidth_pos value

theorem value_longField (h : 7 < value) : Bytes.value (longField value) = value := by
  rw [longField, if_pos h, value_bigEndian (lt_fieldWidth value)]

theorem head_longField (h : 1 < (longField value).length) : (longField value).head? ≠ some 0 := by
  have hlong : 7 < value := by
    by_contra hshort
    rw [longField, if_neg hshort] at h
    cases h
  rw [longField, if_pos hlong, length_bigEndian] at h
  rw [longField, if_pos hlong]
  obtain ⟨w, hw⟩ : ∃ w, fieldWidth value = w + 1 := ⟨fieldWidth value - 1, by omega⟩
  have hlt := lt_fieldWidth value
  have hmin : 256 ^ (fieldWidth value - 1) ≤ value := fieldWidth_minimal (by omega)
  rw [hw] at hlt hmin ⊢
  rw [Ne, head?_bigEndian_eq_zero_iff hlt]
  exact not_lt.mpr hmin

/-! ## The first byte -/

/-- What stands in three bits of the first byte. -/
def shortField (value : Nat) : Nat :=
  if 7 < value then (longField value).length - 1 else value

theorem shortField_lt (h : value < 2 ^ 64) : shortField value < 8 := by
  have hle := length_longField h
  rw [shortField]
  split <;> omega

theorem config_bits : ∀ (e f : Bool) (v w : Fin 8),
    let config := (if e then (0x80 : UInt8) ||| (ofNat v <<< 4) else ofNat v <<< 4)
      ||| (if f then (0x08 : UInt8) ||| ofNat w else ofNat w)
    (config &&& 0x80 ≠ 0 ↔ e = true) ∧ ((config >>> 4) &&& 0x07).toNat = v
      ∧ (config &&& 0x08 ≠ 0 ↔ f = true) ∧ (config &&& 0x07).toNat = w := by
  decide

/-- The bytes of a header. -/
def headerBytes (kid counter : Nat) : List UInt8 :=
  configByte kid counter (longField kid) (longField counter)
    :: (longField kid ++ longField counter)

theorem encodeSFrameHeader_ok {kid counter : Nat} (hkid : kid < 2 ^ 64)
    (hcounter : counter < 2 ^ 64) :
    encodeSFrameHeader kid counter = .ok (headerBytes kid counter) := by
  rw [encodeSFrameHeader, assertUint64, assertUint64, failIf_of_not _ (by omega),
    failIf_of_not _ (by omega), longField_ok, longField_ok]
  rfl

theorem config_spec {kid counter : Nat} (hkid : kid < 2 ^ 64) (hcounter : counter < 2 ^ 64) :
    let config := configByte kid counter (longField kid) (longField counter)
    (config &&& 0x80 ≠ 0 ↔ 7 < kid) ∧ ((config >>> 4) &&& 0x07).toNat = shortField kid
      ∧ (config &&& 0x08 ≠ 0 ↔ 7 < counter) ∧ (config &&& 0x07).toNat = shortField counter := by
  have hbits := config_bits (decide (7 < kid)) (decide (7 < counter))
    ⟨shortField kid, shortField_lt hkid⟩ ⟨shortField counter, shortField_lt hcounter⟩
  simp only [decide_eq_true_eq] at hbits
  have hconfig : configByte kid counter (longField kid) (longField counter)
      = (if 7 < kid then (0x80 : UInt8) ||| (ofNat (shortField kid) <<< 4)
          else ofNat (shortField kid) <<< 4)
        ||| (if 7 < counter then (0x08 : UInt8) ||| ofNat (shortField counter)
          else ofNat (shortField counter)) := by
    rw [configByte, shortField, shortField]
    split <;> split <;> rfl
  rw [hconfig]
  exact hbits

end SFrame

namespace TrustedSFrame

open SFrame

theorem kw_config {kid counter : Nat} (hkid : kid < 2 ^ 64) (hcounter : counter < 2 ^ 64) :
    kw (configByte kid counter (longField kid) (longField counter)) = (longField kid).length := by
  obtain ⟨hlong, hshort, -, -⟩ := config_spec hkid hcounter
  rw [kw]
  by_cases h : 7 < kid
  · have hpos := longField_length_pos h
    rw [if_pos (hlong.mpr h), hshort, shortField, if_pos h]
    omega
  · rw [if_neg (fun hc => h (hlong.mp hc)), longField, if_neg h]
    rfl

theorem cw_config {kid counter : Nat} (hkid : kid < 2 ^ 64) (hcounter : counter < 2 ^ 64) :
    cw (configByte kid counter (longField kid) (longField counter))
      = (longField counter).length := by
  obtain ⟨-, -, hlong, hshort⟩ := config_spec hkid hcounter
  rw [cw]
  by_cases h : 7 < counter
  · have hpos := longField_length_pos h
    rw [if_pos (hlong.mpr h), hshort, shortField, if_pos h]
    omega
  · rw [if_neg (fun hc => h (hlong.mp hc)), longField, if_neg h]
    rfl

theorem toNat_read_longField {value : Nat} (h : value < 2 ^ 64) (hlong : 7 < value) :
    (read64 (longField value)).toNat = value := by
  rw [toNat_read64 (length_longField h), value_longField hlong]

theorem not_badField {value : Nat} (h : value < 2 ^ 64) (hlong : 0 < (longField value).length) :
    ¬badField (longField value) := by
  have hgt : 7 < value := by
    by_contra hshort
    rw [longField, if_neg hshort] at hlong
    cases hlong
  rintro (hle | ⟨hlen, hhead⟩)
  · have hnat := UInt64.le_iff_toNat_le.mp hle
    rw [toNat_read_longField h hgt] at hnat
    exact absurd hgt (not_lt.mpr hnat)
  · exact head_longField hlen hhead

theorem slice_left (xs ys : List UInt8) : slice (xs ++ ys) 0 xs.length = xs := by
  rw [slice, drop_zero, take_left']
  rfl

theorem slice_middle (xs ys zs : List UInt8) : slice (xs ++ ys ++ zs) xs.length ys.length = ys := by
  rw [slice, append_assoc, drop_left', take_left']
  · rfl
  · rfl

/-- A number is read back from its long field or from the first byte. -/
theorem readField (u : UInt64) {b : UInt8} (hb : b.toNat = shortField u.toNat) :
    (if 0 < (longField u.toNat).length then read64 (longField u.toNat) else b.toUInt64) = u := by
  rw [← UInt64.toNat_inj]
  by_cases h : 7 < u.toNat
  · rw [if_pos (longField_length_pos h), toNat_read_longField u.toNat_lt h]
  · have hnil : longField u.toNat = [] := by rw [longField, if_neg h]
    rw [if_neg (by rw [hnil]; exact lt_irrefl 0), UInt8.toNat_toUInt64, hb, shortField,
      if_neg h]

/-- **The round trip of the header.** -/
theorem header_encoded (kid counter : UInt64) (rest : List UInt8) :
    header (headerBytes kid.toNat counter.toNat ++ rest) = .ok {
      kid := kid
      counter := counter
      size := (headerBytes kid.toNat counter.toNat).length } := by
  have hkid : kid.toNat < 2 ^ 64 := kid.toNat_lt
  have hcounter : counter.toNat < 2 ^ 64 := counter.toNat_lt
  obtain ⟨-, hshortKid, -, hshortCounter⟩ := config_spec hkid hcounter
  have hkw := kw_config hkid hcounter
  have hcw := cw_config hkid hcounter
  rw [headerBytes, cons_append, header]
  simp only [hkw, hcw, slice_middle]
  rw [append_assoc, slice_left]
  rw [failIf_of_not _ (by simp only [length_cons, length_append]; omega), ok_bind,
    failIf_of_not _ (fun h => not_badField hkid h.1 h.2), ok_bind,
    failIf_of_not _ (fun h => not_badField hcounter h.1 h.2), ok_bind]
  rw [readField kid hshortKid, readField counter hshortCounter]
  simp only [length_cons, length_append]
  rw [show 1 + (longField kid.toNat).length + (longField counter.toNat).length
    = (longField kid.toNat).length + (longField counter.toNat).length + 1 by omega]
  rfl

theorem header_take {wire rest : List UInt8} {h : Header} (hok : header wire = .ok h) :
    header (wire.take h.size ++ rest) = .ok h ∧ h.size ≤ wire.length := by
  cases wire with
  | nil => cases hok
  | cons config wire =>
      simp only [header, Checks.bind_ok_iff, failIf_ok_iff, pure_ok_iff] at hok
      obtain ⟨_, hlen, _, hbadKid, _, hbadCounter, rfl⟩ := hok
      rw [length_cons] at hlen
      have htake : (config :: wire).take (1 + kw config + cw config)
          = config :: wire.take (kw config + cw config) := by
        rw [show 1 + kw config + cw config = kw config + cw config + 1 by omega,
          take_succ_cons]
      have hslice : ∀ {offset width : Nat}, offset + width ≤ kw config + cw config →
          slice (wire.take (kw config + cw config) ++ rest) offset width
            = slice wire offset width := by
        intro offset width hle
        rw [slice, slice, drop_append_of_le_length (by rw [length_take]; omega),
          take_append_of_le_length (by rw [length_drop, length_take]; omega),
          drop_take, take_take]
        congr 1
        omega
      refine ⟨?_, by rw [length_cons]; show 1 + kw config + cw config ≤ _; omega⟩
      rw [htake, cons_append, header]
      simp only [hslice (show 0 + kw config ≤ kw config + cw config by omega),
        hslice (show kw config + cw config ≤ kw config + cw config from le_rfl)]
      rw [failIf_of_not _ (by
          simp only [length_cons, length_append, length_take]
          omega), ok_bind, failIf_of_not _ hbadKid, ok_bind, failIf_of_not _ hbadCounter, ok_bind]
      rfl

end TrustedSFrame

end WebrtcMinimize
