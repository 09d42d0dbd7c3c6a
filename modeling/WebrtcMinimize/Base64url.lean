import Mathlib.Data.List.Basic
import WebrtcMinimize.Sha256

/-!
# Reading base64url

The inverse of the base64url digits: four digits make three bytes, and a
last group of three or two digits makes two bytes or one, whose unused bits
are dropped. A single digit at the end is an error.
-/

namespace Base64url

open Option Sha256 UInt8
open List hiding pure_def

/-- The value of a digit. -/
def digitValue (c : Char) : Option Nat :=
  if 'A' ≤ c ∧ c ≤ 'Z' then some (c.toNat - 65)
  else if 'a' ≤ c ∧ c ≤ 'z' then some (c.toNat - 71)
  else if '0' ≤ c ∧ c ≤ '9' then some (c.toNat + 4)
  else if c = '-' then some 62
  else if c = '_' then some 63
  else none

/-- The bytes of a list of digit values. -/
def group : List Nat → Option (List UInt8)
  | v0 :: v1 :: v2 :: v3 :: vs =>
      (group vs).map fun bytes =>
        ofNat (v0 * 4 + v1 / 16) :: ofNat (v1 % 16 * 16 + v2 / 4)
          :: ofNat (v2 % 4 * 64 + v3) :: bytes
  | [v0, v1, v2] =>
      some [ofNat (v0 * 4 + v1 / 16), ofNat (v1 % 16 * 16 + v2 / 4)]
  | [v0, v1] => some [ofNat (v0 * 4 + v1 / 16)]
  | [_] => none
  | [] => some []

def decode (digits : List Char) : Option (List UInt8) := (digits.mapM digitValue).bind group

def encode (bytes : List UInt8) : List Char := base64url (bytes.map toNat)

theorem digitValue_base64Digit {n : Nat} (h : n < 64) : digitValue (base64Digit n) = some n := by
  have hall : ∀ n < 64, digitValue (base64Digit n) = some n := by decide
  exact hall n h

theorem ofNat_of_eq {n : Nat} {b : UInt8} (h : n = b.toNat) : UInt8.ofNat n = b := by
  rw [h, UInt8.ofNat_toNat]

/-- **What was written is read back.** -/
theorem decode_encode : ∀ bytes : List UInt8, decode (encode bytes) = some bytes
  | b0 :: b1 :: b2 :: bs => by
      have h0 := b0.toNat_lt
      have h1 := b1.toNat_lt
      have h2 := b2.toNat_lt
      have ih := decode_encode bs
      rw [decode, bind_eq_some_iff] at ih
      obtain ⟨vs, hvs, hgroup⟩ := ih
      rw [encode] at hvs
      rw [decode, encode, map_cons, map_cons, map_cons, base64url]
      simp only [mapM_cons, digitValue_base64Digit (Nat.mod_lt _ (by decide : 0 < 64)), hvs,
        bind_eq_bind, bind_some, pure_def, group, hgroup, map_some]
      rw [ofNat_of_eq (b := b0) (by omega), ofNat_of_eq (b := b1) (by omega),
        ofNat_of_eq (b := b2) (by omega)]
  | [b0, b1] => by
      have h0 := b0.toNat_lt
      have h1 := b1.toNat_lt
      rw [decode, encode, map_cons, map_cons, map_nil, base64url]
      simp only [mapM_cons, mapM_nil,
        digitValue_base64Digit (Nat.mod_lt _ (by decide : 0 < 64)),
        bind_eq_bind, bind_some, pure_def, group]
      rw [ofNat_of_eq (b := b0) (by omega), ofNat_of_eq (b := b1) (by omega)]
  | [b0] => by
      have h0 := b0.toNat_lt
      rw [decode, encode, map_cons, map_nil, base64url]
      simp only [mapM_cons, mapM_nil,
        digitValue_base64Digit (Nat.mod_lt _ (by decide : 0 < 64)),
        bind_eq_bind, bind_some, pure_def, group]
      rw [ofNat_of_eq (b := b0) (by omega)]
  | [] => rfl

theorem encode_mem {bytes : List UInt8} {c : Char} (h : c ∈ encode bytes) :
    c ∈ base64Alphabet := base64url_mem h

theorem length_encode (bytes : List UInt8) : (encode bytes).length
    = bytes.length / 3 * 4 + if bytes.length % 3 = 0 then 0 else bytes.length % 3 + 1 := by
  rw [encode, length_base64url, length_map]

end Base64url
