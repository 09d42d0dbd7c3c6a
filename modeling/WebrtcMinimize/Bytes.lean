import Mathlib.Data.List.Basic
import Mathlib.Tactic.Ring

/-!
# Big-endian byte strings

A number as its last `w` bytes, the most significant first, and the number a
byte string stands for. Within the width the two are inverse; a wider string
only has zeros in front, and the first byte is zero exactly where one byte
less would do, which is what a reader of canonical encodings tests.

A 64-bit reader shifts its accumulator and ors the next byte in; up to eight
bytes it computes the same number.
-/

namespace Bytes

open List UInt8 Nat

/-- The last `w` bytes of `n`. -/
def bigEndian : Nat → Nat → List UInt8
  | 0, _ => []
  | w + 1, n => bigEndian w (n / 256) ++ [ofNat (n % 256)]

def value (bytes : List UInt8) : Nat := bytes.foldl (fun v b => 256 * v + b.toNat) 0

/-- The reader with a 64-bit accumulator. -/
def read64 (bytes : List UInt8) : UInt64 :=
  bytes.foldl (fun v b => v <<< 8 ||| b.toUInt64) 0

/-- The bytes of two strings, one by one, up to the shorter. -/
def xor (xs ys : List UInt8) : List UInt8 := zipWith (· ^^^ ·) xs ys

theorem append_induction {P : List UInt8 → Prop} (hnil : P [])
    (hsnoc : ∀ bs b, P bs → P (bs ++ [b])) (bs : List UInt8) : P bs := by
  rw [← reverse_reverse bs]
  induction bs.reverse with
  | nil => exact hnil
  | cons b bs ih =>
      rw [reverse_cons]
      exact hsnoc _ b ih

@[simp] theorem value_nil : value [] = 0 := rfl

@[simp] theorem value_concat (bs : List UInt8) (b : UInt8) :
    value (bs ++ [b]) = 256 * value bs + b.toNat := by
  rw [value, foldl_append]
  rfl

@[simp] theorem read64_concat (bs : List UInt8) (b : UInt8) :
    read64 (bs ++ [b]) = read64 bs <<< 8 ||| b.toUInt64 := by
  rw [read64, foldl_append]
  rfl

@[simp] theorem length_bigEndian (w n : Nat) : (bigEndian w n).length = w := by
  induction w generalizing n with
  | zero => rfl
  | succ w ih => rw [bigEndian, length_append, ih, length_singleton]

theorem value_lt (bs : List UInt8) : value bs < 256 ^ bs.length := by
  induction bs using append_induction with
  | hnil => decide
  | hsnoc bs b ih =>
      have hb : b.toNat < 256 := b.toNat_lt
      rw [value_concat, length_append, length_singleton, pow_succ]
      omega

theorem value_bigEndian {w n : Nat} (h : n < 256 ^ w) : value (bigEndian w n) = n := by
  induction w generalizing n with
  | zero =>
      rw [bigEndian, value_nil]
      omega
  | succ w ih =>
      have hdiv : n / 256 < 256 ^ w := by
        omega
      have hbyte : (ofNat (n % 256)).toNat = n % 256 :=
        toNat_ofNat_of_lt' (mod_lt n (by decide))
      rw [bigEndian, value_concat, ih hdiv, hbyte]
      omega

theorem bigEndian_add {k w n : Nat} (h : n < 256 ^ w) :
    bigEndian (k + w) n = replicate k 0 ++ bigEndian w n := by
  induction w generalizing n with
  | zero =>
      obtain rfl : n = 0 := by
        omega
      rw [add_zero, bigEndian, append_nil]
      induction k with
      | zero => rfl
      | succ k ih => rw [bigEndian, Nat.zero_div, ih, replicate_succ']; rfl
  | succ w ih =>
      have hdiv : n / 256 < 256 ^ w := by
        omega
      rw [← add_assoc, bigEndian, ih hdiv, append_assoc]
      rfl

/-- The first byte of a string is zero exactly where a shorter one would do. -/
theorem head?_bigEndian_eq_zero_iff {w n : Nat} (h : n < 256 ^ (w + 1)) :
    (bigEndian (w + 1) n).head? = some 0 ↔ n < 256 ^ w := by
  induction w generalizing n with
  | zero =>
      show some (ofNat (n % 256)) = some 0 ↔ _
      rw [Option.some.injEq, ← UInt8.toNat_inj, UInt8.toNat_ofNat_of_lt' (mod_lt n (by decide))]
      show n % 256 = 0 ↔ _
      omega
  | succ w ih =>
      have hdiv : n / 256 < 256 ^ (w + 1) := by
        omega
      have hne : bigEndian (w + 1) (n / 256) ≠ [] := by
        rw [← length_pos_iff, length_bigEndian]
        omega
      rw [bigEndian, head?_append_of_ne_nil _ hne, ih hdiv, pow_succ]
      omega

theorem toNat_read64 {bs : List UInt8} (h : bs.length ≤ 8) : (read64 bs).toNat = value bs := by
  induction bs using append_induction with
  | hnil => rfl
  | hsnoc bs b ih =>
      rw [length_append, length_singleton] at h
      have hlt : value bs < 256 ^ 7 :=
        (value_lt bs).trans_le (Nat.pow_le_pow_right (by decide) (by omega))
      have hb : b.toNat < 2 ^ 8 := b.toNat_lt
      have hshift : (read64 bs <<< 8).toNat = 2 ^ 8 * value bs := by
        rw [UInt64.toNat_shiftLeft, ih (by omega)]
        show value bs <<< 8 % 2 ^ 64 = _
        omega
      rw [read64_concat, value_concat, UInt64.toNat_or, hshift, toNat_toUInt64,
        ← two_pow_add_eq_or_of_lt hb]

end Bytes
