import Mathlib.Tactic.Linarith
import Mathlib.Tactic.Ring

/-!
# 64-bit signed arithmetic

Go's `int64` as the integers with an explicit wrap: `int64 x` is what is
left of `x` in 64 bits, and it is `x` itself as long as `x` fits. Division
and remainder truncate toward zero, so they are `Int.tdiv` and `Int.tmod`,
which on a non-negative dividend are the floor and its rest.
-/

namespace GoInts

open Int

def maxInt64 : Int := 9223372036854775807

def minInt64 : Int := -9223372036854775808

/-- The value an `int64` operation leaves behind. -/
def int64 (x : Int) : Int :=
  bmod x 18446744073709551616

theorem int64_of_fits {x : Int} (hlo : minInt64 ≤ x) (hhi : x ≤ maxInt64) : int64 x = x := by
  unfold minInt64 at hlo
  unfold maxInt64 at hhi
  exact bmod_eq_of_le_mul_two (by omega) (by omega)

theorem int64_of_nonneg {x : Int} (hlo : 0 ≤ x) (hhi : x ≤ maxInt64) : int64 x = x :=
  int64_of_fits (le_trans (by decide) hlo) hhi

/-! ## Truncating division -/

theorem tdiv_tmod_of_nonneg {a c : Int} (ha : 0 ≤ a) (hc : 0 < c) :
    a.tdiv c = a / c ∧ a.tmod c = a % c ∧ 0 ≤ a % c ∧ a % c < c :=
  ⟨tdiv_eq_ediv_of_nonneg ha, tmod_eq_emod_of_nonneg ha,
    emod_nonneg a (by omega), emod_lt_of_pos a hc⟩

/-- Whole units and the scaled rest: splitting a product off a quotient
loses nothing. -/
theorem split_scale (i scale : Int) {per : Int} (hper : 0 < per) :
    i / per * scale + i % per * scale / per = i * scale / per := by
  have hi : i * scale = i % per * scale + i / per * scale * per := by
    nth_rewrite 1 [← emod_add_mul_ediv i per]
    ring
  rw [hi, add_mul_ediv_right _ _ (by omega)]
  omega

end GoInts
