import Mathlib.Data.List.Basic

/-!
# Sliding windows over numbers

A window that takes each number once and forgets what is `size` or more
behind the highest it took. `Admits` is its rule over everything taken so far;
`Tracks` says that one bit for each of the last `size` numbers is enough to
decide it. A window moves up with a new highest number and marks a lower one.
-/

namespace SlidingWindow

open List

/-- A number may be taken: it was not taken before and is not too far behind
the highest. -/
def Admits (size : Nat) (taken : List Nat) (n : Nat) : Prop :=
  n ∉ taken ∧ ∀ highest ∈ taken.max?, (highest : Int) - size < n

instance (size : Nat) (taken : List Nat) (n : Nat) : Decidable (Admits size taken n) :=
  inferInstanceAs (Decidable (_ ∧ _))

/-- What a window decides of each number in turn. -/
def decisions (size : Nat) : (taken ns : List Nat) → List Bool
  | _, [] => []
  | taken, n :: ns =>
      if Admits size taken n then true :: decisions size (n :: taken) ns
      else false :: decisions size taken ns

/-- Bit `d` of a window tells whether the number `d` below the highest was taken. -/
structure Tracks (size : Nat) (bit : Nat → Bool) (highest : Nat) (taken : List Nat) : Prop where
  mem : highest ∈ taken
  le : ∀ n ∈ taken, n ≤ highest
  bits : ∀ d < size, d ≤ highest → (bit d = true ↔ highest - d ∈ taken)

theorem admits_nil (size n : Nat) : Admits size [] n := ⟨not_mem_nil, fun _ h => by cases h⟩

section Tracks

variable {size highest n : Nat} {bit bit' : Nat → Bool} {taken : List Nat}

section

variable (h : Tracks size bit highest taken)

include h

theorem Tracks.max : taken.max? = some highest :=
  max?_eq_some_iff.mpr ⟨h.mem, h.le⟩

theorem Tracks.admits_of_lt (hlt : highest < n) :
    Admits size taken n := by
  refine ⟨fun hmem => absurd (h.le n hmem) (by omega), fun top htop => ?_⟩
  rw [h.max, Option.mem_some_iff] at htop
  omega

theorem Tracks.admits_iff (hle : n ≤ highest) :
    Admits size taken n ↔ highest - n < size ∧ bit (highest - n) = false := by
  rw [Admits, h.max]
  simp only [Option.mem_some_iff, forall_eq']
  constructor
  · rintro ⟨hnew, hnear⟩
    have hlt : highest - n < size := by omega
    refine ⟨hlt, ?_⟩
    rw [← Bool.not_eq_true, h.bits _ hlt (by omega), Nat.sub_sub_self hle]
    exact hnew
  · rintro ⟨hlt, hbit⟩
    rw [← Bool.not_eq_true, h.bits _ hlt (by omega), Nat.sub_sub_self hle] at hbit
    exact ⟨hbit, by omega⟩

end

/-- The first number. -/
theorem Tracks.first (hbit : ∀ d < size, bit d = true ↔ d = 0) : Tracks size bit n [n] where
  mem := mem_singleton_self n
  le := fun m hm => Nat.le_of_eq (mem_singleton.mp hm)
  bits := by
    intro d hd hle
    rw [hbit d hd, mem_singleton]
    omega

/-- A new highest number: the bits move up by the distance. -/
theorem Tracks.move (h : Tracks size bit highest taken) (hlt : highest < n)
    (hbit : ∀ d < size, bit' d = true ↔
      d = 0 ∨ (n - highest ≤ d ∧ bit (d - (n - highest)) = true)) :
    Tracks size bit' n (n :: taken) where
  mem := mem_cons_self
  le := by
    intro m hm
    rcases mem_cons.mp hm with rfl | hm
    · exact Nat.le_refl m
    · exact Nat.le_of_lt (Nat.lt_of_le_of_lt (h.le m hm) hlt)
  bits := by
    intro d hd hle
    rw [hbit d hd, mem_cons]
    refine or_congr (by omega) ?_
    constructor
    · rintro ⟨hfar, hold⟩
      rw [h.bits _ (by omega) (by omega)] at hold
      rwa [show highest - (d - (n - highest)) = n - d by omega] at hold
    · intro hmem
      have hle := h.le _ hmem
      refine ⟨by omega, (h.bits _ (by omega) (by omega)).mpr ?_⟩
      rwa [show highest - (d - (n - highest)) = n - d by omega]

/-- A lower number: its bit is set. -/
theorem Tracks.mark (h : Tracks size bit highest taken) (hle : n ≤ highest)
    (hbit : ∀ d < size, bit' d = true ↔ d = highest - n ∨ bit d = true) :
    Tracks size bit' highest (n :: taken) where
  mem := mem_cons_of_mem n h.mem
  le := by
    intro m hm
    rcases mem_cons.mp hm with rfl | hm
    · exact hle
    · exact h.le m hm
  bits := by
    intro d hd hd'
    rw [hbit d hd, h.bits d hd hd', mem_cons]
    exact or_congr (by omega) Iff.rfl

end Tracks

end SlidingWindow
