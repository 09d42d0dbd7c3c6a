import Mathlib.Data.List.Nodup
import Mathlib.Data.List.Perm.Subperm

/-!
# Climbing a parent function

A partial function gives each vertex at most one parent. `up n` climbs `n`
parents; a vertex from which the root is reached cannot meet itself on the
way, since the root has no parent. The length of the climb is bounded for
every vertex exactly when the vertices can be graded: the root has grade
zero, and a vertex one more than its parent.

`climbs` is the loop that follows parents until the root and gives up where
there is none or where it has been before.
-/

namespace Climbing

open Option List

variable {α : Type} {parent : α → Option α} {root : α}

/-- The vertex `n` parents up. -/
def up (parent : α → Option α) : Nat → α → Option α
  | 0, x => some x
  | n + 1, x => (parent x).bind (up parent n)

variable {n : Nat} {x : α}

theorem up_succ {y : α} (h : parent x = some y) : up parent (n + 1) x = up parent n y := by
  rw [up, h, bind_some]

theorem up_succ_eq_some_iff {z : α} :
    up parent (n + 1) x = some z ↔ ∃ y, parent x = some y ∧ up parent n y = some z := by
  rw [up, bind_eq_some_iff]

theorem up_add {m : Nat} {y : α} (h : up parent m x = some y) :
    up parent (m + n) x = up parent n y := by
  induction m generalizing x with
  | zero =>
      obtain rfl : x = y := some.inj h
      rw [Nat.zero_add]
  | succ m ih =>
      obtain ⟨z, hparent, hup⟩ := up_succ_eq_some_iff.mp h
      rw [show m + 1 + n = m + n + 1 by omega, up_succ hparent, ih hup]

theorem up_above {m : Nat} (hroot : parent root = none) (h : up parent m x = some root)
    (hlt : m < n) : up parent n x = none := by
  obtain ⟨k, rfl⟩ : ∃ k, n = m + (k + 1) := ⟨n - m - 1, by omega⟩
  rw [up_add h, up, hroot, bind_none]

theorem up_ne {i j : Nat} (hroot : parent root = none) (h : up parent n x = some root)
    (hij : i < j) (hjn : j ≤ n) : up parent i x ≠ up parent j x := by
  intro heq
  cases hj : up parent j x with
  | none =>
      obtain ⟨k, rfl⟩ : ∃ k, n = j + k := ⟨n - j, by omega⟩
      have hnone : ∀ {m k : Nat} {x : α}, up parent m x = none → up parent (m + k) x = none := by
        intro m k x
        induction m generalizing x with
        | zero => intro hm; cases hm
        | succ m ih =>
            intro hm
            rw [show m + 1 + k = m + k + 1 by omega, up]
            rw [up] at hm
            cases hp : parent x with
            | none => rfl
            | some y =>
                rw [hp, bind_some] at hm
                exact ih hm
      rw [hnone hj] at h
      cases h
  | some y =>
      rw [hj] at heq
      -- the rest of the climb from the vertex met twice is too short
      have hrest : up parent (i + (n - j)) x = some root := by
        rw [up_add heq, ← up_add hj, show j + (n - j) = n by omega, h]
      rw [up_above hroot hrest (by omega)] at h
      cases h

/-- The root is reached in at most `bound` steps, by a climb that passes no
vertex twice. -/
def ReachesWithin (parent : α → Option α) (root : α) (bound : Int) (x : α) : Prop :=
  ∃ n : Nat, (n : Int) ≤ bound ∧ up parent n x = some root
    ∧ ∀ i j, i < j → j ≤ n → up parent i x ≠ up parent j x

/-- Depths can be given to the vertices, each one more than its parent's and
none above the bound. -/
def Graded (parent : α → Option α) (root : α) (bound : Int) : Prop :=
  ∃ depth : α → Nat, depth root = 0 ∧
    ∀ x y, parent x = some y → depth x = depth y + 1 ∧ (depth x : Int) ≤ bound

theorem grade_eq {depth : α → Nat} (hdepth : ∀ x y, parent x = some y → depth x = depth y + 1)
    {y : α} (h : up parent n x = some y) : depth x = depth y + n := by
  induction n generalizing x with
  | zero =>
      obtain rfl : x = y := some.inj h
      rfl
  | succ n ih =>
      obtain ⟨z, hparent, hup⟩ := up_succ_eq_some_iff.mp h
      rw [hdepth x z hparent, ih hup]
      omega

/-- **Where every vertex reaches the root, climbs are bounded exactly if the
vertices can be graded within the bound.** -/
theorem reachesWithin_iff_graded {bound : Int} (hroot : parent root = none)
    (hall : ∀ x, parent x ≠ none → ∃ n, up parent n x = some root) :
    (∀ x, parent x ≠ none → ReachesWithin parent root bound x) ↔ Graded parent root bound := by
  classical
  -- the climb from a vertex to the root has one length
  have huniq : ∀ {z : α} {i j : Nat}, up parent i z = some root → up parent j z = some root →
      i = j := by
    intro z i j hi hj
    rcases Nat.lt_trichotomy i j with hlt | heq | hgt
    · rw [up_above hroot hi hlt] at hj
      cases hj
    · exact heq
    · rw [up_above hroot hj hgt] at hi
      cases hi
  constructor
  · intro hwithin
    let depth : α → Nat := fun x => if h : ∃ n, up parent n x = some root then h.choose else 0
    have hdepth : ∀ {n : Nat} {x : α}, up parent n x = some root → depth x = n := by
      intro n x hup
      have hex : ∃ n, up parent n x = some root := ⟨n, hup⟩
      show (if h : ∃ n, up parent n x = some root then h.choose else 0) = n
      rw [dif_pos hex]
      exact huniq hex.choose_spec hup
    refine ⟨depth, hdepth rfl, fun x y hparent => ?_⟩
    have hne : parent x ≠ none := by
      rw [hparent]
      exact some_ne_none y
    obtain ⟨n, hbound, hup, -⟩ := hwithin x hne
    cases n with
    | zero =>
        obtain rfl : x = root := some.inj hup
        rw [hroot] at hparent
        cases hparent
    | succ n =>
        have hy : up parent n y = some root := by rw [← up_succ hparent, hup]
        rw [hdepth hup, hdepth hy]
        exact ⟨rfl, hbound⟩
  · rintro ⟨depth, hzero, hdepth⟩ x hx
    obtain ⟨n, hup⟩ := hall x hx
    have hgrade := grade_eq (fun x y h => (hdepth x y h).1) hup
    rw [hzero, Nat.zero_add] at hgrade
    obtain ⟨y, hy⟩ := ne_none_iff_exists'.mp hx
    refine ⟨n, ?_, hup, fun i j hij hjn => up_ne hroot hup hij hjn⟩
    rw [← hgrade]
    exact (hdepth x y hy).2

/-! ## The loop -/

variable [DecidableEq α]

/-- Follow parents until the root, and give up at a vertex without one or at
one that was visited. -/
def climbs (parent : α → Option α) (root : α) : (fuel : Nat) → (visited : List α) → α → Bool
  | 0, _, _ => false
  | fuel + 1, visited, current =>
      if current = root then true
      else
        match parent current with
        | none => false
        | some next =>
            if next ∈ visited then false else climbs parent root fuel (next :: visited) next

theorem up_of_climbs {fuel : Nat} {visited : List α}
    (h : climbs parent root fuel visited x = true) : ∃ n, up parent n x = some root := by
  induction fuel generalizing visited x with
  | zero => cases h
  | succ fuel ih =>
      rw [climbs] at h
      split at h
      · rename_i heq
        exact ⟨0, by rw [up, heq]⟩
      · split at h
        · cases h
        · rename_i next hnext
          split at h
          · cases h
          · obtain ⟨n, hup⟩ := ih h
            exact ⟨n + 1, by rw [up_succ hnext, hup]⟩

/-- The loop finds the root where a climb leads to it past nothing visited. -/
theorem climbs_of_up {fuel : Nat} {visited : List α} (hroot : parent root = none)
    (h : up parent n x = some root) (hfuel : n < fuel)
    (hfresh : ∀ i y, i < n → up parent (i + 1) x = some y → y ∉ visited) :
    climbs parent root fuel visited x = true := by
  induction n generalizing fuel visited x with
  | zero =>
      obtain ⟨fuel, rfl⟩ : ∃ k, fuel = k + 1 := ⟨fuel - 1, by omega⟩
      obtain rfl : x = root := some.inj h
      rw [climbs, if_pos rfl]
  | succ n ih =>
      obtain ⟨fuel, rfl⟩ : ∃ k, fuel = k + 1 := ⟨fuel - 1, by omega⟩
      obtain ⟨y, hparent, hup⟩ := up_succ_eq_some_iff.mp h
      have hne : x ≠ root := by
        rintro rfl
        rw [hroot] at hparent
        cases hparent
      have hy : y ∉ visited := hfresh 0 y (Nat.succ_pos n) (by rw [up_succ hparent]; rfl)
      rw [climbs, if_neg hne, hparent]
      simp only [if_neg hy]
      refine ih hup (by omega) fun i z hi hz => ?_
      have hstep : up parent (i + 1 + 1) x = some z := by rw [up_succ hparent, hz]
      rw [mem_cons, not_or]
      refine ⟨?_, hfresh (i + 1) z (by omega) hstep⟩
      rintro rfl
      refine up_ne (x := x) hroot h (show 1 < i + 1 + 1 by omega) (by omega) ?_
      rw [hstep, up_succ hparent]
      rfl

/-- One round for each vertex with a parent, and one for the root, is enough:
more change nothing. -/
theorem climbs_fuel {keys : List α} (hkeys : ∀ x, parent x ≠ none → x ∈ keys) :
    ∀ {fuel : Nat} {others : List α} {x : α}, keys.length < fuel + others.length →
      (x :: others).Nodup → (∀ y ∈ others, y ∈ keys) →
        climbs parent root (fuel + 1) (x :: others) x = climbs parent root fuel (x :: others) x := by
  intro fuel
  induction fuel with
  | zero =>
      intro others x hlen hnodup hothers
      have hle := ((nodup_cons.mp hnodup).2.subperm fun y hy => hothers y hy).length_le
      omega
  | succ fuel ih =>
      intro others x hlen hnodup hothers
      rw [climbs, climbs.eq_def _ _ (fuel + 1)]
      by_cases hroot : x = root
      · simp only [if_pos hroot]
      · simp only [if_neg hroot]
        cases hparent : parent x with
        | none => rfl
        | some next =>
            by_cases hmem : next ∈ x :: others
            · simp only [if_pos hmem]
            · simp only [if_neg hmem]
              have hx : x ∈ keys := hkeys x (by rw [hparent]; exact some_ne_none next)
              refine ih (by rw [length_cons]; omega) (nodup_cons.mpr ⟨hmem, hnodup⟩) ?_
              intro y hy
              rcases mem_cons.mp hy with rfl | hy
              · exact hx
              · exact hothers y hy

/-- With enough fuel the loop decides whether the root is reached. -/
theorem climbs_iff {keys : List α} {fuel : Nat} (hroot : parent root = none)
    (hkeys : ∀ x, parent x ≠ none → x ∈ keys) (hfuel : keys.length < fuel) :
    climbs parent root fuel [x] x = true ↔ ∃ n, up parent n x = some root := by
  refine ⟨up_of_climbs, fun ⟨n, hup⟩ => ?_⟩
  have hmore : ∀ k, climbs parent root (fuel + k) [x] x = climbs parent root fuel [x] x := by
    intro k
    induction k with
    | zero => rfl
    | succ k ih =>
        rw [← ih]
        have hlen : keys.length < fuel + k + ([] : List α).length := by
          omega
        exact climbs_fuel hkeys hlen (nodup_singleton x) fun y hy => absurd hy not_mem_nil
  rw [← hmore (n + 1)]
  refine climbs_of_up hroot hup (by omega) fun i y hi hy => ?_
  rw [mem_singleton]
  rintro rfl
  exact up_ne hroot hup (Nat.succ_pos i) (by omega) hy.symm

end Climbing
