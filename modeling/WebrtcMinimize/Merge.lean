import Mathlib

/-!
# Two timed lanes merged into one log

Items come from an early and a late lane, each with its own strictly
increasing timetable `a` and `v`. `Merged n m log` says that a log is what
one gets by always handing off the next item of the lane that is first,
the early lane at ties: it has the first `n` and the first `m` items of
the lanes, each once, in the order of their instants.

The rules are the empty log, one handoff from either lane and its inverse,
and the reading of a log whose next items lie beyond an instant: it holds
exactly the items of both timetables up to there.
-/

namespace Merge

open List

variable {ι : Type} (isLate : ι → Bool) (time : ι → Int) (a v : Nat → Int)

/-- The order of a merged log: by instant, the early lane first at ties. -/
def Before (x y : ι) : Prop :=
  time x < time y ∨ (time x = time y ∧ isLate x = false ∧ isLate y = true)

/-- A log that holds the first `n` items of the early lane and the first `m`
of the late one, merged. -/
structure Merged (n m : Nat) (log : List ι) : Prop where
  early_items : (log.filter (fun x => !isLate x)).map time = (range n).map a
  late_items : (log.filter isLate).map time = (range m).map v
  sorted : log.Pairwise (Before isLate time)
  before_early : ∀ x ∈ log, time x < a n
  before_late : ∀ x ∈ log, time x < v m ∨ (time x = v m ∧ isLate x = false)

theorem Merged.nil : Merged isLate time a v 0 0 [] := ⟨rfl, rfl, .nil, by simp, by simp⟩

variable {isLate time a v} {n m : Nat} {log : List ι}

/-- **Early handoff.** The next early item, when the late lane is not ahead
of it. -/
theorem Merged.early (ha : StrictMono a) (h : Merged isLate time a v n m log) {x : ι}
    (hx : isLate x = false) (htime : time x = a n) (hfirst : a n ≤ v m) :
    Merged isLate time a v (n + 1) m (log ++ [x]) where
  early_items := by
    rw [filter_append, map_append, h.early_items, range_succ, map_append]
    simp [hx, htime]
  late_items := by
    rw [filter_append, map_append, h.late_items]
    simp [hx]
  sorted := by
    refine pairwise_append.mpr ⟨h.sorted, pairwise_singleton _ _, ?_⟩
    intro y hy z hz
    rw [mem_singleton] at hz
    subst hz
    left
    rw [htime]
    exact h.before_early y hy
  before_early := by
    have hnext : a n < a (n + 1) := ha (Nat.lt_succ_self n)
    intro y hy
    rcases mem_append.mp hy with hy | hy
    · exact lt_trans (h.before_early y hy) hnext
    · rw [mem_singleton] at hy
      rw [hy, htime]
      exact hnext
  before_late := by
    intro y hy
    rcases mem_append.mp hy with hy | hy
    · exact h.before_late y hy
    · rw [mem_singleton] at hy
      subst hy
      rw [htime]
      rcases lt_or_eq_of_le hfirst with hlt | heq
      · exact .inl hlt
      · exact .inr ⟨heq, hx⟩

/-- **Late handoff.** The next late item, when it is strictly first. -/
theorem Merged.late (hv : StrictMono v) (h : Merged isLate time a v n m log) {x : ι}
    (hx : isLate x = true) (htime : time x = v m) (hfirst : v m < a n) :
    Merged isLate time a v n (m + 1) (log ++ [x]) where
  early_items := by
    rw [filter_append, map_append, h.early_items]
    simp [hx]
  late_items := by
    rw [filter_append, map_append, h.late_items, range_succ, map_append]
    simp [hx, htime]
  sorted := by
    refine pairwise_append.mpr ⟨h.sorted, pairwise_singleton _ _, ?_⟩
    intro y hy z hz
    rw [mem_singleton] at hz
    subst hz
    rcases h.before_late y hy with hlt | ⟨heq, hearly⟩
    · exact .inl (by rw [htime]; exact hlt)
    · exact .inr ⟨by rw [htime]; exact heq, hearly, hx⟩
  before_early := by
    intro y hy
    rcases mem_append.mp hy with hy | hy
    · exact h.before_early y hy
    · rw [mem_singleton] at hy
      rw [hy, htime]
      exact hfirst
  before_late := by
    have hnext : v m < v (m + 1) := hv (Nat.lt_succ_self m)
    intro y hy
    left
    rcases mem_append.mp hy with hy | hy
    · rcases h.before_late y hy with hlt | ⟨heq, -⟩
      · exact lt_trans hlt hnext
      · rw [heq]
        exact hnext
    · rw [mem_singleton] at hy
      rw [hy, htime]
      exact hnext

/-- A merged log that ends with an early item is a merged log before it. -/
theorem Merged.of_concat_early {x : ι} (h : Merged isLate time a v n m (log ++ [x]))
    (hx : isLate x = false) :
    ∃ k, n = k + 1 ∧ time x = a k ∧ a k ≤ v m ∧ Merged isLate time a v k m log := by
  have hitems := h.early_items
  have hlates := h.late_items
  rw [filter_append, map_append] at hitems hlates
  obtain ⟨hsorted, -, hbefore⟩ := pairwise_append.mp h.sorted
  cases n with
  | zero => simp [hx] at hitems
  | succ k =>
      rw [range_succ, map_append] at hitems
      have hsplit := append_inj' hitems (by simp [hx])
      have htime : time x = a k := by simpa [hx] using hsplit.2
      refine ⟨k, rfl, htime, ?_, ?_⟩
      · rw [← htime]
        rcases h.before_late x (by simp) with hlt | ⟨heq, -⟩
        · exact le_of_lt hlt
        · exact le_of_eq heq
      · refine ⟨hsplit.1, by simpa [hx] using hlates, hsorted, fun y hy => ?_, fun y hy => ?_⟩
        · rw [← htime]
          rcases hbefore y hy x (by simp) with hlt | ⟨-, -, hlate⟩
          · exact hlt
          · rw [hx] at hlate
            cases hlate
        · exact h.before_late y (by simp [hy])

theorem Merged.of_concat_late {x : ι} (h : Merged isLate time a v n m (log ++ [x]))
    (hx : isLate x = true) :
    ∃ k, m = k + 1 ∧ time x = v k ∧ v k < a n ∧ Merged isLate time a v n k log := by
  have hitems := h.early_items
  have hlates := h.late_items
  rw [filter_append, map_append] at hitems hlates
  obtain ⟨hsorted, -, hbefore⟩ := pairwise_append.mp h.sorted
  cases m with
  | zero => simp [hx] at hlates
  | succ k =>
      rw [range_succ, map_append] at hlates
      have hsplit := append_inj' hlates (by simp [hx])
      have htime : time x = v k := by simpa [hx] using hsplit.2
      refine ⟨k, rfl, htime, ?_, ?_⟩
      · rw [← htime]
        exact h.before_early x (by simp)
      · refine ⟨by simpa [hx] using hitems, hsplit.1, hsorted, fun y hy => ?_, fun y hy => ?_⟩
        · exact h.before_early y (by simp [hy])
        · rw [← htime]
          rcases hbefore y hy x (by simp) with hlt | ⟨heq, hearly, -⟩
          · exact .inl hlt
          · exact .inr ⟨heq, hearly⟩

theorem Merged.of_prefix {log' : List ι} (h : Merged isLate time a v n m log)
    (hpre : log' <+: log) : ∃ n' m', Merged isLate time a v n' m' log' := by
  obtain ⟨rest, rfl⟩ := hpre
  induction rest using reverseRecOn generalizing n m with
  | nil => exact ⟨n, m, by simpa using h⟩
  | append_singleton rest x ih =>
      rw [← append_assoc] at h
      cases hx : isLate x with
      | false =>
          obtain ⟨k, -, -, -, hk⟩ := h.of_concat_early hx
          exact ih hk
      | true =>
          obtain ⟨k, -, -, -, hk⟩ := h.of_concat_late hx
          exact ih hk

/-- What a log has of a lane, from the lane's own list of instants. -/
theorem mem_lane_iff {lane : ι → Bool} {f : Nat → Int} {k : Nat}
    (h : (log.filter lane).map time = (range k).map f) (x : Int) :
    (∃ y ∈ log, lane y = true ∧ time y = x) ↔ ∃ j < k, f j = x := by
  have hmem : x ∈ (log.filter lane).map time ↔ x ∈ (range k).map f := by rw [h]
  simpa [and_assoc] using hmem

/-- **Nothing before it is due, and nothing due left out.** When both lanes'
next items lie beyond `target`, and nothing in the log does, the log has
exactly the items up to `target`. -/
theorem lane_due_iff {lane : ι → Bool} {f : Nat → Int} {k : Nat} {target : Int}
    (hf : StrictMono f) (h : (log.filter lane).map time = (range k).map f)
    (hnext : target < f k) (hdue : ∀ y ∈ log, time y ≤ target) (j : Nat) :
    (∃ y ∈ log, lane y = true ∧ time y = f j) ↔ f j ≤ target := by
  rw [mem_lane_iff h]
  constructor
  · rintro ⟨i, hi, hij⟩
    obtain ⟨y, hy, -, hty⟩ := (mem_lane_iff h (f i)).mpr ⟨i, hi, rfl⟩
    rw [← hij, ← hty]
    exact hdue y hy
  · intro hle
    refine ⟨j, ?_, rfl⟩
    exact hf.lt_iff_lt.mp (lt_of_le_of_lt hle hnext)

end Merge
