import Mathlib.Data.List.Basic
import Mathlib.Algebra.Order.Ring.Int

/-!
# The cadence of encoder starts

`sourceRolloverBudget` books the starts of encoders: at least a second apart and at most eight
in a minute. A start may be booked ahead of the call, and starts that are a minute old when the
booked one comes are forgotten. `Booked` ties what the budget keeps to all starts of a run.

Times are nanoseconds after the zero `time.Time`, which the code reads as no time.
-/

namespace WebrtcMinimize

namespace Packager

namespace RolloverBudget

open List

def second : Int := 1000000000

def minute : Int := 60000000000

/-- The array `starts` up to its count. -/
structure sourceRolloverBudget where
  starts : List Int
  last : Int
  bounded : starts.length ≤ 8

/-- The start the call asks for: now, or a second after the last one. -/
def next (b : sourceRolloverBudget) (now : Int) : Int :=
  if b.last ≠ 0 ∧ now < b.last + second then b.last + second else now

/-- Book `start`, unless eight starts are in the minute that ends there. -/
def book (b : sourceRolloverBudget) (now start : Int) : Option Int × sourceRolloverBudget :=
  let kept := b.starts.filter fun t => decide (start - minute < t)
  have hkept : kept.length ≤ 8 := (length_filter_le ..).trans b.bounded
  if hfull : kept.length = 8 then (none, ⟨kept, b.last, hkept⟩)
  else (some (start - now), ⟨kept ++ [start], start, by
    rw [length_append, length_singleton]
    omega⟩)

/-- The delay until the start, unless the call is refused. -/
def reserve (b : sourceRolloverBudget) (now : Int) : Option Int × sourceRolloverBudget :=
  if now = 0 ∨ b.last ≠ 0 ∧ now < b.last then (none, b) else book b now (next b now)

def empty : sourceRolloverBudget := ⟨[], 0, Nat.zero_le 8⟩

structure Call where
  now : Int
  delay : Option Int

def Call.start (c : Call) : Option Int := c.delay.map (c.now + ·)

def calls (b : sourceRolloverBudget) : List Int → List Call
  | [] => []
  | now :: nows => ⟨now, (reserve b now).1⟩ :: calls (reserve b now).2 nows

def granted (cs : List Call) : List Int := cs.filterMap Call.start

/-- No call comes before `floor`, before an earlier one or before a start that was granted. -/
def Paced (floor : Int) : List Call → Prop
  | [] => True
  | c :: cs => floor ≤ c.now ∧ Paced (max c.now (c.start.getD c.now)) cs

/-- The earliest admissible time of a call after the starts. -/
def earliest (starts : List Int) (now : Int) : Int :=
  match starts.getLast? with
  | none => now
  | some t => max now (t + second)

/-- What the budget keeps after the starts `taken`, when the next call is at `floor` or later. -/
structure Booked (b : sourceRolloverBudget) (floor : Int) (taken : List Int) : Prop where
  spaced : taken.Pairwise fun s t => s + second ≤ t
  few : ∀ x, (taken.countP fun t => decide (x ≤ t ∧ t < x + minute)) ≤ 8
  waited : ∀ t ∈ taken, 0 < t ∧ t ≤ floor
  last : b.last = taken.getLast?.getD 0
  kept : ∃ cut ≤ earliest taken floor, b.starts = taken.filter fun t => decide (cut - minute < t)

variable {b : sourceRolloverBudget} {floor now : Int} {taken : List Int}

theorem earliest_mono (taken : List Int) (h : floor ≤ now) :
    earliest taken floor ≤ earliest taken now := by
  unfold earliest
  split
  · exact h
  · exact max_le_max h le_rfl

theorem le_earliest (taken : List Int) (now : Int) : now ≤ earliest taken now := by
  unfold earliest
  split
  · exact le_rfl
  · exact le_max_left ..

theorem Booked.next_eq (h : Booked b floor taken) : next b now = earliest taken now := by
  rw [next, h.last, earliest]
  cases hlast : taken.getLast? with
  | none => rfl
  | some t =>
      have ht := (h.waited t (mem_of_getLast? hlast)).1
      simp only [Option.getD_some]
      split <;> omega

/-- The starts before the earliest admissible time are a second before it. -/
theorem Booked.spaced_earliest (h : Booked b floor taken) {t : Int} (ht : t ∈ taken) :
    t + second ≤ earliest taken now := by
  unfold earliest
  obtain ⟨front, l, rfl⟩ := (eq_nil_or_concat' taken).resolve_left (ne_nil_of_mem ht)
  rw [getLast?_concat]
  refine le_max_of_le_right ?_
  rw [mem_append, mem_singleton] at ht
  rcases ht with ht | rfl
  · have hlast := (pairwise_append.mp h.spaced).2.2 t ht l (mem_singleton_self l)
    have : (0 : Int) < second := by decide
    omega
  · exact le_rfl

/-- A start at the end of a window leaves room for seven others in it. -/
theorem few_concat {start : Int}
    (hfew : ∀ x, (taken.countP fun t => decide (x ≤ t ∧ t < x + minute)) ≤ 8)
    (hroom : (taken.countP fun t => decide (start - minute < t)) < 8) (x : Int) :
    ((taken ++ [start]).countP fun t => decide (x ≤ t ∧ t < x + minute)) ≤ 8 := by
  rw [countP_append, countP_singleton]
  split
  · next hin =>
      have hin := of_decide_eq_true hin
      have hle : (taken.countP fun t => decide (x ≤ t ∧ t < x + minute))
          ≤ taken.countP fun t => decide (start - minute < t) := by
        refine countP_mono_left fun t _ ht => ?_
        have ht := of_decide_eq_true ht
        exact decide_eq_true (by omega)
      omega
  · exact hfew x

/-- **One call.** A refused one finds eight starts in the minute that ends when it could start. -/
theorem Booked.call (h : Booked b floor taken) (hfloor : floor ≤ now) (hpos : 0 < now) :
    let c : Call := ⟨now, (reserve b now).1⟩
    Booked (reserve b now).2 (max now (c.start.getD now)) (taken ++ c.start.toList)
      ∧ (c.delay = none → (taken.countP fun t =>
        decide (earliest taken now - minute < t ∧ t ≤ earliest taken now)) = 8) := by
  have hwait : ∀ t ∈ taken, 0 < t ∧ t ≤ now := fun t ht =>
    ⟨(h.waited t ht).1, (h.waited t ht).2.trans hfloor⟩
  have hlast : ¬(now = 0 ∨ b.last ≠ 0 ∧ now < b.last) := by
    rw [h.last]
    cases hl : taken.getLast? with
    | none => simpa using hpos.ne'
    | some t =>
        have ht := hwait t (mem_of_getLast? hl)
        simp only [Option.getD_some]
        omega
  have hnext : next b now = earliest taken now := h.next_eq
  have hspaced : ∀ t ∈ taken, t + second ≤ earliest taken now := fun t ht => h.spaced_earliest ht
  have hle := le_earliest taken now
  obtain ⟨cut, hcut, hkept⟩ := h.kept
  have hcut := hcut.trans (earliest_mono taken hfloor)
  have hsecond : (0 : Int) < second := by decide
  unfold reserve
  rw [if_neg hlast]
  generalize hearliest : earliest taken now = start at *
  rw [hnext, book]
  have hpruned : (b.starts.filter fun t => decide (start - minute < t))
      = taken.filter fun t => decide (start - minute < t) := by
    rw [hkept, filter_filter]
    refine filter_congr fun t _ => ?_
    rw [← Bool.decide_and]
    exact decide_eq_decide.mpr ⟨And.left, fun ht => ⟨ht, by omega⟩⟩
  dsimp only
  split
  · next hfull =>
      rw [hpruned, ← countP_eq_length_filter] at hfull
      refine ⟨?_, fun _ => ?_⟩
      · simp only [Call.start, Option.map_none, Option.getD_none, max_self, Option.toList_none,
          append_nil]
        exact ⟨h.spaced, h.few, hwait, h.last, start, hearliest.ge, hpruned⟩
      · refine Eq.trans (countP_congr fun t ht => ?_) hfull
        have := hspaced t ht
        simp only [decide_eq_true_eq]
        omega
  · next hroom =>
      refine ⟨?_, fun hnone => by cases hnone⟩
      simp only [Call.start, Option.map_some, Option.getD_some, Option.toList_some,
        add_sub_cancel, max_eq_right hle]
      have hbound := b.bounded
      rw [hpruned, ← countP_eq_length_filter] at hroom
      have hroom : (taken.countP fun t => decide (start - minute < t)) < 8 := by
        have hlen := length_filter_le (fun t => decide (start - minute < t)) b.starts
        rw [hpruned, ← countP_eq_length_filter] at hlen
        omega
      refine ⟨?_, few_concat h.few hroom, ?_, by simp, start, ?_, ?_⟩
      · refine pairwise_append.mpr ⟨h.spaced, pairwise_singleton .., fun t ht u hu => ?_⟩
        exact mem_singleton.mp hu ▸ hspaced t ht
      · intro t ht
        rcases mem_append.mp ht with ht | ht
        · exact ⟨(hwait t ht).1, (hwait t ht).2.trans hle⟩
        · rw [mem_singleton.mp ht]
          exact ⟨hpos.trans_le hle, le_rfl⟩
      · exact le_earliest ..
      · change _ ++ [start] = _
        rw [hpruned, filter_append]
        simp [minute]

/-! ## Runs -/

theorem empty_booked : Booked empty 0 [] where
  spaced := .nil
  few := fun _ => Nat.zero_le 8
  waited := fun _ ht => absurd ht not_mem_nil
  last := rfl
  kept := ⟨0, le_rfl, rfl⟩

/-- The calls `cs` after the starts `taken`: no two starts within a second, no nine in a minute,
and no refusal but for eight in the minute that ends when the call could start. -/
structure Cadence (taken : List Int) (cs : List Call) : Prop where
  spaced : (taken ++ granted cs).Pairwise fun s t => s + second ≤ t
  few : ∀ x, ((taken ++ granted cs).countP fun t => decide (x ≤ t ∧ t < x + minute)) ≤ 8
  refused : ∀ before c after, cs = before ++ c :: after → c.delay = none →
    ((taken ++ granted before).countP fun t =>
      decide (earliest (taken ++ granted before) c.now - minute < t
        ∧ t ≤ earliest (taken ++ granted before) c.now)) = 8

theorem granted_cons (c : Call) (cs : List Call) :
    granted (c :: cs) = c.start.toList ++ granted cs := by
  unfold granted
  cases hc : c.start with
  | none => exact filterMap_cons_none hc
  | some t => exact filterMap_cons_some hc

theorem Booked.cadence (h : Booked b floor taken) {nows : List Int} (hclock : ∀ now ∈ nows, 0 < now)
    (hpaced : Paced floor (calls b nows)) : Cadence taken (calls b nows) := by
  induction nows generalizing b floor taken with
  | nil =>
      refine ⟨(append_nil taken).symm ▸ h.spaced, (append_nil taken).symm ▸ h.few, ?_⟩
      rintro (_ | _) _ _ ⟨⟩
  | cons now nows ih =>
      rw [forall_mem_cons] at hclock
      obtain ⟨hfloor, hpaced⟩ := hpaced
      obtain ⟨hbooked, hrefused⟩ := h.call hfloor hclock.1
      have hrest := ih hbooked hclock.2 hpaced
      rw [calls]
      refine ⟨?_, fun x => ?_, ?_⟩
      · rw [granted_cons, ← append_assoc]
        exact hrest.spaced
      · rw [granted_cons, ← append_assoc]
        exact hrest.few x
      · rintro (_ | ⟨first, before⟩) c after heq hnone
        · obtain ⟨rfl, -⟩ := cons.inj heq
          rw [granted, filterMap_nil, append_nil]
          exact hrefused hnone
        · obtain ⟨rfl, hafter⟩ := cons.inj heq
          rw [granted_cons, ← append_assoc]
          exact hrest.refused before c after hafter hnone

/-- **The cadence.** Calls at times after the zero `time.Time`, none before a start that an
earlier call was granted. -/
theorem rollover_cadence (nows : List Int) (hclock : ∀ now ∈ nows, 0 < now)
    (hpaced : Paced 0 (calls empty nows)) : Cadence [] (calls empty nows) :=
  empty_booked.cadence hclock hpaced

/-- Two calls in one second: the second start is booked ahead. -/
theorem rollover_cadence_ahead : (calls empty [1, 1, second + 1]).map (·.delay)
      = [some 0, some second, some second]
    ∧ Cadence [] (calls empty [1, 1, second + 1]) :=
  ⟨by decide, rollover_cadence _ (by decide) ⟨by decide, by decide, by decide, trivial⟩⟩

/-- The zero `time.Time` is refused at once. -/
theorem zero_clock_refused : Paced 0 (calls empty [0]) ∧ ¬Cadence [] (calls empty [0]) := by
  refine ⟨⟨le_rfl, trivial⟩, fun h => ?_⟩
  exact absurd (h.refused [] _ [] rfl rfl) (by decide)

end RolloverBudget

end Packager

end WebrtcMinimize
