import Mathlib.Algebra.BigOperators.Group.Finset.Basic
import Mathlib.Algebra.Order.BigOperators.Group.Finset
import Mathlib.Algebra.Order.Ring.Int
import Mathlib.Data.Finset.Dedup

/-!
# The decode budget

`sourceDecodeBudget` counts the codec processes and their bytes; a charge is shared by the
handles that `retain` makes of a reservation, and ends with the last one released. Every
operation holds its locks to its end, so it is one step; `Run` of a `sourcePendingDecoder` is
three, with anything in between: it claims, checks, and goes on when `start` returns.
-/

namespace WebrtcMinimize

namespace Packager

namespace DecodeBudget

open Function Finset Nat
open List hiding sum_nonneg

structure sourceDecodeBudget where
  maxProcesses : Int
  processes : Int
  maxBytes : Int
  bytes : Int
  closed : Bool

structure sourceDecodeReservation where
  bytes : Int
  released : Bool
  charge : Nat

/-- The budget and the objects its handles point to: `refs` of the `charges` made so far. -/
structure Ledger where
  budget : sourceDecodeBudget
  reservations : List sourceDecodeReservation
  charges : Nat
  refs : Nat → Int

def newSourceDecodeBudget (processes bytes : Int) : Option sourceDecodeBudget :=
  if processes < 1 ∨ 80 < processes ∨ bytes < 1 ∨ 2 * 1024 * 1024 * 1024 < bytes then none
  else some ⟨processes, 0, bytes, 0, false⟩

def reserve (l : Ledger) (bytes : Int) : Option Nat × Ledger :=
  let b := l.budget
  if b.closed ∨ bytes < 1 ∨ b.maxBytes - b.bytes < bytes ∨ b.maxProcesses ≤ b.processes then
    (none, l)
  else (some l.reservations.length,
    ⟨{ b with processes := b.processes + 1, bytes := b.bytes + bytes },
      l.reservations ++ [⟨bytes, false, l.charges⟩], l.charges + 1,
      update l.refs l.charges 1⟩)

def release (l : Ledger) (h : Nat) : Ledger :=
  match l.reservations[h]? with
  | none => l
  | some r =>
      if r.released then l
      else
        let b := l.budget
        let refs := update l.refs r.charge (l.refs r.charge - 1)
        ⟨if refs r.charge = 0 then
            { b with processes := b.processes - 1, bytes := b.bytes - r.bytes } else b,
          l.reservations.set h { r with released := true }, l.charges, refs⟩

def retain (l : Ledger) (h : Nat) : Option Nat × Ledger :=
  match l.reservations[h]? with
  | none => (none, l)
  | some r =>
      if r.released ∨ 2 ≤ l.refs r.charge then (none, l)
      else (some l.reservations.length, { l with
          reservations := l.reservations ++ [⟨r.bytes, false, r.charge⟩]
          refs := update l.refs r.charge (l.refs r.charge + 1) })

/-! ## Accounts -/

/-- The unreleased handles of the charge. -/
def handles (rs : List sourceDecodeReservation) (c : Nat) : Nat :=
  rs.countP fun r => !r.released && r.charge = c

/-- The charges that have an unreleased handle. -/
def live (rs : List sourceDecodeReservation) : Finset Nat :=
  ((rs.filter fun r => !r.released).map (·.charge)).toFinset

/-- The budget counts the live charges; `size` is what the handles of a charge stand for. -/
structure Accounted (l : Ledger) (size : Nat → Int) : Prop where
  sizes : ∀ r ∈ l.reservations, r.bytes = size r.charge ∧ 1 ≤ r.bytes ∧ r.charge < l.charges
  refs : ∀ c, l.refs c = handles l.reservations c
  processes : l.budget.processes = (live l.reservations).card
  bytes : l.budget.bytes = ∑ c ∈ live l.reservations, size c
  fits : l.budget.processes ≤ l.budget.maxProcesses ∧ l.budget.bytes ≤ l.budget.maxBytes

variable {l : Ledger} {rs : List sourceDecodeReservation} {r : sourceDecodeReservation}
  {size : Nat → Int} {h c : Nat}

theorem mem_live : c ∈ live rs ↔ ∃ r ∈ rs, r.released = false ∧ r.charge = c := by
  simp [live, and_assoc]

theorem mem_live_iff : c ∈ live rs ↔ 0 < handles rs c := by
  simp [mem_live, handles, countP_pos_iff]

theorem handles_concat (rs : List sourceDecodeReservation) (hopen : r.released = false) (c : Nat) :
    handles (rs ++ [r]) c = handles rs c + if r.charge = c then 1 else 0 := by
  rw [handles, countP_append, countP_singleton]
  simp [handles, hopen]

theorem handles_set (hget : rs[h]? = some r) (hopen : r.released = false) (c : Nat) :
    handles rs c = handles (rs.set h { r with released := true }) c
      + if r.charge = c then 1 else 0 := by
  obtain ⟨hlt, rfl⟩ := List.getElem?_eq_some_iff.mp hget
  have hr := getElem_mem hlt
  unfold handles
  rw [countP_set hlt]
  simp only [hopen, Bool.not_true, Bool.not_false, Bool.true_and, Bool.false_and, decide_eq_true_eq,
    Bool.false_eq_true, if_false, add_zero]
  split
  · next heq =>
      refine (Nat.sub_add_cancel (countP_pos_iff.mpr ⟨_, hr, ?_⟩)).symm
      simp [hopen, heq]
  · rfl

theorem Accounted.lt (a : Accounted l size) (hc : c ∈ live l.reservations) :
    1 ≤ size c ∧ c < l.charges := by
  obtain ⟨r, hr, -, rfl⟩ := mem_live.mp hc
  obtain ⟨hsize, hpos, hlt⟩ := a.sizes r hr
  exact ⟨hsize ▸ hpos, hlt⟩

theorem Accounted.nonneg (a : Accounted l size) : 0 ≤ l.budget.processes ∧ 0 ≤ l.budget.bytes := by
  refine ⟨a.processes ▸ Int.natCast_nonneg _, a.bytes ▸ sum_nonneg fun c hc => ?_⟩
  exact Int.le_of_lt (a.lt hc).1

theorem Accounted.reserve (a : Accounted l size) (bytes : Int) :
    ∃ size, Accounted (reserve l bytes).2 size := by
  unfold DecodeBudget.reserve
  dsimp only
  split
  · exact ⟨size, a⟩
  · next hroom =>
      have hne : ∀ {c}, c < l.charges → c ≠ l.charges := fun hc => Nat.ne_of_lt hc
      have hnew : l.charges ∉ live l.reservations := fun hc => lt_irrefl _ (a.lt hc).2
      have hhandles := handles_concat (r := ⟨bytes, false, l.charges⟩) l.reservations rfl
      have hlive : live (l.reservations ++ [⟨bytes, false, l.charges⟩])
          = insert l.charges (live l.reservations) := by
        ext c
        rw [mem_insert, mem_live_iff, mem_live_iff, hhandles]
        dsimp only
        split <;> omega
      have hzero : handles l.reservations l.charges = 0 :=
        Nat.eq_zero_of_not_pos (mt mem_live_iff.mpr hnew)
      refine ⟨update size l.charges bytes, ?_, fun c => ?_, ?_, ?_, ?_⟩
      · intro r hr
        rcases mem_append.mp hr with hr | hr
        · obtain ⟨hsize, hpos, hlt⟩ := a.sizes r hr
          exact ⟨by rwa [update_of_ne (hne hlt)], hpos, lt_succ_of_lt hlt⟩
        · rw [List.mem_singleton.mp hr]
          refine ⟨(update_self _ _ size).symm, ?_, lt_succ_self _⟩
          dsimp only
          omega
      · dsimp only
        rw [hhandles, update_apply]
        split
        · next heq => simp [heq, hzero]
        · next hother => simp [Ne.symm hother, a.refs c]
      · rw [hlive, card_insert_of_notMem hnew]
        simp [a.processes]
      · dsimp only
        rw [hlive, sum_insert hnew, update_self, a.bytes, add_comm bytes]
        refine congrArg (· + bytes) (sum_congr rfl fun c hc => ?_)
        exact (update_of_ne (hne (a.lt hc).2) ..).symm
      · dsimp only
        omega

theorem Accounted.retain (a : Accounted l size) (h : Nat) : Accounted (retain l h).2 size := by
  unfold DecodeBudget.retain
  split
  · exact a
  · next r hget =>
      have hr := mem_of_getElem? hget
      split
      · exact a
      · next hopen =>
          have hopen := Bool.eq_false_of_not_eq_true (not_or.mp hopen).1
          have hhandles := handles_concat (r := ⟨r.bytes, false, r.charge⟩) l.reservations rfl
          have hmem := mem_live.mpr ⟨r, hr, hopen, rfl⟩
          have hlive : live (l.reservations ++ [⟨r.bytes, false, r.charge⟩])
              = live l.reservations := by
            ext c
            rw [mem_live_iff, mem_live_iff, hhandles]
            split
            · next heq => exact iff_of_true (succ_pos _) (mem_live_iff.mp (heq ▸ hmem))
            · exact Iff.rfl
          refine ⟨?_, fun c => ?_, hlive ▸ a.processes, hlive ▸ a.bytes, a.fits⟩
          · intro r' hr'
            rcases mem_append.mp hr' with hr' | hr'
            · exact a.sizes r' hr'
            · rw [List.mem_singleton.mp hr']
              exact a.sizes r hr
          · dsimp only
            rw [hhandles, update_apply]
            split
            · next heq => simp [heq, a.refs]
            · next hother => simp [Ne.symm hother, a.refs c]

theorem Accounted.release (a : Accounted l size) (h : Nat) : Accounted (release l h) size := by
  unfold DecodeBudget.release
  split
  · exact a
  · next r hget =>
      have hr := mem_of_getElem? hget
      split
      · exact a
      · next hopen =>
          have hopen := Bool.eq_false_of_not_eq_true hopen
          have hhandles := handles_set hget hopen
          have hmem := mem_live.mpr ⟨r, hr, hopen, rfl⟩
          have hrefs := a.refs r.charge
          have hself := hhandles r.charge
          rw [if_pos rfl] at hself
          have hlive : live (l.reservations.set h { r with released := true })
              = if l.refs r.charge - 1 = 0 then (live l.reservations).erase r.charge
                else live l.reservations := by
            ext c
            split <;>
            · simp only [mem_erase, mem_live_iff, hhandles c]
              split
              · next heq =>
                  subst heq
                  omega
              · next hother => simp [Ne.symm hother]
          have hsize := a.sizes r hr
          have hfits := a.fits
          refine ⟨?_, fun c => ?_, ?_, ?_, ?_⟩
          · intro r' hr'
            rcases mem_or_eq_of_mem_set hr' with hr' | rfl
            · exact a.sizes r' hr'
            · exact a.sizes r hr
          · have hcount := hhandles c
            have := a.refs c
            dsimp only
            rw [update_apply]
            split
            · next heq =>
                subst heq
                omega
            · next hother =>
                rw [if_neg (Ne.symm hother)] at hcount
                omega
          all_goals
            dsimp only
            rw [update_self]
          · rw [hlive]
            split
            · rw [card_erase_of_mem hmem, cast_sub (card_pos.mpr ⟨_, hmem⟩)]
              simp [a.processes]
            · exact a.processes
          · rw [hlive]
            split
            · have hsum := sum_erase_add _ size hmem
              dsimp only
              rw [a.bytes, hsize.1]
              omega
            · exact a.bytes
          · split
            · dsimp only
              omega
            · exact hfits

/-! ## Pending decoders -/

/-- The decoder has a reservation until `Run` or `Close` claims it, and then what `Run` holds. -/
inductive sourcePendingDecoder
  | unclaimed (reservation : Nat)
  | claimed (held : Option Nat)

/-- A call of `Run` that claimed its decoder. -/
inductive Running
  | retained (child : Option Nat)
  | starting (child : Nat)
  | ended

/-- `given` are the handles of the started decoders, whose reapers release them, and those of
other callers. -/
structure World where
  ledger : Ledger
  decoders : List sourcePendingDecoder
  running : List Running
  given : List Nat

inductive Event
  | reserve (bytes : Int)
  | retain (h : Nat)
  | release (h : Nat)
  | newSourcePendingDecoder (bytes : Int) (allowed : Bool)
  | run (d : Nat)
  | check (k : Nat) (allowed : Bool)
  | returned (k : Nat) (ok : Bool)
  | closeDecoder (d : Nat)
  | close

def World.step (w : World) : Event → World
  | .reserve bytes =>
      let (handle, ledger) := reserve w.ledger bytes
      { w with ledger, given := w.given ++ handle.toList }
  | .retain h =>
      let (handle, ledger) := retain w.ledger h
      { w with ledger, given := w.given ++ handle.toList }
  | .release h => { w with ledger := release w.ledger h }
  | .newSourcePendingDecoder bytes allowed =>
      if allowed then
        let (handle, ledger) := reserve w.ledger bytes
        { w with ledger, decoders := w.decoders ++ handle.toList.map .unclaimed }
      else w
  | .run d =>
      match w.decoders[d]? with
      | some (.unclaimed r) =>
          let (child, ledger) := retain w.ledger r
          { w with
            ledger
            decoders := w.decoders.set d (.claimed (some r))
            running := w.running ++ [.retained child] }
      | _ => w
  | .check k allowed =>
      match w.running[k]? with
      | some (.retained none) => { w with running := w.running.set k .ended }
      | some (.retained (some child)) =>
          if w.ledger.budget.closed = false ∧ allowed then
            { w with running := w.running.set k (.starting child) }
          else { w with
            ledger := release w.ledger child
            running := w.running.set k .ended }
      | _ => w
  | .returned k ok =>
      match w.running[k]? with
      | some (.starting child) =>
          if ok then { w with running := w.running.set k .ended, given := w.given ++ [child] }
          else { w with
            ledger := release w.ledger child
            running := w.running.set k .ended }
      | _ => w
  | .closeDecoder d =>
      match w.decoders[d]? with
      | some (.unclaimed r) => { w with
          ledger := release w.ledger r
          decoders := w.decoders.set d (.claimed none) }
      | some (.claimed (some r)) => { w with
          ledger := release w.ledger r
          decoders := w.decoders.set d (.claimed none) }
      | _ => w
  | .close => { w with ledger.budget.closed := true }

def World.init (b : sourceDecodeBudget) : World := ⟨⟨b, [], 0, fun _ => 0⟩, [], [], []⟩

def sourcePendingDecoder.handle : sourcePendingDecoder → Option Nat
  | .unclaimed r => some r
  | .claimed held => held

def Running.handle : Running → Option Nat
  | .retained child => child
  | .starting child => some child
  | .ended => none

/-- The handles something still answers for. -/
def World.holders (w : World) : List Nat :=
  w.given ++ w.decoders.filterMap sourcePendingDecoder.handle ++ w.running.filterMap Running.handle

def Live (l : Ledger) (h : Nat) : Prop := ∃ r, l.reservations[h]? = some r ∧ r.released = false

/-- Every unreleased handle is with its decoder, its call or the one it was given to. -/
def World.Tracked (w : World) : Prop := ∀ h, Live w.ledger h → h ∈ w.holders

/-- Every pending decoder is closed, every `Run` is over, and what was given is released. -/
def World.Settled (w : World) : Prop :=
  (∀ d ∈ w.decoders, d = .claimed none) ∧ (∀ k ∈ w.running, k = .ended)
    ∧ ∀ h ∈ w.given, ¬Live w.ledger h

/-- The counts are those of the live charges and within the limits. -/
structure Conserved (w : World) (size : Nat → Int) : Prop where
  sizes : ∀ r ∈ w.ledger.reservations, r.bytes = size r.charge
  processes : w.ledger.budget.processes = (live w.ledger.reservations).card
  bytes : w.ledger.budget.bytes = ∑ c ∈ live w.ledger.reservations, size c
  nonneg : 0 ≤ w.ledger.budget.processes ∧ 0 ≤ w.ledger.budget.bytes
  fits : w.ledger.budget.processes ≤ w.ledger.budget.maxProcesses
    ∧ w.ledger.budget.bytes ≤ w.ledger.budget.maxBytes
  settled : w.Settled → w.ledger.budget.processes = 0 ∧ w.ledger.budget.bytes = 0

/-! ## Whose handle it is -/

theorem live_concat {l' : Ledger} (hl : l'.reservations = l.reservations ++ [r])
    (hlive : Live l' h) : Live l h ∨ some l.reservations.length = some h := by
  obtain ⟨r', hget, hopen⟩ := hlive
  rw [hl] at hget
  obtain hlt | hge := lt_or_ge h l.reservations.length
  · exact .inl ⟨r', by rwa [getElem?_append_left hlt] at hget, hopen⟩
  · have hlen := (List.getElem?_eq_some_iff.mp hget).1
    rw [length_append, length_singleton] at hlen
    exact .inr (congrArg some (by omega))

theorem live_reserve {bytes : Int} (hlive : Live (reserve l bytes).2 h) :
    Live l h ∨ (reserve l bytes).1 = some h := by
  unfold reserve at *
  dsimp only at *
  split at hlive
  · exact .inl hlive
  · next hroom =>
      rw [if_neg hroom]
      exact live_concat rfl hlive

theorem live_retain {k : Nat} (hlive : Live (retain l k).2 h) :
    Live l h ∨ (retain l k).1 = some h := by
  unfold retain at *
  cases hget : l.reservations[k]? with
  | none =>
      rw [hget] at hlive
      exact .inl hlive
  | some r =>
      rw [hget] at hlive
      dsimp only at *
      split at hlive
      · exact .inl hlive
      · next hopen =>
          rw [if_neg hopen]
          exact live_concat rfl hlive

theorem live_release {k : Nat} (hlive : Live (release l k) h) : Live l h ∧ h ≠ k := by
  unfold release at hlive
  split at hlive
  · next hnone =>
      refine ⟨hlive, fun heq => ?_⟩
      obtain ⟨r, hget, -⟩ := hlive
      simp [heq, hnone] at hget
  · next r hget =>
      split at hlive
      · next hreleased =>
          refine ⟨hlive, fun heq => ?_⟩
          obtain ⟨r', hget', hopen⟩ := hlive
          rw [heq, hget] at hget'
          cases hget'
          exact Bool.false_ne_true (hopen.symm.trans hreleased)
      · obtain ⟨r', hget', hopen⟩ := hlive
        have hne : h ≠ k := by
          rintro rfl
          rw [List.getElem?_set_self (List.getElem?_eq_some_iff.mp hget).1] at hget'
          cases hget'
          cases hopen
        exact ⟨⟨r', (getElem?_set_ne hne.symm).symm.trans hget', hopen⟩, hne⟩

/-- A list with one entry replaced has the handle of the new one, and those of the old list but
for that of the old one. -/
theorem mem_filterMap_set {α : Type} (f : α → Option Nat) {xs : List α} {k : Nat} {x : α} (y : α)
    (hget : xs[k]? = some x) (h : Nat) : (f y = some h → h ∈ (xs.set k y).filterMap f)
      ∧ (h ∈ xs.filterMap f → f x = some h ∨ h ∈ (xs.set k y).filterMap f) := by
  have hk := (List.getElem?_eq_some_iff.mp hget).1
  refine ⟨fun hf => List.mem_filterMap.mpr ⟨y, List.mem_set hk y, hf⟩, fun hh => ?_⟩
  obtain ⟨a, ha, hf⟩ := List.mem_filterMap.mp hh
  obtain ⟨j, hj⟩ := List.mem_iff_getElem?.mp ha
  by_cases hjk : k = j
  · subst hjk
    rw [hget] at hj
    cases hj
    exact .inl hf
  · refine .inr (List.mem_filterMap.mpr ⟨a, List.mem_iff_getElem?.mpr ⟨j, ?_⟩, hf⟩)
    exact (List.getElem?_set_ne hjk).trans hj

theorem World.Tracked.step {w : World} (ht : w.Tracked) (e : Event) : (w.step e).Tracked := by
  intro h hl
  have hold := ht h
  cases e <;> simp only [World.step, World.holders, mem_append] at hl hold ⊢
  case reserve bytes =>
    have := live_reserve hl
    grind
  case retain k =>
    have := live_retain hl
    grind
  case release k => exact hold (live_release hl).1
  case newSourcePendingDecoder bytes allowed =>
    cases allowed with
    | false => exact hold hl
    | true =>
        have := live_reserve hl
        grind [sourcePendingDecoder.handle]
  case run d =>
    split at hl
    · next r hget =>
        have := live_retain hl
        have := mem_filterMap_set sourcePendingDecoder.handle (.claimed (some r)) hget h
        grind [sourcePendingDecoder.handle, Running.handle]
    · exact hold hl
  case check k allowed =>
    split at hl
    · next hget =>
        have := mem_filterMap_set Running.handle .ended hget h
        grind [Running.handle]
    · next child hget =>
        split at hl
        · have := mem_filterMap_set Running.handle (.starting child) hget h
          grind [Running.handle]
        · have := live_release hl
          have := mem_filterMap_set Running.handle .ended hget h
          grind [Running.handle]
    · exact hold hl
  case returned k ok =>
    split at hl
    · next child hget =>
        have := mem_filterMap_set Running.handle .ended hget h
        cases ok with
        | false =>
            have := live_release hl
            grind [Running.handle]
        | true => grind [Running.handle]
    · exact hold hl
  case closeDecoder d =>
    split at hl
    · next r hget =>
        have := live_release hl
        have := mem_filterMap_set sourcePendingDecoder.handle (.claimed none) hget h
        grind [sourcePendingDecoder.handle]
    · next r hget =>
        have := live_release hl
        have := mem_filterMap_set sourcePendingDecoder.handle (.claimed none) hget h
        grind [sourcePendingDecoder.handle]
    · exact hold hl
  case close => exact hold hl

theorem accounted_step {w : World} (ha : ∃ size, Accounted w.ledger size) (e : Event) :
    ∃ size, Accounted (w.step e).ledger size := by
  obtain ⟨size, ha⟩ := ha
  unfold World.step
  split
  · exact ha.reserve _
  · exact ⟨size, ha.retain _⟩
  · exact ⟨size, ha.release _⟩
  · split
    · exact ha.reserve _
    · exact ⟨size, ha⟩
  · split
    · exact ⟨size, ha.retain _⟩
    · exact ⟨size, ha⟩
  · split
    · exact ⟨size, ha⟩
    · split
      · exact ⟨size, ha⟩
      · exact ⟨size, ha.release _⟩
    · exact ⟨size, ha⟩
  · split
    · split
      · exact ⟨size, ha⟩
      · exact ⟨size, ha.release _⟩
    · exact ⟨size, ha⟩
  · split
    · exact ⟨size, ha.release _⟩
    · exact ⟨size, ha.release _⟩
    · exact ⟨size, ha⟩
  · exact ⟨size, ha.sizes, ha.refs, ha.processes, ha.bytes, ha.fits⟩

theorem conserved_of {w : World} (ha : Accounted w.ledger size) (ht : w.Tracked) :
    Conserved w size where
  sizes := fun r hr => (ha.sizes r hr).1
  processes := ha.processes
  bytes := ha.bytes
  nonneg := ha.nonneg
  fits := ha.fits
  settled := by
    rintro ⟨hdecoders, hrunning, hgiven⟩
    have hnone : live w.ledger.reservations = ∅ := by
      refine eq_empty_of_forall_notMem fun c hc => ?_
      obtain ⟨r, hr, hopen, -⟩ := mem_live.mp hc
      obtain ⟨h, hget⟩ := mem_iff_getElem?.mp hr
      have hlive : Live w.ledger h := ⟨r, hget, hopen⟩
      have hin := ht h hlive
      rw [World.holders, mem_append, mem_append] at hin
      rcases hin with (hin | hin) | hin
      · exact hgiven h hin hlive
      · obtain ⟨d, hd, hin⟩ := mem_filterMap.mp hin
        rw [hdecoders d hd] at hin
        cases hin
      · obtain ⟨k, hk, hin⟩ := mem_filterMap.mp hin
        rw [hrunning k hk] at hin
        cases hin
    rw [ha.processes, ha.bytes, hnone]
    exact ⟨rfl, rfl⟩

theorem init_accounted {processes bytes : Int} {b : sourceDecodeBudget}
    (hnew : newSourceDecodeBudget processes bytes = some b) : Accounted (World.init b).ledger 0 := by
  unfold newSourceDecodeBudget at hnew
  split at hnew
  · cases hnew
  · next hvalid =>
      cases hnew
      refine ⟨fun r hr => absurd hr not_mem_nil, fun _ => rfl, rfl, rfl, ?_⟩
      dsimp only [World.init]
      omega

/-- **The budget is conserved** in every interleaving. -/
theorem budget_conserved {processes bytes : Int} {b : sourceDecodeBudget}
    (hnew : newSourceDecodeBudget processes bytes = some b) (events : List Event) :
    ∃ size, Conserved (events.foldl World.step (.init b)) size := by
  have hinv : ∀ {w : World}, (∃ size, Accounted w.ledger size) → w.Tracked →
      ∃ size, Conserved (events.foldl World.step w) size := by
    induction events with
    | nil => exact fun ⟨size, ha⟩ ht => ⟨size, conserved_of ha ht⟩
    | cons e events ih => exact fun ha ht => ih (accounted_step ha e) (ht.step e)
  exact hinv ⟨0, init_accounted hnew⟩ fun h ⟨r, hget, _⟩ => by cases hget

/-- A decoder is started and closed: its process counts until it is reaped. -/
theorem budget_conserved_started : newSourceDecodeBudget 1 10 = some ⟨1, 0, 10, 0, false⟩
      ∧ ∃ size, Conserved ([.newSourcePendingDecoder 7 true, .run 0, .check 0 true,
        .returned 0 true, .closeDecoder 0, .release 1].foldl World.step
          (.init ⟨1, 0, 10, 0, false⟩)) size :=
  ⟨rfl, @budget_conserved 1 10 _ rfl _⟩

end DecodeBudget

end Packager

end WebrtcMinimize
