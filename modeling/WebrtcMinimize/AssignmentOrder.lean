import WebrtcMinimize.AssignmentStatus

/-!
# Status messages in order

`Orderly` is the condition: the assignment is not removed in state `failed`,
and without a source program no change is made while an earlier one is still
to be sent. Then what is sent is always a prefix of what has changed.

`StatusOK` splits what is still to be sent into the status of a state that
can be left (`early`) and the last one (`late`): there is at most one of
each, and what sends the last one has seen to it that nothing else is on its
way.
-/

namespace WebrtcMinimize

namespace Packager

open Runs StatusCall List Option Nat

namespace StatusCall

open StatusLine

/-- A status still to be sent, of a state that can be left. -/
def early : StatusCall → Option AssignmentStatus
  | .send x _ => if x.state.terminal then none else some x
  | .sendHeld x _ => if x.state.terminal then none else some x
  | _ => none

/-- A last status still to be sent. -/
def late : StatusCall → Option AssignmentStatus
  | .send x _ => if x.state.terminal then some x else none
  | .sendHeld x _ => if x.state.terminal then some x else none
  | .failing reasonCode => some ⟨.failed, reasonCode⟩
  | .removed x => some x
  | _ => none

/-- The goroutine has `statusMu`. -/
def holds : StatusCall → Bool
  | .loop _ _ => true
  | .sendHeld _ _ => true
  | _ => false

/-- The goroutine can be here. -/
def Fits (sourceProgram : Bool) : StatusCall → Prop
  | .send x _ => sourceProgram = true → x.state.terminal = true
  | .loop _ _ => sourceProgram = true
  | .sendHeld _ _ => sourceProgram = true
  | .failing _ => sourceProgram = true
  | .removed x => x.state.terminal = true
  | _ => True

/-- The goroutine is sending a last status, or will not wait before it does. -/
def Ending (sourceProgram : Bool) : StatusCall → Prop
  | .send x _ => x.state.terminal = true
  | .sendHeld x _ => x.state.terminal = true
  | .removed _ => sourceProgram = false
  | _ => False

end StatusCall

namespace StatusLine

def early (s : StatusLine) : List AssignmentStatus :=
  s.calls.filterMap StatusCall.early

def late (s : StatusLine) : List AssignmentStatus :=
  s.calls.filterMap StatusCall.late

structure StatusOK (s : StatusLine) : Prop where
  held : s.calls.countP holds = if s.statusMu then 1 else 0
  early_le : s.early.length ≤ 1
  late_le : s.late.length ≤ 1
  log : s.broken = false → s.changes = s.sent ++ s.early ++ s.late
  prefixed : s.sent <+: s.changes
  ended : s.late ≠ [] → s.state.terminal = true
  before : s.state.terminal = false → ∀ x ∈ s.changes, x.state.terminal = false
  final : s.state.terminal = true →
    ∃ xs x, s.changes = xs ++ [x] ∧ ∀ y ∈ xs, y.state.terminal = false
  stopped : s.state = .stopped → s.current = false
  ending : ∀ c ∈ s.calls, c.Ending s.sourceProgram → s.early = []
  failing : ∀ reasonCode, failing reasonCode ∈ s.calls →
    s.current = true ∧ s.state = .failed
  fits : ∀ c ∈ s.calls, c.Fits s.sourceProgram

/-- The condition under which the messages are in order. -/
def Orderly (s : StatusLine) : StatusEvent → Prop
  | .stop | .expire | .health .draining =>
      s.current = true → s.state ≠ .failed ∧ (s.sourceProgram = false → s.pending = [])
  | .resume i _ _ =>
      ∀ state reasonCode, s.calls[i]? = some (.transition state reasonCode) →
        s.sourceProgram = false → s.current = true →
        (s.state = .ready ∧ state = .running ∨ allowedAssignmentTransition s.state state = true) →
        s.pending = []
  | _ => True

theorem prepared_ok (sourceProgram : Bool) : StatusOK (prepared sourceProgram) where
  held := rfl
  early_le := zero_le _
  late_le := zero_le _
  log := fun _ => rfl
  prefixed := prefix_refl _
  ended := fun h => absurd rfl h
  before := fun _ x hx => by cases hx
  final := fun h => by cases h
  stopped := fun h => by cases h
  ending := fun c hc => by cases hc
  failing := fun _ hc => by cases hc
  fits := fun c hc => by cases hc

/-! ## One goroutine among the others -/

theorem exists_split {cs : List StatusCall} {i : Nat} {c : StatusCall} (h : cs[i]? = some c) :
    ∃ l r, cs = l ++ c :: r ∧ ∀ c', cs.set i c' = l ++ c' :: r := by
  obtain ⟨hlt, hc⟩ := List.getElem?_eq_some_iff.mp h
  refine ⟨cs.take i, cs.drop (i + 1), ?_, fun c' => ?_⟩
  · rw [← hc, getElem_cons_drop, take_append_drop]
  · exact set_eq_take_append_cons_drop.trans (if_pos hlt)

variable {s : StatusLine} {l r : List StatusCall} {c : StatusCall}

theorem StatusOK.late_nil (hok : StatusOK s) (hstate : s.state.terminal = false) : s.late = [] := by
  by_contra hlate
  have := hok.ended hlate
  rw [hstate] at this
  cases this

theorem early_split (hs : s.calls = l ++ c :: r) :
    s.early = l.filterMap StatusCall.early ++ c.early.toList ++ r.filterMap StatusCall.early := by
  rw [early, hs, filterMap_append]
  cases hc : c.early <;> simp [hc]

theorem late_split (hs : s.calls = l ++ c :: r) :
    s.late = l.filterMap StatusCall.late ++ c.late.toList ++ r.filterMap StatusCall.late := by
  rw [late, hs, filterMap_append]
  cases hc : c.late <;> simp [hc]

theorem alone {xs ys : List AssignmentStatus} {x : AssignmentStatus}
    (h : (xs ++ [x] ++ ys).length ≤ 1) : xs = [] ∧ ys = [] := by
  simp only [length_append, length_singleton] at h
  exact ⟨length_eq_zero_iff.mp (by omega), length_eq_zero_iff.mp (by omega)⟩

theorem held_split (l r : List StatusCall) (c : StatusCall) : (l ++ c :: r).countP holds
      = l.countP holds + r.countP holds + c.holds.toNat := by
  rw [countP_append, countP_cons]
  cases c.holds
  · simp
  · simp
    omega

/-- Only one goroutine has `statusMu`, so no other has an early status to
send with it. -/
theorem early_nil_of_held {cs : List StatusCall} (hfits : ∀ c ∈ cs, c.Fits true)
    (hheld : cs.countP StatusCall.holds = 0) : cs.filterMap StatusCall.early = [] := by
  refine filterMap_eq_nil_iff.mpr fun c hc => ?_
  have hnot : c.holds = false := by
    simpa using countP_eq_zero.mp hheld c hc
  have hfit := hfits c hc
  cases c with
  | send x next => exact if_pos (hfit rfl)
  | sendHeld x next => cases hnot
  | _ => rfl

theorem early_of_ending {b : Bool} {c : StatusCall} (h : c.Ending b) : c.early = none := by
  cases c with
  | send x next => exact if_pos h
  | sendHeld x next => exact if_pos h
  | removed x => rfl
  | _ => cases h

theorem mem_late_of_ending {b : Bool} {s : StatusLine} {c : StatusCall} (h : c.Ending b)
    (hc : c ∈ s.calls) : ∃ x, x ∈ s.late := by
  cases c with
  | send x next => exact ⟨x, mem_filterMap.mpr ⟨_, hc, if_pos h⟩⟩
  | sendHeld x next => exact ⟨x, mem_filterMap.mpr ⟨_, hc, if_pos h⟩⟩
  | removed x => exact ⟨x, mem_filterMap.mpr ⟨_, hc, rfl⟩⟩
  | _ => cases h

section

variable (hok : StatusOK s)

include hok

/-- **Moving on.** A goroutine goes on, and what it has to send is the same. -/
theorem StatusOK.move {s' : StatusLine} (c' : StatusCall)
    (hs : s.calls = l ++ c :: r)
    (hs' : s' = { s with calls := l ++ c' :: r, statusMu := s'.statusMu })
    (hearly : c'.early = c.early) (hlate : c'.late = c.late)
    (hheld : l.countP StatusCall.holds + r.countP StatusCall.holds + c'.holds.toNat
      = if s'.statusMu then 1 else 0)
    (hfits : c'.Fits s.sourceProgram) (hending : c'.Ending s.sourceProgram → s.early = [])
    (hfailing : ∀ reasonCode, c' = .failing reasonCode → c = .failing reasonCode) :
    StatusOK s' := by
  have hcalls : s'.calls = l ++ c' :: r := by rw [hs']
  have hsame : s'.early = s.early := by
    rw [early_split hcalls, early_split hs, hearly]
  have hsame' : s'.late = s.late := by
    rw [late_split hcalls, late_split hs, hlate]
  have hother : ∀ d, d ∈ s'.calls → d = c' ∨ d ∈ s.calls := by
    intro d hd
    rw [hcalls, mem_append, mem_cons] at hd
    rw [hs, mem_append, mem_cons]
    tauto
  have hstate : s'.state = s.state := by rw [hs']
  have hchanges : s'.changes = s.changes := by rw [hs']
  have hsent : s'.sent = s.sent := by rw [hs']
  have hbroken : s'.broken = s.broken := by rw [hs']
  have hcurrent : s'.current = s.current := by rw [hs']
  have hkind : s'.sourceProgram = s.sourceProgram := by rw [hs']
  refine ⟨?_, ?_, ?_, ?_, ?_, ?_, ?_, ?_, ?_, ?_, ?_, ?_⟩
  · rw [hcalls, held_split]
    exact hheld
  · rw [hsame]
    exact hok.early_le
  · rw [hsame']
    exact hok.late_le
  · rw [hsame, hsame', hchanges, hsent, hbroken]
    exact hok.log
  · rw [hchanges, hsent]
    exact hok.prefixed
  · rw [hsame', hstate]
    exact hok.ended
  · rw [hstate, hchanges]
    exact hok.before
  · rw [hstate, hchanges]
    exact hok.final
  · rw [hstate, hcurrent]
    exact hok.stopped
  · intro d hd hend
    rw [hkind] at hend
    rw [hsame]
    rcases hother d hd with rfl | hd
    · exact hending hend
    · exact hok.ending d hd hend
  · intro reasonCode hd
    rw [hcurrent, hstate]
    rcases hother _ hd with heq | hd
    · have hc := hfailing reasonCode heq.symm
      exact hok.failing reasonCode (hs ▸ hc ▸ mem_append_right _ mem_cons_self)
    · exact hok.failing reasonCode hd
  · intro d hd
    rw [hkind]
    rcases hother d hd with rfl | hd
    · exact hfits
    · exact hok.fits d hd

/-- **A change.** Nothing last was on its way; the new status takes its place
behind what is. -/
theorem StatusOK.change {c' : StatusCall} {x : AssignmentStatus}
    (hs : s.calls = l ++ c :: r) (hstate : s.state.terminal = false) (hcurrent : s.current = true)
    (hx : x.state ≠ .stopped)
    (hearly : c.early = none) (hlate : c.late = none)
    (hstatus : c'.early = (if x.state.terminal then none else some x)
      ∧ c'.late = (if x.state.terminal then some x else none))
    (hfirst : (x.state.terminal = false ∨ c'.Ending s.sourceProgram) → s.early = [])
    (hheld : l.countP StatusCall.holds + r.countP StatusCall.holds + c'.holds.toNat
      = if s.statusMu then 1 else 0)
    (hfits : c'.Fits s.sourceProgram)
    (hfailing : ∀ reasonCode, c' = .failing reasonCode → x.state = .failed) :
    StatusOK { s.change x with calls := l ++ c' :: r } := by
  obtain ⟨hearly', hlate'⟩ := hstatus
  have hnone := hok.late_nil hstate
  have hsplit := early_split hs
  have hsplit' := late_split hs
  rw [hearly, toList_none, append_nil] at hsplit
  rw [hlate, toList_none, append_nil, hnone] at hsplit'
  obtain ⟨hl, hr⟩ := append_eq_nil_iff.mp hsplit'.symm
  have hcalls : ({ s.change x with calls := l ++ c' :: r } : StatusLine).calls = l ++ c' :: r := rfl
  have hnewLate := late_split hcalls
  have hnewEarly := early_split hcalls
  rw [hl, hr, hlate', nil_append, append_nil] at hnewLate
  rw [hearly'] at hnewEarly
  have hnofailing : ∀ reasonCode, StatusCall.failing reasonCode ∉ s.calls := by
    intro reasonCode hd
    have := (hok.failing reasonCode hd).2
    rw [this] at hstate
    cases hstate
  have hother : ∀ d, d ∈ l ++ c' :: r → d = c' ∨ d ∈ s.calls := by
    intro d hd
    rw [mem_append, mem_cons] at hd
    rw [hs, mem_append, mem_cons]
    tauto
  have hlog : s.broken = false → s.changes ++ [x] = s.sent
        ++ ({ s.change x with calls := l ++ c' :: r } : StatusLine).early
        ++ ({ s.change x with calls := l ++ c' :: r } : StatusLine).late := by
    intro hbroken
    rw [hok.log hbroken, hnone, append_nil, hnewEarly, hnewLate]
    cases hterminal : x.state.terminal
    · have hempty := hfirst (Or.inl hterminal)
      rw [hempty] at hsplit
      obtain ⟨hl', hr'⟩ := append_eq_nil_iff.mp hsplit.symm
      simp [hempty, hl', hr']
    · simp [hsplit]
  refine ⟨?_, ?_, ?_, hlog, ?_, ?_, ?_, ?_, ?_, ?_, ?_, ?_⟩
  · rw [hcalls, held_split]
    exact hheld
  · rw [hnewEarly]
    have hle := hok.early_le
    cases hterminal : x.state.terminal
    · rw [hfirst (Or.inl hterminal)] at hsplit
      obtain ⟨hl', hr'⟩ := append_eq_nil_iff.mp hsplit.symm
      simp [hl', hr']
    · simpa [hsplit] using hle
  · rw [hnewLate]
    cases x.state.terminal <;> simp
  · exact hok.prefixed.trans (prefix_append _ _)
  · rw [hnewLate]
    show _ → x.state.terminal = true
    cases x.state.terminal <;> simp
  · intro hnew y hy
    rcases mem_append.mp hy with hy | hy
    · exact hok.before hstate y hy
    · obtain rfl := mem_singleton.mp hy
      exact hnew
  · intro _
    exact ⟨s.changes, x, rfl, hok.before hstate⟩
  · intro hstopped
    exact absurd hstopped hx
  · intro d hd hend
    rcases hother d hd with rfl | hd
    · have hempty := hfirst (Or.inr hend)
      rw [hempty] at hsplit
      obtain ⟨hl', hr'⟩ := append_eq_nil_iff.mp hsplit.symm
      rw [hnewEarly, ← hearly', early_of_ending hend, hl', hr']
      rfl
    · exact absurd (mem_late_of_ending hend hd) (by rw [hnone]; exact fun ⟨_, h⟩ => nomatch h)
  · intro reasonCode hd
    rcases hother _ hd with heq | hd
    · exact ⟨hcurrent, hfailing reasonCode heq.symm⟩
    · exact absurd hd (hnofailing reasonCode)
  · intro d hd
    rcases hother d hd with rfl | hd
    · exact hfits
    · exact hok.fits d hd

/-- **A send.** Whether or not it goes out, the goroutine has nothing more
to send. -/
theorem StatusOK.deliver {s' : StatusLine} (x : AssignmentStatus) (ok : Bool)
    (c' : StatusCall) (hs : s.calls = l ++ c :: r)
    (hs' : s' = { (s.deliver x ok).1 with calls := l ++ c' :: r, statusMu := s'.statusMu })
    (hstatus : c.early = (if x.state.terminal then none else some x)
      ∧ c.late = (if x.state.terminal then some x else none))
    (hlast : x.state.terminal = true → c.Ending s.sourceProgram)
    (hnothing : c'.early = none ∧ c'.late = none)
    (hheld : l.countP StatusCall.holds + r.countP StatusCall.holds + c'.holds.toNat
      = if s'.statusMu then 1 else 0)
    (hfits : c'.Fits s.sourceProgram) (hending : ¬c'.Ending s.sourceProgram)
    (hfailing : ∀ reasonCode, c' ≠ .failing reasonCode) : StatusOK s' := by
  have hframe : (s.deliver x ok).1.state = s.state ∧ (s.deliver x ok).1.changes = s.changes
      ∧ (s.deliver x ok).1.current = s.current
      ∧ (s.deliver x ok).1.sourceProgram = s.sourceProgram := by
    rw [StatusLine.deliver]
    split <;> exact ⟨rfl, rfl, rfl, rfl⟩
  have hcalls : s'.calls = l ++ c' :: r := by rw [hs']
  have hstate : s'.state = s.state := by rw [hs']; exact hframe.1
  have hchanges : s'.changes = s.changes := by rw [hs']; exact hframe.2.1
  have hcurrent : s'.current = s.current := by rw [hs']; exact hframe.2.2.1
  have hkind : s'.sourceProgram = s.sourceProgram := by rw [hs']; exact hframe.2.2.2
  have hearly := early_split hs
  have hlate := late_split hs
  have hearly' := early_split hcalls
  have hlate' := late_split hcalls
  rw [hstatus.1] at hearly
  rw [hstatus.2] at hlate
  rw [hnothing.1, toList_none, append_nil] at hearly'
  rw [hnothing.2, toList_none, append_nil] at hlate'
  -- what was to be sent is this status and what is to be sent now
  have hsplit : s.early ++ s.late = x :: (s'.early ++ s'.late) := by
    have hle := hok.early_le
    have hle' := hok.late_le
    cases hterminal : x.state.terminal
    · rw [hterminal] at hearly hlate
      simp only [Bool.false_eq_true, if_false, toList_some, toList_none,
        append_nil] at hearly hlate
      rw [hearly] at hle
      obtain ⟨hl, hr⟩ := alone hle
      rw [hearly, hearly', hlate', ← hlate, hl, hr]
      rfl
    · rw [hterminal] at hearly hlate
      simp only [if_true, toList_some, toList_none, append_nil] at hearly hlate
      rw [hlate] at hle'
      obtain ⟨hl, hr⟩ := alone hle'
      have hempty := hok.ending c (hs ▸ mem_append_right _ mem_cons_self)
        (hlast hterminal)
      rw [hlate, hlate', hearly', ← hearly, hempty, hl, hr]
      rfl
  have hother : ∀ d, d ∈ s'.calls → d = c' ∨ d ∈ s.calls := by
    intro d hd
    rw [hcalls, mem_append, mem_cons] at hd
    rw [hs, mem_append, mem_cons]
    tauto
  have hsub : s'.early.length ≤ s.early.length ∧ s'.late.length ≤ s.late.length := by
    rw [hearly, hearly', hlate, hlate']
    simp only [length_append]
    omega
  have hlog : s'.broken = false → s.broken = false ∧ s'.sent = s.sent ++ [x] := by
    rw [hs']
    rw [StatusLine.deliver]
    split
    · next h => exact fun _ => ⟨h.1, rfl⟩
    · exact fun h => nomatch h
  have hunsent : s'.broken = true → s'.sent = s.sent := by
    rw [hs']
    rw [StatusLine.deliver]
    split
    · next h => exact fun hb => absurd (h.1.symm.trans hb) (by decide)
    · exact fun _ => rfl
  have hlog' : s'.broken = false → s'.changes = s'.sent ++ s'.early ++ s'.late := by
    intro hb
    obtain ⟨hb, hsent⟩ := hlog hb
    rw [hchanges, hok.log hb, hsent, append_assoc, hsplit, append_assoc,
      append_assoc]
    rfl
  refine ⟨?_, le_trans hsub.1 hok.early_le, le_trans hsub.2 hok.late_le, hlog', ?_, ?_, ?_, ?_, ?_, ?_,
    ?_, ?_⟩
  · rw [hcalls, held_split]
    exact hheld
  · cases hb : s'.broken
    · rw [hlog' hb, append_assoc]
      exact prefix_append _ _
    · rw [hunsent hb, hchanges]
      exact hok.prefixed
  · intro hne
    rw [hstate]
    refine hok.ended fun hnil => hne ?_
    rw [hnil] at hsub
    exact length_eq_zero_iff.mp (le_zero.mp hsub.2)
  · rw [hstate, hchanges]
    exact hok.before
  · rw [hstate, hchanges]
    exact hok.final
  · rw [hstate, hcurrent]
    exact hok.stopped
  · intro d hd hend
    rw [hkind] at hend
    rcases hother d hd with rfl | hd
    · exact absurd hend hending
    · have hempty := hok.ending d hd hend
      rw [hempty] at hsub
      exact length_eq_zero_iff.mp (le_zero.mp hsub.1)
  · intro reasonCode hd
    rw [hcurrent, hstate]
    rcases hother _ hd with heq | hd
    · exact absurd heq.symm (hfailing reasonCode)
    · exact hok.failing reasonCode hd
  · intro d hd
    rw [hkind]
    rcases hother d hd with rfl | hd
    · exact hfits
    · exact hok.fits d hd

theorem StatusOK.call (state : AssignmentState) (reasonCode : String)
    (thermalState : Bool) :
    StatusOK { s with
      thermalState := thermalState
      calls := s.calls ++ [.transition state reasonCode] } := by
  have hother : ∀ d, d ∈ s.calls ++ [.transition state reasonCode] →
      d = .transition state reasonCode ∨ d ∈ s.calls := by
    intro d hd
    rcases mem_append.mp hd with hd | hd
    · exact Or.inr hd
    · exact Or.inl (mem_singleton.mp hd)
  have hearly : ({ s with
      thermalState := thermalState
      calls := s.calls ++ [.transition state reasonCode] } : StatusLine).early = s.early := by
    simp [early, StatusCall.early]
  have hlate : ({ s with
      thermalState := thermalState
      calls := s.calls ++ [.transition state reasonCode] } : StatusLine).late = s.late := by
    simp [late, StatusCall.late]
  refine ⟨?_, ?_, ?_, ?_, hok.prefixed, ?_, hok.before, hok.final, hok.stopped, ?_, ?_, ?_⟩
  · rw [countP_append, hok.held]
    rfl
  · rw [hearly]
    exact hok.early_le
  · rw [hlate]
    exact hok.late_le
  · rw [hearly, hlate]
    exact hok.log
  · rw [hlate]
    exact hok.ended
  · intro d hd hend
    rw [hearly]
    rcases hother d hd with rfl | hd
    · cases hend
    · exact hok.ending d hd hend
  · intro reasonCode hd
    rcases hother _ hd with heq | hd
    · cases heq
    · exact hok.failing reasonCode hd
  · intro d hd
    rcases hother d hd with rfl | hd
    · trivial
    · exact hok.fits d hd

/-- **Removal.** -/
theorem StatusOK.remove {x : AssignmentStatus} (hx : x.state.terminal = true)
    (hgo : s.current = true → s.state ≠ .failed ∧ (s.sourceProgram = false → s.pending = [])) :
    StatusOK (s.remove x) := by
  rw [StatusLine.remove]
  split
  · next hcurrent =>
      have hstate : s.state.terminal = false := by
        cases hs : s.state with
        | failed => exact absurd hs (hgo hcurrent).1
        | stopped =>
            rw [hok.stopped hs] at hcurrent
            cases hcurrent
        | _ => rfl
      have hnone := hok.late_nil hstate
      have hother : ∀ d, d ∈ s.calls ++ [.removed x] → d = .removed x ∨ d ∈ s.calls := by
        intro d hd
        rcases mem_append.mp hd with hd | hd
        · exact Or.inr hd
        · exact Or.inl (mem_singleton.mp hd)
      have hearly : (s.calls ++ [StatusCall.removed x]).filterMap StatusCall.early = s.early := by
        simp [early, StatusCall.early]
      have hlate : (s.calls ++ [StatusCall.removed x]).filterMap StatusCall.late = [x] := by
        rw [filterMap_append]
        show s.late ++ [x] = [x]
        rw [hnone, nil_append]
      refine ⟨?_, ?_, ?_, ?_, ?_, ?_, ?_, ?_, fun _ => rfl, ?_, ?_, ?_⟩
      · rw [countP_append, hok.held]
        rfl
      · show ((s.calls ++ [StatusCall.removed x]).filterMap StatusCall.early).length ≤ 1
        rw [hearly]
        exact hok.early_le
      · show ((s.calls ++ [StatusCall.removed x]).filterMap StatusCall.late).length ≤ 1
        rw [hlate]
        exact le_refl 1
      · intro hbroken
        show s.changes ++ [x] = s.sent ++ (s.calls ++ [StatusCall.removed x]).filterMap StatusCall.early
          ++ (s.calls ++ [StatusCall.removed x]).filterMap StatusCall.late
        rw [hearly, hlate, hok.log hbroken, hnone, append_nil]
      · exact hok.prefixed.trans (prefix_append _ _)
      · exact fun _ => hx
      · intro hnew
        exact absurd (hx.symm.trans hnew) (by decide)
      · exact fun _ => ⟨s.changes, x, rfl, hok.before hstate⟩
      · intro d hd hend
        show (s.calls ++ [StatusCall.removed x]).filterMap StatusCall.early = []
        rw [hearly]
        rcases hother d hd with rfl | hd
        · -- without a source program nothing is on its way
          have hpending := (hgo hcurrent).2 hend
          refine filterMap_eq_nil_iff.mpr fun e he => ?_
          have hnothing := filterMap_eq_nil_iff.mp hpending e he
          cases e with
          | send x next => cases hnothing
          | sendHeld x next => cases hnothing
          | _ => rfl
        · exact hok.ending d hd hend
      · intro reasonCode hd
        rcases hother _ hd with heq | hd
        · cases heq
        · have := (hok.failing reasonCode hd).2
          rw [this] at hstate
          cases hstate
      · intro d hd
        rcases hother d hd with rfl | hd
        · exact hx
        · exact hok.fits d hd
  · exact hok

end

/-! ## The steps of a goroutine -/

theorem StatusOK.around (hok : StatusOK s) (hs : s.calls = l ++ c :: r) :
    l.countP holds + r.countP holds + c.holds.toNat
      = if s.statusMu then 1 else 0 := by
  rw [← held_split, ← hs]
  exact hok.held

theorem StatusOK.mem (hs : s.calls = l ++ c :: r) : c ∈ s.calls :=
  hs ▸ mem_append_right _ mem_cons_self

theorem StatusOK.done (hok : StatusOK s) (hs : s.calls = l ++ c :: r) (hearly : c.early = none)
    (hlate : c.late = none) (hheld : c.holds = false) :
    StatusOK { s with calls := l ++ .returned :: r } := by
  have haround := hok.around hs
  rw [hheld] at haround
  exact hok.move .returned hs rfl hearly.symm hlate.symm haround trivial (fun h => by cases h)
    (fun _ h => by cases h)

/-- A call that holds `statusMu` and has nothing to send returns. -/
theorem StatusOK.leave (hok : StatusOK s) {i : Nat} (hs : s.calls = l ++ c :: r)
    (hset : ∀ c', s.calls.set i c' = l ++ c' :: r) (hearly : c.early = none)
    (hlate : c.late = none) (hheld : c.holds = true) : StatusOK (s.leave i) := by
  have haround := hok.around hs
  rw [hheld] at haround
  have hmu : l.countP holds + r.countP holds = 0 := by
    split at haround <;> simp only [Bool.toNat_true] at haround <;> omega
  refine hok.move .returned hs ?_ hearly.symm hlate.symm ?_ trivial (fun h => by cases h)
    (fun _ h => by cases h)
  · show ({ s.unlock with calls := s.unlock.calls.set i .returned } : StatusLine) = _
    rw [show s.unlock.calls.set i .returned = l ++ .returned :: r from hset .returned]
    rfl
  · exact hmu

theorem goTo_split {i : Nat} (hset : ∀ c', s.calls.set i c' = l ++ c' :: r) (c' : StatusCall) :
    s.goTo i c' = { s with calls := l ++ c' :: r } := by
  rw [goTo, hset]

theorem change_goTo_split {i : Nat} (hset : ∀ c', s.calls.set i c' = l ++ c' :: r)
    (x : AssignmentStatus) (c' : StatusCall) :
    (s.change x).goTo i c' = { s.change x with calls := l ++ c' :: r } := by
  show ({ s.change x with calls := s.calls.set i c' } : StatusLine) = _
  rw [hset]

theorem StatusOK.transitionAssignment (hok : StatusOK s) {i : Nat} {state : AssignmentState}
    {reasonCode : String} (hs : s.calls = l ++ .transition state reasonCode :: r)
    (hset : ∀ c', s.calls.set i c' = l ++ c' :: r) (hkind : s.sourceProgram = false)
    (hgo : s.current = true →
      (s.state = .ready ∧ state = .running ∨ allowedAssignmentTransition s.state state = true) →
      s.pending = []) :
    StatusOK (s.transitionAssignment i state reasonCode) := by
  have hreturn : StatusOK (s.goTo i .returned) := by
    rw [goTo_split hset]
    exact hok.done hs rfl rfl rfl
  have haround := hok.around hs
  have hempty : s.pending = [] → s.early = [] := by
    intro hpending
    refine filterMap_eq_nil_iff.mpr fun e he => ?_
    have hnothing := filterMap_eq_nil_iff.mp hpending e he
    cases e with
    | send x next => cases hnothing
    | sendHeld x next => cases hnothing
    | _ => rfl
  have hchange : ∀ (x : AssignmentStatus) (next : Option AssignmentStatus),
      s.current = true → s.state.terminal = false → x.state ≠ .stopped → s.early = [] →
      StatusOK ((s.change x).goTo i (.send x next)) := by
    intro x next hcurrent hstate hx hearly
    rw [change_goTo_split hset]
    refine hok.change hs hstate hcurrent hx rfl rfl ⟨rfl, rfl⟩ (fun _ => hearly) haround ?_
      (fun _ h => by cases h)
    intro hsource
    rw [hkind] at hsource
    cases hsource
  rw [StatusLine.transitionAssignment]
  split
  · exact hreturn
  · next hcurrent =>
      have hcurrent' : s.current = true := by
        have := (not_or.mp hcurrent).1
        simpa using this
      split
      · next hready =>
          have hstate : s.state.terminal = false := by
            rw [hready.2]
            rfl
          exact hchange _ _ hcurrent' hstate (by decide)
            (hempty (hgo hcurrent' (Or.inl ⟨hready.2, hready.1⟩)))
      · split
        · exact hreturn
        · next hallowed =>
            have hallowed' : allowedAssignmentTransition s.state state = true := by
              simpa using hallowed
            refine hchange _ _ hcurrent' (not_terminal_of_allowed hallowed') ?_
              (hempty (hgo hcurrent' (Or.inr hallowed')))
            rintro (rfl : state = .stopped)
            cases hstate : s.state <;> rw [hstate] at hallowed' <;> cases hallowed'

theorem StatusOK.fail (hok : StatusOK s) {i : Nat} {state : AssignmentState}
    {reasonCode : String} (hs : s.calls = l ++ .transition state reasonCode :: r)
    (hset : ∀ c', s.calls.set i c' = l ++ c' :: r) (hkind : s.sourceProgram = true) :
    StatusOK (s.fail i reasonCode) := by
  rw [StatusLine.fail]
  split
  · rw [goTo_split hset]
    exact hok.done hs rfl rfl rfl
  · next hgo =>
      obtain ⟨hcurrent, hallowed⟩ := not_or.mp hgo
      rw [change_goTo_split hset]
      have haround : l.countP holds + r.countP holds
          + (StatusCall.failing reasonCode).holds.toNat = if s.statusMu then 1 else 0 := by
        have hbefore := hok.around hs
        exact hbefore
      refine hok.change hs (not_terminal_of_allowed (by simpa using hallowed))
        (by simpa using hcurrent) (fun h => by cases h) rfl rfl ⟨rfl, rfl⟩ ?_ haround hkind
        (fun _ _ => rfl)
      rintro (h | h) <;> cases h

/-- The loop of the owner's `transition`, by what the call leaves behind. -/
theorem StatusOK.round (hok : StatusOK s) {i : Nat} {state : AssignmentState}
    {reasonCode : String} (permitted : Bool) (hs : s.calls = l ++ .loop state reasonCode :: r)
    (hset : ∀ c', s.calls.set i c' = l ++ c' :: r) :
    StatusOK (s.round i state reasonCode permitted) := by
  have hkind : s.sourceProgram = true := hok.fits _ (StatusOK.mem hs)
  have hleave : StatusOK (s.leave i) := hok.leave hs hset rfl rfl rfl
  have haround := hok.around hs
  have hothers : l.countP StatusCall.holds + r.countP StatusCall.holds = 0 := by
    split at haround <;> simp only [StatusCall.holds, Bool.toNat_true] at haround <;> omega
  -- no other goroutine has `statusMu`, so nothing that can be left is on its way
  have hearly : s.early = [] := by
    have hfits := hok.fits
    rw [hkind, hs] at hfits
    rw [early_split hs, early_nil_of_held (fun c hc => hfits c (mem_append_left _ hc))
      (by omega), early_nil_of_held (fun c hc => hfits c
        (mem_append_right _ (mem_cons_of_mem _ hc))) (by omega)]
    rfl
  have hchange : ∀ (x : AssignmentStatus) (next : Option AssignmentStatus),
      s.current = true → s.state.terminal = false → x.state ≠ .stopped →
      StatusOK ((s.change x).goTo i (.sendHeld x next)) := by
    intro x next hcurrent hstate hx
    rw [change_goTo_split hset]
    exact hok.change hs hstate hcurrent hx rfl rfl ⟨rfl, rfl⟩ (fun _ => hearly) haround hkind
      (fun _ h => by cases h)
  have hallowed : ∀ (x : AssignmentStatus) (next : Option AssignmentStatus), s.current = true →
      StatusOK (if allowedAssignmentTransition s.state x.state = false then s.leave i
        else (s.change x).goTo i (.sendHeld x next)) := by
    intro x next hcurrent
    split
    · exact hleave
    · next hgo =>
        rw [Bool.not_eq_false] at hgo
        refine hchange x next hcurrent (not_terminal_of_allowed hgo) fun hstopped => ?_
        rw [hstopped] at hgo
        cases hstate : s.state <;> rw [hstate] at hgo <;> cases hgo
  rw [StatusLine.round]
  split
  · exact hleave
  · split
    · exact hleave
    · split
      · exact hleave
      · next hcurrent =>
          have hcurrent' : s.current = true := by simpa using hcurrent
          split
          · split
            · next hsame hreason =>
                have hdegraded : s.state = .degraded := hsame.trans hreason.1
                refine hchange _ _ hcurrent' (by rw [hdegraded]; rfl) fun hstopped => ?_
                have hstate : state = .stopped := hstopped
                rw [hreason.1] at hstate
                cases hstate
            · exact hleave
          · exact hallowed _ _ hcurrent'

theorem StatusOK.failed (hok : StatusOK s) {i : Nat} {reasonCode : String}
    (hs : s.calls = l ++ .failing reasonCode :: r)
    (hset : ∀ c', s.calls.set i c' = l ++ c' :: r) (hfree : s.statusMu = false) :
    StatusOK (s.failed i reasonCode) := by
  have hstill := hok.failing reasonCode (StatusOK.mem hs)
  have hkind : s.sourceProgram = true := hok.fits _ (StatusOK.mem hs)
  have haround := hok.around hs
  rw [hfree] at haround
  have hearly : s.early = [] := by
    have hfits := hok.fits
    have hheld := hok.held
    rw [hkind] at hfits
    rw [hfree] at hheld
    exact early_nil_of_held hfits hheld
  rw [StatusLine.failed, if_pos hstill]
  refine hok.move (.sendHeld ⟨.failed, reasonCode⟩ none) hs ?_ rfl rfl ?_
    hkind (fun _ => hearly) (fun _ h => by cases h)
  · exact goTo_split (s := s.lock) hset _
  · show l.countP StatusCall.holds + r.countP StatusCall.holds + 1 = 1
    have hnobody : l.countP StatusCall.holds + r.countP StatusCall.holds + 0 = 0 := haround
    omega

theorem deliver_fst_calls (x : AssignmentStatus) (ok : Bool) :
    (s.deliver x ok).1.calls = s.calls ∧ (s.deliver x ok).1.statusMu = s.statusMu := by
  rw [deliver]
  split <;> exact ⟨rfl, rfl⟩

section

variable (hok : StatusOK s)

include hok

theorem StatusOK.sendFree {i : Nat} {x : AssignmentStatus}
    {next : Option AssignmentStatus} (ok : Bool) (hs : s.calls = l ++ .send x next :: r)
    (hset : ∀ c', s.calls.set i c' = l ++ c' :: r) : StatusOK (s.sendFree i x next ok) := by
  obtain ⟨hcalls, hmu⟩ := deliver_fst_calls (s := s) x ok
  have haround := hok.around hs
  have hgo : ∀ c' : StatusCall, c'.early = none ∧ c'.late = none → c'.holds = false →
      c'.Fits s.sourceProgram → ¬c'.Ending s.sourceProgram →
      (∀ reasonCode, c' ≠ .failing reasonCode) → StatusOK ((s.deliver x ok).1.goTo i c') := by
    intro c' hnothing hholds hfits hending hfailing
    refine hok.deliver x ok c' hs ?_ ⟨rfl, rfl⟩ id hnothing ?_ hfits hending hfailing
    · rw [goTo, hcalls, hset]
    · show _ = if (s.deliver x ok).1.statusMu then 1 else 0
      rw [hmu, hholds]
      exact haround
  have hreturn := hgo .returned ⟨rfl, rfl⟩ rfl trivial (fun h => by cases h) (fun _ h => by cases h)
  rw [StatusLine.sendFree]
  dsimp only
  split
  · next y =>
      split
      · exact hgo (.transition y.state y.reasonCode) ⟨rfl, rfl⟩ rfl trivial (fun h => by cases h)
          (fun _ h => by cases h)
      · exact hreturn
  · exact hreturn

theorem StatusOK.sendLocked {i : Nat} {x : AssignmentStatus}
    {next : Option AssignmentStatus} (ok : Bool) (hs : s.calls = l ++ .sendHeld x next :: r)
    (hset : ∀ c', s.calls.set i c' = l ++ c' :: r) : StatusOK (s.sendLocked i x next ok) := by
  obtain ⟨hcalls, hmu⟩ := deliver_fst_calls (s := s) x ok
  have hkind : s.sourceProgram = true := hok.fits _ (StatusOK.mem hs)
  have haround := hok.around hs
  have hothers : l.countP holds + r.countP holds = 0 := by
    split at haround <;> simp only [holds, Bool.toNat_true] at haround <;> omega
  have hleave : StatusOK ((s.deliver x ok).1.leave i) := by
    refine hok.deliver x ok .returned hs ?_ ⟨rfl, rfl⟩ id ⟨rfl, rfl⟩ ?_
      trivial (fun h => by cases h) (fun _ h => by cases h)
    · show ({ (s.deliver x ok).1.unlock with
        calls := (s.deliver x ok).1.calls.set i .returned } : StatusLine) = _
      rw [hcalls, hset]
      rfl
    · exact hothers
  rw [StatusLine.sendLocked]
  dsimp only
  split
  · next y =>
      split
      · refine hok.deliver x ok (.loop y.state y.reasonCode) hs ?_ ⟨rfl, rfl⟩ id
          ⟨rfl, rfl⟩ ?_ hkind (fun h => by cases h) (fun _ h => by cases h)
        · rw [goTo, hcalls, hset]
        · show _ = if (s.deliver x ok).1.statusMu then 1 else 0
          rw [hmu]
          exact haround
      · exact hleave
  · exact hleave

theorem StatusOK.resume (i : Nat) (permitted sent : Bool)
    (hgo : Orderly s (.resume i permitted sent)) : StatusOK (s.resume i permitted sent) := by
  rw [StatusLine.resume]
  cases hcall : s.calls[i]? with
  | none => exact hok
  | some c =>
      obtain ⟨l, r, hs, hset⟩ := exists_split hcall
      cases c with
      | transition state reasonCode =>
          dsimp only
          split
          · next hkind =>
              split
              · exact hok
              · next hfree =>
                  split
                  · exact hok.fail hs hset hkind
                  · have haround := hok.around hs
                    have hfree' : s.statusMu = false := by simpa using hfree
                    rw [hfree'] at haround
                    refine hok.move (.loop state reasonCode) hs ?_ rfl rfl ?_ hkind
                      (fun h => by cases h) (fun _ h => by cases h)
                    · exact goTo_split (s := s.lock) hset _
                    · show l.countP StatusCall.holds + r.countP StatusCall.holds + 1 = 1
                      have hnobody :
                          l.countP StatusCall.holds + r.countP StatusCall.holds + 0 = 0 := haround
                      omega
          · next hkind =>
              have hkind' : s.sourceProgram = false := by simpa using hkind
              exact hok.transitionAssignment hs hset hkind'
                fun hcurrent hmoves => hgo state reasonCode hcall hkind' hcurrent hmoves
      | loop state reasonCode => exact hok.round permitted hs hset
      | send x next => exact hok.sendFree sent hs hset
      | sendHeld x next => exact hok.sendLocked sent hs hset
      | failing reasonCode =>
          dsimp only
          split
          · exact hok
          · next hfree => exact hok.failed hs hset (by simpa using hfree)
      | removed x =>
          have hx : x.state.terminal = true := hok.fits _ (StatusOK.mem hs)
          dsimp only
          split
          · exact hok
          · next hfree =>
              rw [goTo_split hset]
              have haround := hok.around hs
              refine hok.move (.send x none) hs rfl (if_pos hx) (if_pos hx) haround
                (fun _ => hx) (fun _ => ?_) (fun _ h => by cases h)
              cases hkind : s.sourceProgram with
              | false => exact hok.ending _ (StatusOK.mem hs) hkind
              | true =>
                  have hmu : s.statusMu = false := by
                    by_contra hlocked
                    exact hfree ⟨hkind, by simpa using hlocked⟩
                  have hfits := hok.fits
                  have hheld := hok.held
                  rw [hkind] at hfits
                  rw [hmu] at hheld
                  exact early_nil_of_held hfits hheld
      | returned => exact hok

/-- One step keeps the invariant when the condition is met. -/
theorem StatusOK.next (e : StatusEvent) (hgo : Orderly s e) :
    StatusOK (s.next e) := by
  cases e with
  | transition state reasonCode => exact hok.call state reasonCode s.thermalState
  | stop => exact hok.remove rfl hgo
  | expire => exact hok.remove rfl hgo
  | health health =>
      rw [StatusLine.next, reconcileLocalHealth]
      split
      · exact hok
      · split
        · next hdraining =>
            rw [hdraining] at hgo
            exact hok.remove rfl hgo
        · split
          · exact hok.call _ _ true
          · split
            · exact hok.call _ _ false
            · exact hok
  | resume i permitted sent => exact hok.resume i permitted sent hgo

theorem StatusOK.run {s' : StatusLine} {es : List StatusEvent}
    (hrun : Path (Guarded Step Orderly) s es s') : StatusOK s' := by
  refine hrun.inv (I := StatusOK) ?_ hok
  rintro s e t ⟨rfl, hgo⟩ hs
  exact hs.next e hgo

theorem StatusOK.last {xs ys : List AssignmentStatus} {x : AssignmentStatus}
    (hsent : s.sent = xs ++ x :: ys) (hx : x.state.terminal = true) : ys = [] := by
  obtain ⟨rest, hrest⟩ := hok.prefixed
  rw [hsent, append_assoc, cons_append] at hrest
  cases hstate : s.state.terminal with
  | false =>
      have := hok.before hstate x (hrest ▸ mem_append_right _ mem_cons_self)
      rw [hx] at this
      cases this
  | true =>
      obtain ⟨before, last, hchanges, hbefore⟩ := hok.final hstate
      by_contra hys
      have hne : ys ++ rest ≠ [] := fun h => hys (append_eq_nil_iff.mp h).1
      have hinit : before = xs ++ x :: (ys ++ rest).dropLast := by
        have hdrop := congrArg dropLast (hrest.trans hchanges)
        rw [dropLast_concat, dropLast_append_of_ne_nil (cons_ne_nil _ _),
          dropLast_cons_of_ne_nil hne] at hdrop
        exact hdrop.symm
      have := hbefore x (hinit ▸ mem_append_right _ mem_cons_self)
      rw [hx] at this
      cases this

end

theorem StatusOK.quiet (hpending : s.pending = []) : s.early = [] ∧ s.late = [] := by
  constructor <;> refine filterMap_eq_nil_iff.mpr fun c hc => ?_ <;>
    have hnothing := filterMap_eq_nil_iff.mp hpending c hc <;>
    cases c <;> first | rfl | cases hnothing

/-- **Status messages in order.** When the assignment is not removed in state
`failed`, and without a source program no change overtakes one that is still
to be sent: what has been sent is a prefix of what has changed, all of it as
soon as no call has a status to send, and nothing follows `failed` or
`stopped`. -/
theorem statuses_in_order {sourceProgram : Bool} {es : List StatusEvent} {s : StatusLine}
    (hrun : Path (Guarded Step Orderly) (prepared sourceProgram) es s) :
    s.sent <+: s.changes
    ∧ (s.broken = false → s.pending = [] → s.sent = s.changes)
    ∧ ∀ xs x ys, s.sent = xs ++ x :: ys → x.state.terminal = true → ys = [] := by
  have hok := (prepared_ok sourceProgram).run hrun
  refine ⟨hok.prefixed, fun hbroken hpending => ?_, fun xs x ys => hok.last⟩
  obtain ⟨hearly, hlate⟩ := StatusOK.quiet hpending
  rw [hok.log hbroken, hearly, hlate, append_nil, append_nil]

/-! ### A connected source that is stopped -/

def sampleEvents : List StatusEvent :=
  [.transition .running "OUTPUT_READY", .resume 0 true true, .resume 0 true true,
    .stop, .resume 0 true true, .resume 1 true true, .resume 0 true true, .resume 1 true true,
    .resume 1 true true]

theorem statuses_in_order_sample : (sampleEvents.foldl next (prepared true)).sent
        = [⟨.starting, "PROGRAM_STARTING"⟩, ⟨.stopped, "STOP_COMPLETE"⟩]
    ∧ (sampleEvents.foldl next (prepared true)).sent
        = (sampleEvents.foldl next (prepared true)).changes := by
  have hrun : Path (Guarded Step Orderly) (prepared true) sampleEvents
      (sampleEvents.foldl next (prepared true)) := by
    refine .cons ⟨rfl, trivial⟩ (.cons ⟨rfl, ?_⟩ (.cons ⟨rfl, ?_⟩ (.cons ⟨rfl, ?_⟩ (.cons ⟨rfl, ?_⟩
      (.cons ⟨rfl, ?_⟩ (.cons ⟨rfl, ?_⟩ (.cons ⟨rfl, ?_⟩ (.cons ⟨rfl, ?_⟩ (.nil _)))))))))
    all_goals first
      | exact fun _ _ _ h => absurd h (by decide)
      | exact fun _ => ⟨by decide, fun h => absurd h (by decide)⟩
  exact ⟨by decide, (statuses_in_order hrun).2.1 (by decide) (by decide)⟩

def overtakenEvents : List StatusEvent :=
  [.transition .starting "MEDIA_CONNECTED", .resume 0 true true, .stop, .resume 1 true true,
    .resume 1 true true, .resume 0 true true]

def failedEvents : List StatusEvent :=
  [.transition .failed "SOURCE_PROGRAM_STOPPED", .resume 0 true true, .resume 0 true true,
    .resume 0 true true, .stop, .resume 1 true true, .resume 1 true true]

/-- Without a source program, a stop overtakes the first status of a
connection that comes up: `starting` is sent after `stopped`. With one, a
failed assignment that is stopped sends a second last status. -/
theorem stop_overtakes : (∃ s, Path Step (prepared false) overtakenEvents s
      ∧ s.changes = [⟨.starting, "MEDIA_CONNECTED"⟩, ⟨.stopped, "STOP_COMPLETE"⟩]
      ∧ s.sent = [⟨.stopped, "STOP_COMPLETE"⟩, ⟨.starting, "MEDIA_CONNECTED"⟩])
    ∧ ∃ s, Path Step (prepared true) failedEvents s
      ∧ s.sent = [⟨.failed, "SOURCE_PROGRAM_STOPPED"⟩, ⟨.stopped, "STOP_COMPLETE"⟩] := by
  refine ⟨⟨overtakenEvents.foldl next (prepared false), ?_, by decide, by decide⟩,
    failedEvents.foldl next (prepared true), ?_, by decide⟩
  · exact .cons rfl (.cons rfl (.cons rfl (.cons rfl (.cons rfl (.cons rfl (.nil _))))))
  · exact .cons rfl (.cons rfl (.cons rfl (.cons rfl (.cons rfl (.cons rfl (.cons rfl (.nil _)))))))

end StatusLine

end Packager

end WebrtcMinimize
