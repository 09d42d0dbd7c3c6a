import Mathlib.Logic.Equiv.Basic
import WebrtcMinimize.SupervisorModel

/-!
# Phases of a packager session

A session is in transit while the supervisor works on it between two of its
phases: it has a child, or a suspended call, or neither any more. `Good s o`
says what holds of a state in which the session `o` is in transit; each
change of phase is one lemma that takes a session into transit or out of it.

A program and its directory are in use by a session with a child, by one in
transit and by every suspended call, and the users are apart in both. A
change of phase hands the use on.
-/

namespace WebrtcMinimize

namespace Supervisor

open KeyedMap SupervisorState Option Work Nat

/-! ## Users that are apart -/

/-- The values of a partial family stand pairwise in a relation. -/
def Apart {ι α : Type} (R : α → α → Prop) (f : ι → Option α) : Prop :=
  ∀ i j a b, f i = some a → f j = some b → i ≠ j → R a b

theorem Apart.reindex {ι κ α : Type} {R : α → α → Prop} {f : ι → Option α} {g : κ → Option α}
    (h : Apart R f) (e : κ → ι) (hg : Function.Injective e)
    (hsub : ∀ k a, g k = some a → f (e k) = some a) : Apart R g := by
  intro i j a b hi hj hne
  exact h (e i) (e j) a b (hsub i a hi) (hsub j b hj) (hg.ne hne)

theorem Apart.sub {ι α : Type} {R : α → α → Prop} {f g : ι → Option α} (h : Apart R f)
    (hsub : ∀ k a, g k = some a → f k = some a) : Apart R g :=
  h.reindex id Function.injective_id hsub

theorem Apart.move {ι α : Type} [DecidableEq ι] {R : α → α → Prop} {f g : ι → Option α}
    (h : Apart R f) {i j : ι} (hi : g i = none) (hj : ∀ a, g j = some a → f i = some a)
    (hother : ∀ k, k ≠ i → k ≠ j → ∀ a, g k = some a → f k = some a) : Apart R g := by
  refine h.reindex (Equiv.swap i j) (Equiv.injective _) ?_
  intro k a hk
  by_cases hki : k = i
  · rw [hki, hi] at hk
    cases hk
  · by_cases hkj : k = j
    · rw [hkj] at hk
      rw [hkj, Equiv.swap_apply_right]
      exact hj a hk
    · rw [Equiv.swap_apply_of_ne_of_ne hki hkj]
      exact hother k hki hkj a hk

theorem Apart.insert {ι α : Type} {R : α → α → Prop} {f g : ι → Option α} (h : Apart R f)
    {i : ι} {a : α} (hi : g i = some a)
    (hother : ∀ k, k ≠ i → ∀ b, g k = some b → f k = some b)
    (hnew : ∀ k b, f k = some b → R a b ∧ R b a) : Apart R g := by
  intro k l b c hk hl hne
  by_cases hki : k = i
  · rw [hki, hi] at hk
    cases hk
    exact (hnew l c (hother l (fun h => hne (hki.trans h.symm)) c hl)).1
  · have hfk := hother k hki b hk
    by_cases hli : l = i
    · rw [hli, hi] at hl
      cases hl
      exact (hnew k b hfk).2
    · exact h k l b c hfk (hother l hli c hl) hne

/-! ## Who uses a program and a directory -/

inductive User
  | session (sid : Nat)
  | task (tid : Nat)
deriving DecidableEq

/-- What a session or a suspended call uses, when `o` is in transit. -/
def uses (s : SupervisorState) (o : Option Nat) : User → Option (String × Directory)
  | .session sid => (s.objects.get sid).bind fun x =>
      if x.child = none ∧ o ≠ some sid then none else some (x.programId, x.outputDirectory)
  | .task tid => (s.tasks.get tid).map fun t => (t.programId, t.outputDirectory)

/-- Different programs on directories that do not overlap. -/
def Distant (a b : String × Directory) : Prop := a.1 ≠ b.1 ∧ ¬ Overlap a.2 b.2

theorem Overlap.symm {d e : Directory} (h : Overlap d e) : Overlap e d := Or.symm h

theorem Distant.symm {a b : String × Directory} (h : Distant a b) : Distant b a :=
  ⟨h.1.symm, fun ho => h.2 ho.symm⟩

variable {o : Option Nat} {s : SupervisorState}

theorem uses_task {tid : Nat} {t : Task} (h : s.tasks.get tid = some t) :
    uses s o (.task tid) = some (t.programId, t.outputDirectory) := by
  simp only [uses, h, map_some]

variable {sid : Nat}

theorem uses_child {cid : Nat} {x : Session}
    (h : s.objects.get sid = some x) (hc : x.child = some cid) :
    uses s o (.session sid) = some (x.programId, x.outputDirectory) := by
  simp only [uses, h, hc, bind_some, reduceCtorEq, false_and, if_false]

theorem uses_transit {x : Session} (h : s.objects.get sid = some x) :
    uses s (some sid) (.session sid) = some (x.programId, x.outputDirectory) := by
  simp only [uses, h, bind_some, ne_eq, not_true_eq_false, and_false, if_false]

theorem uses_idle {x : Session}
    (h : s.objects.get sid = some x) (hc : x.child = none) (ho : o ≠ some sid) :
    uses s o (.session sid) = none := by
  simp only [uses, h, hc, bind_some, true_and, if_pos ho]

theorem uses_session_of_ne {s' : SupervisorState} {o' : Option Nat}
    (hget : s'.objects.get sid = s.objects.get sid) (ho : o ≠ some sid) (ho' : o' ≠ some sid) :
    uses s' o' (.session sid) = uses s o (.session sid) := by
  simp only [uses, hget, ne_eq, ho, ho', not_false_eq_true]

theorem uses_suspend {t : Task} (o o' : Option Nat) {tid : Nat}
    (h : tid ≠ s.nextTask) : uses (s.suspend t) o' (.task tid) = uses s o (.task tid) := by
  simp only [uses, suspend, get_set_of_ne _ _ h]

/-! ## What holds between two events -/

/-- What holds of every state; the session `o`, if there is one, is in
transit. -/
structure Good (s : SupervisorState) (o : Option Nat) : Prop where
  object_lt : ∀ sid x, s.objects.get sid = some x → sid < s.nextSession
  child_lt : ∀ cid c, s.children.get cid = some c → cid < s.nextChild
  task_lt : ∀ tid t, s.tasks.get tid = some t → tid < s.nextTask
  owned : ∀ cid c, s.children.get cid = some c →
    ∃ x, s.objects.get c.session = some x ∧ c.generation ≤ x.generation
  /-- A session has one child of a generation. -/
  unique : ∀ cid c cid' c', s.children.get cid = some c → s.children.get cid' = some c' →
    c.session = c'.session → c.generation = c'.generation → cid = cid'
  running : ∀ cid c x, s.children.get cid = some c → c.running = true →
    s.objects.get c.session = some x → x.child = some cid
  live : ∀ sid x cid, s.objects.get sid = some x → x.child = some cid →
    o ≠ some sid ∧ s.sessions.get x.programId = some sid ∧ x.endingGeneration ≠ x.generation
      ∧ x.completed = false
      ∧ ∃ c, s.children.get cid = some c ∧ c.session = sid ∧ c.generation = x.generation
        ∧ c.closed = false
  idle : ∀ sid x, s.objects.get sid = some x → o ≠ some sid → x.child = none →
    x.endingGeneration = x.generation
  registered : ∀ p sid, s.sessions.get p = some sid →
    ∃ x, s.objects.get sid = some x ∧ x.programId = p ∧ x.completed = false
      ∧ (o ≠ some sid → x.child = none →
          ∃ tid t, s.tasks.get tid = some t ∧ t.work = .relaunching sid)
  removed : ∀ sid x, s.objects.get sid = some x → s.sessions.get x.programId ≠ some sid →
    x.stopping = true → x.completed = true ∨
      ∃ tid t, s.tasks.get tid = some t ∧ t.work = .finishing sid
  transit : ∀ sid, o = some sid → ∃ x, s.objects.get sid = some x ∧ x.child = none
    ∧ s.sessions.get x.programId = some sid
  starting : ∀ tid t admission, s.tasks.get tid = some t → t.work = .starting admission →
    t.programId = admission.programId ∧ t.outputDirectory = admission.outputDirectory
  relaunching : ∀ tid t sid, s.tasks.get tid = some t → t.work = .relaunching sid →
    ∃ x, s.objects.get sid = some x ∧ x.child = none ∧ s.sessions.get x.programId = some sid
      ∧ t.programId = x.programId ∧ t.outputDirectory = x.outputDirectory
  finishing : ∀ tid t sid, s.tasks.get tid = some t → t.work = .finishing sid →
    ∃ x, s.objects.get sid = some x ∧ x.child = none ∧ s.sessions.get x.programId ≠ some sid
  ops : ∀ tid t d, s.tasks.get tid = some t → .remove d ∈ t.ops → d = t.outputDirectory
  apart : Apart Distant (uses s o)

theorem good_init : Good init none where
  object_lt _ _ h := by cases h
  child_lt _ _ h := by cases h
  task_lt _ _ h := by cases h
  owned _ _ h := by cases h
  unique _ _ _ _ h := by cases h
  running _ _ _ h := by cases h
  live _ _ _ h := by cases h
  idle _ _ h := by cases h
  registered _ _ h := by cases h
  removed _ _ h := by cases h
  transit _ h := by cases h
  starting _ _ _ h := by cases h
  relaunching _ _ _ h := by cases h
  finishing _ _ _ h := by cases h
  ops _ _ _ h := by cases h
  apart i j a b h := by
    cases i with
    | session sid => cases h
    | task tid => cases h

namespace Good

variable {s : SupervisorState} {sid tid : Nat} {t : Task}

theorem no_task (h : Good s (some sid))
    (ht : s.tasks.get tid = some t) : t.work.session? ≠ some sid := by
  intro hw
  obtain ⟨x, hx, -, hreg⟩ := h.transit sid rfl
  cases hwork : t.work with
  | starting admission =>
      rw [hwork] at hw
      cases hw
  | relaunching sid' =>
      rw [hwork, session?, some.injEq] at hw
      subst hw
      obtain ⟨x', hx', -, -, hprog, -⟩ := h.relaunching tid t sid' ht hwork
      cases hx.symm.trans hx'
      exact (h.apart (.task tid) (.session sid') _ _ (uses_task ht) (uses_transit hx)
        (by intro hne; cases hne)).1 hprog
  | finishing sid' =>
      rw [hwork, session?, some.injEq] at hw
      subst hw
      obtain ⟨x', hx', -, hnot⟩ := h.finishing tid t sid' ht hwork
      cases hx.symm.trans hx'
      exact hnot hreg

variable {o : Option Nat} {x : Session}

/-- A field of a session changes that none of the invariants reads, or that
only those on its phase read while it is in transit, or a removed session
answers its stops. -/
theorem edit (h : Good s o)
    (hx : s.objects.get sid = some x) (y : Session) (hp : y.programId = x.programId)
    (hd : y.outputDirectory = x.outputDirectory) (hc : y.child = x.child)
    (hdone : y.completed = x.completed ∨
      (x.child = none ∧ s.sessions.get x.programId ≠ some sid ∧ y.completed = true))
    (hgen : x.generation ≤ y.generation) (hphase : o = some sid ∨
      (y.generation = x.generation ∧ y.endingGeneration = x.endingGeneration))
    (hstop : y.stopping = x.stopping ∨ s.sessions.get x.programId = some sid) :
    Good (s.setObject sid y) o := by
  have hget : ∀ k, (s.setObject sid y).objects.get k
      = if k = sid then some y else s.objects.get k := fun k => s.objects.get_set sid k y
  -- a session of the new state, read in the old one
  have hback : ∀ k z, (s.setObject sid y).objects.get k = some z →
      ∃ w, s.objects.get k = some w ∧ z.programId = w.programId
        ∧ z.outputDirectory = w.outputDirectory ∧ z.child = w.child
        ∧ (z.completed = w.completed ∨
          (w.child = none ∧ s.sessions.get w.programId ≠ some k ∧ z.completed = true))
        ∧ w.generation ≤ z.generation
        ∧ (o = some k ∨ (z.generation = w.generation ∧ z.endingGeneration = w.endingGeneration))
        ∧ (z.stopping = w.stopping ∨ s.sessions.get w.programId = some k) := by
    intro k z hz
    rw [hget] at hz
    by_cases hk : k = sid
    · rw [if_pos hk] at hz
      cases hz
      subst hk
      exact ⟨x, hx, hp, hd, hc, hdone, hgen, hphase, hstop⟩
    · rw [if_neg hk] at hz
      exact ⟨z, hz, rfl, rfl, rfl, .inl rfl, le_refl _, .inr ⟨rfl, rfl⟩, .inl rfl⟩
  have hforth : ∀ k w, s.objects.get k = some w →
      ∃ z, (s.setObject sid y).objects.get k = some z ∧ z.programId = w.programId
        ∧ z.outputDirectory = w.outputDirectory ∧ z.child = w.child
        ∧ (z.completed = w.completed ∨ s.sessions.get w.programId ≠ some k)
        ∧ w.generation ≤ z.generation := by
    intro k w hw
    by_cases hk : k = sid
    · subst hk
      cases hx.symm.trans hw
      exact ⟨y, by rw [hget, if_pos rfl], hp, hd, hc, hdone.imp_right fun hr => hr.2.1, hgen⟩
    · exact ⟨w, by rw [hget, if_neg hk, hw], rfl, rfl, rfl, .inl rfl, le_refl _⟩
  refine
    { h with
      object_lt := ?_, owned := ?_, running := ?_, live := ?_, idle := ?_, registered := ?_
      removed := ?_, transit := ?_, relaunching := ?_, finishing := ?_, apart := ?_ }
  · intro k z hz
    obtain ⟨w, hw, -⟩ := hback k z hz
    exact h.object_lt k w hw
  · intro cid c hcid
    obtain ⟨w, hw, hle⟩ := h.owned cid c hcid
    obtain ⟨z, hz, -, -, -, -, hle'⟩ := hforth _ w hw
    exact ⟨z, hz, le_trans hle hle'⟩
  · intro cid c z hcid hrun hz
    obtain ⟨w, hw, -, -, hchild, -⟩ := hback _ z hz
    exact hchild.trans (h.running cid c w hcid hrun hw)
  · intro k z cid hz hcid
    obtain ⟨w, hw, hpw, -, hchild, hcomp, -, hph, -⟩ := hback k z hz
    obtain ⟨hne, hreg, hend, hfin, c, hcc, hs, hg, hcl⟩ :=
      h.live k w cid hw (hchild.symm.trans hcid)
    obtain ⟨hgw, hew⟩ := hph.resolve_left hne
    have hsame : z.completed = w.completed := hcomp.resolve_right fun hr => hr.2.1 hreg
    rw [hpw, hgw, hew, hsame]
    exact ⟨hne, hreg, hend, hfin, c, hcc, hs, hg, hcl⟩
  · intro k z hz hne hnone
    obtain ⟨w, hw, -, -, hchild, -, -, hph, -⟩ := hback k z hz
    obtain ⟨hgw, hew⟩ := hph.resolve_left hne
    rw [hgw, hew]
    exact h.idle k w hw hne (hchild.symm.trans hnone)
  · intro p k hk
    obtain ⟨w, hw, hpw, hcw, htask⟩ := h.registered p k hk
    obtain ⟨z, hz, hpz, -, hchild, hcomp, -⟩ := hforth k w hw
    have hsame : z.completed = w.completed :=
      hcomp.resolve_right fun hr => hr (by rw [hpw]; exact hk)
    exact ⟨z, hz, hpz.trans hpw, hsame.trans hcw,
      fun hne hnone => htask hne (hchild.symm.trans hnone)⟩
  · intro k z hz hnot hstopping
    obtain ⟨w, hw, hpw, -, -, hcomp, -, -, hst⟩ := hback k z hz
    rw [hpw] at hnot
    rcases hcomp with hsame | ⟨-, -, htrue⟩
    · rw [hsame]
      exact h.removed k w hw hnot ((hst.resolve_right hnot).symm.trans hstopping)
    · exact .inl htrue
  · intro k hk
    obtain ⟨w, hw, hnone, hreg⟩ := h.transit k hk
    obtain ⟨z, hz, hpz, -, hchild, -⟩ := hforth k w hw
    exact ⟨z, hz, hchild.trans hnone, by rw [hpz]; exact hreg⟩
  · intro tid t k ht hwork
    obtain ⟨w, hw, hnone, hreg, hprog, hdir⟩ := h.relaunching tid t k ht hwork
    obtain ⟨z, hz, hpz, hdz, hchild, -⟩ := hforth k w hw
    exact ⟨z, hz, hchild.trans hnone, by rw [hpz]; exact hreg, hprog.trans hpz.symm,
      hdir.trans hdz.symm⟩
  · intro tid t k ht hwork
    obtain ⟨w, hw, hnone, hnot⟩ := h.finishing tid t k ht hwork
    obtain ⟨z, hz, hpz, -, hchild, -⟩ := hforth k w hw
    exact ⟨z, hz, hchild.trans hnone, by rw [hpz]; exact hnot⟩
  · refine h.apart.sub ?_
    intro u a hu
    cases u with
    | task tid => exact hu
    | session k =>
        simp only [uses, bind_eq_some_iff] at hu ⊢
        obtain ⟨z, hz, hu⟩ := hu
        obtain ⟨w, hw, hpw, hdw, hchild, -⟩ := hback k z hz
        exact ⟨w, hw, by rw [← hpw, ← hdw, ← hchild]; exact hu⟩

/-- A session whose child does not run any more comes into transit. -/
theorem detach (h : Good s none) {cid : Nat}
    (hx : s.objects.get sid = some x) (hcid : x.child = some cid)
    (hrun : ∀ c, s.children.get cid = some c → c.running = false) :
    Good (s.setObject sid { x with child := none }) (some sid) := by
  obtain ⟨-, hreg, -, hdone, -⟩ := h.live sid x cid hx hcid
  have hget : ∀ k, (s.setObject sid { x with child := none }).objects.get k
      = if k = sid then some { x with child := none } else s.objects.get k :=
    fun k => s.objects.get_set sid k _
  have hself : (s.setObject sid { x with child := none }).objects.get sid
      = some { x with child := none } := by rw [hget, if_pos rfl]
  have hold : ∀ k, k ≠ sid →
      (s.setObject sid { x with child := none }).objects.get k = s.objects.get k := by
    intro k hk
    rw [hget, if_neg hk]
  refine
    { h with
      object_lt := ?_, owned := ?_, running := ?_, live := ?_, idle := ?_, registered := ?_
      removed := ?_, transit := ?_, relaunching := ?_, finishing := ?_, apart := ?_ }
  · intro k z hz
    by_cases hk : k = sid
    · exact hk ▸ h.object_lt sid x hx
    · exact h.object_lt k z (hold k hk ▸ hz)
  · intro cid' c hc
    obtain ⟨w, hw, hle⟩ := h.owned cid' c hc
    by_cases hk : c.session = sid
    · rw [hk] at hw ⊢
      cases hx.symm.trans hw
      exact ⟨_, hself, hle⟩
    · exact ⟨w, (hold _ hk).trans hw, hle⟩
  · intro cid' c z hc hrunning hz
    by_cases hk : c.session = sid
    · -- the child that ran would be the one that was let go
      have hchild := h.running cid' c x hc hrunning (hk ▸ hx)
      cases hcid.symm.trans hchild
      rw [hrun c hc] at hrunning
      cases hrunning
    · exact h.running cid' c z hc hrunning (hold _ hk ▸ hz)
  · intro k z cid' hz hchild
    by_cases hk : k = sid
    · subst hk
      rw [hself] at hz
      cases hz
      cases hchild
    · obtain ⟨-, hrest⟩ := h.live k z cid' (hold k hk ▸ hz) hchild
      exact ⟨fun hs => hk (some.inj hs).symm, hrest⟩
  · intro k z hz hne hnone
    have hk : k ≠ sid := fun hk => hne (congrArg some hk.symm)
    exact h.idle k z (hold k hk ▸ hz) (by simp) hnone
  · intro p k hk
    obtain ⟨w, hw, hp, hfin, htask⟩ := h.registered p k hk
    by_cases hks : k = sid
    · subst hks
      cases hx.symm.trans hw
      exact ⟨_, hself, hp, hdone, fun hne => absurd rfl hne⟩
    · exact ⟨w, (hold k hks).trans hw, hp, hfin, fun _ => htask (by simp)⟩
  · intro k z hz hnot hstopping
    by_cases hk : k = sid
    · subst hk
      rw [hself] at hz
      cases hz
      exact absurd hreg hnot
    · exact h.removed k z (hold k hk ▸ hz) hnot hstopping
  · intro k hk
    cases hk
    exact ⟨_, hself, rfl, hreg⟩
  · intro tid t k ht hwork
    obtain ⟨w, hw, hnone, hrest⟩ := h.relaunching tid t k ht hwork
    have hk : k ≠ sid := by
      rintro rfl
      cases hx.symm.trans hw
      rw [hcid] at hnone
      cases hnone
    exact ⟨w, (hold k hk).trans hw, hnone, hrest⟩
  · intro tid t k ht hwork
    obtain ⟨w, hw, hnone, hrest⟩ := h.finishing tid t k ht hwork
    have hk : k ≠ sid := by
      rintro rfl
      cases hx.symm.trans hw
      rw [hcid] at hnone
      cases hnone
    exact ⟨w, (hold k hk).trans hw, hnone, hrest⟩
  · refine h.apart.sub ?_
    intro u a hu
    cases u with
    | task tid => exact hu
    | session k =>
        by_cases hk : k = sid
        · subst hk
          rw [uses_transit hself] at hu
          rw [uses_child hx hcid]
          exact hu
        · rw [← hu]
          exact (uses_session_of_ne (hold k hk) (by simp) (by simp [Ne.symm hk])).symm

theorem attach (h : Good s (some sid))
    (hx : s.objects.get sid = some x) (y : Session) (hp : y.programId = x.programId)
    (hd : y.outputDirectory = x.outputDirectory) (hc : y.child = some s.nextChild)
    (hdone : y.completed = x.completed) (hgen : x.generation < y.generation)
    (hend : y.endingGeneration ≠ y.generation) (c : Child) (hs : c.session = sid)
    (hg : c.generation = y.generation) (hcl : c.closed = false) :
    Good { s with
      objects := s.objects.set sid y
      children := s.children.set s.nextChild c
      nextChild := s.nextChild + 1 } none := by
  obtain ⟨x', hx', hnone, hreg⟩ := h.transit sid rfl
  cases hx.symm.trans hx'
  obtain ⟨x', hx', -, hfin, -⟩ := h.registered x.programId sid hreg
  cases hx.symm.trans hx'
  have hself : (s.objects.set sid y).get sid = some y := get_set_self ..
  have hold : ∀ k, k ≠ sid → (s.objects.set sid y).get k = s.objects.get k :=
    fun k hk => get_set_of_ne _ _ hk
  have hchild : (s.children.set s.nextChild c).get s.nextChild = some c := get_set_self ..
  -- the children there were have other names
  have hkept : ∀ cid d, s.children.get cid = some d →
      (s.children.set s.nextChild c).get cid = some d := by
    intro cid d hcd
    rw [get_set_of_ne _ _ (Nat.ne_of_lt (h.child_lt cid d hcd)), hcd]
  have hback : ∀ cid d, (s.children.set s.nextChild c).get cid = some d →
      (cid = s.nextChild ∧ d = c) ∨ s.children.get cid = some d := by
    intro cid d hcd
    by_cases hk : cid = s.nextChild
    · rw [hk, hchild] at hcd
      exact .inl ⟨hk, (some.inj hcd).symm⟩
    · rw [get_set_of_ne _ _ hk] at hcd
      exact .inr hcd
  -- and those of the session an older generation, and none of them runs
  have hless : ∀ cid d, s.children.get cid = some d → d.session = sid →
      d.generation < y.generation := by
    intro cid d hcd hds
    obtain ⟨w, hw, hle⟩ := h.owned cid d hcd
    rw [hds] at hw
    cases hx.symm.trans hw
    exact lt_of_le_of_lt hle hgen
  refine
    { h with
      object_lt := ?_, child_lt := ?_, owned := ?_, unique := ?_, running := ?_, live := ?_
      idle := ?_, registered := ?_, removed := ?_, transit := ?_, relaunching := ?_
      finishing := ?_, apart := ?_ }
  · intro k z hz
    by_cases hk : k = sid
    · exact hk ▸ h.object_lt sid x hx
    · exact h.object_lt k z (hold k hk ▸ hz)
  · intro cid d hcd
    rcases hback cid d hcd with ⟨rfl, -⟩ | hcd
    · exact lt_succ_self _
    · exact lt_succ_of_lt (h.child_lt cid d hcd)
  · intro cid d hcd
    rcases hback cid d hcd with ⟨-, rfl⟩ | hcd
    · exact ⟨y, by rw [hs]; exact hself, le_of_eq hg⟩
    · obtain ⟨w, hw, hle⟩ := h.owned cid d hcd
      by_cases hk : d.session = sid
      · exact ⟨y, by rw [hk]; exact hself, le_of_lt (hless cid d hcd hk)⟩
      · exact ⟨w, (hold _ hk).trans hw, hle⟩
  · intro cid d cid' d' hcd hcd' hsess hgen'
    rcases hback cid d hcd with ⟨hk, hdc⟩ | hin <;>
      rcases hback cid' d' hcd' with ⟨hk', hdc'⟩ | hin'
    · exact hk.trans hk'.symm
    · have := hless cid' d' hin' (by rw [← hsess, hdc, hs])
      rw [hdc, hg] at hgen'
      omega
    · have := hless cid d hin (by rw [hsess, hdc', hs])
      rw [hdc', hg] at hgen'
      omega
    · exact h.unique cid d cid' d' hin hin' hsess hgen'
  · intro cid d z hcd hrun hz
    rcases hback cid d hcd with ⟨rfl, rfl⟩ | hcd
    · rw [hs, hself] at hz
      exact (some.inj hz) ▸ hc
    · by_cases hk : d.session = sid
      · have := h.running cid d x hcd hrun (by rw [hk]; exact hx)
        rw [hnone] at this
        cases this
      · exact h.running cid d z hcd hrun (hold _ hk ▸ hz)
  · intro k z cid hz hcid
    by_cases hk : k = sid
    · subst hk
      rw [hself] at hz
      cases hz
      cases hc.symm.trans hcid
      exact ⟨by simp, by rw [hp]; exact hreg, hend, hdone.trans hfin, c, hchild, hs, hg, hcl⟩
    · obtain ⟨-, hr, he, hf, d, hd', hrest⟩ := h.live k z cid (hold k hk ▸ hz) hcid
      exact ⟨by simp, hr, he, hf, d, hkept cid d hd', hrest⟩
  · intro k z hz _ hzc
    by_cases hk : k = sid
    · subst hk
      rw [hself] at hz
      cases hz
      rw [hc] at hzc
      cases hzc
    · exact h.idle k z (hold k hk ▸ hz) (fun ho => hk (some.inj ho).symm) hzc
  · intro p k hk
    obtain ⟨w, hw, hpw, hfw, htask⟩ := h.registered p k hk
    by_cases hks : k = sid
    · subst hks
      cases hx.symm.trans hw
      refine ⟨y, hself, hp.trans hpw, hdone.trans hfw, fun _ hyc => ?_⟩
      rw [hc] at hyc
      cases hyc
    · exact ⟨w, (hold k hks).trans hw, hpw, hfw, fun _ => htask (fun ho => hks (some.inj ho).symm)⟩
  · intro k z hz hnot hstopping
    by_cases hk : k = sid
    · subst hk
      rw [hself] at hz
      cases hz
      rw [hp] at hnot
      exact absurd hreg hnot
    · exact h.removed k z (hold k hk ▸ hz) hnot hstopping
  · intro k hk
    cases hk
  · intro tid t k ht hwork
    have hk : k ≠ sid := by
      rintro rfl
      exact h.no_task ht (by rw [hwork, session?])
    obtain ⟨w, hw, hrest⟩ := h.relaunching tid t k ht hwork
    exact ⟨w, (hold k hk).trans hw, hrest⟩
  · intro tid t k ht hwork
    have hk : k ≠ sid := by
      rintro rfl
      exact h.no_task ht (by rw [hwork, session?])
    obtain ⟨w, hw, hrest⟩ := h.finishing tid t k ht hwork
    exact ⟨w, (hold k hk).trans hw, hrest⟩
  · refine h.apart.sub ?_
    intro u a hu
    cases u with
    | task tid => exact hu
    | session k =>
        by_cases hk : k = sid
        · subst hk
          rw [uses_child hself hc, hp, hd] at hu
          rw [uses_transit hx]
          exact hu
        · rw [← hu]
          exact (uses_session_of_ne (hold k hk) (by simp [Ne.symm hk]) (by simp)).symm

/-! ### Suspended calls -/

theorem suspended {u : Task} (hu : (s.suspend t).tasks.get tid = some u) :
    (tid = s.nextTask ∧ u = t) ∨ s.tasks.get tid = some u := by
  rw [suspend, get_set] at hu
  by_cases hk : tid = s.nextTask
  · rw [if_pos hk] at hu
    exact .inl ⟨hk, (some.inj hu).symm⟩
  · rw [if_neg hk] at hu
    exact .inr hu

theorem suspend_self (s : SupervisorState) (t : Task) :
    (s.suspend t).tasks.get s.nextTask = some t := get_set_self ..

theorem suspend_kept (h : Good s o) {u : Task}
    (hu : s.tasks.get tid = some u) (t : Task) : (s.suspend t).tasks.get tid = some u := by
  rw [suspend, get_set_of_ne _ _ (Nat.ne_of_lt (h.task_lt tid u hu)), hu]

theorem suspend_start (h : Good s none) {admission : Admission}
    (hwork : t.work = .starting admission) (hp : t.programId = admission.programId)
    (hd : t.outputDirectory = admission.outputDirectory)
    (hops : ∀ d, .remove d ∈ t.ops → d = t.outputDirectory)
    (hfree : ∀ u a, uses s none u = some a → Distant (t.programId, t.outputDirectory) a) :
    Good (s.suspend t) none := by
  refine
    { h with
      task_lt := ?_, registered := ?_, removed := ?_, starting := ?_, relaunching := ?_
      finishing := ?_, ops := ?_, apart := ?_ }
  · intro tid u hu
    rcases suspended hu with ⟨rfl, -⟩ | hin
    · exact lt_succ_self _
    · exact lt_succ_of_lt (h.task_lt tid u hin)
  · intro p k hk
    obtain ⟨w, hw, hpw, hfw, htask⟩ := h.registered p k hk
    refine ⟨w, hw, hpw, hfw, fun hne hnone => ?_⟩
    obtain ⟨tid, u, hu, huw⟩ := htask hne hnone
    exact ⟨tid, u, h.suspend_kept hu t, huw⟩
  · intro k z hz hnot hstopping
    refine (h.removed k z hz hnot hstopping).imp_right ?_
    rintro ⟨tid, u, hu, huw⟩
    exact ⟨tid, u, h.suspend_kept hu t, huw⟩
  · intro tid u a hu huw
    rcases suspended hu with ⟨-, rfl⟩ | hin
    · obtain rfl := starting.inj (hwork.symm.trans huw)
      exact ⟨hp, hd⟩
    · exact h.starting tid u a hin huw
  · intro tid u k hu huw
    rcases suspended hu with ⟨-, rfl⟩ | hin
    · rw [hwork] at huw
      cases huw
    · exact h.relaunching tid u k hin huw
  · intro tid u k hu huw
    rcases suspended hu with ⟨-, rfl⟩ | hin
    · rw [hwork] at huw
      cases huw
    · exact h.finishing tid u k hin huw
  · intro tid u d hu hmem
    rcases suspended hu with ⟨-, rfl⟩ | hin
    · exact hops d hmem
    · exact h.ops tid u d hin hmem
  · refine h.apart.insert (uses_task (suspend_self s t)) ?_
      fun u a hu => ⟨hfree u a hu, (hfree u a hu).symm⟩
    intro u hne a hu
    cases u with
    | session k => exact hu
    | task tid =>
        rw [← hu]
        exact (uses_suspend _ none (fun hk => hne (congrArg User.task hk))).symm

/-- A session leaves transit, to be launched again after its directory is
made anew. -/
theorem suspend_relaunching (h : Good s (some sid))
    (hx : s.objects.get sid = some x) (hend : x.endingGeneration = x.generation)
    (hwork : t.work = .relaunching sid) (hp : t.programId = x.programId)
    (hd : t.outputDirectory = x.outputDirectory)
    (hops : ∀ d, .remove d ∈ t.ops → d = t.outputDirectory) : Good (s.suspend t) none := by
  obtain ⟨x', hx', hnone, hreg⟩ := h.transit sid rfl
  cases hx.symm.trans hx'
  have hother : ∀ {k}, k ≠ sid → some sid ≠ some k := fun hk ho => hk (some.inj ho).symm
  refine
    { h with
      task_lt := ?_, live := ?_, idle := ?_, registered := ?_, removed := ?_, transit := ?_
      starting := ?_, relaunching := ?_, finishing := ?_, ops := ?_, apart := ?_ }
  · intro tid u hu
    rcases suspended hu with ⟨rfl, -⟩ | hin
    · exact lt_succ_self _
    · exact lt_succ_of_lt (h.task_lt tid u hin)
  · intro k z cid hz hcid
    obtain ⟨-, hrest⟩ := h.live k z cid hz hcid
    exact ⟨by simp, hrest⟩
  · intro k z hz _ hzc
    by_cases hk : k = sid
    · subst hk
      cases hx.symm.trans hz
      exact hend
    · exact h.idle k z hz (hother hk) hzc
  · intro p k hk
    obtain ⟨w, hw, hpw, hfw, htask⟩ := h.registered p k hk
    refine ⟨w, hw, hpw, hfw, fun _ hzc => ?_⟩
    by_cases hks : k = sid
    · exact ⟨s.nextTask, t, suspend_self s t, hks ▸ hwork⟩
    · obtain ⟨tid, u, hu, huw⟩ := htask (hother hks) hzc
      exact ⟨tid, u, h.suspend_kept hu t, huw⟩
  · intro k z hz hnot hstopping
    refine (h.removed k z hz hnot hstopping).imp_right ?_
    rintro ⟨tid, u, hu, huw⟩
    exact ⟨tid, u, h.suspend_kept hu t, huw⟩
  · intro k hk
    cases hk
  · intro tid u a hu huw
    rcases suspended hu with ⟨-, rfl⟩ | hin
    · rw [hwork] at huw
      cases huw
    · exact h.starting tid u a hin huw
  · intro tid u k hu huw
    rcases suspended hu with ⟨-, rfl⟩ | hin
    · obtain rfl := relaunching.inj (hwork.symm.trans huw)
      exact ⟨x, hx, hnone, hreg, hp, hd⟩
    · exact h.relaunching tid u k hin huw
  · intro tid u k hu huw
    rcases suspended hu with ⟨-, rfl⟩ | hin
    · rw [hwork] at huw
      cases huw
    · exact h.finishing tid u k hin huw
  · intro tid u d hu hmem
    rcases suspended hu with ⟨-, rfl⟩ | hin
    · exact hops d hmem
    · exact h.ops tid u d hin hmem
  · refine h.apart.move (uses_idle (o := none) hx hnone (by simp)) (j := .task s.nextTask) ?_ ?_
    · intro a ha
      rw [uses_task (suspend_self s t), hp, hd] at ha
      rw [uses_transit hx]
      exact ha
    · intro u hu hu' a ha
      cases u with
      | session k =>
          have hk : k ≠ sid := fun hk => hu (congrArg User.session hk)
          rw [← ha]
          exact (uses_session_of_ne rfl (by simp [Ne.symm hk]) (by simp)).symm
      | task tid =>
          rw [← ha]
          exact (uses_suspend _ none (fun hk => hu' (congrArg User.task hk))).symm

theorem finish {s : SupervisorState} {sid : Nat} (h : Good s (some sid)) {x : Session}
    (hx : s.objects.get sid = some x) (hend : x.endingGeneration = x.generation)
    (state : SessionState) : Good (finish s sid x state) none := by
  obtain ⟨x', hx', hnone, hreg⟩ := h.transit sid rfl
  cases hx.symm.trans hx'
  have hedit := h.edit hx { x with state := state } rfl rfl rfl (.inl rfl) (le_refl _)
    (.inl rfl) (.inl rfl)
  have hother : ∀ {k}, k ≠ sid → some sid ≠ some k := fun hk ho => hk (some.inj ho).symm
  have hself : (s.setObject sid { x with state := state }).objects.get sid
      = some { x with state := state } := get_set_self ..
  -- what the map of the registered sessions still says
  have hkept : ∀ p k, (s.sessions.erase x.programId).get p = some k →
      s.sessions.get p = some k ∧ k ≠ sid := by
    intro p k hk
    by_cases hp : p = x.programId
    · rw [hp, get_erase_self] at hk
      cases hk
    · rw [get_erase_of_ne _ hp] at hk
      refine ⟨hk, ?_⟩
      rintro rfl
      obtain ⟨w, hw, hpw, -⟩ := h.registered p k hk
      cases hx.symm.trans hw
      exact hp hpw.symm
  have hstill : ∀ p k, s.sessions.get p = some k → k ≠ sid →
      (s.sessions.erase x.programId).get p = some k := by
    intro p k hk hks
    rw [get_erase_of_ne, hk]
    rintro rfl
    exact hks (some.inj (hk.symm.trans hreg))
  refine
    { hedit with
      task_lt := ?_, live := ?_, idle := ?_, registered := ?_, removed := ?_, transit := ?_
      starting := ?_, relaunching := ?_, finishing := ?_, ops := ?_, apart := ?_ }
  · intro tid u hu
    rcases suspended hu with ⟨rfl, -⟩ | hin
    · exact lt_succ_self _
    · exact lt_succ_of_lt (h.task_lt tid u hin)
  · intro k z cid hz hcid
    obtain ⟨hne, hr, hrest⟩ := hedit.live k z cid hz hcid
    exact ⟨by simp, hstill _ k hr (fun hk => hne (congrArg some hk.symm)), hrest⟩
  · intro k z hz _ hzc
    by_cases hk : k = sid
    · subst hk
      cases hself.symm.trans hz
      exact hend
    · exact hedit.idle k z hz (hother hk) hzc
  · intro p k hk
    obtain ⟨hk, hks⟩ := hkept p k hk
    obtain ⟨w, hw, hpw, hfw, htask⟩ := hedit.registered p k hk
    refine ⟨w, hw, hpw, hfw, fun _ hzc => ?_⟩
    obtain ⟨tid, u, hu, huw⟩ := htask (hother hks) hzc
    exact ⟨tid, u, h.suspend_kept hu _, huw⟩
  · intro k z hz hnot hstopping
    by_cases hk : k = sid
    · exact .inr ⟨s.nextTask, _, suspend_self .., hk ▸ rfl⟩
    · have hnot' : s.sessions.get z.programId ≠ some k := fun hr => hnot (hstill _ k hr hk)
      refine (hedit.removed k z hz hnot' hstopping).imp_right ?_
      rintro ⟨tid, u, hu, huw⟩
      exact ⟨tid, u, h.suspend_kept hu _, huw⟩
  · intro k hk
    cases hk
  · intro tid u a hu huw
    rcases suspended hu with ⟨-, rfl⟩ | hin
    · cases huw
    · exact h.starting tid u a hin huw
  · intro tid u k hu huw
    rcases suspended hu with ⟨-, rfl⟩ | hin
    · cases huw
    · have hk : k ≠ sid := by
        rintro rfl
        exact h.no_task hin (by rw [huw, session?])
      obtain ⟨w, hw, hnw, hr, hrest⟩ := hedit.relaunching tid u k hin huw
      exact ⟨w, hw, hnw, hstill _ k hr hk, hrest⟩
  · intro tid u k hu huw
    rcases suspended hu with ⟨-, rfl⟩ | hin
    · obtain rfl := finishing.inj huw
      refine ⟨_, hself, hnone, ?_⟩
      intro hr
      exact (hkept _ _ hr).2 rfl
    · obtain ⟨w, hw, hnw, hr⟩ := hedit.finishing tid u k hin huw
      exact ⟨w, hw, hnw, fun hr' => hr (hkept _ k hr').1⟩
  · intro tid u d hu hmem
    rcases suspended hu with ⟨-, rfl⟩ | hin
    · simpa using hmem
    · exact h.ops tid u d hin hmem
  · refine hedit.apart.move (uses_idle (o := none) hself hnone (by simp))
      (j := .task s.nextTask) ?_ ?_
    · intro a ha
      have htask : (Supervisor.finish s sid x state).tasks.get s.nextTask = some _ :=
        suspend_self ..
      rw [uses_task htask] at ha
      rw [uses_transit hself]
      exact ha
    · intro u hu hu' a ha
      cases u with
      | session k =>
          have hk : k ≠ sid := fun hk => hu (congrArg User.session hk)
          rw [← ha]
          exact (uses_session_of_ne rfl (by simp [Ne.symm hk]) (by simp)).symm
      | task tid =>
          rw [← ha]
          exact (uses_suspend (some sid) none (fun hk => hu' (congrArg User.task hk))).symm

/-! ### Calls that go on -/

theorem resumed_kept {k : Nat} {u : Task}
    (hu : (s.resumed tid).tasks.get k = some u) : s.tasks.get k = some u ∧ k ≠ tid := by
  by_cases hk : k = tid
  · rw [resumed, hk, get_erase_self] at hu
    cases hu
  · rw [resumed, get_erase_of_ne _ hk] at hu
    exact ⟨hu, hk⟩

theorem resumed_other {k : Nat} {u : Task}
    (hu : s.tasks.get k = some u) (hk : k ≠ tid) : (s.resumed tid).tasks.get k = some u := by
  rw [resumed, get_erase_of_ne _ hk, hu]

theorem uses_resumed {u : User} {a : String × Directory} (hu : uses (s.resumed tid) o u = some a) :
    uses s o u = some a ∧ u ≠ .task tid := by
  cases u with
  | session k => exact ⟨hu, by intro hne; cases hne⟩
  | task k =>
      simp only [uses, map_eq_some_iff] at hu ⊢
      obtain ⟨t, ht, hta⟩ := hu
      obtain ⟨ht, hk⟩ := resumed_kept ht
      exact ⟨⟨t, ht, hta⟩, fun hne => hk (User.task.inj hne)⟩

theorem drop (h : Good s o)
    (ht : s.tasks.get tid = some t) (hrel : ∀ sid, t.work ≠ .relaunching sid)
    (hfin : ∀ sid x, t.work = .finishing sid → s.objects.get sid = some x →
      x.stopping = true → x.completed = true) : Good (s.resumed tid) o := by
  have hother : ∀ {k u w}, s.tasks.get k = some u → u.work = w → t.work ≠ w →
      (s.resumed tid).tasks.get k = some u := by
    intro k u w hu huw hne
    refine resumed_other hu ?_
    rintro rfl
    cases ht.symm.trans hu
    exact hne huw
  refine
    { h with
      task_lt := fun k u hu => h.task_lt k u (resumed_kept hu).1
      starting := fun k u a hu => h.starting k u a (resumed_kept hu).1
      relaunching := fun k u sid hu => h.relaunching k u sid (resumed_kept hu).1
      finishing := fun k u sid hu => h.finishing k u sid (resumed_kept hu).1
      ops := fun k u d hu => h.ops k u d (resumed_kept hu).1
      apart := h.apart.sub fun u a hu => (uses_resumed hu).1
      registered := ?_, removed := ?_ }
  · intro p k hk
    obtain ⟨w, hw, hpw, hfw, htask⟩ := h.registered p k hk
    refine ⟨w, hw, hpw, hfw, fun hne hnone => ?_⟩
    obtain ⟨tid', u, hu, huw⟩ := htask hne hnone
    exact ⟨tid', u, hother hu huw (hrel k), huw⟩
  · intro k z hz hnot hstopping
    by_cases hk : t.work = .finishing k
    · exact .inl (hfin k z hk hz hstopping)
    · refine (h.removed k z hz hnot hstopping).imp_right ?_
      rintro ⟨tid', u, hu, huw⟩
      exact ⟨tid', u, hother hu huw hk, huw⟩

/-- The session whose directory was made anew comes into transit. -/
theorem resume_relaunching (h : Good s none)
    (ht : s.tasks.get tid = some t) (hwork : t.work = .relaunching sid) :
    Good (s.resumed tid) (some sid) := by
  obtain ⟨x, hx, hnone, hreg, hp, hd⟩ := h.relaunching tid t sid ht hwork
  have hother : ∀ {k u w}, s.tasks.get k = some u → u.work = w → w ≠ .relaunching sid →
      (s.resumed tid).tasks.get k = some u := by
    intro k u w hu huw hne
    refine resumed_other hu ?_
    rintro rfl
    cases ht.symm.trans hu
    exact hne (huw.symm.trans hwork)
  refine
    { h with
      task_lt := fun k u hu => h.task_lt k u (resumed_kept hu).1
      starting := fun k u a hu => h.starting k u a (resumed_kept hu).1
      relaunching := fun k u sid hu => h.relaunching k u sid (resumed_kept hu).1
      finishing := fun k u sid hu => h.finishing k u sid (resumed_kept hu).1
      ops := fun k u d hu => h.ops k u d (resumed_kept hu).1
      live := ?_, idle := ?_, registered := ?_, removed := ?_, transit := ?_, apart := ?_ }
  · intro k z cid hz hcid
    obtain ⟨-, hrest⟩ := h.live k z cid hz hcid
    refine ⟨?_, hrest⟩
    intro hk
    cases hk
    cases hx.symm.trans hz
    rw [hnone] at hcid
    cases hcid
  · intro k z hz _ hzc
    exact h.idle k z hz (by simp) hzc
  · intro p k hk
    obtain ⟨w, hw, hpw, hfw, htask⟩ := h.registered p k hk
    refine ⟨w, hw, hpw, hfw, fun hne hzc => ?_⟩
    obtain ⟨tid', u, hu, huw⟩ := htask (by simp) hzc
    exact ⟨tid', u, hother hu huw (fun hk => hne (congrArg some (relaunching.inj hk).symm)), huw⟩
  · intro k z hz hnot hstopping
    refine (h.removed k z hz hnot hstopping).imp_right ?_
    rintro ⟨tid', u, hu, huw⟩
    exact ⟨tid', u, hother hu huw (by intro hk; cases hk), huw⟩
  · intro k hk
    cases hk
    exact ⟨x, hx, hnone, hreg⟩
  · refine h.apart.move (i := .task tid) (j := .session sid) ?_ ?_ ?_
    · simp only [uses, resumed, get_erase_self, map_none]
    · intro a ha
      rw [uses_transit (s := s.resumed tid) hx] at ha
      rw [uses_task ht, hp, hd]
      exact ha
    · intro u hu hu' a ha
      cases u with
      | task k => exact (uses_resumed ha).1
      | session k =>
          have hk : k ≠ sid := fun hk => hu' (congrArg User.session hk)
          rw [← ha]
          exact (uses_session_of_ne rfl (by simp) (by simp [Ne.symm hk])).symm

/-- No session of a program is registered while a call on it is suspended that
belongs to no session. -/
theorem unregistered (h : Good s none)
    (ht : s.tasks.get tid = some t) (hw : t.work.session? = none) :
    s.sessions.get t.programId = none := by
  cases hreg : s.sessions.get t.programId with
  | none => rfl
  | some sid =>
      exfalso
      obtain ⟨x, hx, hp, -, htask⟩ := h.registered _ sid hreg
      cases hc : x.child with
      | some cid =>
          exact (h.apart (.task tid) (.session sid) _ _ (uses_task ht) (uses_child hx hc)
            (by intro hne; cases hne)).1 hp.symm
      | none =>
          obtain ⟨tid', u, hu, huw⟩ := htask (by simp) hc
          obtain ⟨x', hx', -, -, hp', -⟩ := h.relaunching tid' u sid hu huw
          cases hx.symm.trans hx'
          have hne : tid ≠ tid' := by
            rintro rfl
            cases ht.symm.trans hu
            rw [huw, session?] at hw
            cases hw
          exact (h.apart (.task tid) (.task tid') _ _ (uses_task ht) (uses_task hu)
            (fun heq => hne (User.task.inj heq))).1 (hp.symm.trans hp'.symm)

theorem admitted (h : Good s none) (hnone : x.child = none)
    (hdone : x.completed = false) (hreg : s.sessions.get x.programId = none)
    (hfree : ∀ u a, uses s none u = some a → Distant (x.programId, x.outputDirectory) a) :
    Good { s with
      sessions := s.sessions.set x.programId s.nextSession
      objects := s.objects.set s.nextSession x
      nextSession := s.nextSession + 1 } (some s.nextSession) := by
  have hself : (s.objects.set s.nextSession x).get s.nextSession = some x := get_set_self ..
  have hold : ∀ k, k ≠ s.nextSession → (s.objects.set s.nextSession x).get k = s.objects.get k :=
    fun k hk => get_set_of_ne _ _ hk
  have hkept : ∀ {k w}, s.objects.get k = some w →
      k ≠ s.nextSession ∧ (s.objects.set s.nextSession x).get k = some w := by
    intro k w hw
    have hk := Nat.ne_of_lt (h.object_lt k w hw)
    exact ⟨hk, (hold k hk).trans hw⟩
  have hregs : (s.sessions.set x.programId s.nextSession).get x.programId
      = some s.nextSession := get_set_self ..
  have hother : ∀ {p k}, s.sessions.get p = some k →
      (s.sessions.set x.programId s.nextSession).get p = some k := by
    intro p k hk
    rw [get_set_of_ne _ _, hk]
    rintro rfl
    rw [hreg] at hk
    cases hk
  refine
    { h with
      object_lt := ?_, owned := ?_, running := ?_, live := ?_, idle := ?_, registered := ?_
      removed := ?_, transit := ?_, relaunching := ?_, finishing := ?_, apart := ?_ }
  · intro k z hz
    by_cases hk : k = s.nextSession
    · exact hk ▸ lt_succ_self _
    · exact lt_succ_of_lt (h.object_lt k z (hold k hk ▸ hz))
  · intro cid c hc
    obtain ⟨w, hw, hle⟩ := h.owned cid c hc
    exact ⟨w, (hkept hw).2, hle⟩
  · intro cid c z hc hrun hz
    obtain ⟨w, hw, -⟩ := h.owned cid c hc
    exact h.running cid c z hc hrun (hold _ (hkept hw).1 ▸ hz)
  · intro k z cid hz hcid
    by_cases hk : k = s.nextSession
    · rw [hk] at hz
      cases hself.symm.trans hz
      rw [hnone] at hcid
      cases hcid
    · obtain ⟨-, hr, hrest⟩ := h.live k z cid (hold k hk ▸ hz) hcid
      exact ⟨fun ho => hk (some.inj ho).symm, hother hr, hrest⟩
  · intro k z hz hne hzc
    have hk : k ≠ s.nextSession := fun hk => hne (congrArg some hk.symm)
    exact h.idle k z (hold k hk ▸ hz) (by simp) hzc
  · intro p k hk
    by_cases hp : p = x.programId
    · rw [hp, hregs] at hk
      cases hk
      exact ⟨x, hself, hp.symm, hdone, fun hne => absurd rfl hne⟩
    · rw [get_set_of_ne _ _ hp] at hk
      obtain ⟨w, hw, hpw, hfw, htask⟩ := h.registered p k hk
      exact ⟨w, (hkept hw).2, hpw, hfw, fun _ => htask (by simp)⟩
  · intro k z hz hnot hstopping
    by_cases hk : k = s.nextSession
    · rw [hk] at hz hnot
      cases hself.symm.trans hz
      exact absurd hregs hnot
    · exact h.removed k z (hold k hk ▸ hz) (fun hr => hnot (hother hr)) hstopping
  · intro k hk
    cases hk
    exact ⟨x, hself, hnone, hregs⟩
  · intro tid t k ht hwork
    obtain ⟨w, hw, hnw, hr, hrest⟩ := h.relaunching tid t k ht hwork
    exact ⟨w, (hkept hw).2, hnw, hother hr, hrest⟩
  · intro tid t k ht hwork
    obtain ⟨w, hw, hnw, hr⟩ := h.finishing tid t k ht hwork
    refine ⟨w, (hkept hw).2, hnw, ?_⟩
    intro hr'
    by_cases hp : w.programId = x.programId
    · rw [hp, hregs] at hr'
      exact (hkept hw).1 (some.inj hr').symm
    · rw [get_set_of_ne _ _ hp] at hr'
      exact hr hr'
  · refine h.apart.insert (i := .session s.nextSession) (uses_transit hself) ?_
      fun u a hu => ⟨hfree u a hu, (hfree u a hu).symm⟩
    intro u hne a hu
    cases u with
    | task tid => exact hu
    | session k =>
        have hk : k ≠ s.nextSession := fun hk => hne (congrArg User.session hk)
        rw [← hu]
        exact (uses_session_of_ne (hold k hk) (by simp) (by simp [Ne.symm hk])).symm

/-- A child that is not the child of its session any more may change freely; one that is
may not close. -/
theorem flag (h : Good s o) {cid : Nat} {c : Child}
    (hc : s.children.get cid = some c) (d : Child) (hs : d.session = c.session)
    (hg : d.generation = c.generation) (hrun : d.running = true → c.running = true)
    (hcl : d.closed = c.closed ∨ ∀ x, s.objects.get c.session = some x → x.child ≠ some cid) :
    Good { s with children := s.children.set cid d } o := by
  have hback : ∀ k e, (s.children.set cid d).get k = some e →
      ∃ f, s.children.get k = some f ∧ e.session = f.session ∧ e.generation = f.generation
        ∧ (e.running = true → f.running = true) := by
    intro k e he
    by_cases hk : k = cid
    · rw [hk, get_set_self] at he
      cases he
      exact ⟨c, hk ▸ hc, hs, hg, hrun⟩
    · rw [get_set_of_ne _ _ hk] at he
      exact ⟨e, he, rfl, rfl, id⟩
  refine
    { h with
      child_lt := ?_, owned := ?_, unique := ?_, running := ?_, live := ?_ }
  · intro k e he
    obtain ⟨f, hf, -⟩ := hback k e he
    exact h.child_lt k f hf
  · intro k e he
    obtain ⟨f, hf, hes, heg, -⟩ := hback k e he
    rw [hes, heg]
    exact h.owned k f hf
  · intro k e k' e' he he' hsess hgen
    obtain ⟨f, hf, hes, heg, -⟩ := hback k e he
    obtain ⟨f', hf', hes', heg', -⟩ := hback k' e' he'
    exact h.unique k f k' f' hf hf' (hes.symm.trans (hsess.trans hes'))
      (heg.symm.trans (hgen.trans heg'))
  · intro k e z he hrunning hz
    obtain ⟨f, hf, hes, -, her⟩ := hback k e he
    exact h.running k f z hf (her hrunning) (hes ▸ hz)
  · intro k z cid' hz hcid'
    obtain ⟨hne, hreg, hend, hfin, e, he, hes, heg, hecl⟩ := h.live k z cid' hz hcid'
    refine ⟨hne, hreg, hend, hfin, ?_⟩
    by_cases hk : cid' = cid
    · subst hk
      cases hc.symm.trans he
      have hclosed : d.closed = c.closed :=
        hcl.resolve_right fun hno => hno z (by rw [hes]; exact hz) hcid'
      exact ⟨d, get_set_self .., hs.trans hes, hg.trans heg, hclosed.trans hecl⟩
    · exact ⟨e, by rw [get_set_of_ne _ _ hk, he], hes, heg, hecl⟩

theorem advance (h : Good s o)
    (ht : s.tasks.get tid = some t) {ops : List FileOp} (hops : ∀ op ∈ ops, op ∈ t.ops) :
    Good { s with tasks := s.tasks.set tid { t with ops := ops } } o := by
  have hself : (s.tasks.set tid { t with ops := ops }).get tid = some { t with ops := ops } :=
    get_set_self ..
  have hback : ∀ k u, (s.tasks.set tid { t with ops := ops }).get k = some u →
      ∃ v, s.tasks.get k = some v ∧ u.work = v.work ∧ u.programId = v.programId
        ∧ u.outputDirectory = v.outputDirectory ∧ ∀ op ∈ u.ops, op ∈ v.ops := by
    intro k u hu
    by_cases hk : k = tid
    · rw [hk, hself] at hu
      cases hu
      exact ⟨t, hk ▸ ht, rfl, rfl, rfl, hops⟩
    · rw [get_set_of_ne _ _ hk] at hu
      exact ⟨u, hu, rfl, rfl, rfl, fun _ hop => hop⟩
  have hforth : ∀ k v, s.tasks.get k = some v →
      ∃ u, (s.tasks.set tid { t with ops := ops }).get k = some u ∧ u.work = v.work := by
    intro k v hv
    by_cases hk : k = tid
    · subst hk
      cases ht.symm.trans hv
      exact ⟨_, hself, rfl⟩
    · exact ⟨v, by rw [get_set_of_ne _ _ hk, hv], rfl⟩
  refine
    { h with
      task_lt := ?_, registered := ?_, removed := ?_, starting := ?_, relaunching := ?_
      finishing := ?_, ops := ?_, apart := ?_ }
  · intro k u hu
    obtain ⟨v, hv, -⟩ := hback k u hu
    exact h.task_lt k v hv
  · intro p k hk
    obtain ⟨w, hw, hpw, hfw, htask⟩ := h.registered p k hk
    refine ⟨w, hw, hpw, hfw, fun hne hnone => ?_⟩
    obtain ⟨tid', v, hv, hvw⟩ := htask hne hnone
    obtain ⟨u, hu, huw⟩ := hforth tid' v hv
    exact ⟨tid', u, hu, huw.trans hvw⟩
  · intro k z hz hnot hstopping
    refine (h.removed k z hz hnot hstopping).imp_right ?_
    rintro ⟨tid', v, hv, hvw⟩
    obtain ⟨u, hu, huw⟩ := hforth tid' v hv
    exact ⟨tid', u, hu, huw.trans hvw⟩
  · intro k u a hu huw
    obtain ⟨v, hv, hw, hp, hd, -⟩ := hback k u hu
    rw [hp, hd]
    exact h.starting k v a hv (hw.symm.trans huw)
  · intro k u sid hu huw
    obtain ⟨v, hv, hw, hp, hd, -⟩ := hback k u hu
    rw [hp, hd]
    exact h.relaunching k v sid hv (hw.symm.trans huw)
  · intro k u sid hu huw
    obtain ⟨v, hv, hw, -⟩ := hback k u hu
    exact h.finishing k v sid hv (hw.symm.trans huw)
  · intro k u d hu hmem
    obtain ⟨v, hv, -, -, hd, hsub⟩ := hback k u hu
    rw [hd]
    exact h.ops k v d hv (hsub _ hmem)
  · refine h.apart.sub ?_
    intro w a ha
    cases w with
    | session k => exact ha
    | task k =>
        simp only [uses, map_eq_some_iff] at ha ⊢
        obtain ⟨u, hu, hua⟩ := ha
        obtain ⟨v, hv, -, hp, hd, -⟩ := hback k u hu
        exact ⟨v, hv, by rw [← hp, ← hd]; exact hua⟩

end Good

end Supervisor

end WebrtcMinimize
