import WebrtcMinimize.SupervisorPhases

/-!
# One process per program

Every orderly step keeps `Good`, and with it a program has one process at
most. What a `stop` has waited for is over for good: `Lasting` and `Born`
say what a step leaves behind.
-/

namespace WebrtcMinimize

namespace Supervisor

open KeyedMap Option Nat

/-! ## Every step -/

theorem remove_mem_prepareOps {d output : Directory} {ids : List String}
    (h : FileOp.remove d ∈ prepareOps output ids) : d = output := by
  rw [prepareOps, List.mem_cons] at h
  rcases h with h | h
  · exact FileOp.remove.inj h
  · obtain ⟨id, -, hid⟩ := List.mem_map.mp h
    cases hid

variable {s : SupervisorState} {sid : Nat} {x : Session}

/-- An end of the process that is not stale, as `#processEnded` takes it. -/
theorem processEnded_eq
    (hx : s.objects.get sid = some x) (hend : x.endingGeneration ≠ x.generation) :
    processEnded s sid x.generation =
      if x.stopping = false ∧ x.candidateIndex + 1 < x.candidates.length then
        (s.setObject sid { x with
            endingGeneration := x.generation
            killTimer := none
            child := none
            candidateIndex := x.candidateIndex + 1
            fallbackCount := x.fallbackCount + 1 }).suspend
          { work := .relaunching sid
            __ := x
            ops := prepareOps x.outputDirectory x.renditionIds }
      else
        finish s sid
          { x with endingGeneration := x.generation, killTimer := none, child := none }
          (if x.stopping then .stopped else .failed) := by
  rw [processEnded]
  simp only [hx, ne_eq, not_true_eq_false, hend, or_false, if_false]

theorem processEnded_detached
    (hx : s.objects.get sid = some x) (hend : x.endingGeneration ≠ x.generation) :
    processEnded (s.setObject sid { x with child := none }) sid x.generation
      = processEnded s sid x.generation := by
  have hself : (s.setObject sid { x with child := none }).objects.get sid
      = some { x with child := none } := get_set_self ..
  rw [processEnded_eq hx hend, processEnded_eq hself hend]
  simp only [finish, SupervisorState.setObject, set_set]

namespace Good

theorem ended {s : SupervisorState} {sid : Nat} (h : Good s (some sid)) {x : Session}
    (hx : s.objects.get sid = some x) (hne : x.endingGeneration ≠ x.generation) :
    Good (processEnded s sid x.generation) none := by
  obtain ⟨x', hx', hnone, -⟩ := h.transit sid rfl
  cases hx.symm.trans hx'
  rw [processEnded_eq hx hne]
  by_cases hmore : x.stopping = false ∧ x.candidateIndex + 1 < x.candidates.length
  · rw [if_pos hmore]
    have hedit := h.edit hx
      { x with
        endingGeneration := x.generation
        killTimer := none
        child := none
        candidateIndex := x.candidateIndex + 1
        fallbackCount := x.fallbackCount + 1 }
      rfl rfl hnone.symm (.inl rfl) (le_refl _) (.inl rfl) (.inl rfl)
    exact hedit.suspend_relaunching (get_set_self ..) rfl rfl rfl rfl
      fun d hd => remove_mem_prepareOps hd
  · rw [if_neg hmore]
    have hedit := h.edit hx
      { x with endingGeneration := x.generation, killTimer := none, child := none }
      rfl rfl hnone.symm (.inl rfl) (le_refl _) (.inl rfl) (.inl rfl)
    have hfin := hedit.finish (get_set_self ..) rfl (if x.stopping then .stopped else .failed)
    simp only [Supervisor.finish, SupervisorState.setObject, set_set] at hfin ⊢
    exact hfin

theorem launch {s : SupervisorState} {sid : Nat} (h : Good s (some sid)) {x : Session}
    (hx : s.objects.get sid = some x) (spawned : Spawn) :
    Good (launch s sid x spawned) none := by
  obtain ⟨x', hx', hnone, -⟩ := h.transit sid rfl
  cases hx.symm.trans hx'
  cases spawned with
  | throws =>
      have hedit := h.edit hx (launching x) rfl rfl rfl (.inl rfl) (le_succ _) (.inl rfl)
        (.inl rfl)
      exact hedit.ended (get_set_self ..) (succ_ne_zero x.generation).symm
  | fails =>
      exact h.attach hx { launching x with child := some s.nextChild } rfl rfl rfl rfl
        (lt_succ_self _) (succ_ne_zero x.generation).symm _ rfl rfl rfl
  | runs =>
      exact h.attach hx { launching x with child := some s.nextChild } rfl rfl rfl rfl
        (lt_succ_self _) (succ_ne_zero x.generation).symm _ rfl rfl rfl

theorem event {s : SupervisorState} (h : Good s none) {cid : Nat} {c : Child}
    (hc : s.children.get cid = some c) (hrun : c.running = false) (d : Child)
    (hs : d.session = c.session) (hg : d.generation = c.generation)
    (hrun' : d.running = c.running) :
    Good (processEnded { s with children := s.children.set cid d } c.session c.generation)
      none := by
  have hquiet : d.running = true → c.running = true := fun hr => by rw [← hrun', hr]
  obtain ⟨x, hx, -⟩ := h.owned cid c hc
  by_cases hstale : c.generation ≠ x.generation ∨ x.endingGeneration = c.generation
  · rw [processEnded]
    simp only [hx, if_pos hstale]
    refine h.flag hc d hs hg hquiet (.inr ?_)
    intro z hz hcid
    cases hx.symm.trans hz
    obtain ⟨-, -, hend, -, e, he, -, heg, -⟩ := h.live _ x cid hx hcid
    cases hc.symm.trans he
    rcases hstale with hgen | hending
    · exact hgen heg
    · exact hend (hending.trans heg)
  · have hgen : c.generation = x.generation := by
      by_contra hgen
      exact hstale (.inl hgen)
    have hend : x.endingGeneration ≠ x.generation := by
      intro hend
      exact hstale (.inr (hend.trans hgen.symm))
    -- so the child is the one its session has
    have hchild : x.child = some cid := by
      cases hxc : x.child with
      | none => exact absurd (h.idle _ x hx (by simp) hxc) hend
      | some k =>
          obtain ⟨-, -, -, -, e, he, hes, heg, -⟩ := h.live _ x k hx hxc
          rw [h.unique cid c k e hc he hes.symm (hgen.trans heg.symm)]
    have hdet := h.detach hx hchild (fun e he => by
      cases hc.symm.trans he
      exact hrun)
    have hself : (s.setObject c.session { x with child := none }).objects.get c.session
        = some { x with child := none } := get_set_self ..
    have hflag := hdet.flag hc d hs hg hquiet (.inr fun z hz => by
      cases hself.symm.trans hz
      simp)
    have hgood := hflag.ended hself hend
    rw [hgen, ← processEnded_detached (s := { s with children := s.children.set cid d }) hx hend]
    exact hgood

theorem start {s : SupervisorState} (h : Good s none) {admission : Admission}
    (hok : Orderly s (.start admission)) : Good (start s admission) none := by
  unfold Supervisor.start
  cases hreg : s.sessions.get admission.programId with
  | some sid => exact h
  | none =>
      obtain ⟨hsessions, htasks⟩ := hok hreg
      refine h.suspend_start rfl rfl rfl (fun d hd => remove_mem_prepareOps hd) ?_
      intro u a hu
      cases u with
      | task tid =>
          simp only [uses, map_eq_some_iff] at hu
          obtain ⟨t, ht, rfl⟩ := hu
          exact htasks tid t ht
      | session sid =>
          simp only [uses, bind_eq_some_iff] at hu
          obtain ⟨x, hx, hu⟩ := hu
          cases hc : x.child with
          | none => simp [hc] at hu
          | some cid =>
              simp only [hc, reduceCtorEq, false_and, if_false, some.injEq] at hu
              obtain ⟨-, hxreg, -⟩ := h.live sid x cid hx hc
              subst hu
              refine ⟨?_, hsessions _ sid x hxreg hx⟩
              intro hp
              have hp' : admission.programId = x.programId := hp
              rw [hp', hxreg] at hreg
              cases hreg

theorem stop {s : SupervisorState} (h : Good s none) (programId : String) (programEpoch : Nat) :
    Good (stop s programId programEpoch) none := by
  unfold Supervisor.stop
  cases hreg : s.sessions.get programId with
  | none => exact h
  | some sid =>
      obtain ⟨x, hx, hp, -⟩ := h.registered programId sid hreg
      simp only [hx]
      split
      · exact h
      · exact h.edit hx _ rfl rfl rfl (.inl rfl) (le_refl _) (.inr ⟨rfl, rfl⟩)
          (.inr (hp.symm ▸ hreg))

theorem destroy {s : SupervisorState} (h : Good s none) : Good (destroy s) none := by
  unfold Supervisor.destroy
  generalize s.sessions.values.filterMap s.objects.get = xs
  induction xs generalizing s with
  | nil => exact h
  | cons x xs ih => exact ih (h.stop x.programId x.programEpoch)

theorem timeout {s : SupervisorState} (h : Good s none) (sid : Nat) :
    Good (timeout s sid) none := by
  unfold Supervisor.timeout
  split
  · exact h
  · split
    · split
      · exact h
      · rename_i c hc
        split
        · exact h.flag hc { c with killed := true } rfl rfl id (.inl rfl)
        · exact h
    · exact h

theorem exits {s : SupervisorState} (h : Good s none) (cid : Nat) : Good (exits s cid) none := by
  unfold Supervisor.exits
  cases hc : s.children.get cid with
  | none => exact h
  | some c =>
      exact h.flag hc { c with running := false } rfl rfl (by intro hr; cases hr) (.inl rfl)

theorem closes {s : SupervisorState} (h : Good s none) (cid : Nat) : Good (closes s cid) none := by
  unfold Supervisor.closes
  cases hc : s.children.get cid with
  | none => exact h
  | some c =>
      by_cases hskip : c.running = true ∨ c.closed = true
      · simp only [if_pos hskip]
        exact h
      · simp only [if_neg hskip]
        have hrun : c.running = false := by
          cases hr : c.running with
          | false => rfl
          | true => exact absurd (.inl hr) hskip
        exact h.event hc hrun { c with closed := true } rfl rfl rfl

theorem errors {s : SupervisorState} (h : Good s none) {cid : Nat}
    (hok : Orderly s (.errors cid)) : Good (errors s cid) none := by
  unfold Supervisor.errors
  cases hc : s.children.get cid with
  | none => exact h
  | some c =>
      by_cases hskip : c.errored = true
      · simp only [if_pos hskip]
        exact h
      · simp only [if_neg hskip]
        exact h.event hc (hok c hc) { c with errored := true } rfl rfl rfl

theorem resume {s : SupervisorState} (h : Good s none) {tid : Nat} {t : Task}
    (ht : s.tasks.get tid = some t) (spawned : Spawn) :
    Good (resume (s.resumed tid) t.work spawned) none := by
  cases hwork : t.work with
  | starting admission =>
      obtain ⟨hp, hd⟩ := h.starting tid t admission ht hwork
      have hreg := h.unregistered ht (by rw [hwork, Work.session?])
      rw [hp] at hreg
      have hdrop : Good (s.resumed tid) none :=
        h.drop ht (by intro sid hw; rw [hwork] at hw; cases hw)
          (by intro sid x hw; rw [hwork] at hw; cases hw)
      have hadmit := hdrop.admitted (x := newSession admission) rfl rfl hreg (by
        intro u a hu
        obtain ⟨hu, hne⟩ := uses_resumed hu
        have hdist := h.apart (.task tid) u _ a (uses_task ht) hu hne.symm
        rw [hp, hd] at hdist
        exact hdist)
      exact hadmit.launch (get_set_self ..) spawned
  | relaunching sid =>
      obtain ⟨x, hx, hnone, hreg, -⟩ := h.relaunching tid t sid ht hwork
      have htransit := h.resume_relaunching ht hwork
      have hx' : (s.resumed tid).objects.get sid = some x := hx
      simp only [Supervisor.resume, hx']
      split
      · exact htransit.finish hx' (h.idle sid x hx (by simp) hnone) .stopped
      · exact htransit.launch hx' spawned
  | finishing sid =>
      obtain ⟨x, hx, hnone, hreg⟩ := h.finishing tid t sid ht hwork
      have hx' : (s.resumed tid).objects.get sid = some x := hx
      simp only [Supervisor.resume, hx']
      have hedit := h.edit hx { x with completed := true } rfl rfl rfl
        (.inr ⟨hnone, hreg, rfl⟩) (le_refl _) (.inr ⟨rfl, rfl⟩) (.inl rfl)
      have hself : (s.setObject sid { x with completed := true }).objects.get sid
          = some { x with completed := true } := get_set_self ..
      refine hedit.drop ht (by intro k hw; rw [hwork] at hw; cases hw) ?_
      intro k z hw hz _
      rw [hwork] at hw
      obtain rfl := Work.finishing.inj hw
      cases hself.symm.trans hz
      rfl

theorem fileDone {s : SupervisorState} (h : Good s none) {tid : Nat} {ok : Bool}
    {spawned : Spawn} (hok : Orderly s (.fileDone tid ok spawned)) :
    Good (fileDone s tid ok spawned) none := by
  unfold Supervisor.fileDone
  cases ht : s.tasks.get tid with
  | none => exact h
  | some t =>
      cases ok with
      | false =>
          have hfail := hok rfl t ht
          cases hwork : t.work with
          | starting admission =>
              exact h.drop ht (by intro sid hw; rw [hwork] at hw; cases hw)
                (by intro sid x hw; rw [hwork] at hw; cases hw)
          | relaunching sid =>
              rw [hwork] at hfail
              exact hfail.elim
          | finishing sid =>
              rw [hwork] at hfail
              refine h.drop ht (by intro k hw; rw [hwork] at hw; cases hw) ?_
              intro k x hw hx hstopping
              rw [hwork] at hw
              obtain rfl := Work.finishing.inj hw
              rw [hfail x hx] at hstopping
              cases hstopping
      | true =>
          simp only [Bool.true_eq_false, if_false]
          split
          · rename_i first op ops hops
            refine h.advance ht ?_
            intro q hq
            rw [hops]
            exact List.mem_cons_of_mem _ hq
          · exact h.resume ht spawned

end Good

variable {t : SupervisorState}

/-- Every orderly step keeps the invariant. -/
theorem step_good {e : Event} (hstep : Runs.Guarded Step Orderly s e t)
    (h : Good s none) : Good t none := by
  obtain ⟨rfl, hok⟩ := hstep
  cases e with
  | start admission => exact h.start hok
  | stop programId programEpoch => exact h.stop programId programEpoch
  | destroy => exact h.destroy
  | timeout sid => exact h.timeout sid
  | exits cid => exact h.exits cid
  | closes cid => exact h.closes cid
  | errors cid => exact h.errors hok
  | fileDone tid ok spawned => exact h.fileDone hok

/-! ## What the invariant says -/

theorem Good.oneProcess (h : Good s none) : OneProcess s := by
  intro cid c hc hrun
  obtain ⟨x, hx, -⟩ := h.owned cid c hc
  have hchild := h.running cid c x hc hrun hx
  exact ⟨x, hx, hchild, (h.live _ x cid hx hchild).2.1⟩

theorem Good.outputKept (h : Good s none) : OutputKept s := by
  intro cid c x hc hrun hx tid t d ht hpending hpre
  have hchild := h.running cid c x hc hrun hx
  have hd := h.ops tid t d ht (List.mem_of_mem_head? hpending)
  subst hd
  exact (h.apart (.task tid) (.session c.session) _ _ (uses_task ht) (uses_child hx hchild)
    (by intro hne; cases hne)).2 (.inl hpre)

theorem Good.stopsAnswered (h : Good s none) : StopsAnswered s := by
  intro sid x hx hstopping hclosed htasks
  by_cases hreg : s.sessions.get x.programId = some sid
  · exfalso
    cases hc : x.child with
    | some cid =>
        obtain ⟨-, -, -, -, c, hcc, hcs, -, hopen⟩ := h.live sid x cid hx hc
        rw [hclosed cid c hcc hcs] at hopen
        cases hopen
    | none =>
        obtain ⟨x', hx', -, -, htask⟩ := h.registered _ sid hreg
        cases hx.symm.trans hx'
        obtain ⟨tid, t, ht, hwork⟩ := htask (by simp) hc
        exact htasks tid t ht (by rw [hwork, Work.session?])
  · rcases h.removed sid x hx hreg hstopping with hdone | ⟨tid, t, ht, hwork⟩
    · exact hdone
    · exact absurd (by rw [hwork, Work.session?]) (htasks tid t ht)

theorem Good.quiet (h : Good s none)
    (hx : s.objects.get sid = some x) (hdone : x.completed = true) {cid : Nat} {c : Child}
    (hc : s.children.get cid = some c) (hs : c.session = sid) : c.running = false := by
  cases hrun : c.running with
  | false => rfl
  | true =>
      subst hs
      have hchild := h.running cid c x hc hrun hx
      obtain ⟨-, -, -, hopen, -⟩ := h.live _ x cid hx hchild
      rw [hdone] at hopen
      cases hopen

/-! ## What a step leaves behind -/

/-- A session that has answered its stops stays so. -/
def Lasting (m m' : KeyedMap Nat Session) : Prop :=
  ∀ sid x, m.get sid = some x → x.completed = true →
    ∃ y, m'.get sid = some y ∧ y.completed = true

theorem Lasting.refl (m : KeyedMap Nat Session) : Lasting m m := fun _ x hx hdone => ⟨x, hx, hdone⟩

theorem Lasting.trans {m₁ m₂ m₃ : KeyedMap Nat Session} (h : Lasting m₁ m₂)
    (h' : Lasting m₂ m₃) : Lasting m₁ m₃ := by
  intro sid x hx hdone
  obtain ⟨y, hy, hydone⟩ := h sid x hx hdone
  exact h' sid y hy hydone

theorem Lasting.set {m : KeyedMap Nat Session} {sid : Nat} {y : Session}
    (h : ∀ x, m.get sid = some x → x.completed = true → y.completed = true) :
    Lasting m (m.set sid y) := by
  intro k x hx hdone
  by_cases hk : k = sid
  · subst hk
    exact ⟨y, get_set_self .., h x hx hdone⟩
  · exact ⟨x, by rw [get_set_of_ne _ _ hk, hx], hdone⟩

/-- The children after a step: those before it, and the one a session got. -/
def Born (s t : SupervisorState) : Prop :=
  ∀ cid c, t.children.get cid = some c →
    (∃ c', s.children.get cid = some c' ∧ c'.session = c.session)
      ∨ ∃ y, t.objects.get c.session = some y ∧ y.child = some cid

theorem Born.of_children (h : t.children = s.children) : Born s t :=
  fun cid c hc => .inl ⟨c, by rw [← h]; exact hc, rfl⟩

theorem Born.of_set {cid : Nat} {c d : Child}
    (hc : s.children.get cid = some c) (hs : d.session = c.session)
    (h : t.children = s.children.set cid d) : Born s t := by
  intro k e he
  rw [h] at he
  by_cases hk : k = cid
  · subst hk
    cases (get_set_self ..).symm.trans he
    exact .inl ⟨c, hc, hs.symm⟩
  · rw [get_set_of_ne _ _ hk] at he
    exact .inl ⟨e, he, rfl⟩

theorem Lasting.set_of {m : KeyedMap Nat Session} {y : Session}
    (hx : m.get sid = some x) (hy : y.completed = x.completed) : Lasting m (m.set sid y) := by
  refine .set ?_
  intro z hz hdone
  cases hx.symm.trans hz
  exact hy.trans hdone

theorem processEnded_children (s : SupervisorState) (sid generation : Nat) :
    (processEnded s sid generation).children = s.children := by
  unfold processEnded
  split
  · rfl
  · split
    · rfl
    · split
      · rfl
      · rfl

theorem processEnded_lasting (s : SupervisorState) (sid generation : Nat) :
    Lasting s.objects (processEnded s sid generation).objects := by
  unfold processEnded
  split
  · exact .refl _
  · rename_i x hx
    split
    · exact .refl _
    · split
      · exact Lasting.set_of hx rfl
      · exact Lasting.set_of hx rfl

theorem launch_lasting (hx : s.objects.get sid = some x) (spawned : Spawn) :
    Lasting s.objects (launch s sid x spawned).objects := by
  cases spawned with
  | throws =>
      exact (Lasting.set_of (y := launching x) hx rfl).trans
        (processEnded_lasting (s.setObject sid (launching x)) sid (x.generation + 1))
  | fails => exact Lasting.set_of hx rfl
  | runs => exact Lasting.set_of hx rfl

theorem launch_born (s : SupervisorState) (sid : Nat) (x : Session) (spawned : Spawn) :
    Born s (launch s sid x spawned) := by
  have hnew : ∀ (y : Session) (c : Child) (t : SupervisorState), c.session = sid →
      y.child = some s.nextChild → t.objects = s.objects.set sid y →
      t.children = s.children.set s.nextChild c → Born s t := by
    intro y c t hs hy hobjects hchildren cid d hd
    rw [hchildren] at hd
    by_cases hk : cid = s.nextChild
    · subst hk
      cases (get_set_self ..).symm.trans hd
      exact .inr ⟨y, by rw [hobjects, hs, get_set_self], hy⟩
    · rw [get_set_of_ne _ _ hk] at hd
      exact .inl ⟨d, hd, rfl⟩
  cases spawned with
  | throws => exact .of_children (processEnded_children _ _ _)
  | fails => exact hnew _ _ _ rfl rfl rfl rfl
  | runs => exact hnew _ _ _ rfl rfl rfl rfl

theorem stop_objects (s : SupervisorState) (programId : String) (programEpoch : Nat) :
    Lasting s.objects (stop s programId programEpoch).objects
      ∧ (stop s programId programEpoch).children = s.children := by
  unfold stop
  split
  · exact ⟨.refl _, rfl⟩
  · split
    · exact ⟨.refl _, rfl⟩
    · rename_i x hx
      split
      · exact ⟨.refl _, rfl⟩
      · exact ⟨Lasting.set_of hx rfl, rfl⟩

theorem destroy_objects (s : SupervisorState) :
    Lasting s.objects (destroy s).objects ∧ (destroy s).children = s.children := by
  unfold destroy
  generalize s.sessions.values.filterMap s.objects.get = xs
  induction xs generalizing s with
  | nil => exact ⟨.refl _, rfl⟩
  | cons x xs ih =>
      obtain ⟨hlast, hchildren⟩ := stop_objects s x.programId x.programEpoch
      obtain ⟨hlast', hchildren'⟩ := ih (stop s x.programId x.programEpoch)
      exact ⟨hlast.trans hlast', hchildren'.trans hchildren⟩

theorem resume_forward
    (hfresh : ∀ sid x, s.objects.get sid = some x → sid < s.nextSession) (work : Work)
    (spawned : Spawn) : Lasting s.objects (resume s work spawned).objects
      ∧ Born s (resume s work spawned) := by
  cases work with
  | starting admission =>
      have hset : Lasting s.objects (s.objects.set s.nextSession (newSession admission)) := by
        refine Lasting.set ?_
        intro z hz
        exact absurd (hfresh _ z hz) (lt_irrefl _)
      let admitted : SupervisorState :=
        { s with
          sessions := s.sessions.set admission.programId s.nextSession
          objects := s.objects.set s.nextSession (newSession admission)
          nextSession := s.nextSession + 1 }
      have hself : admitted.objects.get s.nextSession = some (newSession admission) :=
        get_set_self ..
      exact ⟨hset.trans (launch_lasting hself spawned),
        launch_born admitted s.nextSession (newSession admission) spawned⟩
  | relaunching sid =>
      rw [resume]
      split
      · exact ⟨.refl _, .of_children rfl⟩
      · rename_i x hx
        split
        · exact ⟨Lasting.set_of hx rfl, .of_children rfl⟩
        · exact ⟨launch_lasting hx spawned, launch_born s sid x spawned⟩
  | finishing sid =>
      rw [resume]
      split
      · exact ⟨.refl _, .of_children rfl⟩
      · exact ⟨Lasting.set fun _ _ _ => rfl, .of_children rfl⟩

theorem after_forward (h : Good s none) (e : Event) :
    Lasting s.objects (after s e).objects ∧ Born s (after s e) := by
  cases e with
  | start admission =>
      rw [after, start]
      split
      · exact ⟨.refl _, .of_children rfl⟩
      · exact ⟨.refl _, .of_children rfl⟩
  | stop programId programEpoch =>
      obtain ⟨hlast, hchildren⟩ := stop_objects s programId programEpoch
      exact ⟨hlast, .of_children hchildren⟩
  | destroy =>
      obtain ⟨hlast, hchildren⟩ := destroy_objects s
      exact ⟨hlast, .of_children hchildren⟩
  | timeout sid =>
      rw [after, timeout]
      split
      · exact ⟨.refl _, .of_children rfl⟩
      · split
        · split
          · exact ⟨.refl _, .of_children rfl⟩
          · rename_i c hc
            split
            · exact ⟨.refl _, .of_set hc (d := { c with killed := true }) rfl rfl⟩
            · exact ⟨.refl _, .of_children rfl⟩
        · exact ⟨.refl _, .of_children rfl⟩
  | exits cid =>
      rw [after, exits]
      split
      · exact ⟨.refl _, .of_children rfl⟩
      · rename_i c hc
        exact ⟨.refl _, .of_set hc (d := { c with running := false }) rfl rfl⟩
  | closes cid =>
      rw [after, closes]
      split
      · exact ⟨.refl _, .of_children rfl⟩
      · rename_i c hc
        split
        · exact ⟨.refl _, .of_children rfl⟩
        · exact ⟨processEnded_lasting
            { s with children := s.children.set cid { c with closed := true } } _ _,
            .of_set hc (d := { c with closed := true }) rfl (processEnded_children _ _ _)⟩
  | errors cid =>
      rw [after, errors]
      split
      · exact ⟨.refl _, .of_children rfl⟩
      · rename_i c hc
        split
        · exact ⟨.refl _, .of_children rfl⟩
        · exact ⟨processEnded_lasting
            { s with children := s.children.set cid { c with errored := true } } _ _,
            .of_set hc (d := { c with errored := true }) rfl (processEnded_children _ _ _)⟩
  | fileDone tid ok spawned =>
      rw [after, fileDone]
      split
      · exact ⟨.refl _, .of_children rfl⟩
      · rename_i t ht
        split
        · exact ⟨.refl _, .of_children rfl⟩
        · split
          · exact ⟨.refl _, .of_children rfl⟩
          · exact resume_forward (s := s.resumed tid) h.object_lt t.work spawned

/-- A session that has answered its stops gets no child in a step. -/
theorem step_stays {e : Event} (hs : Good s none) (ht : Good t none)
    (hstep : Step s e t) (hx : s.objects.get sid = some x) (hdone : x.completed = true) :
    (∃ y, t.objects.get sid = some y ∧ y.completed = true)
      ∧ ∀ cid c, t.children.get cid = some c → c.session = sid →
        ∃ c', s.children.get cid = some c' ∧ c'.session = sid := by
  obtain ⟨hlast, hborn⟩ := after_forward hs e
  rw [← show t = after s e from hstep] at hlast hborn
  obtain ⟨y, hy, hydone⟩ := hlast sid x hx hdone
  refine ⟨⟨y, hy, hydone⟩, ?_⟩
  intro cid c hc hcs
  rcases hborn cid c hc with ⟨c', hc', hcs'⟩ | ⟨z, hz, hzc⟩
  · exact ⟨c', hc', hcs'.trans hcs⟩
  · rw [hcs] at hz
    cases hy.symm.trans hz
    obtain ⟨-, -, -, hopen, -⟩ := ht.live sid y cid hy hzc
    rw [hydone] at hopen
    cases hopen

theorem run_stays {es : List Event}
    (hrun : Runs.Path (Runs.Guarded Step Orderly) s es t) (hs : Good s none) :
    StaysStopped s t := by
  intro sid x hx hdone cid c hc hcs
  have hgo : ∀ {r t : SupervisorState} {es : List Event},
      Runs.Path (Runs.Guarded Step Orderly) r es t → Good r none →
      (∃ y, r.objects.get sid = some y ∧ y.completed = true) →
      (∃ y, t.objects.get sid = some y ∧ y.completed = true)
        ∧ ∀ cid c, t.children.get cid = some c → c.session = sid →
          ∃ c', r.children.get cid = some c' ∧ c'.session = sid := by
    intro r t es hrun
    induction hrun with
    | nil r => exact fun _ hy => ⟨hy, fun cid c hc hcs => ⟨c, hc, hcs⟩⟩
    | cons hstep _ ih =>
        intro hr hy
        obtain ⟨y, hy, hydone⟩ := hy
        have hnext := step_good hstep hr
        obtain ⟨hy', hback⟩ := step_stays hr hnext hstep.1 hy hydone
        obtain ⟨hlast, hback'⟩ := ih hnext hy'
        refine ⟨hlast, fun cid c hc hcs => ?_⟩
        obtain ⟨c', hc', hcs'⟩ := hback' cid c hc hcs
        exact hback cid c' hc' hcs'
  obtain ⟨⟨y, hy, hydone⟩, hback⟩ := hgo hrun hs ⟨x, hx, hdone⟩
  have ht : Good t none := hrun.inv (I := fun r => Good r none) step_good hs
  exact ⟨ht.quiet hy hydone hc hcs, hback cid c hc hcs⟩

/-! ## The supervisor -/

/-- **One process.** In a run whose steps are all orderly a program has at most one running
child, that of its registered session; no output directory is removed under a
running child; stops are answered, and what is stopped stays stopped. -/
theorem one_packager_per_program {s : SupervisorState} {es : List Event}
    (hrun : Runs.Path (Runs.Guarded Step Orderly) init es s) :
    OneProcess s ∧ AtMostOne s ∧ OutputKept s ∧ StopsAnswered s
      ∧ ∀ fs t, Runs.Path (Runs.Guarded Step Orderly) s fs t → StaysStopped s t := by
  have h : Good s none := hrun.inv (I := fun r => Good r none) step_good good_init
  refine ⟨h.oneProcess, ?_, h.outputKept, h.stopsAnswered, fun fs t hrest => run_stays hrest h⟩
  intro cid c cid' c' x x' hc hrun hx hc' hrun' hx' hprog
  obtain ⟨y, hy, hchild, hreg⟩ := h.oneProcess cid c hc hrun
  obtain ⟨y', hy', hchild', hreg'⟩ := h.oneProcess cid' c' hc' hrun'
  cases hx.symm.trans hy
  cases hx'.symm.trans hy'
  rw [← hprog, hreg] at hreg'
  rw [← some.inj hreg', hx] at hx'
  cases hx'
  exact some.inj (hchild.symm.trans hchild')

def sampleAdmission : Admission :=
  { programId := "prg_aaaaaaaaaaaaaaaa"
    programEpoch := 7
    videoEncoder := "libx264"
    softwareFallback := "libx264"
    renditions := ["low"]
    outputDirectory := ["srv", "res_aaaaaaaaaaaaaaaa"] }

/-- One call of `start`, to the launch of its child. -/
def sampleRun : List Event :=
  [.start sampleAdmission, .fileDone 0 true .runs, .fileDone 0 true .runs]

theorem one_packager_per_program_sample :
    ((sampleRun.foldl after init).children.get 0).map Child.running = some true
      ∧ OneProcess (sampleRun.foldl after init) := by
  have hrun : Runs.Path (Runs.Guarded Step Orderly) init sampleRun (sampleRun.foldl after init) := by
    refine .cons ⟨rfl, ?_⟩ (.cons ⟨rfl, by intro h; cases h⟩
      (.cons ⟨rfl, by intro h; cases h⟩ (.nil _)))
    intro _
    exact ⟨fun _ _ _ h => (by cases h), fun _ _ h => (by cases h)⟩
  exact ⟨by decide, (one_packager_per_program hrun).1⟩

/-- Two calls of `start` for one program, the second before the first has
made its directories. -/
def raceRun : List Event :=
  [.start sampleAdmission, .start sampleAdmission, .fileDone 0 true .runs,
    .fileDone 0 true .runs, .fileDone 1 true .runs, .fileDone 1 true .runs]

/-- Both calls launch a child, and only the second is reached by `stop`. -/
theorem two_starts_race : ¬ ∀ es s, Runs.Path Step init es s →
      OneProcess s ∧ AtMostOne s ∧ OutputKept s ∧ StopsAnswered s
        ∧ ∀ fs t, Runs.Path Step s fs t → StaysStopped s t := by
  intro h
  obtain ⟨-, hone, -⟩ := h raceRun _ (Runs.Path.foldl after raceRun init)
  have hcid := hone 0
    { session := 0, generation := 1, running := true, closed := false, errored := false,
      killed := false } 1
    { session := 1, generation := 1, running := true, closed := false, errored := false,
      killed := false }
    { launching (newSession sampleAdmission) with child := some 0 }
    { launching (newSession sampleAdmission) with child := some 1 }
    (by decide) rfl (by decide) (by decide) rfl (by decide) rfl
  cases hcid

end Supervisor

end WebrtcMinimize
