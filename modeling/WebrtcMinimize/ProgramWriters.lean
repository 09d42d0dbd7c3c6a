import WebrtcMinimize.ProgramFencing

/-!
# The writer leases of a program

What the leases of a snapshot say about its program along a run: an on-air
program has both writers, a stopped program has none, and a lapsed lease
stays lapsed. Each of the three has a call that gets past it. A change of
visibility takes the writers of an on-air program away and leaves it on
air; a request to stop takes a draft or a failed program to `stopped` with
its leases still held; a renewal, which looks at the packager's lease only,
renews a lapsed gateway lease along with it. The theorems name these calls
and hold along every run without them.
-/

namespace WebrtcMinimize

open Checks Runs List Option ProgramState Step

/-! ## On air -/

def ProgramState.onAir (s : ProgramState) : Bool := s = .publishing || s = .live

def HasWriters (s : Machine) : Prop := ∀ role, ∃ lease ∈ s.writerLeases, lease.role = role

/-- Exactly one active lease of each role, bound to the program epoch. -/
def BothWriters (s : Machine) : Prop :=
  ∀ role, ∃! lease, lease ∈ s.writerLeases ∧ lease.role = role ∧ lease.status = .active
    ∧ lease.programEpoch = s.epochs.broadcast

variable {s : Machine}

theorem HasWriters.both (hs : s.Sound) (h : HasWriters s) : BothWriters s := by
  intro role
  obtain ⟨lease, hmem, hrole⟩ := h role
  refine ⟨lease, ⟨hmem, hrole, (hs.writerLease hmem).2.2.1, hs.lease_epoch hmem⟩, ?_⟩
  rintro other ⟨hother, hrole', -⟩
  exact hs.role_unique hother hmem (hrole'.trans hrole.symm)

/-- The snapshot has an on-air program. -/
def OnAir (s : Machine) : Prop := ∃ p, s.program = some p ∧ p.state.onAir = true

/-- An applied change of visibility. -/
def ChangesVisibility (s : Machine) (e : Event) : Prop :=
  ∃ c r v h, e.call = .command c ∧ AppliedWith s c e.now r
    ∧ c.payload = .visibilityChange v h

/-- An applied `advance` to another state. -/
def AdvancesState (s : Machine) (e : Event) : Prop :=
  ∃ c r t p, e.call = .command c ∧ AppliedWith s c e.now r ∧ c.payload = .advance t
    ∧ s.program = some p ∧ p.state ≠ t.state

/-- The program's visibility was changed while it was on air, which cost it
its writers, and it has not been advanced since. -/
def Stripped (s₀ : Machine) (es : List Event) (s : Machine) : Prop :=
  ∃ es₁ e es₂ t, es = es₁ ++ e :: es₂ ∧ Path Step s₀ es₁ t ∧ OnAir t
    ∧ ChangesVisibility t e
    ∧ OnAir (afterCall t e) ∧ (afterCall t e).writerLeases = []
    ∧ Path (Guarded Step fun t e => ¬AdvancesState t e) (afterCall t e) es₂ s

theorem Stripped.snoc {s₀ t : Machine} {es : List Event} {e : Event}
    (h : Stripped s₀ es s) (hstep : Step s e t) (hadv : ¬AdvancesState s e) :
    Stripped s₀ (es ++ [e]) t := by
  obtain ⟨es₁, e₁, es₂, u, rfl, h₁, hair, hvis, hair', hnil, h₂⟩ := h
  refine ⟨es₁, e₁, es₂ ++ [e], u, by simp, h₁, hair, hvis, hair', hnil, ?_⟩
  exact h₂.append (.single ⟨hstep, hadv⟩)

theorem HasWriters.of_handoff {lease : Lease} (h : HasWriters s) :
    HasWriters (s.withLease lease) := by
  intro role
  by_cases hrole : lease.role = role
  · exact ⟨lease, mem_sortLeases.mpr (mem_append_right _ mem_cons_self), hrole⟩
  · obtain ⟨other, hmem, hother⟩ := h role
    refine ⟨other, mem_sortLeases.mpr (mem_append_left _ ?_), hother⟩
    refine mem_filter.mpr ⟨hmem, ?_⟩
    simpa [hother] using fun heq => hrole heq.symm

theorem lostTarget_not_onAir (s : ProgramState) (t : LifecycleTrigger) :
    (s.lostTarget t).onAir = false := by
  unfold lostTarget
  split
  · rfl
  · split
    · rfl
    · rename_i hair
      simp only [onAir, Bool.or_eq_false_iff, decide_eq_false_iff_not]
      exact not_or.mp hair

theorem stopTarget_not_onAir (s : ProgramState) : s.stopTarget.onAir = false := by
  cases s <;> rfl

/-- What a move does to an on-air program's writers: it keeps them, it was
an advance, which checked them, or it was a change of visibility. -/
theorem Move.onAir {s m : Machine} {p q : Program} {now : Nat} {c : Payload}
    (h : Move s p now c m) (hp : s.program = some p) (hq : m.program = some q)
    (hair : q.state.onAir = true) :
    (∃ t, c = .advance t ∧ p.state ≠ t.state ∧ HasWriters m)
    ∨ ((∃ v hash, c = .visibilityChange v hash) ∧ p.state = q.state ∧ m.writerLeases = [])
    ∨ (p.state = q.state ∧ (∀ t, c = .advance t → p.state = t.state)
        ∧ (HasWriters s → HasWriters m)) := by
  have hcur : ∀ {r : Program} {t : Machine}, (t.withProgram r).program = some q → r = q :=
    fun heq => some.inj heq
  cases h with
  | idle hidle =>
      cases hp.symm.trans hq
      refine .inr (.inr ⟨rfl, ?_, id⟩)
      rintro t rfl
      cases hidle with
      | advance hsame => exact hsame
      | stop hstop _ => cases hstop
  | patch hpatch _ =>
      obtain rfl := hcur hq
      cases hpatch with
      | start => cases hair
      | @advance t hne hfresh =>
          refine .inl ⟨t, rfl, hne, ?_⟩
          have ht : t = .publishing ∨ t = .live := by
            cases t with
            | publishing => exact .inl rfl
            | live => exact .inr rfl
            | _ => cases hair
          intro role
          obtain ⟨lease, hmem, hrole, -⟩ := hfresh ht role
          exact ⟨lease, hmem, hrole⟩
      | stop =>
          exact absurd hair (by simp [Program.updated, stopTarget_not_onAir])
      | fail => cases hair
  | roll hroll =>
      cases hq
      cases hroll with
      | sourceChange =>
          split at hair <;> cases hair
      | outputRestart => cases hair
      | retry => cases hair
      | visibilityChange => exact .inr (.inl ⟨⟨_, _, rfl⟩, rfl, rfl⟩)
  | handoff =>
      obtain rfl := hcur hq
      exact .inr (.inr ⟨rfl, (fun t ht => by cases ht), HasWriters.of_handoff⟩)
  | lost =>
      obtain rfl := hcur hq
      exact absurd hair (by simp [Program.updated, lostTarget_not_onAir])
  | abort _ hfailed =>
      cases hp.symm.trans hq
      rw [hfailed] at hair
      cases hair
  | cleanup =>
      obtain rfl := hcur hq
      cases hair

theorem HasWriters.of_renewed (h : HasWriters s) (expiresAt now : Nat) :
    HasWriters { s with writerLeases := s.writerLeases.map (·.renewed expiresAt now) } := by
  intro role
  obtain ⟨lease, hmem, hrole⟩ := h role
  exact ⟨_, mem_map_of_mem hmem, hrole⟩

theorem AdvancesState.hasWriters (hs : s.Sound) {e : Event}
    (h : AdvancesState s e) (hair : OnAir (afterCall s e)) : HasWriters (afterCall s e) := by
  obtain ⟨c, r, t, p, hcall, happlied, hpay, hp, hne⟩ := h
  obtain ⟨call, now⟩ := e
  obtain rfl : call = .command c := hcall
  rw [happlied.after] at hair ⊢
  obtain ⟨q, hq, hair⟩ := hair
  have hchange := happlied.change hs
  generalize r.state = m at hchange hq
  cases hchange with
  | create hc => rw [hpay] at hc; cases hc
  | move hp' _ _ hmove =>
      cases hp.symm.trans hp'
      rcases hmove.onAir hp hq hair with ⟨-, -, -, hw⟩ | ⟨⟨v, hash, hc⟩, -⟩ | ⟨-, hadv, -⟩
      · exact hw
      · rw [hpay] at hc; cases hc
      · exact absurd (hadv t hpay) hne

/-- The sample program on air, and after a change of its visibility. -/
def samplePublish : Event := sampleEvent '5' (some (4, 19)) (.advance .publishing) 1004

def sampleHide : Event :=
  sampleEvent '6' (some (5, 19))
    (.visibilityChange .secluded
      "7777777777777777777777777777777777777777777777777777777777777777") 1005

/-- The snapshot after `samplePublish`. -/
def sampleOnAir : Machine :=
  { sampleMachine with
    program := sampleMachine.program.map
      ({ · with revision := 5, state := .publishing, updatedAt := 1004 })
    appliedCommands := sampleMachine.appliedCommands ++ [
      ⟨"5555555555555555555555555555555555555555555555555555555555555555",
        "59d7f8f2e7f62acd570b95b62ac961fb6b74aed64760e5c4fc10d6f71c229394", .advance, 5⟩] }

theorem publish_run : afterCall sampleMachine samplePublish = sampleOnAir
    ∧ (afterCall sampleOnAir sampleHide).program.any (·.state.onAir) = true
      ∧ (afterCall sampleOnAir sampleHide).writerLeases = [] := by
  constructor <;> decide +kernel

/-- A stopped program holds no lease. -/
def Closed (s : Machine) : Prop :=
  ∀ p, s.program = some p → p.state = .stopped → s.writerLeases = []

/-- A request to stop that reaches a draft or failed program while a lease
is held. -/
def StopsHeld (s : Machine) (e : Event) : Prop :=
  ∃ c p, e.call = .command c ∧ Passes s c ∧ assertCurrent s c = .ok p
    ∧ c.payload.stops = true ∧ (p.state = .draft ∨ p.state = .failed)
    ∧ p.updatedAt ≤ e.now ∧ s.writerLeases ≠ []

theorem stopTarget_stopped {s : ProgramState} (h : s.stopTarget = .stopped) :
    s = .draft ∨ s = .failed := by
  cases s <;> first | exact .inl rfl | exact .inr rfl | cases h

theorem lostTarget_stopped {s : ProgramState} {t : LifecycleTrigger} (h : s ≠ .stopped) :
    s.lostTarget t ≠ .stopped := by
  unfold lostTarget
  split
  · decide
  · split
    · decide
    · exact h

variable {now : Nat}

/-- Only a request to stop a draft or failed program closes it with its
leases. -/
theorem Move.closed {m : Machine} {p : Program} {c : Payload}
    (h : Move s p now c m) (hp : s.program = some p) (hs : Closed s)
    (hheld : c.stops = true → p.state = .draft ∨ p.state = .failed → p.updatedAt ≤ now →
      s.writerLeases = []) : Closed m := by
  intro q hq hstopped
  have hcur : ∀ {r : Program} {t : Machine}, (t.withProgram r).program = some q → r = q :=
    fun heq => some.inj heq
  cases h with
  | idle => exact hs q hq hstopped
  | patch hpatch hcan =>
      obtain rfl := hcur hq
      cases hpatch with
      | start => cases hstopped
      | @advance t _ _ => cases t <;> cases hstopped
      | stop hstop _ => exact hheld hstop (stopTarget_stopped hstopped) hcan.1
      | fail => cases hstopped
  | roll => rfl
  | handoff hended =>
      obtain rfl := hcur hq
      rw [show p.state = .stopped from hstopped] at hended
      cases hended
  | lost _ _ hne =>
      obtain rfl := hcur hq
      exact absurd hstopped (lostTarget_stopped hne)
  | abort _ hfailed =>
      cases hp.symm.trans hq
      rw [hfailed] at hstopped
      cases hstopped
  | cleanup => rfl

theorem Move.stays_stopped {m : Machine} {p : Program} {c : Payload}
    (h : Move s p now c m) (hp : s.program = some p) (hstopped : p.state = .stopped)
    (hnil : s.writerLeases = []) :
    ∃ q, m.program = some q ∧ q.state = .stopped ∧ m.writerLeases = [] := by
  cases h with
  | idle => exact ⟨p, hp, hstopped, hnil⟩
  | patch hpatch hcan =>
      cases hpatch with
      | start hdraft => rw [hstopped] at hdraft; cases hdraft
      | advance hne =>
          rcases hcan.2 with hsame | htarget
          · exact absurd hsame hne
          · rw [hstopped] at htarget; cases htarget
      | stop _ hne => exact absurd hstopped hne
      | fail hne => exact absurd hstopped hne
  | roll hroll =>
      cases hroll with
      | sourceChange hended => rw [hstopped] at hended; cases hended
      | outputRestart hstate => rw [hstopped] at hstate; simp at hstate
      | retry hfailed => rw [hstopped] at hfailed; cases hfailed
      | visibilityChange => exact ⟨_, rfl, hstopped, rfl⟩
  | handoff hended => rw [hstopped] at hended; cases hended
  | lost _ hmem => rw [hnil] at hmem; cases hmem
  | abort hmem => rw [hnil] at hmem; cases hmem
  | cleanup hstate => rw [hstopped] at hstate; simp at hstate

theorem Step.closed {s t : Machine} (hs : s.Sound) {e : Event} (h : Step s e t)
    (hheld : ¬StopsHeld s e) (hclosed : Closed s) : Closed t := by
  rcases h.applied hs with rfl | ⟨hchange, happlied⟩
  · exact hclosed
  generalize hcall : e.call = call at hchange
  cases hchange with
  | create =>
      intro q hq hstopped
      cases hq
      cases hstopped
  | @move c p m hp hrev hepoch hmove =>
      refine hmove.closed hp hclosed fun hstop hstate htime => ?_
      by_contra hleases
      obtain ⟨r, hr, -⟩ := happlied c hcall
      refine hheld ⟨c, p, hcall, hr.passes hs, ?_, hstop, hstate, htime, hleases⟩
      simp only [assertCurrent, hp, bind_ok_iff, failIf_ok_iff, pure_ok_iff, exists_const]
      exact ⟨not_not.mpr hrev, not_not.mpr hepoch, trivial⟩
  | renew hrenew =>
      intro q hq hstopped
      have hrunning := hrenew.running
      rw [show s.program = some q from hq, any_some, hstopped] at hrunning
      cases hrunning
  | synchronize => exact hclosed

/-- No call gets anything out of a stopped program that holds no lease. -/
theorem Step.stays_stopped {s t : Machine} (hs : s.Sound) {e : Event} (h : Step s e t)
    (hstopped : ∃ p, s.program = some p ∧ p.state = .stopped ∧ s.writerLeases = []) :
    ∃ p, t.program = some p ∧ p.state = .stopped ∧ t.writerLeases = [] := by
  obtain ⟨p, hp, hstate, hnil⟩ := hstopped
  rcases h.applied hs with rfl | ⟨hchange, -⟩
  · exact ⟨p, hp, hstate, hnil⟩
  generalize e.call = call at hchange
  cases hchange with
  | create _ hnone => rw [hnone] at hp; cases hp
  | move hp' _ _ hmove =>
      cases hp.symm.trans hp'
      exact hmove.stays_stopped hp hstate hnil
  | renew hrenew =>
      have hmem := (activeWriter_some hrenew.active).1
      rw [hnil] at hmem
      cases hmem
  | synchronize => exact ⟨p, hp, hstate, hnil⟩

/-- **Closed for good.** In every run in which no request to stop reaches a
draft or failed program that still holds a lease, a stopped program holds no
lease, and no continuation whatever starts it again or gives it a lease. -/
theorem stopped_closed {scope : Scope} {epochs : Epochs} {s₀ s : Machine} {es : List Event}
    (h₀ : initializeBroadcastProgramMachine scope epochs = .ok s₀)
    (hp : Path (Guarded Step fun s e => ¬StopsHeld s e) s₀ es s) {p : Program}
    (hprog : s.program = some p) (hstopped : p.state = .stopped) :
    s.writerLeases = [] ∧ ∀ fs u, Path Step s fs u →
      ∃ q, u.program = some q ∧ q.state = .stopped ∧ u.writerLeases = [] := by
  obtain ⟨hs₀, rfl⟩ := initialize_sound h₀
  have hboth : s.Sound ∧ Closed s := by
    refine hp.inv (I := fun s => s.Sound ∧ Closed s) ?_ ⟨hs₀, fun p hp => by cases hp⟩
    rintro s e t ⟨hstep, hheld⟩ ⟨hs, hclosed⟩
    exact ⟨(hstep.cases hs).2, hstep.closed hs hheld hclosed⟩
  have hnil := hboth.2 p hprog hstopped
  refine ⟨hnil, ?_⟩
  intro fs u hlater
  have hend := hlater.inv
    (I := fun s => s.Sound ∧ ∃ q, s.program = some q ∧ q.state = .stopped ∧ s.writerLeases = [])
    ?_ ⟨hboth.1, p, hprog, hstopped, hnil⟩
  · exact hend.2
  · rintro s e t hstep ⟨hs, hstay⟩
    exact ⟨(hstep.cases hs).2, hstep.stays_stopped hs hstay⟩

/-- The sample program is created and stopped as a draft. -/
def sampleCreate : Event :=
  sampleEvent '1' none (.create .listed none (some "pol_aaaaaaaaaaaaaaaa")) 1000

def sampleStopDraft : Event := sampleEvent '2' (some (1, 19)) (.stop "OWNER_STOP") 1001

theorem stop_runs : ((sampleAt 1 0 .draft 23 1000).writerLeases = []
      ∧ (afterCall (sampleAt 1 0 .draft 23 1000) sampleStopDraft).program.any
        (·.state = .stopped) = true)
    ∧ (afterCall sampleStalled ⟨.command sampleStop, 1005⟩).program.any (·.state = .stopped) = true
      ∧ (afterCall sampleStalled ⟨.command sampleStop, 1005⟩).writerLeases.length = 2 := by
  constructor <;> decide +kernel

theorem stopped_closed_sample :
    (afterCall (afterCall sampleInitial sampleCreate) sampleStopDraft).writerLeases = [] ∧ ∀ fs u,
        Path Step (afterCall (afterCall sampleInitial sampleCreate) sampleStopDraft) fs u →
          ∃ q, u.program = some q ∧ q.state = .stopped ∧ u.writerLeases = [] := by
  have hrun : (afterCall sampleInitial sampleCreate).writerLeases = []
      ∧ (afterCall (afterCall sampleInitial sampleCreate) sampleStopDraft).program.any
        (·.state = .stopped) = true := by
    rw [sampleCreate, sampleAt_steps.1]
    exact stop_runs.1
  obtain ⟨p, hp, hstopped⟩ := (any_eq_true _ _).mp hrun.2
  refine stopped_closed sample_initial (.cons ⟨rfl, ?_⟩ (.single ⟨rfl, ?_⟩)) hp
    (of_decide_eq_true hstopped)
  · rintro ⟨c, p, -, -, -, -, -, -, hleases⟩
    exact hleases rfl
  · rintro ⟨c, p, -, -, -, -, -, -, hleases⟩
    exact hleases hrun.1

/-- A failed program is stopped while both writers hold their leases. -/
theorem stopped_with_leases :
    ¬∀ s p, Reachable s → s.program = some p → p.state = .stopped → s.writerLeases = [] := by
  intro hclaim
  have hrun : (afterCall sampleFailed ⟨.command sampleStop, 1005⟩).program.any
        (·.state = .stopped) = true
      ∧ (afterCall sampleFailed ⟨.command sampleStop, 1005⟩).writerLeases.length = 2 := by
    rw [sampleAt_steps.2.2.2.2]
    exact stop_runs.2
  obtain ⟨p, hp, hstopped⟩ := (any_eq_true _ _).mp hrun.1
  have hnil := hclaim _ p (reachable_sampleFailed.after _) hp (of_decide_eq_true hstopped)
  rw [hnil] at hrun
  cases hrun.2

/-! ## Lapsed leases -/

/-- The role has a lease that is good at the time. -/
def FreshRole (s : Machine) (now : Nat) (role : WriterRole) : Prop :=
  ∃ lease ∈ s.writerLeases, lease.role = role ∧ now < lease.expiresAt

/-- A renewal by the holder of a good packager lease while the named lease is
held and has lapsed. -/
def RenewsLapsed (leaseId : String) (s : Machine) (e : Event) : Prop :=
  ∃ r packager held, e.call = .renew r ∧ Renewable s e.now r packager
    ∧ held ∈ s.writerLeases ∧ held.leaseId = leaseId ∧ held.expiresAt ≤ e.now

/-- A handoff under the named lease id when no held lease has it. -/
def ReusesId (leaseId : String) (s : Machine) (e : Event) : Prop :=
  ∃ c epoch lease, e.call = .command c ∧ c.payload = .handoff epoch lease
    ∧ lease.leaseId = leaseId ∧ ∀ held ∈ s.writerLeases, held.leaseId ≠ leaseId

/-- Every lease under the id has expired by the time. -/
def Lapsed (leaseId : String) (s : Machine) (now : Nat) : Prop :=
  ∀ lease ∈ s.writerLeases, lease.leaseId = leaseId → lease.expiresAt ≤ now

/-- An applied handoff of the role under a fencing revision above a bound. -/
def HandsOver (role : WriterRole) (bound : Nat) (s : Machine) (e : Event) : Prop :=
  ∃ c r epoch lease, e.call = .command c ∧ AppliedWith s c e.now r
    ∧ c.payload = .handoff epoch lease ∧ lease.role = role ∧ bound < lease.fencingRevision

theorem Move.leases {m : Machine} {p : Program} {c : Payload}
    (h : Move s p now c m) {lease : Lease} (hl : lease ∈ m.writerLeases) :
    lease ∈ s.writerLeases ∨ ∃ epoch, c = .handoff epoch lease ∧ Admissible s now lease := by
  cases h with
  | idle => exact .inl hl
  | patch => exact .inl hl
  | roll => cases hl
  | handoff _ hadm =>
      rcases mem_append.mp (mem_sortLeases.mp hl) with hold | hnew
      · exact .inl (mem_filter.mp hold).1
      · obtain rfl := mem_singleton.mp hnew
        exact .inr ⟨_, rfl, hadm⟩
  | lost => exact .inl (mem_filter.mp hl).1
  | abort => exact .inl (mem_filter.mp hl).1
  | cleanup => cases hl

/-- A lease after a step was there before, was handed over, or comes from a
renewal of a lease that was there. -/
theorem Step.leases {s t : Machine} (hs : s.Sound) {e : Event} (h : Step s e t)
    {lease : Lease} (hl : lease ∈ t.writerLeases) :
    lease ∈ s.writerLeases
    ∨ (∃ c r epoch, e.call = .command c ∧ AppliedWith s c e.now r
        ∧ c.payload = .handoff epoch lease ∧ Admissible s e.now lease)
    ∨ (∃ r packager held, e.call = .renew r ∧ Renewable s e.now r packager
        ∧ held ∈ s.writerLeases ∧ held.leaseId = lease.leaseId ∧ held.role = lease.role) := by
  rcases h.applied hs with rfl | ⟨hchange, happlied⟩
  · exact .inl hl
  generalize hcall : e.call = call at hchange
  cases hchange with
  | create => exact .inl hl
  | @move c p m _ _ _ hmove =>
      rcases hmove.leases hl with hold | ⟨epoch, hc, hadm⟩
      · exact .inl hold
      · obtain ⟨r, hr, -⟩ := happlied c hcall
        exact .inr (.inl ⟨c, r, epoch, rfl, hr, hc, hadm⟩)
  | @renew r packager hrenew =>
      obtain ⟨held, hheld, rfl⟩ := mem_map.mp hl
      exact .inr (.inr ⟨r, packager, held, rfl, hrenew, hheld, rfl, rfl⟩)
  | synchronize => exact .inl hl

/-- The steps that leave a lapsed lease alone. -/
def SparesLapsed (leaseId : String) (s : Machine) (e : Event) : Prop :=
  ¬RenewsLapsed leaseId s e ∧ ¬ReusesId leaseId s e

theorem Step.lapsed {leaseId : String} {t : Machine} (hs : s.Sound) {e : Event}
    (h : Step s e t) (hspare : SparesLapsed leaseId s e) (hnow : now ≤ e.now)
    (hlapsed : Lapsed leaseId s now) : Lapsed leaseId t e.now := by
  intro lease hl hid
  rcases h.leases hs hl with hold | ⟨c, r, epoch, hcall, -, hpay, hadm⟩ |
    ⟨r, packager, held, hcall, hrenew, hheld, hsame, -⟩
  · exact Nat.le_trans (hlapsed lease hold hid) hnow
  · exact absurd ⟨c, epoch, lease, hcall, hpay, hid, fun held hheld heq =>
      hadm.unused held hheld (heq.trans hid.symm)⟩ hspare.2
  · have hheldId := hsame.trans hid
    exact absurd ⟨r, packager, held, hcall, hrenew, hheld, hheldId,
      Nat.le_trans (hlapsed held hheld hheldId) hnow⟩ hspare.1

/-- After the sample gateway's lease has expired, another gateway takes over. -/
def sampleLateTakeover : Event :=
  sampleEvent '5' (some (4, 19))
    (.handoff 25 (sampleLease .gatewayWriter 'e' 19 26 60000)) 40000

def sampleGateway : Lease := sampleLease .gatewayWriter 'd' 19 25 30000

theorem sampleGateway_mem : sampleGateway ∈ sampleMachine.writerLeases := mem_cons_self

theorem sampleGateway_lapsed : sampleGateway.expiresAt ≤ 40000 := by
  show 30000 ≤ 40000
  omega

/-- The packager renews in time, after the gateway's lease has expired. -/
def sampleRenewal : Event := ⟨.renew ⟨"pkr_cccccccccccccccc", 24, 100000⟩, 40000⟩

end WebrtcMinimize
