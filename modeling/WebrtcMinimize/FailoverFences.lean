import WebrtcMinimize.FailoverRuns

/-!
# Fenced failover leases

A lease is good for writing while its role holds it, its time is not over and
its program runs. Every promotion raises the fencing revision the two roles
share, so a lease that lost its role does not come back to it. What can bring
one back is a heartbeat, which does not look at the expiry; a restored
snapshot, which does not look at the program it replaces; and the end of the
exact integers, where the revision no longer rises.
-/

namespace WebrtcMinimize

open Checks Runs FailoverCoordinator FailoverProgram Option Nat

/-! ## Good leases -/

/-- The lease is good for writing in the role. -/
def Good (p : FailoverProgram) (role : WriterRole) (lease : LeaseClaim) (now : Nat) : Prop :=
  p.stopped = false ∧ ∃ active, (p.role role).active = some active ∧ now < active.expiresAt
    ∧ active.claim = lease

/-- The lease a role of a snapshot holds, as it would be good for writing. -/
def FailoverSnapshot.Good (value : FailoverSnapshot) (role : WriterRole) (lease : LeaseClaim)
    (now : Nat) : Prop :=
  value.stopped = false ∧ ∃ state ∈ value.roles, state.role = role
    ∧ ∃ active, state.active = some active ∧ now < active.expiresAt ∧ active.claim = lease

variable {lease : LeaseClaim} {now : Nat} {p : FailoverProgram} {role : WriterRole}

theorem Good.unique {lease' : LeaseClaim}
    {now' : Nat} (h : Good p role lease now) (h' : Good p role lease' now') :
    lease = lease' := by
  obtain ⟨-, active, hactive, -, rfl⟩ := h
  obtain ⟨-, active', hactive', -, rfl⟩ := h'
  rw [some.inj (hactive.symm.trans hactive')]

theorem Good.earlier {later : Nat} (h : Good p role lease later) (hle : now ≤ later) :
    Good p role lease now := by
  obtain ⟨hrunning, active, hactive, hfresh, hclaim⟩ := h
  exact ⟨hrunning, active, hactive, lt_of_le_of_lt hle hfresh, hclaim⟩

theorem good_iff :
    Good p role lease now ↔ ¬(p.stopped = true ∨ ¬(p.role role).active.any fun active =>
      now < active.expiresAt ∧ active.claim = lease) := by
  simp only [Good, not_or, Bool.not_eq_true, not_not, any_eq_true, decide_eq_true_eq]

variable {c : FailoverCoordinator} {scope : FailoverScope}

/-- An accepted lease is the good lease of the program under the key. -/
theorem good_of_authorized (h : c.authorizeWriter scope role lease now = .ok ()) :
    ∃ p, c.programs.get (scopeKey scope) = some p ∧ Good p role lease now := by
  obtain ⟨p, hget, hauth⟩ := bind_ok_iff.mp h
  simp only [FailoverProgram.authorizeWriter, bind_ok_iff, failIf_ok_iff] at hauth
  obtain ⟨_, -, hgood⟩ := hauth
  exact ⟨p, getProgram_ok hget, good_iff.mpr hgood⟩

theorem getProgram_failsWith (c : FailoverCoordinator) (scope : FailoverScope) :
    FailsWith ["invalid_broadcast_failover_input", "invalid_broadcast_failover_scope",
      "broadcast_failover_program_not_found"] (c.getProgram scope) := by
  have hscope : FailsWith ["invalid_broadcast_failover_input", "invalid_broadcast_failover_scope",
      "broadcast_failover_program_not_found"] (normalizeFailoverScope scope) := by
    have hmem : "invalid_broadcast_failover_scope" ∈ ["invalid_broadcast_failover_input",
        "invalid_broadcast_failover_scope", "broadcast_failover_program_not_found"] := by simp
    exact .bind (.failIf hmem) fun _ => .bind (.failIf hmem) fun _ => .bind (.failIf hmem) fun _ =>
      .bind (.failIf hmem) fun _ => .bind (.failIf hmem) fun _ => .ok scope
  refine .bind (.failIf (by simp)) fun _ => .bind hscope fun scope' => ?_
  split
  · exact .error (by simp)
  · split
    · exact .error (by simp)
    · exact .ok _

theorem not_good_of_rejected (hp : c.programs.get (scopeKey scope) = some p)
    (h : c.authorizeWriter scope role lease now = .error "invalid_broadcast_failover_fence") :
    ¬Good p role lease now := by
  rcases bind_error_iff.mp h with hget | ⟨p', hget, hauth⟩
  · have hcode := getProgram_failsWith c scope _ hget
    simp at hcode
  · cases hp.symm.trans (getProgram_ok hget)
    simp only [FailoverProgram.authorizeWriter, cloneOK, bind_error_iff, failIf_error_iff] at hauth
    rw [good_iff, not_not]
    rcases hauth with ⟨-, hcode⟩ | ⟨_, -, hrejected, -⟩
    · simp at hcode
    · exact hrejected

/-! ## The guard -/

/-- The snapshot is behind the program it replaces, or brings a lease back
that is not good any more. -/
def RollsBack (p : FailoverProgram) (value : FailoverSnapshot) (now : Nat) : Prop :=
  value.fencingRevision < p.fencingRevision
    ∨ ∃ role lease, value.Good role lease now ∧ ¬Good p role lease now

/-- A call that undoes the fence: a heartbeat that prolongs a lease that has
expired, a promotion that cannot raise the fencing revision, or a restored
snapshot that rolls the program back. -/
def Unfences (h : FailoverHistory) (e : FailoverEvent) : Prop :=
  (∃ scope role input p active, e.call = .heartbeat scope role input
    ∧ h.coordinator.getProgram scope = .ok p ∧ (p.role role).active = some active
    ∧ active.claim = input.toLeaseClaim ∧ active.expiresAt ≤ e.now
    ∧ heartbeatHealthy input = .ok true)
  ∨ (∃ p, h.coordinator.getProgram e.call.scope = .ok p ∧ maxSafeInteger < p.fencingRevision
    ∧ Promotes h.coordinator.config p e.now e.call)
  ∨ ∃ value p, e.call = .restore value ∧ h.program? e.call.key = some p
    ∧ RollsBack p value e.now

/-- Runs in which no call undoes the fence. -/
abbrev FencedStep : FailoverHistory → FailoverEvent → FailoverHistory → Prop :=
  Guarded FailoverStep fun h e => ¬Unfences h e

/-- Such runs with times that do not run backwards. -/
abbrev FencedRun : FailoverHistory × Nat → List FailoverEvent → FailoverHistory × Nat → Prop :=
  Path (Clocked FencedStep FailoverEvent.now)

/-! ## Leases are not ahead of the revision -/

def LeasesBounded (p : FailoverProgram) : Prop :=
  ∀ {role active}, (p.role role).active = some active →
    active.fencingRevision ≤ p.fencingRevision

variable {q : FailoverProgram}

theorem FailoverEffect.bounded {config : FailoverConfig}
    {call : FailoverCall} {result : Except String FailoverReply}
    (h : FailoverEffect config p now call q result) (hp : LeasesBounded p) :
    LeasesBounded q := by
  intro role active hactive
  cases h with
  | quiet hquiet =>
      rw [hquiet.active] at hactive
      rw [hquiet.fencing]
      exact hp hactive
  | @extended _ role' _ _ _ _ hext _ =>
      rw [hext.fencing]
      obtain ⟨active', hactive', -, hnew⟩ := hext.active
      by_cases hrole : role = role'
      · subst hrole
        cases hnew.symm.trans hactive
        have hle : active'.fencingRevision ≤ p.fencingRevision := hp hactive'
        exact hle
      · rw [hext.others role hrole] at hactive
        exact hp hactive
  | @promoted _ _ role' active' _ hprom _ =>
      rw [hprom.fencing]
      by_cases hrole : role = role'
      · subst hrole
        cases hprom.active.symm.trans hactive
        exact hprom.lease.le
      · rw [hprom.others role hrole] at hactive
        have hle := hp hactive
        have hinc := le_increment p.fencingRevision
        omega
  | stopped hstop =>
      rw [hstop.active] at hactive
      cases hactive

theorem FailoverStep.bounded {h h' : FailoverHistory} {e : FailoverEvent}
    (hstep : FailoverStep h e h') (hinv : Holds LeasesBounded (fun _ => True) h) :
    Holds LeasesBounded (fun _ => True) h' := by
  refine hstep.holds ?_ ?_ (fun _ => trivial) ?_ hinv
  · intro scope role active hactive
    have hnone : ((newProgram scope).role role).active = none := by
      cases role <;> rfl
    rw [hnone] at hactive
    cases hactive
  · intro value p _ hres role active hactive
    exact ((restoreProgram_restored hres).active hactive).1
  · intro p q result _ heffect hp
    exact heffect.bounded hp

/-! ## One call -/

/-- What a call that keeps the fence does to the fencing revision and to a
lease that is not good: the revision does not fall, and the lease is still not
good. -/
structure Kept (p q : FailoverProgram) (now : Nat) : Prop where
  fencing : p.fencingRevision ≤ q.fencingRevision
  lost : ∀ {role lease}, lease.fencingRevision ≤ p.fencingRevision →
    Good q role lease now → Good p role lease now

variable {e : FailoverEvent} {h : FailoverHistory}

theorem FailoverEffect.kept {result : Except String FailoverReply}
    (heffect : FailoverEffect h.coordinator.config p e.now e.call q result)
    (hget : h.coordinator.getProgram e.call.scope = .ok p) (hguard : ¬Unfences h e) :
    Kept p q e.now := by
  cases heffect with
  | quiet hquiet =>
      refine ⟨hquiet.fencing.ge, ?_⟩
      rintro role lease - ⟨hrunning, active, hactive, hfresh, hclaim⟩
      rw [hquiet.stopped] at hrunning
      rw [hquiet.active] at hactive
      exact ⟨hrunning, active, hactive, hfresh, hclaim⟩
  | @extended scope role' input _ _ hcall hext _ =>
      refine ⟨hext.fencing.ge, ?_⟩
      rintro role lease - ⟨hrunning, active, hactive, hfresh, hclaim⟩
      rw [hext.stopped] at hrunning
      by_cases hrole : role = role'
      · subst hrole
        obtain ⟨active', hactive', hinput, hnew⟩ := hext.active
        cases hnew.symm.trans hactive
        refine ⟨hrunning, active', hactive', ?_, hclaim⟩
        by_contra hexpired
        refine hguard (.inl ⟨scope, role, input, p, active', hcall, ?_, hactive', hinput,
          Nat.le_of_not_lt hexpired, hext.healthy⟩)
        rw [hcall] at hget
        exact hget
      · rw [hext.others role hrole] at hactive
        exact ⟨hrunning, active, hactive, hfresh, hclaim⟩
  | @promoted _ _ role' active' hpromotes hprom _ =>
      refine ⟨hprom.fencing ▸ le_increment _, ?_⟩
      rintro role lease hle ⟨hrunning, active, hactive, hfresh, hclaim⟩
      rw [hprom.stopped] at hrunning
      by_cases hrole : role = role'
      · subst hrole
        cases hprom.active.symm.trans hactive
        have hsafe : p.fencingRevision ≤ maxSafeInteger := by
          by_contra hover
          exact hguard (.inr (.inl ⟨p, hget, Nat.lt_of_not_le hover, hpromotes⟩))
        have hraised := lt_increment hsafe
        have hlease := hprom.lease
        rw [← hclaim] at hle
        have hle : active'.fencingRevision ≤ p.fencingRevision := hle
        omega
      · rw [hprom.others role hrole] at hactive
        exact ⟨hrunning, active, hactive, hfresh, hclaim⟩
  | stopped hstop =>
      refine ⟨hstop.fencing ▸ le_increment _, ?_⟩
      rintro role lease - ⟨hrunning, -⟩
      rw [hstop.stopped] at hrunning
      cases hrunning

theorem kept_of_restored {value : FailoverSnapshot}
    (hres : Restored value q) (hback : ¬RollsBack p value now) : Kept p q now := by
  refine ⟨?_, ?_⟩
  · by_contra hlower
    rw [hres.fencing] at hlower
    exact hback (.inl (Nat.lt_of_not_le hlower))
  · rintro role lease - ⟨hrunning, active, hactive, hfresh, hclaim⟩
    obtain ⟨-, state, hmem, hrole, hsome⟩ := hres.active hactive
    by_contra hlost
    refine hback (.inr ⟨role, lease, ⟨?_, state, hmem, hrole, active, hsome, hfresh, hclaim⟩,
      hlost⟩)
    rw [← hres.stopped, hrunning]

theorem FencedStep.kept {h h' : FailoverHistory} {e : FailoverEvent} {key : String}
    {p : FailoverProgram} (hstep : FencedStep h e h') (hp : h.program? key = some p) :
    ∃ q, h'.program? key = some q ∧ Kept p q e.now := by
  obtain ⟨q, hq, hmoved⟩ := hstep.1.moved hp
  refine ⟨q, hq, ?_⟩
  cases hmoved with
  | elsewhere _ hsame =>
      subst hsame
      exact ⟨le_refl _, fun _ hgood => hgood⟩
  | unchanged _ hsame =>
      subst hsame
      exact ⟨le_refl _, fun _ hgood => hgood⟩
  | @restored value hcall hkey hres =>
      refine kept_of_restored (restoreProgram_restored hres) fun hback => ?_
      subst hkey
      exact hstep.2 (.inr (.inr ⟨value, p, hcall, hp, hback⟩))
  | effect _ hget heffect => exact heffect.kept hget hstep.2

variable {key : String}

/-- A call that hands a lease out raises the revision to the lease's. -/
theorem HandsOut.raises {h' : FailoverHistory}
    {active : ActiveWriter} (hout : HandsOut h e key active) (hstep : FencedStep h e h') :
    ∃ p q, h.program? key = some p ∧ h'.program? key = some q
      ∧ p.fencingRevision < active.fencingRevision
      ∧ active.fencingRevision = q.fencingRevision := by
  obtain ⟨p, hp⟩ := hout.program
  obtain ⟨q, hq, hmoved⟩ := hstep.1.moved hp
  obtain ⟨reply, hreply, hprom⟩ := hout.reply
  refine ⟨p, q, hp, hq, ?_⟩
  have hplain : ¬Plain (h.coordinator.run e).2 := by
    intro hplain
    rw [(hplain reply hreply).1] at hprom
    cases hprom
  cases hmoved with
  | elsewhere hne => exact absurd hout.1 hne
  | unchanged _ _ h => exact absurd h hplain
  | restored _ _ _ h => exact absurd h hplain
  | effect _ hget heffect =>
      cases heffect with
      | quiet _ h => exact absurd h hplain
      | extended _ _ h => exact absurd h hplain
      | stopped _ hres =>
          rw [hres reply hreply] at hprom
          cases hprom
      | promoted hpromotes hpromoted hres =>
          cases (hres reply hreply).1.symm.trans hprom
          rw [hpromoted.fencing, hpromoted.lease]
          refine ⟨lt_increment ?_, rfl⟩
          by_contra hover
          exact hstep.2 (.inr (.inl ⟨p, hget, Nat.lt_of_not_le hover, hpromotes⟩))

/-! ## Runs -/

/-- Along a run the revision does not fall, and a lease that is not good does
not become good. -/
theorem FencedRun.kept {h₁ h₂ : FailoverHistory} {t₁ t₂ : Nat} {es : List FailoverEvent}
    {key : String} {p : FailoverProgram} (hp : FencedRun (h₁, t₁) es (h₂, t₂))
    (hget : h₁.program? key = some p) :
    ∃ q, h₂.program? key = some q ∧ p.fencingRevision ≤ q.fencingRevision
      ∧ ∀ role lease, lease.fencingRevision ≤ p.fencingRevision → ¬Good p role lease t₁ →
        ¬Good q role lease t₂ := by
  refine hp.inv (I := fun s => ∃ q, s.1.program? key = some q
    ∧ p.fencingRevision ≤ q.fencingRevision ∧ ∀ role lease,
      lease.fencingRevision ≤ p.fencingRevision → ¬Good p role lease t₁ →
        ¬Good q role lease s.2) ?_ ⟨p, hget, le_refl _, fun _ _ _ h => h⟩
  rintro ⟨h, t⟩ e ⟨h', t'⟩ ⟨hstep, hle, htime⟩ ⟨q, hq, hfencing, hlost⟩
  obtain ⟨r, hr, hkept⟩ := hstep.kept hq
  refine ⟨r, hr, le_trans hfencing hkept.fencing, fun role lease hlease hnot hgood => ?_⟩
  rw [htime] at hgood
  have hnow := hkept.lost (le_trans hlease hfencing) hgood
  exact hlost role lease hlease hnot (hnow.earlier hle)

/-- The lease is the active one of the role. -/
def Held (h : FailoverHistory) (key : String) (role : WriterRole) (lease : LeaseClaim) : Prop :=
  ∃ p active, h.program? key = some p ∧ (p.role role).active = some active
    ∧ active.claim = lease

/-- What the fence promises of a program from a moment on, in the runs of
`step`: later promotions hand out higher revisions, a role has one good lease
at a time, and a lease it held that is once rejected stays rejected. -/
structure FencedFrom (step : FailoverHistory → FailoverEvent → FailoverHistory → Prop)
    (key : String) (s₁ : FailoverHistory × Nat) : Prop where
  increasing : ∀ {e e' : FailoverEvent} {es : List FailoverEvent}
    {s₂ s₃ s₄ : FailoverHistory × Nat} {active active' : ActiveWriter},
    Clocked step FailoverEvent.now s₁ e s₂ → HandsOut s₁.1 e key active →
    Path (Clocked step FailoverEvent.now) s₂ es s₃ →
    Clocked step FailoverEvent.now s₃ e' s₄ → HandsOut s₃.1 e' key active' →
    active.fencingRevision < active'.fencingRevision
  unique : ∀ {role : WriterRole} {scope scope' : FailoverScope} {lease lease' : LeaseClaim}
    {now now' : Nat}, scopeKey scope = key → scopeKey scope' = key →
    s₁.1.coordinator.authorizeWriter scope role lease now = .ok () →
    s₁.1.coordinator.authorizeWriter scope' role lease' now' = .ok () → lease = lease'
  rejected : ∀ {role : WriterRole} {scope scope' : FailoverScope} {lease : LeaseClaim}
    {es es' : List FailoverEvent} {s₂ s₃ : FailoverHistory × Nat} {now : Nat},
    Held s₁.1 key role lease → Path (Clocked step FailoverEvent.now) s₁ es s₂ →
    scopeKey scope = key →
    s₂.1.coordinator.authorizeWriter scope role lease s₂.2
      = .error "invalid_broadcast_failover_fence" →
    Path (Clocked step FailoverEvent.now) s₂ es' s₃ → scopeKey scope' = key → s₃.2 ≤ now →
    s₃.1.coordinator.authorizeWriter scope' role lease now ≠ .ok ()

theorem increasing_of_fenced {h₁ h₂ h₃ h₄ : FailoverHistory}
    {t₂ t₃ : Nat} {e' : FailoverEvent} {es : List FailoverEvent} {active active' : ActiveWriter}
    (hstep : FencedStep h₁ e h₂) (hout : HandsOut h₁ e key active)
    (hp : FencedRun (h₂, t₂) es (h₃, t₃)) (hstep' : FencedStep h₃ e' h₄)
    (hout' : HandsOut h₃ e' key active') : active.fencingRevision < active'.fencingRevision := by
  obtain ⟨p₁, p₂, -, hp₂, -, hraised⟩ := hout.raises hstep
  obtain ⟨p₃, hp₃, hle, -⟩ := hp.kept hp₂
  obtain ⟨p₃', p₄, hp₃', -, hraised', -⟩ := hout'.raises hstep'
  cases hp₃.symm.trans hp₃'
  omega

theorem authorized_unique {scope' : FailoverScope} {lease' : LeaseClaim} {now' : Nat}
    (hkey : scopeKey scope = key) (hkey' : scopeKey scope' = key)
    (h : c.authorizeWriter scope role lease now = .ok ())
    (h' : c.authorizeWriter scope' role lease' now' = .ok ()) : lease = lease' := by
  obtain ⟨p, hp, hgood⟩ := good_of_authorized h
  obtain ⟨p', hp', hgood'⟩ := good_of_authorized h'
  rw [hkey] at hp
  rw [hkey'] at hp'
  cases hp.symm.trans hp'
  exact hgood.unique hgood'

theorem rejected_of_fenced {h₁ h₂ h₃ : FailoverHistory} {t₁ t₂ t₃ : Nat}
    {es es' : List FailoverEvent} {scope' : FailoverScope}
    (hbounded : Holds LeasesBounded (fun _ => True) h₁)
    (hheld : Held h₁ key role lease) (hp : FencedRun (h₁, t₁) es (h₂, t₂))
    (hkey : scopeKey scope = key) (hrejected : h₂.coordinator.authorizeWriter scope role lease t₂
      = .error "invalid_broadcast_failover_fence")
    (hp' : FencedRun (h₂, t₂) es' (h₃, t₃)) (hkey' : scopeKey scope' = key) (hnow : t₃ ≤ now) :
    h₃.coordinator.authorizeWriter scope' role lease now ≠ .ok () := by
  intro hauth
  obtain ⟨p₁, active, hp₁, hactive, rfl⟩ := hheld
  have hle : active.claim.fencingRevision ≤ p₁.fencingRevision := hbounded.program hp₁ hactive
  obtain ⟨p₂, hp₂, hle₂, -⟩ := hp.kept hp₁
  have hlost : ¬Good p₂ role active.claim t₂ := by
    subst hkey
    exact not_good_of_rejected hp₂ hrejected
  obtain ⟨p₃, hp₃, -, hstill⟩ := hp'.kept hp₂
  obtain ⟨p₃', hp₃', hgood⟩ := good_of_authorized hauth
  rw [hkey'] at hp₃'
  cases hp₃.symm.trans hp₃'
  exact hstill role active.claim (le_trans hle hle₂) hlost (hgood.earlier hnow)

/-- **Fenced in time.** From every moment of every run in which no call undoes
the fence, the leases of every program are fenced. -/
theorem leases_fenced {config : FailoverConfig} {t₀ : Nat} {es : List FailoverEvent}
    {s : FailoverHistory × Nat} (hp : FencedRun (.start config, t₀) es s) (key : String) :
    FencedFrom FencedStep key s := by
  have hbounded : Holds LeasesBounded (fun _ => True) s.1 := by
    refine hp.inv (I := fun s => Holds LeasesBounded (fun _ => True) s.1) ?_ (holds_start config)
    intro s e s' hstep hinv
    exact hstep.1.1.bounded hinv
  constructor
  · intro e e' es s₂ s₃ s₄ active active' hstep hout hpath hstep' hout'
    exact increasing_of_fenced hstep.1 hout hpath hstep'.1 hout'
  · intro role scope scope' lease lease' now now' hkey hkey' h h'
    exact authorized_unique hkey hkey' h h'
  · intro role scope scope' lease es es' s₂ s₃ now hheld hpath hkey hrejected hpath' hkey' hnow
    exact rejected_of_fenced hbounded hheld hpath hkey hrejected hpath' hkey' hnow

/-! ## A sample lease -/

/-- The sample program with a standby that takes the packager's lease. -/
def sampleConfigured : FailoverHistory := sampleRegistered.after sampleConfigure

def sampleAcquired : FailoverHistory := sampleConfigured.after sampleAcquire

theorem fenced_of_call (hbeat : ∀ scope role input, e.call ≠ .heartbeat scope role input)
    (hrestore : ∀ value, e.call ≠ .restore value)
    (hlow : (h.program? e.call.key).all (·.fencingRevision ≤ maxSafeInteger)) :
    FencedStep h e (h.after e) := by
  refine ⟨.call hrestore, ?_⟩
  rintro (⟨scope, role, input, _, _, hcall, -⟩ | ⟨p, hget, hover, -⟩ | ⟨value, _, hcall, -⟩)
  · exact hbeat scope role input hcall
  · rw [FailoverHistory.program?, FailoverCall.key, getProgram_ok hget] at hlow
    simp only [all_some, decide_eq_true_eq] at hlow
    omega
  · exact hrestore value hcall

theorem sample_register : FencedStep (.start .default) sampleRegister sampleRegistered :=
  fenced_of_call (fun _ _ _ h => by cases h) (fun _ h => by cases h) rfl

theorem sample_configure : FencedStep sampleRegistered sampleConfigure sampleConfigured :=
  fenced_of_call (fun _ _ _ h => by cases h) (fun _ h => by cases h) (by decide +kernel)

theorem sample_acquire : FencedStep sampleConfigured sampleAcquire sampleAcquired :=
  fenced_of_call (fun _ _ _ h => by cases h) (fun _ h => by cases h) (by decide +kernel)

theorem sample_acquired : FencedRun (.start .default, 1000)
    [sampleRegister, sampleConfigure, sampleAcquire] (sampleAcquired, 1000) := by
  have h₁ : FencedRun (.start .default, 1000) [sampleRegister] (sampleRegistered, 1000) :=
    .tick sample_register
  have h₂ : FencedRun (sampleRegistered, 1000) [sampleConfigure] (sampleConfigured, 1000) :=
    .tick sample_configure
  have h₃ : FencedRun (sampleConfigured, 1000) [sampleAcquire] (sampleAcquired, 1000) :=
    .tick sample_acquire
  exact h₁.append (h₂.append h₃)

theorem leases_fenced_sample :
    FencedFrom FencedStep (scopeKey sampleFailoverScope) (sampleAcquired, 1000) :=
  leases_fenced sample_acquired _

/-- The lease the sample standby is given, good until 16000. -/
def sampleClaim : LeaseClaim :=
  (newLease .default (newProgram sampleFailoverScope) .packagerWriter sampleStandby 12 1000).claim

/-- Its holder asks whether it may write, and reports good health. -/
def sampleAuthorize (now : Nat) : FailoverEvent :=
  ⟨.authorizeWriter sampleFailoverScope .packagerWriter sampleClaim, now⟩

def sampleHeartbeat (now : Nat) : FailoverEvent :=
  ⟨.heartbeat sampleFailoverScope .packagerWriter
    { sampleClaim with health := .healthy, quorum := some ⟨2, 3⟩ }, now⟩

theorem sample_answers : (sampleAcquired.program? (scopeKey sampleFailoverScope)).any (fun p =>
      (p.role .packagerWriter).active.any (·.claim = sampleClaim)) = true
    ∧ sampleAcquired.coordinator.authorizeWriter sampleFailoverScope .packagerWriter
      sampleClaim 20000 = .error "invalid_broadcast_failover_fence"
    ∧ (sampleAcquired.after (sampleHeartbeat 20001)).coordinator.authorizeWriter
      sampleFailoverScope .packagerWriter sampleClaim 20001 = .ok () := by
  refine ⟨?_, ?_, ?_⟩ <;> decide +kernel

theorem sample_held :
    Held sampleAcquired (scopeKey sampleFailoverScope) .packagerWriter sampleClaim := by
  obtain ⟨p, hp, hactive⟩ := (any_eq_true _ _).mp sample_answers.1
  obtain ⟨active, hactive, hclaim⟩ := (any_eq_true _ _).mp hactive
  exact ⟨p, active, hp, hactive, of_decide_eq_true hclaim⟩

theorem FailoverHistory.after_authorizeWriter (h : FailoverHistory) (scope : FailoverScope)
    (role : WriterRole) (lease : LeaseClaim) (now : Nat) :
    h.after ⟨.authorizeWriter scope role lease, now⟩ = h := by
  unfold after reply
  simp only [run, replied]
  cases h.coordinator.authorizeWriter scope role lease now <;> rfl

/-- A heartbeat makes an expired lease good again: at 20000 the lease is
rejected, and at 20001 its holder may write. -/
theorem expired_lease_prolonged : ¬∀ (config : FailoverConfig) (t₀ : Nat) (es : List FailoverEvent)
      (s : FailoverHistory × Nat) (key : String),
      Path (Clocked FailoverStep FailoverEvent.now) (.start config, t₀) es s →
      FencedFrom FailoverStep key s := by
  intro hclaim
  have hrun : Path (Clocked FailoverStep FailoverEvent.now) (.start .default, 1000)
      [sampleRegister, sampleConfigure, sampleAcquire] (sampleAcquired, 1000) :=
    sample_acquired.mono fun h => ⟨h.1.1, h.2⟩
  obtain ⟨-, hrejected, haccepted⟩ := sample_answers
  have hasked : Path (Clocked FailoverStep FailoverEvent.now) (sampleAcquired, 1000)
      [sampleAuthorize 20000] (sampleAcquired, 20000) := by
    refine .single ⟨?_, by decide, rfl⟩
    exact ⟨fun _ h => (nomatch h), (FailoverHistory.after_authorizeWriter _ _ _ _ _).symm⟩
  have hprolonged : Path (Clocked FailoverStep FailoverEvent.now) (sampleAcquired, 20000)
      [sampleHeartbeat 20001] (sampleAcquired.after (sampleHeartbeat 20001), 20001) := by
    have hstep : FailoverStep sampleAcquired (sampleHeartbeat 20001)
        (sampleAcquired.after (sampleHeartbeat 20001)) := .call (fun _ h => by cases h)
    exact .single ⟨hstep, by decide, rfl⟩
  have hfenced := hclaim .default 1000 _ _ (scopeKey sampleFailoverScope) hrun
  exact hfenced.rejected sample_held hasked rfl hrejected hprolonged rfl (le_refl _) haccepted

end WebrtcMinimize
