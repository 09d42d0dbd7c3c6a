import WebrtcMinimize.FailoverRuns

/-!
# A stopped failover program

A stop takes every lease away and sets a flag that `acquire` reads. Two ways
around the flag are left: `evaluate` promotes a candidate that was configured
after the stop, and a snapshot from before the stop may be restored over the
program. In a run that takes neither, a stopped program stays stopped and
nobody gets a lease of it again.
-/

namespace WebrtcMinimize

open Checks Runs FailoverEvent

/-- No role has a lease. -/
def Vacant (p : FailoverProgram) : Prop := ∀ role, (p.role role).active = none

/-- The program under the key is stopped and nobody has a lease of it. -/
def StoppedFor (h : FailoverHistory) (key : String) : Prop :=
  ∃ p, h.program? key = some p ∧ p.stopped = true ∧ Vacant p

/-- A call to a stopped program that gets to a promotion, or that restores a
snapshot of the program from before it was stopped. -/
def Revives (h : FailoverHistory) (e : FailoverEvent) : Prop :=
  (∃ p, h.coordinator.getProgram e.call.scope = .ok p ∧ p.stopped = true
    ∧ Promotes h.coordinator.config p e.now e.call)
  ∨ ∃ value p, e.call = .restore value ∧ value.stopped = false
    ∧ h.program? e.call.key = some p ∧ p.stopped = true

/-- Runs in which no call revives a stopped program. -/
abbrev SettledStep : FailoverHistory → FailoverEvent → FailoverHistory → Prop :=
  Guarded FailoverStep fun h e => ¬Revives h e

/-! ## Stopped programs are vacant -/

def StoppedVacant (p : FailoverProgram) : Prop := p.stopped = true → Vacant p

def SnapshotVacant (value : FailoverSnapshot) : Prop :=
  value.stopped = true → ∀ state ∈ value.roles, state.active = none

theorem snapshotVacant_of_program {p : FailoverProgram} (h : StoppedVacant p) :
    SnapshotVacant p.snapshot := by
  intro hstopped state hmem
  simp only [FailoverProgram.snapshot, List.mem_map] at hmem
  obtain ⟨role, -, rfl⟩ := hmem
  exact h hstopped role

theorem stoppedVacant_of_restored {value : FailoverSnapshot} {p : FailoverProgram}
    (hvalue : SnapshotVacant value) (h : Restored value p) : StoppedVacant p := by
  intro hstopped role
  cases hactive : (p.role role).active with
  | none => rfl
  | some active =>
      obtain ⟨-, state, hmem, -, hsome⟩ := h.active hactive
      rw [hvalue (h.stopped ▸ hstopped) state hmem] at hsome
      cases hsome

/-- An effect on a stopped program without leases that is not a promotion
leaves it so. -/
theorem FailoverEffect.stays_stopped {config : FailoverConfig} {p q : FailoverProgram}
    {now : Nat} {call : FailoverCall} {result : Except String FailoverReply}
    (h : FailoverEffect config p now call q result) (hcall : ¬Promotes config p now call)
    (hstopped : p.stopped = true) (hvacant : Vacant p) :
    q.stopped = true ∧ Vacant q ∧ ∀ reply, result = .ok reply → reply.promoted = none := by
  cases h with
  | quiet hquiet hplain =>
      refine ⟨hquiet.stopped.trans hstopped, fun role => ?_, fun reply hr => (hplain reply hr).1⟩
      rw [hquiet.active, hvacant]
  | extended _ hextended _ =>
      obtain ⟨active, hactive, -⟩ := hextended.active
      rw [hvacant] at hactive
      cases hactive
  | promoted hpromotes _ _ => exact absurd hpromotes hcall
  | stopped hstop hres => exact ⟨hstop.stopped, hstop.active, hres⟩

theorem FailoverEffect.stoppedVacant {config : FailoverConfig} {p q : FailoverProgram}
    {now : Nat} {call : FailoverCall} {result : Except String FailoverReply}
    (h : FailoverEffect config p now call q result)
    (hcall : p.stopped = true → ¬Promotes config p now call) (hp : StoppedVacant p) :
    StoppedVacant q := by
  intro hq
  by_cases hstopped : p.stopped = true
  · exact (h.stays_stopped (hcall hstopped) hstopped (hp hstopped)).2.1
  · cases h with
    | quiet hquiet => exact absurd (hquiet.stopped ▸ hq) hstopped
    | extended _ hextended => exact absurd (hextended.stopped ▸ hq) hstopped
    | promoted _ hpromoted => exact absurd (hpromoted.stopped ▸ hq) hstopped
    | stopped hstop => exact hstop.active

theorem SettledStep.holds {h h' : FailoverHistory} {e : FailoverEvent}
    (hstep : SettledStep h e h') (hinv : Holds StoppedVacant SnapshotVacant h) :
    Holds StoppedVacant SnapshotVacant h' := by
  refine hstep.1.holds ?_ ?_ snapshotVacant_of_program ?_ hinv
  · intro scope hstopped
    cases hstopped
  · intro value p hvalue hres
    exact stoppedVacant_of_restored hvalue (restoreProgram_restored hres)
  · intro p q result hp heffect hvacant
    refine heffect.stoppedVacant (fun hstopped hpromotes => ?_) hvacant
    exact hstep.2 (.inl ⟨p, hp, hstopped, hpromotes⟩)

/-! ## Stopped for good -/

/-- One call that revives nothing: the program stays stopped, and nobody is
handed a lease of it. -/
theorem SettledStep.stoppedFor {h h' : FailoverHistory} {e : FailoverEvent} {key : String}
    (hstep : SettledStep h e h') (hinv : Holds StoppedVacant SnapshotVacant h)
    (hstopped : StoppedFor h key) :
    StoppedFor h' key ∧ ∀ active, ¬HandsOut h e key active := by
  obtain ⟨p, hp, hflag, hvacant⟩ := hstopped
  obtain ⟨q, hq, hmoved⟩ := hstep.1.moved hp
  cases hmoved with
  | elsewhere hkey hsame =>
      subst hsame
      exact ⟨⟨q, hq, hflag, hvacant⟩, fun active hout => hkey hout.1⟩
  | unchanged _ hsame hplain =>
      subst hsame
      refine ⟨⟨q, hq, hflag, hvacant⟩, ?_⟩
      intro active hout
      obtain ⟨reply, hreply, hprom⟩ := hout.reply
      rw [(hplain reply hreply).1] at hprom
      cases hprom
  | @restored value hcall hkey hres hplain =>
      have hrestored := restoreProgram_restored hres
      have hvalue : value.stopped = true := by
        by_contra hrunning
        subst hkey
        exact hstep.2 (.inr ⟨value, p, hcall, Bool.eq_false_iff.mpr hrunning, hp, hflag⟩)
      have hqflag : q.stopped = true := hrestored.stopped.trans hvalue
      have hmem := hstep.1.1 value hcall
      refine ⟨⟨q, hq, hqflag, stoppedVacant_of_restored (hinv.snapshot hmem) hrestored hqflag⟩, ?_⟩
      intro active hout
      obtain ⟨reply, hreply, hprom⟩ := hout.reply
      rw [(hplain reply hreply).1] at hprom
      cases hprom
  | effect _ hget heffect =>
      have hcall : ¬Promotes h.coordinator.config p e.now e.call := by
        intro hpromotes
        exact hstep.2 (.inl ⟨p, hget, hflag, hpromotes⟩)
      obtain ⟨hqflag, hqvacant, hres⟩ := heffect.stays_stopped hcall hflag hvacant
      refine ⟨⟨q, hq, hqflag, hqvacant⟩, ?_⟩
      intro active hout
      obtain ⟨reply, hreply, hprom⟩ := hout.reply
      rw [hres reply hreply] at hprom
      cases hprom

theorem FailoverStep.stoppedFor {h h' : FailoverHistory} {e : FailoverEvent} {key : String}
    (hstep : FailoverStep h e h') (hstop : ReturnsStop h e key) : StoppedFor h' key := by
  obtain ⟨p, hp⟩ := hstop.program
  obtain ⟨q, hq, hmoved⟩ := hstep.moved hp
  obtain ⟨reply, hreply, hisStop⟩ := hstop.reply
  cases hmoved with
  | elsewhere hne => exact absurd hstop.1 hne
  | unchanged _ _ hplain =>
      rw [(hplain reply hreply).2] at hisStop
      cases hisStop
  | restored _ _ _ hplain =>
      rw [(hplain reply hreply).2] at hisStop
      cases hisStop
  | effect _ _ heffect =>
      cases heffect with
      | quiet _ hplain =>
          rw [(hplain reply hreply).2] at hisStop
          cases hisStop
      | extended _ _ hplain =>
          rw [(hplain reply hreply).2] at hisStop
          cases hisStop
      | promoted _ _ hres =>
          rw [(hres reply hreply).2] at hisStop
          cases hisStop
      | stopped hstopped _ => exact ⟨q, hq, hstopped.stopped, hstopped.active⟩

theorem StoppedFor.snapshot {h : FailoverHistory} {key : String} (hstopped : StoppedFor h key)
    {scope : FailoverScope} {value : FailoverSnapshot} (hkey : scopeKey scope = key)
    (hvalue : h.coordinator.snapshot scope = .ok value) :
    ∀ state ∈ value.roles, state.active = none := by
  obtain ⟨p, hp, hflag, hvacant⟩ := hstopped
  obtain ⟨p', hp', rfl⟩ := FailoverCoordinator.snapshot_ok hvalue
  rw [hkey] at hp'
  cases hp.symm.trans hp'
  exact snapshotVacant_of_program (fun _ => hvacant) hflag

/-- **Stopped for good.** In every run without a call that revives a stopped
program, once a call has returned a stop for a program, nobody is handed a
lease of it again, and every later snapshot of it has no active lease. -/
theorem stop_is_final {config : FailoverConfig} {h₁ h₂ h₃ : FailoverHistory}
    {es₁ es₂ : List FailoverEvent} {e : FailoverEvent} {key : String}
    (hp₁ : Path SettledStep (.start config) es₁ h₁) (hstep : SettledStep h₁ e h₂)
    (hstop : ReturnsStop h₁ e key) (hp₂ : Path SettledStep h₂ es₂ h₃) :
    (∀ scope value, scopeKey scope = key → h₃.coordinator.snapshot scope = .ok value →
      ∀ state ∈ value.roles, state.active = none)
    ∧ ∀ e' h₄ active, SettledStep h₃ e' h₄ → ¬HandsOut h₃ e' key active := by
  have hinv₁ : Holds StoppedVacant SnapshotVacant h₁ :=
    hp₁.inv (fun hs hi => hs.holds hi) (holds_start config)
  have hstart := hstep.1.stoppedFor hstop
  have hend : Holds StoppedVacant SnapshotVacant h₃ ∧ StoppedFor h₃ key := by
    refine hp₂.inv (I := fun h => Holds StoppedVacant SnapshotVacant h ∧ StoppedFor h key) ?_
      ⟨hstep.holds hinv₁, hstart⟩
    rintro h e h' hs ⟨hinv, hstopped⟩
    exact ⟨hs.holds hinv, (hs.stoppedFor hinv hstopped).1⟩
  obtain ⟨hinv₃, hstopped₃⟩ := hend
  refine ⟨fun scope value hkey hvalue => hstopped₃.snapshot hkey hvalue, ?_⟩
  intro e' h₄ active hs
  exact (hs.stoppedFor hinv₃ hstopped₃).2 active

/-- The sample program is stopped for want of a standby, and then gets one. -/
def sampleStopped : FailoverHistory := sampleRegistered.after sampleAcquire

theorem settled_register : SettledStep (.start .default) sampleRegister sampleRegistered := by
  refine ⟨.call (fun value h => by cases h), ?_⟩
  rintro (⟨p, -, -, hpromotes⟩ | ⟨value, p, hcall, -⟩)
  · exact hpromotes
  · cases hcall

theorem settled_acquire : SettledStep sampleRegistered sampleAcquire sampleStopped := by
  refine ⟨.call (fun value h => by cases h), ?_⟩
  rintro (⟨p, -, hstopped, hrunning, -⟩ | ⟨value, p, hcall, -⟩)
  · rw [hrunning] at hstopped
    cases hstopped
  · cases hcall

theorem settled_configure :
    SettledStep sampleStopped sampleConfigure (sampleStopped.after sampleConfigure) := by
  refine ⟨.call (fun value h => by cases h), ?_⟩
  rintro (⟨p, -, -, hpromotes⟩ | ⟨value, p, hcall, -⟩)
  · exact hpromotes
  · cases hcall

theorem sample_returnsStop :
    ReturnsStop sampleRegistered sampleAcquire (scopeKey sampleFailoverScope) :=
  ⟨rfl, by decide +kernel⟩

theorem stop_is_final_sample : (∀ scope value, scopeKey scope = scopeKey sampleFailoverScope →
      (sampleStopped.after sampleConfigure).coordinator.snapshot scope = .ok value →
      ∀ state ∈ value.roles, state.active = none)
    ∧ ∀ e' h₄ active, SettledStep (sampleStopped.after sampleConfigure) e' h₄ →
        ¬HandsOut (sampleStopped.after sampleConfigure) e' (scopeKey sampleFailoverScope) active :=
  stop_is_final (.single settled_register) settled_acquire sample_returnsStop
    (.single settled_configure)

/-- A candidate configured after the stop takes the stopped program over, with
times that do not run backwards. -/
theorem stopped_program_taken_over :
    ¬∀ (config : FailoverConfig) (es₁ es₂ : List FailoverEvent) (e e' : FailoverEvent)
      (h₁ h₂ h₃ h₄ : FailoverHistory) (t₀ t₁ t₂ t₃ t₄ : Nat) (key : String)
      (active : ActiveWriter),
      Path (Clocked FailoverStep now) (.start config, t₀) es₁ (h₁, t₁) →
      Clocked FailoverStep now (h₁, t₁) e (h₂, t₂) → ReturnsStop h₁ e key →
      Path (Clocked FailoverStep now) (h₂, t₂) es₂ (h₃, t₃) →
      Clocked FailoverStep now (h₃, t₃) e' (h₄, t₄) →
      ¬HandsOut h₃ e' key active := by
  intro hclaim
  have htakeover : (((sampleStopped.after sampleConfigure).after (sampleEvaluate 1000)).handedOut
      (sampleEvaluate 6000)).isSome = true := by
    decide +kernel
  obtain ⟨active, hout⟩ := Option.isSome_iff_exists.mp htakeover
  have hregister : FailoverStep (.start .default) sampleRegister sampleRegistered :=
    settled_register.1
  have hacquire : FailoverStep sampleRegistered sampleAcquire sampleStopped := settled_acquire.1
  have hconfigure := settled_configure.1
  have hgrace : FailoverStep (sampleStopped.after sampleConfigure) (sampleEvaluate 1000) _ :=
    .call (fun value h => by cases h)
  have hevaluate := FailoverStep.call (h := (sampleStopped.after sampleConfigure).after
    (sampleEvaluate 1000)) (e := sampleEvaluate 6000) (fun value h => by cases h)
  exact hclaim .default [sampleRegister] [sampleConfigure, sampleEvaluate 1000] sampleAcquire
    (sampleEvaluate 6000) sampleRegistered sampleStopped _ _ 1000 1000 1000 1000 6000
    (scopeKey sampleFailoverScope) active
    (.tick hregister) ⟨hacquire, Nat.le_refl _, rfl⟩ sample_returnsStop
    ((Path.tick hconfigure).append (.tick hgrace)) ⟨hevaluate, by decide, rfl⟩ ⟨rfl, hout⟩

end WebrtcMinimize
