import WebrtcMinimize.ProgramRuns

/-!
# Writer fencing

`authorizeBroadcastWriterCommand` and what its three fences are worth. A
writer command names the program revision, the program epoch and the lease
epoch it was issued under. Along every run these never decrease, and the
program itself cannot change without its revision rising (`Advances`).
Every fencing call, the ones that replace or remove a writer or roll the
epoch, raises one of the three for good (`fencing_moves`), so a command
issued before it is never accepted again.
-/

namespace WebrtcMinimize

open Checks Runs Payload Nat Option

/-! ## Writer commands -/

inductive WriterAction where
  | prepare | publish | reconfigure | drain | stop | probe
deriving DecidableEq, Repr

def WriterAction.text : WriterAction → String
  | .prepare => "prepare"
  | .publish => "publish"
  | .reconfigure => "reconfigure"
  | .drain => "drain"
  | .stop => "stop"
  | .probe => "probe"

/-- `ACTION_STATES` -/
def WriterAction.states : WriterAction → List ProgramState
  | .prepare => [.preparing, .awaitingConsent]
  | .publish => [.publishing, .live, .degraded]
  | .reconfigure => [.preparing, .publishing, .live, .degraded]
  | .drain => [.degraded, .stopping, .failed]
  | .stop => [.degraded, .stopping, .failed]
  | .probe =>
      [.preparing, .awaitingConsent, .publishing, .live, .degraded, .stopping, .failed]

structure WriterCommand where
  action : WriterAction
  tenantId : String
  roomId : String
  programId : String
  programRevision : Nat
  programEpoch : Nat
  leaseEpoch : Nat
  role : WriterRole
  leaseId : String
  holderRef : String
  fencingRevision : Nat
  operationRef : Option String
deriving DecidableEq, Repr

def WriterCommand.toJson (c : WriterCommand) : Json :=
  .obj ([("commandVersion", .num 1), ("type", .str "broadcast-writer-command"),
    ("action", .str c.action.text), ("tenantId", .str c.tenantId),
    ("roomId", .str c.roomId), ("programId", .str c.programId),
    ("programRevision", .num c.programRevision), ("programEpoch", .num c.programEpoch),
    ("leaseEpoch", .num c.leaseEpoch), ("role", .str c.role.text),
    ("leaseId", .str c.leaseId), ("holderRef", .str c.holderRef),
    ("fencingRevision", .num c.fencingRevision)]
    ++ Json.optField "operationRef" (c.operationRef.map .str))

def maxWriterCommandBytes : Nat := 8 * 1024

/-- The fields of a writer command, before they are compared with the state. -/
def WriterCommand.shapeOK (c : WriterCommand) : Bool :=
  refOK "lea_" c.leaseId && principalRefOK c.holderRef
    && positiveIntegerOK c.programRevision && positiveIntegerOK c.programEpoch
    && positiveIntegerOK c.leaseEpoch && positiveIntegerOK c.fencingRevision
    && c.operationRef.all (refOK "res_")

/-- The lease the command names is the current one of its role, and fresh. -/
def assertWriterFence (state : Machine) (command : WriterCommand) (now : Nat) :
    Except String Unit :=
  match activeWriter state command.role with
  | none => .error "invalid_broadcast_writer_fence"
  | some lease => do
      failIf (lease.status ≠ .active ∨ lease.leaseId ≠ command.leaseId
          ∨ lease.holderRef ≠ command.holderRef
          ∨ lease.fencingRevision ≠ command.fencingRevision)
        "invalid_broadcast_writer_fence"
      failIf (lease.expiresAt ≤ now) "expired_broadcast_writer_fence"

def authorizeBroadcastWriterCommand (value : Machine) (command : WriterCommand) (now : Nat) :
    Except String WriterCommand := do
  let state ← validateBroadcastProgramMachine value
  failIf (maxWriterCommandBytes < command.toJson.byteLength)
    "invalid_broadcast_writer_command"
  failIf (command.shapeOK = false) "invalid_broadcast_writer_command"
  match state.program with
  | none => .error "broadcast_program_not_created"
  | some program => do
      failIf (command.tenantId ≠ state.scope.tenantId ∨ command.roomId ≠ state.scope.roomId
          ∨ command.programId ≠ state.scope.programId)
        "broadcast_writer_scope_mismatch"
      failIf (command.programRevision ≠ program.revision) "stale_broadcast_revision"
      failIf (command.programEpoch ≠ state.epochs.broadcast) "stale_broadcast_epoch"
      failIf (command.leaseEpoch ≠ state.epochs.lease) "stale_broadcast_lease_epoch"
      failIf (program.state = .stopped) "broadcast_program_terminal"
      failIf (program.state ∉ command.action.states) "invalid_broadcast_writer_action_state"
      assertWriterFence state command now
      return command

variable {now : Nat} {s : Machine}

/-- An accepted command names the current revision and both current epochs
of a program that is not stopped. -/
theorem authorize_ok {c v : WriterCommand} (h : authorizeBroadcastWriterCommand s c now = .ok v) :
    ∃ p, s.program = some p ∧ c.programRevision = p.revision
      ∧ c.programEpoch = s.epochs.broadcast ∧ c.leaseEpoch = s.epochs.lease
      ∧ p.state ≠ .stopped := by
  simp only [authorizeBroadcastWriterCommand, bind_ok_iff, failIf_ok_iff, exists_const] at h
  obtain ⟨t, hvalid, -, -, h⟩ := h
  obtain ⟨-, -, rfl⟩ := validate_ok_iff.mp hvalid
  split at h
  · cases h
  · rename_i p hp
    simp only [bind_ok_iff, failIf_ok_iff, exists_const, ne_eq, not_not] at h
    obtain ⟨-, hrev, hepoch, hlease, hstopped, -⟩ := h
    exact ⟨p, hp, hrev, hepoch, hlease, hstopped⟩

/-! ## Progress -/

/-- No epoch falls back, and the program is the same or has a higher
revision. -/
def Advances (s t : Machine) : Prop :=
  s.epochs.broadcast ≤ t.epochs.broadcast ∧ s.epochs.lease ≤ t.epochs.lease
    ∧ ∀ p, s.program = some p →
        ∃ q, t.program = some q ∧ (q = p ∨ p.revision < q.revision)

theorem Advances.refl (s : Machine) : Advances s s :=
  ⟨le_refl _, le_refl _, fun p hp => ⟨p, hp, .inl rfl⟩⟩

theorem Advances.trans {t u : Machine} (h₁ : Advances s t) (h₂ : Advances t u) : Advances s u := by
  refine ⟨le_trans h₁.1 h₂.1, le_trans h₁.2.1 h₂.2.1, ?_⟩
  intro p hp
  obtain ⟨q, hq, hpq⟩ := h₁.2.2 p hp
  obtain ⟨r, hr, hqr⟩ := h₂.2.2 q hq
  refine ⟨r, hr, ?_⟩
  rcases hpq with rfl | hpq
  · exact hqr
  · rcases hqr with rfl | hqr
    · exact .inr hpq
    · exact .inr (lt_trans hpq hqr)

variable {c : Payload} {p : Program}

theorem Move.advances {m : Machine}
    (h : Move s p now c m) (hp : s.program = some p) : Advances s m := by
  have hup : ∀ {q : Program}, p.revision < q.revision →
      ∀ p', s.program = some p' → ∃ r, some q = some r ∧ (r = p' ∨ p'.revision < r.revision) := by
    intro q hlt p' hp'
    obtain rfl : p = p' := some.inj (hp.symm.trans hp')
    exact ⟨q, rfl, .inr hlt⟩
  cases h with
  | idle => exact .refl s
  | patch => exact ⟨le_refl _, le_refl _, hup (lt_succ_self _)⟩
  | roll => exact ⟨le_succ _, le_succ _, hup (lt_succ_self _)⟩
  | handoff _ hlease =>
      refine ⟨le_refl _, ?_, hup (lt_succ_self _)⟩
      have hfence := hlease.fencing
      rw [Machine.withProgram, Machine.withLease, hfence]
      exact le_succ _
  | lost => exact ⟨le_refl _, le_succ _, hup (lt_succ_self _)⟩
  | abort => exact ⟨le_refl _, le_succ _, fun p hp => ⟨p, hp, .inl rfl⟩⟩
  | cleanup => exact ⟨le_refl _, le_succ _, hup (lt_succ_self _)⟩

theorem Change.advances {s t : Machine} {now : Nat} {call : Call}
    (h : Change s now call t) : Advances s t := by
  cases h with
  | create _ hnone =>
      refine ⟨le_refl _, le_refl _, ?_⟩
      intro p hp
      rw [hnone] at hp
      cases hp
  | move hp _ _ hmove => exact hmove.advances hp
  | renew => exact ⟨le_refl _, le_refl _, fun p hp => ⟨p, hp, .inl rfl⟩⟩
  | synchronize _ hb hl =>
      exact ⟨le_of_eq hb.symm, le_of_eq hl.symm, fun p hp => ⟨p, hp, .inl rfl⟩⟩

theorem Step.advances {s t : Machine} (hs : s.Sound) {e : Event} (h : Step s e t) :
    Advances s t := by
  obtain ⟨rfl | hchange, -⟩ := h.cases hs
  · exact .refl t
  · exact hchange.advances

theorem advances_of_path {t : Machine} {es : List Event} (hp : Path Step s es t)
    (hs : s.Sound) : Advances s t := by
  induction hp with
  | nil s => exact .refl s
  | cons hstep _ ih => exact (hstep.advances hs).trans (ih (hstep.cases hs).2)

/-! ## Fencing calls -/

/-- The commands that take writers out of office. A source change does so
only when it changes the sources. -/
def Payload.fences (p : Program) : Payload → Bool
  | .handoff .. | .outputRestart .. | .retry .. | .visibilityChange ..
  | .cleanupComplete .. => true
  | .lifecycle trigger .. => trigger.writer
  | .sourceChange ids => decide (p.sourceIds.getD [] ≠ ids)
  | _ => false

/-- The call is an accepted command, not a repetition, that fences. -/
def FencingCall (s : Machine) (e : Event) : Prop :=
  ∃ c r p, e.call = .command c ∧ AppliedWith s c e.now r ∧ s.program = some p
    ∧ c.payload.fences p = true

/-- One of the three values a writer command names has risen, or the program
was stopped before. -/
def Fenced (s t : Machine) : Prop :=
  s.epochs.broadcast < t.epochs.broadcast ∨ s.epochs.lease < t.epochs.lease
    ∨ ∃ p, s.program = some p ∧ p.state = .stopped

theorem Payload.fences_of_stops (h : c.stops = true) (p : Program) : c.fences p = false := by
  cases c with
  | revoke => rfl
  | stop => rfl
  | lifecycle t => simpa [stops, fences] using h
  | _ => cases h

/-- A fencing command that does something raises the lease epoch; the one
that may do nothing is a cleanup of a stopped program. -/
theorem Move.fenced {m : Machine}
    (h : Move s p now c m) (hp : s.program = some p) (hc : c.fences p = true) :
    Fenced s m := by
  cases h with
  | idle hidle =>
      cases hidle with
      | advance => cases hc
      | sourceChange hsame => simp [fences, hsame] at hc
      | stop hstop _ =>
          rw [fences_of_stops hstop p] at hc
          cases hc
      | fail => cases hc
      | cleanupComplete hstopped => exact .inr (.inr ⟨p, hp, hstopped⟩)
  | patch hpatch _ =>
      cases hpatch with
      | start => cases hc
      | advance => cases hc
      | stop hstop _ =>
          rw [fences_of_stops hstop p] at hc
          cases hc
      | fail => cases hc
  | roll => exact .inl (lt_succ_self _)
  | handoff _ hlease =>
      refine .inr (.inl ?_)
      rw [Machine.withProgram, Machine.withLease, hlease.fencing]
      exact lt_succ_self _
  | lost => exact .inr (.inl (lt_succ_self _))
  | abort => exact .inr (.inl (lt_succ_self _))
  | cleanup => exact .inr (.inl (lt_succ_self _))

theorem FencingCall.fenced {s : Machine} (hs : s.Sound) {e : Event} (h : FencingCall s e) :
    Fenced s (afterCall s e) := by
  obtain ⟨c, r, p, hcall, happlied, hp, hc⟩ := h
  obtain ⟨call, now⟩ := e
  obtain rfl : call = .command c := hcall
  rw [happlied.after]
  obtain ⟨-, a, ha, rfl⟩ := happlied.handled hs
  cases ha with
  | create hpay hnone => rw [hnone] at hp; cases hp
  | move hq _ _ hpay =>
      cases hp.symm.trans hq
      exact (applyPayload_move hpay).fenced hp hc

/-- **Fencing.** A writer command accepted in `s` is rejected in every state
of every run that has passed a fencing call since. -/
theorem authorize_fenced {s s' u : Machine} {c v : WriterCommand} {now₀ : Nat}
    {es fs : List Event} (hs : Reachable s)
    (hauth : authorizeBroadcastWriterCommand s c now₀ = .ok v)
    (hrun : Through Step FencingCall s es s') (hlater : Path Step s' fs u) (now : Nat) :
    ∃ code, authorizeBroadcastWriterCommand u c now = .error code := by
  obtain ⟨t, e, t', es₁, es₂, -, h₁, hstep, hcall, h₂⟩ := hrun
  have hsound := hs.sound
  have ht := sound_of_path h₁ hsound
  have hbefore := advances_of_path h₁ hsound
  have hafter : Advances t' u := advances_of_path (h₂.append hlater) (hstep.cases ht).2
  have hfenced : Fenced t t' := by
    rw [show t' = afterCall t e from hstep]
    exact hcall.fenced ht
  obtain ⟨p, hp, hrev, hepoch, hlease, hrunning⟩ := authorize_ok hauth
  refine error_of_not_ok fun w hw => ?_
  obtain ⟨q, hq, hrev', hepoch', hlease', -⟩ := authorize_ok hw
  rcases hfenced with hlt | hlt | ⟨r, hr, hstopped⟩
  · have := hbefore.1
    have := hafter.1
    omega
  · have := hbefore.2.1
    have := hafter.2.1
    omega
  · -- the program was stopped at the fencing call, so it had changed since `s`
    obtain ⟨r', hr', hpr⟩ := hbefore.2.2 p hp
    cases hr.symm.trans hr'
    have hlt : p.revision < r.revision := by
      rcases hpr with rfl | hlt
      · exact absurd hstopped hrunning
      · exact hlt
    obtain ⟨q', hq', hrq⟩ := (((hstep.advances ht).trans hafter).2.2) r hr
    cases hq.symm.trans hq'
    rcases hrq with rfl | hrq <;> omega

/-- A writer command of the sample packager. -/
def sampleWriterCommand : WriterCommand :=
  { action := .prepare
    tenantId := sampleScope.tenantId
    roomId := sampleScope.roomId
    programId := sampleScope.programId
    programRevision := 4
    programEpoch := 19
    leaseEpoch := 25
    role := .packagerWriter
    leaseId := "lea_cccccccccccccccc"
    holderRef := "pkr_cccccccccccccccc"
    fencingRevision := 24
    operationRef := none }

/-- The gateway role is handed to another process. -/
def sampleTakeover : Event :=
  sampleEvent '5' (some (4, 19))
    (.handoff 25 (sampleLease .gatewayWriter 'e' 19 26 60000)) 1004

/-- The handoff is applied and raises the lease epoch; before it the
packager's command is accepted. -/
theorem takeover_run : (applies sampleMachine (sampleCommand '5' (some (4, 19))
        (.handoff 25 (sampleLease .gatewayWriter 'e' 19 26 60000))) 1004 = true
      ∧ (afterCall sampleMachine sampleTakeover).epochs ≠ sampleMachine.epochs)
    ∧ authorizeBroadcastWriterCommand sampleMachine sampleWriterCommand 1004
      = .ok sampleWriterCommand := by
  constructor <;> decide +kernel

/-- The packager's command is accepted, and no longer so after the handoff
of the gateway. -/
theorem authorize_fenced_takeover :
    ∃ code, authorizeBroadcastWriterCommand (afterCall sampleMachine sampleTakeover)
      sampleWriterCommand 1005 = .error code := by
  obtain ⟨⟨happlies, -⟩, hauth⟩ := takeover_run
  obtain ⟨r, hr⟩ := applies_iff.mp happlies
  have hcall : FencingCall sampleMachine sampleTakeover := ⟨_, r, _, rfl, hr, rfl, rfl⟩
  exact authorize_fenced reachable_sample hauth
    ⟨sampleMachine, sampleTakeover, _, [], [], rfl, .nil _, rfl, hcall, .nil _⟩ (.nil _) 1005

/-! ## Compare and swap on the revision -/

/-- The call changed more than the ledger. -/
def Altered (s t : Machine) : Prop :=
  t.program ≠ s.program ∨ t.writerLeases ≠ s.writerLeases ∨ t.epochs ≠ s.epochs

/-- Both commands were issued for the program as it stands in `s`. -/
def Expects (s : Machine) (p : Program) (c : Command) : Prop :=
  c.action ≠ .create ∧ c.expectedRevision = some p.revision
    ∧ c.expectedBroadcastEpoch = some s.epochs.broadcast

/-- A process abort reported for a program that has failed already. -/
def AbortsFailed (p : Program) (c : Payload) : Prop :=
  p.state = .failed ∧ ∃ role leaseId fencingRevision reasonCode,
    c = .lifecycle .processAbort role leaseId fencingRevision reasonCode

/-- A move that is neither idle nor an abort of a failed program raises the
revision. -/
theorem Move.raises {m : Machine}
    (h : Move s p now c m) (hp : s.program = some p) (halt : Altered s m) :
    (∃ q, m.program = some q ∧ p.revision < q.revision) ↔ ¬AbortsFailed p c := by
  have hup : ∀ {q : Program} {t : Machine}, ¬AbortsFailed p c →
      ((∃ r, (t.withProgram (p.updated q now)).program = some r ∧ p.revision < r.revision)
        ↔ ¬AbortsFailed p c) :=
    fun hnot => ⟨fun _ => hnot, fun _ => ⟨_, rfl, lt_succ_self _⟩⟩
  cases h with
  | idle => exact absurd halt (by simp [Altered])
  | patch hpatch _ =>
      refine hup ?_
      rintro ⟨hfailed, role, leaseId, fencing, r, rfl⟩
      cases hpatch with
      | stop hstop _ => cases hstop
  | roll hroll =>
      have hnot : ¬AbortsFailed p c := by
        rintro ⟨-, role, leaseId, fencing, r, rfl⟩
        cases hroll
      exact ⟨fun _ => hnot, fun _ => ⟨_, rfl, lt_succ_self _⟩⟩
  | handoff =>
      refine hup ?_
      rintro ⟨-, role, leaseId, fencing, r, heq⟩
      cases heq
  | lost _ _ _ hnot =>
      refine hup ?_
      rintro ⟨hfailed, role, leaseId, fencing, r, heq⟩
      cases heq
      exact hnot ⟨rfl, hfailed⟩
  | abort _ hfailed =>
      constructor
      · rintro ⟨q, hq, hlt⟩
        cases hp.symm.trans hq
        exact absurd hlt (lt_irrefl _)
      · intro hnot
        exact absurd ⟨hfailed, _, _, _, _, rfl⟩ hnot
  | cleanup =>
      refine hup ?_
      rintro ⟨-, role, leaseId, fencing, r, heq⟩
      cases heq

/-- Once the revision has risen, a command issued for the old one is
rejected, unless it repeats a command applied earlier: then it is answered
from the ledger and has no effect. -/
theorem rejected_of_raised {t : Machine} (ht : t.Sound) {a b : Command} {q : Program}
    (hledger : t.appliedCommands = s.appliedCommands ++ [recordOf t a])
    (hkeys : b.idempotencyKeyHash ≠ a.idempotencyKeyHash) (hb : Expects s p b)
    (hq : t.program = some q) (hlt : p.revision < q.revision)
    {r : CommandResult} (hr : applyBroadcastProgramCommand t b now = .ok r) :
    duplicateRecord s b ≠ none ∧ r = ⟨t, true, []⟩ := by
  rcases applyBroadcastProgramCommand_ok ht hr with ⟨rfl, record, hdup, -⟩ | ⟨-, a', ha, -⟩
  · refine ⟨?_, rfl⟩
    intro hnone
    rw [duplicateRecord, hledger, List.find?_append, ← duplicateRecord, hnone,
      none_or] at hdup
    have hkey := List.find?_some hdup
    have hmem := List.mem_of_find?_eq_some hdup
    obtain rfl := List.mem_singleton.mp hmem
    exact hkeys (beq_iff_eq.mp hkey).symm
  · obtain ⟨hcreate, hrev, -⟩ := hb
    cases ha with
    | create hc _ => exact absurd (by rw [Command.action, hc]; rfl) hcreate
    | move hq' hrev' _ _ =>
        cases hq.symm.trans hq'
        rw [hrev] at hrev'
        have := some.inj hrev'
        omega

/-- **Compare and swap.** An applied command that alters more than the
ledger raises the revision, so that every other command issued for the same
program loses, except when it reports a process abort to a program that has
failed already. -/
theorem revision_guards_iff {s : Machine} (hs : Reachable s) {p : Program}
    (hp : s.program = some p) {a : Command} (ha : Expects s p a) {now : Nat}
    {r : CommandResult} (happlied : AppliedWith s a now r) (halt : Altered s r.state) :
    ((∃ q, r.state.program = some q ∧ p.revision < q.revision)
      ∧ ∀ b now' r', Expects s p b → b.idempotencyKeyHash ≠ a.idempotencyKeyHash →
          applyBroadcastProgramCommand r.state b now' = .ok r' →
            duplicateRecord s b ≠ none ∧ r' = ⟨r.state, true, []⟩)
    ↔ ¬AbortsFailed p a.payload := by
  have hsound := hs.sound
  have hafter : r.state.Sound := by
    rw [← happlied.after]
    exact (Step.cases hsound (e := ⟨.command a, now⟩) rfl).2
  obtain ⟨-, applied, hhandled, rfl⟩ := happlied.handled hsound
  cases hhandled with
  | create hc _ => exact absurd (by rw [Command.action, hc]; rfl) ha.1
  | move hp' _ _ hpay =>
      cases hp.symm.trans hp'
      have hraises := (applyPayload_move hpay).raises hp halt
      constructor
      · rintro ⟨hraised, -⟩
        exact hraises.mp hraised
      · intro hnot
        obtain ⟨q, hq, hlt⟩ := hraises.mpr hnot
        refine ⟨⟨q, hq, hlt⟩, ?_⟩
        intro b now' r' hb hkeys hr'
        exact rejected_of_raised hafter rfl hkeys hb hq hlt hr'

theorem revision_guards_takeover :
    ∃ (r : CommandResult) (p : Program), sampleMachine.program = some p ∧
      (((∃ q : Program, r.state.program = some q ∧ p.revision < q.revision)
        ∧ ∀ b now' r', Expects sampleMachine p b →
            b.idempotencyKeyHash ≠ String.ofList (List.replicate 64 '5') →
              applyBroadcastProgramCommand r.state b now' = .ok r' →
                duplicateRecord sampleMachine b ≠ none ∧ r' = ⟨r.state, true, []⟩)
      ↔ ¬AbortsFailed p (.handoff 25 (sampleLease .gatewayWriter 'e' 19 26 60000))) := by
  obtain ⟨⟨happlies, hepochs⟩, -⟩ := takeover_run
  obtain ⟨r, hr⟩ := applies_iff.mp happlies
  have halt : Altered sampleMachine r.state := by
    rw [← hr.after]
    exact .inr (.inr hepochs)
  exact ⟨r, _, rfl, revision_guards_iff reachable_sample rfl ⟨by decide, rfl, rfl⟩ hr halt⟩

/-- It expects revision 5, as `sampleStop` does, and reports that the
packager's process is gone. -/
def sampleAbort : Command :=
  sampleCommand '6' (some (5, 19))
    (.lifecycle .processAbort (some .packagerWriter) (some "lea_cccccccccccccccc") (some 24)
      "PROCESS_ABORT")

/-- The snapshot after the abort. -/
def sampleAborted : Machine :=
  { sampleStalled with
    epochs := { sampleStalled.epochs with lease := 26 }
    writerLeases := sampleStalled.writerLeases.take 1
    appliedCommands := sampleStalled.appliedCommands ++ [
      ⟨"6666666666666666666666666666666666666666666666666666666666666666",
        "a5382aba5e131d0508026431d058d3ff520d716db444b013b40412eb37d8c28f", .lifecycle, 5⟩] }

theorem abort_run : (applies sampleStalled sampleAbort 1005 = true
      ∧ afterCall sampleStalled ⟨.command sampleAbort, 1005⟩ = sampleAborted)
    ∧ applies sampleAborted sampleStop 1006 = true := by
  constructor <;> decide +kernel

/-- The abort takes the packager's lease away and raises the lease epoch,
and the stop issued for the same revision is applied after it. -/
theorem revision_not_guarded :
    ¬∀ s p a b now now' r, Reachable s → s.program = some p → Expects s p a →
      Expects s p b → b.idempotencyKeyHash ≠ a.idempotencyKeyHash →
        AppliedWith s a now r → Altered s r.state →
          ∃ code, applyBroadcastProgramCommand r.state b now' = .error code := by
  intro hclaim
  have hrun : applies sampleFailed sampleAbort 1005 = true
      ∧ (afterCall sampleFailed ⟨.command sampleAbort, 1005⟩).epochs ≠ sampleFailed.epochs
      ∧ applies (afterCall sampleFailed ⟨.command sampleAbort, 1005⟩) sampleStop 1006 = true
      ∧ sampleFailed.program.map (·.revision) = some 5 ∧ sampleFailed.epochs.broadcast = 19 := by
    obtain ⟨⟨habort, hafter⟩, hstop⟩ := abort_run
    rw [sampleAt_steps.2.2.2.2, hafter]
    exact ⟨habort, by decide, hstop, rfl, rfl⟩
  obtain ⟨habort, hepochs, hstop, hrev, hepoch⟩ := hrun
  obtain ⟨p, hp, hrev⟩ := map_eq_some_iff.mp hrev
  obtain ⟨r, hr⟩ := applies_iff.mp habort
  obtain ⟨r', hr'⟩ := applies_iff.mp hstop
  rw [hr.after] at hepochs hr'
  have hexpects : ∀ c : Command, c.action ≠ .create → c.expectedRevision = some 5 →
      c.expectedBroadcastEpoch = some 19 → Expects sampleFailed p c := by
    intro c hc hrev' hepoch'
    exact ⟨hc, by rw [hrev', hrev], by rw [hepoch', hepoch]⟩
  obtain ⟨code, hcode⟩ := hclaim sampleFailed p sampleAbort sampleStop 1005 1006 r
    reachable_sampleFailed hp (hexpects _ (by decide) rfl rfl)
    (hexpects _ (by decide) rfl rfl) (by decide) hr (.inr (.inr hepochs))
  rw [hr'.1] at hcode
  cases hcode

end WebrtcMinimize
