import WebrtcMinimize.ProgramSound
import WebrtcMinimize.Runs

/-!
# What a call can do to a program

One inversion for the whole machine. `Move` lists what a handler may do to
the snapshot: nothing (`idle`), an update of the program alone (`patch`), a
roll of the program epoch (`roll`), and the four branches that edit the
writer leases. `Change` adds the ledger entry, creation, renewal and room
epochs, and `next_cases` says that a call of the machine is rejected (or a
duplicate) or is one of these changes. Every invariant of the development
is proved by cases on `Change` and never unfolds a handler.
-/

namespace WebrtcMinimize

open Checks Runs ProgramState

/-! ## Moves -/

/-- The commands that ask the program to stop. -/
def Payload.stops : Payload → Bool
  | .revoke .. | .stop .. => true
  | .lifecycle trigger .. => !trigger.writer
  | _ => false

/-- Where a request to stop takes a program that is not stopped. -/
def ProgramState.stopTarget : ProgramState → ProgramState
  | .draft | .failed => .stopped
  | _ => .stopping

/-- Where the loss of a writer takes a program that goes on. -/
def ProgramState.lostTarget (s : ProgramState) (trigger : LifecycleTrigger) :
    ProgramState :=
  if trigger = .processAbort then .failed
  else if s = .publishing ∨ s = .live then .degraded
  else s

/-- Commands that are accepted without effect. -/
inductive Idle (p : Program) : Payload → Prop
  | advance {t : AdvanceTarget} : p.state = t.state → Idle p (.advance t)
  | sourceChange {ids : List String} :
      p.sourceIds.getD [] = ids → Idle p (.sourceChange ids)
  | stop {c : Payload} : c.stops = true → p.state = .stopping ∨ p.state = .stopped → Idle p c
  | fail {r : String} : p.state = .failed → Idle p (.fail r)
  | cleanupComplete {r : String} : p.state = .stopped → Idle p (.cleanupComplete r)

/-- Both writers hold a lease that has not expired. -/
def FreshWriters (s : Machine) (now : Nat) : Prop :=
  ∀ role, ∃ lease ∈ s.writerLeases, lease.role = role ∧ now < lease.expiresAt

/-- Commands that update the program and nothing else, with the patched
program. -/
inductive Patch (s : Machine) (p : Program) (now : Nat) : Payload → Program → Prop
  | start {b : Bool} : p.state = .draft →
      Patch s p now (.start b) { p with state := .preparing }
  | advance {t : AdvanceTarget} : p.state ≠ t.state →
      (t = .publishing ∨ t = .live → FreshWriters s now) →
      Patch s p now (.advance t) { p with state := t.state }
  | stop {c : Payload} {ids : Option (List String)} : c.stops = true →
      p.state ≠ .stopped →
      Patch s p now c { p with sourceIds := ids, state := p.state.stopTarget }
  | fail {r : String} : p.state ≠ .stopped → p.state ≠ .draft → p.state ≠ .failed →
      Patch s p now (.fail r) { p with state := .failed }

/-- Commands that roll the program epoch, with the patched program. -/
inductive Roll (p : Program) : Payload → Program → Prop
  | sourceChange {ids : List String} : p.state.ended = false →
      p.sourceIds.getD [] ≠ ids →
      Roll p (.sourceChange ids)
        { p with state := if p.state = .draft then .draft else .preparing,
                 sourceIds := some ids }
  | outputRestart {e : Nat} {r : String} : p.state = .live ∨ p.state = .degraded →
      Roll p (.outputRestart e r) { p with state := .preparing }
  | retry {r : String} : p.state = .failed →
      Roll p (.retry r) { p with state := .preparing }
  | visibilityChange {v : Visibility} {h : String} :
      Roll p (.visibilityChange v h) { p with visibility := v }

/-- The snapshot without the lease of a role, under the next lease epoch. -/
def Machine.without (s : Machine) (role : WriterRole) : Machine :=
  { s with
    epochs := { s.epochs with lease := s.epochs.lease + 1 }
    writerLeases := s.writerLeases.filter (·.role ≠ role) }

def Machine.withProgram (s : Machine) (program : Program) : Machine :=
  { s with program := some program }

/-- The snapshot with a lease in its role's place, under the lease's epoch. -/
def Machine.withLease (s : Machine) (lease : Lease) : Machine :=
  { s with
    epochs := { s.epochs with lease := lease.fencingRevision }
    writerLeases := sortLeases (s.writerLeases.filter (·.role ≠ lease.role) ++ [lease]) }

/-- The snapshot without leases, under the next lease epoch. -/
def Machine.fenced (s : Machine) : Machine :=
  { s with epochs := { s.epochs with lease := s.epochs.lease + 1 }, writerLeases := [] }

/-- A lease that a handoff accepts. -/
structure Admissible (s : Machine) (now : Nat) (lease : Lease) : Prop where
  active : lease.status = .active
  fresh : now < lease.expiresAt
  fencing : lease.fencingRevision = s.epochs.lease + 1
  unused : ∀ other ∈ s.writerLeases, other.leaseId ≠ lease.leaseId

/-- What the handler of a command does to the snapshot. -/
inductive Move (s : Machine) (p : Program) (now : Nat) : Payload → Machine → Prop
  | idle {c : Payload} : Idle p c → Move s p now c s
  | patch {c : Payload} {q : Program} : Patch s p now c q → p.CanBecome q.state now →
      Move s p now c (s.withProgram (p.updated q now))
  | roll {c : Payload} {q : Program} : Roll p c q → Move s p now c (s.rolled p q now)
  | handoff {e : Nat} {lease : Lease} : p.state.ended = false →
      Admissible s now lease → p.CanBecome p.state now →
      Move s p now (.handoff e lease) ((s.withLease lease).withProgram (p.updated p now))
  | lost {t : LifecycleTrigger} {lease : Lease} {r : String} : t.writer = true →
      lease ∈ s.writerLeases → p.state ≠ .stopped →
      ¬(t = .processAbort ∧ p.state = .failed) →
      p.CanBecome (p.state.lostTarget t) now →
      Move s p now
        (.lifecycle t (some lease.role) (some lease.leaseId) (some lease.fencingRevision) r)
        ((s.without lease.role).withProgram
          (p.updated { p with state := p.state.lostTarget t } now))
  | abort {lease : Lease} {r : String} : lease ∈ s.writerLeases → p.state = .failed →
      Move s p now
        (.lifecycle .processAbort (some lease.role) (some lease.leaseId)
          (some lease.fencingRevision) r)
        (s.without lease.role)
  | cleanup {r : String} : p.state = .stopping ∨ p.state = .failed →
      p.CanBecome .stopped now →
      Move s p now (.cleanupComplete r)
        (s.fenced.withProgram (p.updated { p with state := .stopped } now))

/-! ## Handlers -/

theorem assertFreshWriter_ok {s : Machine} {now : Nat} {role : WriterRole}
    (h : assertFreshWriter s now role = .ok ()) :
    ∃ lease ∈ s.writerLeases, lease.role = role ∧ now < lease.expiresAt := by
  rw [assertFreshWriter, failIf_ok_iff] at h
  cases hw : activeWriter s role with
  | none => simp [hw] at h
  | some lease =>
      obtain ⟨hmem, hrole⟩ := activeWriter_some hw
      rw [hw] at h
      exact ⟨lease, hmem, hrole, by simpa using h⟩

theorem assertFreshWriters_ok {s : Machine} {now : Nat}
    (h : assertFreshWriters s now = .ok ()) : FreshWriters s now := by
  simp only [assertFreshWriters, bind_ok_iff] at h
  obtain ⟨_, hpackager, hgateway⟩ := h
  intro role
  cases role with
  | packagerWriter => exact assertFreshWriter_ok hpackager
  | gatewayWriter => exact assertFreshWriter_ok hgateway

section Handlers

variable {s : Machine} {p : Program} {now : Nat} {a : Applied}

theorem applyStart_move {b : Bool} (h : applyStart s p b now = .ok a) :
    Move s p now (.start b) a.state := by
  simp only [applyStart, bind_ok_iff, failIf_ok_iff, pure_ok_iff, exists_const, ne_eq, not_not] at h
  obtain ⟨hdraft, next, hup, rfl⟩ := h
  obtain ⟨rfl, hcan⟩ := updateProgram_ok hup
  exact .patch (.start hdraft) hcan

theorem applyAdvance_move {t : AdvanceTarget} (h : applyAdvance s p t now = .ok a) :
    Move s p now (.advance t) a.state := by
  unfold applyAdvance at h
  split at h
  · rename_i hsame
    cases h
    exact .idle (.advance hsame)
  · rename_i hne
    have hfresh : (t = .publishing ∨ t = .live → FreshWriters s now)
        ∧ ∃ next, updateProgram s p { p with state := t.state } now = .ok next
          ∧ a.state = next := by
      split at h
      · simp only [bind_ok_iff, pure_ok_iff] at h
        obtain ⟨_, hw, next, hup, rfl⟩ := h
        exact ⟨fun _ => assertFreshWriters_ok hw, next, hup, rfl⟩
      · rename_i hair
        simp only [bind_ok_iff, pure_ok_iff] at h
        obtain ⟨next, hup, rfl⟩ := h
        exact ⟨fun hair' => absurd hair' hair, next, hup, rfl⟩
    obtain ⟨hw, next, hup, ha⟩ := hfresh
    obtain ⟨rfl, hcan⟩ := updateProgram_ok hup
    rw [ha]
    exact .patch (.advance hne hw) hcan

theorem applySourceChange_move {ids : List String} (h : applySourceChange s p ids now = .ok a) :
    Move s p now (.sourceChange ids) a.state := by
  simp only [applySourceChange, bind_ok_iff, failIf_ok_iff, exists_const, Bool.not_eq_true] at h
  obtain ⟨hended, h⟩ := h
  split at h
  · rename_i hsame
    cases h
    exact .idle (.sourceChange hsame)
  · rename_i hne
    simp only [bind_ok_iff, pure_ok_iff] at h
    obtain ⟨next, hroll, rfl⟩ := h
    obtain rfl := rollProgramEpoch_ok hroll
    exact .roll (.sourceChange hended hne)

variable {r : String}

theorem applyOutputRestart_move {e : Nat} (h : applyOutputRestart s p e r now = .ok a) :
    Move s p now (.outputRestart e r) a.state := by
  simp only [applyOutputRestart, bind_ok_iff, failIf_ok_iff, pure_ok_iff, exists_const] at h
  obtain ⟨hstate, -, next, hroll, rfl⟩ := h
  obtain rfl := rollProgramEpoch_ok hroll
  exact .roll (.outputRestart (by tauto))

theorem applyHandoff_move {e : Nat} {value : Lease}
    (h : applyHandoff s p e value now = .ok a) : Move s p now (.handoff e value) a.state := by
  simp only [applyHandoff, bind_ok_iff, failIf_ok_iff, pure_ok_iff, validateLease_ok_iff,
    exists_const, ne_eq, not_not, Bool.not_eq_true, broadcastContractContext,
    true_and, not_and, Nat.not_le, List.any_eq_false, decide_eq_true_eq] at h
  obtain ⟨hended, -, lease, ⟨-, -, -, -, -, hfresh, rfl⟩, hactive, hfence, hunused,
    next, hup, rfl⟩ := h
  obtain ⟨rfl, hcan⟩ := updateProgram_ok hup
  exact .handoff hended ⟨hactive, hfresh hactive, hfence, hunused⟩ hcan

/-- A request to stop does nothing once the program is stopping without a
source to remove, and otherwise updates the program alone. -/
theorem requestStop_move {c : Payload} (hc : c.stops = true)
    {ids : Option (List String)} (h : requestStop s p r now ids = .ok a) :
    Move s p now c a.state := by
  have hpatch : ∀ {q : Program}, p.state ≠ .stopped →
      q = { p with sourceIds := ids.or p.sourceIds, state := p.state.stopTarget } →
      (∃ next, updateProgram s p q now = .ok next ∧ ⟨next, stopEffects next r⟩ = a) →
      Move s p now c a.state := by
    rintro q hns rfl ⟨next, hup, rfl⟩
    obtain ⟨rfl, hcan⟩ := updateProgram_ok hup
    exact .patch (.stop hc hns) hcan
  unfold requestStop at h
  split at h
  case h_3 hstate =>
      cases h
      exact .idle (.stop hc (.inr hstate))
  case h_4 hstate =>
      split at h
      · simp only [bind_ok_iff, pure_ok_iff] at h
        refine hpatch (by simp [hstate]) ?_ h
        simp [hstate, stopTarget]
      · cases h
        exact .idle (.stop hc (.inl hstate))
  case h_5 hdraft hfailed hstopped hstopping =>
      simp only [bind_ok_iff, pure_ok_iff] at h
      refine hpatch hstopped ?_ h
      rw [stopTarget.eq_def]
      split <;> simp_all
  all_goals
    rename_i hstate
    simp only [bind_ok_iff, pure_ok_iff] at h
    refine hpatch (by simp [hstate]) ?_ h
    simp [hstate, stopTarget]

theorem applyFail_move (h : applyFail s p r now = .ok a) : Move s p now (.fail r) a.state := by
  simp only [applyFail, bind_ok_iff, failIf_ok_iff, exists_const] at h
  obtain ⟨hstopped, hdraft, h⟩ := h
  split at h
  · rename_i hfailed
    cases h
    exact .idle (.fail hfailed)
  · rename_i hfailed
    simp only [bind_ok_iff, pure_ok_iff] at h
    obtain ⟨next, hup, rfl⟩ := h
    obtain ⟨rfl, hcan⟩ := updateProgram_ok hup
    exact .patch (.fail hstopped hdraft hfailed) hcan

theorem applyRetry_move (h : applyRetry s p r now = .ok a) : Move s p now (.retry r) a.state := by
  simp only [applyRetry, bind_ok_iff, failIf_ok_iff, pure_ok_iff, exists_const, ne_eq, not_not] at h
  obtain ⟨hfailed, next, hroll, rfl⟩ := h
  obtain rfl := rollProgramEpoch_ok hroll
  exact .roll (.retry hfailed)

theorem assertCurrentLease_ok {role : Option WriterRole} {leaseId : Option String}
    {fencingRevision : Option Nat} {lease : Lease}
    (h : assertCurrentLease s role leaseId fencingRevision = .ok lease) :
    lease ∈ s.writerLeases ∧ role = some lease.role ∧ leaseId = some lease.leaseId
      ∧ fencingRevision = some lease.fencingRevision := by
  unfold assertCurrentLease at h
  split at h
  · cases h
  · rename_i found hfound
    simp only [bind_ok_iff, failIf_ok_iff, pure_ok_iff, exists_const, not_or, ne_eq, not_not] at h
    obtain ⟨⟨hid, hfence⟩, rfl⟩ := h
    obtain ⟨r, rfl, hw⟩ := Option.bind_eq_some_iff.mp hfound
    obtain ⟨hmem, rfl⟩ := activeWriter_some hw
    exact ⟨hmem, rfl, hid.symm, hfence.symm⟩

theorem applyWriterLifecycle_move {t : LifecycleTrigger} (ht : t.writer = true)
    {role : Option WriterRole} {leaseId : Option String} {fencingRevision : Option Nat}
    (h : applyWriterLifecycle s p t role leaseId fencingRevision r now = .ok a) :
    Move s p now (.lifecycle t role leaseId fencingRevision r) a.state := by
  simp only [applyWriterLifecycle, bind_ok_iff, failIf_ok_iff, exists_const] at h
  obtain ⟨lease, hlease, hstopped, h⟩ := h
  obtain ⟨hmem, rfl, rfl, rfl⟩ := assertCurrentLease_ok hlease
  split at h
  · rename_i habort
    simp only [bind_ok_iff, failIf_ok_iff, exists_const] at h
    obtain ⟨hdraft, h⟩ := h
    split at h
    · rename_i hfailed
      obtain ⟨next, rfl, rfl⟩ := h
      rw [habort]
      exact .abort hmem hfailed
    · rename_i hfailed
      simp only [bind_ok_iff, pure_ok_iff] at h
      obtain ⟨next, hup, rfl⟩ := h
      obtain ⟨rfl, hcan⟩ := updateProgram_ok hup
      have htarget : p.state.lostTarget t = .failed := by
        rw [lostTarget, if_pos habort]
      have hmove := Move.lost (s := s) (r := r) ht hmem hstopped
        (fun hboth => hfailed hboth.2) (htarget ▸ hcan)
      rw [htarget] at hmove
      exact hmove
  · rename_i habort
    simp only [bind_ok_iff, pure_ok_iff] at h
    obtain ⟨next, hup, rfl⟩ := h
    obtain ⟨rfl, hcan⟩ := updateProgram_ok hup
    have htarget : p.state.lostTarget t
        = if p.state = .publishing ∨ p.state = .live then .degraded else p.state := by
      rw [lostTarget, if_neg habort]
    have hmove := Move.lost (s := s) (r := r) ht hmem hstopped
      (fun hboth => habort hboth.1) (htarget ▸ hcan)
    rw [htarget] at hmove
    exact hmove

theorem applyCleanupComplete_move (h : applyCleanupComplete s p r now = .ok a) :
    Move s p now (.cleanupComplete r) a.state := by
  unfold applyCleanupComplete at h
  split at h
  · rename_i hstopped
    cases h
    exact .idle (.cleanupComplete hstopped)
  · simp only [bind_ok_iff, failIf_ok_iff, pure_ok_iff, exists_const] at h
    obtain ⟨hstate, next, hup, rfl⟩ := h
    obtain ⟨rfl, hcan⟩ := updateProgram_ok hup
    exact .cleanup (by tauto) hcan

theorem applyVisibilityChange_move {v : Visibility} {hash : String}
    (h : applyVisibilityChange s p v hash now = .ok a) :
    Move s p now (.visibilityChange v hash) a.state := by
  simp only [applyVisibilityChange, bind_ok_iff, failIf_ok_iff, pure_ok_iff, exists_const] at h
  obtain ⟨-, next, hroll, rfl⟩ := h
  obtain rfl := rollProgramEpoch_ok hroll
  exact .roll .visibilityChange

theorem applyPayload_move {c : Payload} (h : applyPayload s p now c = .ok a) :
    Move s p now c a.state := by
  cases c with
  | create => cases h
  | start => exact applyStart_move h
  | advance => exact applyAdvance_move h
  | sourceChange => exact applySourceChange_move h
  | outputRestart => exact applyOutputRestart_move h
  | handoff => exact applyHandoff_move h
  | revoke => exact requestStop_move rfl h
  | stop => exact requestStop_move rfl h
  | fail => exact applyFail_move h
  | retry => exact applyRetry_move h
  | lifecycle t role leaseId fencingRevision r =>
      rw [applyPayload, applyLifecycle] at h
      split at h
      · rename_i ht
        exact applyWriterLifecycle_move ht h
      · rename_i ht
        exact requestStop_move (by simpa [Payload.stops] using ht) h
  | cleanupComplete => exact applyCleanupComplete_move h
  | visibilityChange => exact applyVisibilityChange_move h

end Handlers

end WebrtcMinimize
