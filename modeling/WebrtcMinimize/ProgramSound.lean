import WebrtcMinimize.ProgramMachine

/-!
# What a validated snapshot guarantees

The specification lemmas of the validators and of the two program updates.
`validateBroadcastProgramMachine` accepts exactly the well-formed snapshots
of bounded size and returns them with their leases in role order
(`validate_ok_iff`), so on a snapshot whose leases are in order it is the
identity. `Sound` is what every snapshot handed out by an operation
satisfies; it leaves the size out, because a synchronisation of room epochs
hands its result out without measuring it.
-/

namespace WebrtcMinimize

open Checks List

/-! ## Contracts -/

/-- The values a contract carries are those of its context. -/
def Bound (context : ContractContext) (tenantId roomId programId : String)
    (programEpoch : Nat) : Prop :=
  tenantId = context.tenantId ∧ roomId = context.roomId
    ∧ programId = context.programId ∧ programEpoch = context.programEpoch

variable {context : ContractContext}

theorem assertBinding_ok_iff {tenantId roomId programId : String} {programEpoch : Nat} {u : Unit} :
    assertBinding context tenantId roomId programId programEpoch = .ok u
      ↔ Bound context tenantId roomId programId programEpoch := by
  simp only [assertBinding, bind_ok_iff, failIf_ok_iff, exists_const, ne_eq, not_not, Bound]

variable {program : Program}

theorem validateProgram_ok_iff {value : Program} : validateProgram value context = .ok program ↔
      value.schemaOK = true
        ∧ Bound context value.tenantId value.roomId value.programId value.programEpoch
        ∧ value.createdAt ≤ value.updatedAt ∧ value = program := by
  simp only [validateProgram, bind_ok_iff, failIf_ok_iff, pure_ok_iff,
    assertBinding_ok_iff, exists_const, Bool.not_eq_false, Nat.not_lt]

variable {lease : Lease} {now : Nat}

theorem validateLease_ok_iff {value : Lease} : validateLease value context now = .ok lease ↔
      value.schemaOK = true
        ∧ Bound context value.tenantId value.roomId value.programId value.programEpoch
        ∧ value.acquiredAt ≤ value.renewedAt ∧ value.renewedAt ≤ value.expiresAt
        ∧ value.releasedAt.any (· < value.acquiredAt) = false
        ∧ ¬(context.requireFresh = true ∧ value.status = .active ∧ value.expiresAt ≤ now)
        ∧ value = lease := by
  simp only [validateLease, bind_ok_iff, failIf_ok_iff, pure_ok_iff,
    assertBinding_ok_iff, exists_const, Bool.not_eq_false, Bool.not_eq_true, Nat.not_lt]

theorem validateLease_eq {value : Lease}
    (h : validateLease value context now = .ok lease) : value = lease := by
  rw [validateLease_ok_iff] at h
  exact h.2.2.2.2.2.2

/-! ## Lease order -/

instance : Std.Total RoleLe where
  total a b := by
    unfold RoleLe
    cases a.role <;> cases b.role <;> simp

instance : IsTrans Lease RoleLe where
  trans a b c hab hbc := by
    unfold RoleLe at *
    rcases hab with h | h
    · exact .inl h
    · rcases hbc with h' | h'
      · rw [h'] at h
        cases h
      · exact .inr h'

def Sorted (leases : List Lease) : Prop := leases.Pairwise RoleLe

theorem sortLeases_perm (leases : List Lease) : (sortLeases leases).Perm leases :=
  perm_insertionSort RoleLe leases

theorem sorted_sortLeases (leases : List Lease) : Sorted (sortLeases leases) :=
  pairwise_insertionSort RoleLe leases

theorem sortLeases_eq {leases : List Lease} (h : Sorted leases) : sortLeases leases = leases :=
  List.Pairwise.insertionSort_eq h

theorem mem_sortLeases {leases : List Lease} : lease ∈ sortLeases leases ↔ lease ∈ leases :=
  (sortLeases_perm leases).mem_iff

/-! ## Snapshots -/

structure Machine.WellFormed (s : Machine) : Prop where
  scope : normalizeScope s.scope = .ok s.scope
  epochs : normalizeEpochs s.epochs = .ok s.epochs
  leaseCount : s.writerLeases.length ≤ 2
  ledgerCount : s.appliedCommands.length ≤ maxBroadcastIdempotencyRecords
  records : ∀ record ∈ s.appliedCommands, normalizeIdempotencyRecord record = .ok ()
  keys : (s.appliedCommands.map (·.idempotencyKeyHash)).Nodup
  program : validateMachineProgram s = .ok ()
  leases : ∀ lease ∈ s.writerLeases, validateWriterLease s lease = .ok ()
  roles : (s.writerLeases.map (·.role)).Nodup
  leaseIds : (s.writerLeases.map (·.leaseId)).Nodup

theorem normalizeScope_eq {scope scope' : Scope} (h : normalizeScope scope = .ok scope') :
    scope' = scope := by
  simp only [normalizeScope, bind_ok_iff, failIf_ok_iff, pure_ok_iff, exists_const] at h
  exact h.2.2.2.2.symm

theorem normalizeEpochs_eq {epochs epochs' : Epochs}
    (h : normalizeEpochs epochs = .ok epochs') : epochs' = epochs := by
  simp only [normalizeEpochs, bind_ok_iff, failIf_ok_iff, pure_ok_iff, exists_const] at h
  exact h.2.2.2.2.2.symm

variable {s : Machine}

theorem validate_ok_iff {value : Machine} : validateBroadcastProgramMachine value = .ok s ↔
      value.toJson.byteLength ≤ maxMachineBytes ∧ value.WellFormed
        ∧ s = { value with writerLeases := sortLeases value.writerLeases } := by
  have hroles := ((sortLeases_perm value.writerLeases).map (·.role)).nodup_iff
  have hids := ((sortLeases_perm value.writerLeases).map (·.leaseId)).nodup_iff
  simp only [validateBroadcastProgramMachine, bind_ok_iff, failIf_ok_iff, pure_ok_iff,
    forM_ok_iff, exists_const, not_not, Nat.not_lt, hroles, hids]
  constructor
  · rintro ⟨hbytes, scope, hscope, epochs, hepochs, hcount, hledger, hrecords, hkeys,
      _, hprogram, hleases, hr, hi, rfl⟩
    obtain rfl := normalizeScope_eq hscope
    obtain rfl := normalizeEpochs_eq hepochs
    exact ⟨hbytes, ⟨hscope, hepochs, hcount, hledger, hrecords, hkeys, hprogram, hleases,
      hr, hi⟩, rfl⟩
  · rintro ⟨hbytes, hwf, rfl⟩
    exact ⟨hbytes, _, hwf.scope, _, hwf.epochs, hwf.leaseCount, hwf.ledgerCount, hwf.records,
      hwf.keys, (), hwf.program, hwf.leases, hwf.roles, hwf.leaseIds, rfl⟩

/-- A well-formed snapshot with its leases in role order. -/
structure Machine.Sound (s : Machine) : Prop extends s.WellFormed where
  sorted : Sorted s.writerLeases

theorem validate_eq_of_sorted {value : Machine}
    (h : validateBroadcastProgramMachine value = .ok s) (hs : Sorted value.writerLeases) :
    s = value ∧ value.Sound := by
  obtain ⟨-, hwf, rfl⟩ := validate_ok_iff.mp h
  rw [sortLeases_eq hs]
  exact ⟨rfl, hwf, hs⟩

namespace Machine.WellFormed

variable {s : Machine}

theorem writerLease (h : s.WellFormed) {lease : Lease} (hl : lease ∈ s.writerLeases) :
    lease.schemaOK = true ∧ Bound (broadcastContractContext s.scope s.epochs.broadcast false)
          lease.tenantId lease.roomId lease.programId lease.programEpoch
      ∧ lease.status = .active ∧ lease.fencingRevision ≤ s.epochs.lease := by
  have hlease := h.leases lease hl
  simp only [validateWriterLease, bind_ok_iff, failIf_ok_iff, validateLease_ok_iff, not_or,
    ne_eq, not_not, Nat.not_lt] at hlease
  obtain ⟨_, ⟨hschema, hbound, -, -, -, -, rfl⟩, hactive, hfence⟩ := hlease
  exact ⟨hschema, hbound, hactive, hfence⟩

theorem lease_epoch (h : s.WellFormed) {lease : Lease} (hl : lease ∈ s.writerLeases) :
    lease.programEpoch = s.epochs.broadcast :=
  (h.writerLease hl).2.1.2.2.2

end Machine.WellFormed

/-! ## Writers -/

theorem activeWriter_some {role : WriterRole}
    (h : activeWriter s role = some lease) : lease ∈ s.writerLeases ∧ lease.role = role := by
  refine ⟨mem_of_find?_eq_some h, ?_⟩
  have hrole := find?_some h
  exact beq_iff_eq.mp hrole

theorem Machine.WellFormed.role_unique (h : s.WellFormed) {a b : Lease}
    (ha : a ∈ s.writerLeases) (hb : b ∈ s.writerLeases) (hrole : a.role = b.role) : a = b :=
  inj_on_of_nodup_map h.roles ha hb hrole

theorem Machine.WellFormed.leaseId_unique (h : s.WellFormed) {a b : Lease}
    (ha : a ∈ s.writerLeases) (hb : b ∈ s.writerLeases) (hid : a.leaseId = b.leaseId) :
    a = b :=
  inj_on_of_nodup_map h.leaseIds ha hb hid

/-! ## Updates -/

/-- A program after an update at `now`. -/
def Program.updated (program patched : Program) (now : Nat) : Program :=
  { patched with revision := program.revision + 1, updatedAt := now }

def Program.CanBecome (program : Program) (next : ProgramState) (now : Nat) : Prop :=
  program.updatedAt ≤ now ∧ (program.state = next ∨ next ∈ program.state.targets)

theorem updateProgram_ok {state next : Machine} {patched : Program}
    (h : updateProgram state program patched now = .ok next) :
    next = { state with program := some (program.updated patched now) }
      ∧ program.CanBecome patched.state now := by
  simp only [updateProgram, assertBroadcastTransition, bind_ok_iff, failIf_ok_iff,
    pure_ok_iff, validateProgram_ok_iff, exists_const] at h
  obtain ⟨_, ⟨_, ⟨-, -, -, rfl⟩, _, ⟨-, -, -, rfl⟩, -, -, htime, hstate, rfl⟩, rfl⟩ := h
  refine ⟨rfl, Nat.not_lt.mp htime, ?_⟩
  by_cases heq : program.state = patched.state
  · exact .inl heq
  · exact .inr (not_not.mp fun hnot => hstate ⟨heq, hnot⟩)

/-- A snapshot after a roll of the program epoch at `now`. -/
def Machine.rolled (state : Machine) (program patched : Program) (now : Nat) : Machine :=
  { state with
    epochs := { state.epochs with
      broadcast := state.epochs.broadcast + 1, lease := state.epochs.lease + 1 }
    program := some { program.updated patched now with
      programEpoch := state.epochs.broadcast + 1 }
    writerLeases := [] }

theorem rollProgramEpoch_ok {state next : Machine} {patched : Program}
    (h : rollProgramEpoch state program patched now = .ok next) :
    next = state.rolled program patched now := by
  simp only [rollProgramEpoch, bind_ok_iff, pure_ok_iff, validateProgram_ok_iff] at h
  obtain ⟨_, ⟨-, -, -, rfl⟩, rfl⟩ := h
  rfl

end WebrtcMinimize
