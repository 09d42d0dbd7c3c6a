import WebrtcMinimize.ProgramMoves

/-!
# Runs of the broadcast program machine

A run is any sequence of command, renewal and room-epoch calls, each with
the time it is made at; a rejected call leaves the snapshot as it was.
`change_of_run` turns an accepted call into one of the changes below, and
`Reachable.sound` carries the validated shape of the snapshot along every
run, so that later proofs start from a sound snapshot and a change.
-/

namespace WebrtcMinimize

open Checks Runs List

/-! ## Calls -/

inductive Call where
  | command (c : Command)
  | renew (r : Renewal)
  | synchronize (u : RoomEpochs)
deriving DecidableEq, Repr

structure Event where
  call : Call
  now : Nat
deriving DecidableEq, Repr

/-- The snapshot a call returns. -/
def runCall (s : Machine) (e : Event) : Except String Machine :=
  match e.call with
  | .command c => do
      let result ← applyBroadcastProgramCommand s c e.now
      return result.state
  | .renew r => renewBroadcastWriterLeases s r e.now
  | .synchronize u => synchronizeBroadcastRoomEpochs s u

/-- The snapshot after a call; a rejected call changes nothing. -/
def afterCall (s : Machine) (e : Event) : Machine :=
  match runCall s e with
  | .ok t => t
  | .error _ => s

def Step (s : Machine) (e : Event) (t : Machine) : Prop := t = afterCall s e

/-- The snapshots a program can have. -/
def Reachable (s : Machine) : Prop :=
  ∃ scope epochs s₀ es,
    initializeBroadcastProgramMachine scope epochs = .ok s₀ ∧ Path Step s₀ es s

variable {s t : Machine}

theorem Reachable.run {es : List Event} (h : Reachable s)
    (hp : Path Step s es t) : Reachable t := by
  obtain ⟨scope, epochs, s₀, es₀, h₀, hp₀⟩ := h
  exact ⟨scope, epochs, s₀, es₀ ++ es, h₀, hp₀.append hp⟩

theorem Reachable.after (h : Reachable s) (e : Event) : Reachable (afterCall s e) :=
  h.run (.single rfl)

/-- The command is accepted and is not a repetition. -/
def AppliedWith (s : Machine) (c : Command) (now : Nat) (r : CommandResult) : Prop :=
  applyBroadcastProgramCommand s c now = .ok r ∧ r.duplicate = false

variable {c : Command} {now : Nat} {r : CommandResult}

theorem AppliedWith.after
    (h : AppliedWith s c now r) : afterCall s ⟨.command c, now⟩ = r.state := by
  simp only [afterCall, runCall, h.1, ok_bind]
  rfl

/-- `AppliedWith` with some result, as a check that runs. -/
def applies (s : Machine) (c : Command) (now : Nat) : Bool :=
  match applyBroadcastProgramCommand s c now with
  | .ok r => !r.duplicate
  | .error _ => false

theorem applies_iff : applies s c now = true ↔ ∃ r, AppliedWith s c now r := by
  unfold applies AppliedWith
  cases applyBroadcastProgramCommand s c now with
  | error => simp
  | ok r => simp

/-! ## Changes -/

/-- The program `create` makes. -/
def createdProgram (s : Machine) (visibility : Visibility)
    (title viewerPolicyId : Option String) (now : Nat) : Program :=
  { tenantId := s.scope.tenantId
    ownerSubjectRef := s.scope.ownerSubjectRef
    roomId := s.scope.roomId
    programId := s.scope.programId
    revision := 1
    programEpoch := s.epochs.broadcast
    state := .draft
    visibility, title
    sourceIds := none
    publicationIds := none
    endpointIds := none
    captionTrackIds := none
    viewerPolicyId
    createdAt := now
    updatedAt := now }

def Lease.renewed (lease : Lease) (expiresAt now : Nat) : Lease :=
  { lease with revision := lease.revision + 1, renewedAt := now, expiresAt }

def Machine.recorded (m s : Machine) (c : Command) : Machine :=
  { m with appliedCommands := s.appliedCommands ++ [recordOf m c] }

/-- The holder of the packager's lease asks for a longer one, in time. -/
structure Renewable (s : Machine) (now : Nat) (r : Renewal) (packager : Lease) : Prop where
  active : activeWriter s .packagerWriter = some packager
  holder : packager.holderRef = r.holderRef
  fencing : packager.fencingRevision = r.fencingRevision
  fresh : now < packager.expiresAt
  longer : now < r.expiresAt
  running : s.program.any (·.state.ended) = false

/-- What an accepted call that is not a repetition does to the snapshot. -/
inductive Change (s : Machine) (now : Nat) : Call → Machine → Prop
  | create {c : Command} {v : Visibility} {t pol : Option String} :
      c.payload = .create v t pol → s.program = none →
      Change s now (.command c) ((s.withProgram (createdProgram s v t pol now)).recorded s c)
  | move {c : Command} {p : Program} {m : Machine} : s.program = some p →
      c.expectedRevision = some p.revision →
      c.expectedBroadcastEpoch = some s.epochs.broadcast →
      Move s p now c.payload m →
      Change s now (.command c) (m.recorded s c)
  | renew {r : Renewal} {packager : Lease} : Renewable s now r packager →
      Change s now (.renew r)
        { s with writerLeases := s.writerLeases.map (·.renewed r.expiresAt now) }
  | synchronize {u : RoomEpochs} {epochs : Epochs} :
      normalizeEpochs epochs = .ok epochs → epochs.broadcast = s.epochs.broadcast →
      epochs.lease = s.epochs.lease →
      Change s now (.synchronize u) { s with epochs }

theorem Move.sorted {m : Machine} {p : Program} {c : Payload}
    (h : Move s p now c m) (hs : Sorted s.writerLeases) : Sorted m.writerLeases := by
  cases h with
  | idle => exact hs
  | patch => exact hs
  | roll => exact .nil
  | handoff => exact sorted_sortLeases _
  | lost => exact hs.filter _
  | abort => exact hs.filter _
  | cleanup => exact .nil

theorem recordResult_ok {applied : Applied}
    (hs : Sorted applied.state.writerLeases) (h : recordResult s applied c = .ok r) :
    r.state = applied.state.recorded s c ∧ r.state.Sound ∧ r.duplicate = false
      ∧ r.effects = applied.effects := by
  simp only [recordResult, bind_ok_iff, failIf_ok_iff, pure_ok_iff, exists_const] at h
  obtain ⟨-, t, hvalid, rfl⟩ := h
  obtain ⟨rfl, hsound⟩ := validate_eq_of_sorted hvalid hs
  exact ⟨rfl, hsound, rfl, rfl⟩

theorem applyCreate_ok {v : Visibility} {t pol : Option String}
    {a : Applied} (h : applyCreate s c v t pol now = .ok a) :
    s.program = none ∧ a = ⟨s.withProgram (createdProgram s v t pol now), []⟩ := by
  simp only [applyCreate, bind_ok_iff, failIf_ok_iff, pure_ok_iff, validateProgram_ok_iff,
    exists_const, ne_eq, not_not] at h
  obtain ⟨hnone, -, _, ⟨-, -, -, rfl⟩, rfl⟩ := h
  exact ⟨hnone, rfl⟩

theorem assertCurrent_ok {p : Program} (h : assertCurrent s c = .ok p) :
    s.program = some p ∧ c.expectedRevision = some p.revision
      ∧ c.expectedBroadcastEpoch = some s.epochs.broadcast := by
  unfold assertCurrent at h
  split at h
  · cases h
  · rename_i q hq
    simp only [bind_ok_iff, failIf_ok_iff, pure_ok_iff, exists_const, ne_eq, not_not] at h
    obtain ⟨hrev, hepoch, rfl⟩ := h
    exact ⟨hq, hrev, hepoch⟩

/-- What the handler of a command returns, before it is recorded. -/
inductive Handled (s : Machine) (c : Command) (now : Nat) : Applied → Prop
  | create {v : Visibility} {t pol : Option String} : c.payload = .create v t pol →
      s.program = none →
      Handled s c now ⟨s.withProgram (createdProgram s v t pol now), []⟩
  | move {p : Program} {a : Applied} : s.program = some p →
      c.expectedRevision = some p.revision →
      c.expectedBroadcastEpoch = some s.epochs.broadcast →
      applyPayload s p now c.payload = .ok a → Handled s c now a

theorem handled_of_applyCurrent {a : Applied}
    (h : applyCurrent s c now = .ok a) : Handled s c now a := by
  unfold applyCurrent at h
  split at h
  · rename_i v t pol hc
    obtain ⟨hnone, rfl⟩ := applyCreate_ok h
    exact .create hc hnone
  · simp only [bind_ok_iff] at h
    obtain ⟨p, hcur, hpay⟩ := h
    obtain ⟨hp, hrev, hepoch⟩ := assertCurrent_ok hcur
    exact .move hp hrev hepoch hpay

theorem Handled.sorted {s : Machine} {c : Command} {now : Nat} {a : Applied}
    (h : Handled s c now a) (hs : Sorted s.writerLeases) : Sorted a.state.writerLeases := by
  cases h with
  | create => exact hs
  | move _ _ _ hpay => exact (applyPayload_move hpay).sorted hs

theorem Handled.change {a : Applied}
    (h : Handled s c now a) : Change s now (.command c) (a.state.recorded s c) := by
  cases h with
  | create hc hnone => exact .create hc hnone
  | move hp hrev hepoch hpay => exact .move hp hrev hepoch (applyPayload_move hpay)

theorem normalize_eq {c' : Command} (h : normalizeBroadcastProgramCommand c = .ok c') : c' = c := by
  simp only [normalizeBroadcastProgramCommand, bind_ok_iff, failIf_ok_iff, pure_ok_iff,
    exists_const] at h
  obtain ⟨-, -, -, -, -, -, _, -, _, -, rfl⟩ := h
  rfl

/-- On a sound snapshot an accepted command is a repetition, which returns
the snapshot, or its handler's result is recorded. -/
theorem applyBroadcastProgramCommand_ok (hs : s.Sound)
    (h : applyBroadcastProgramCommand s c now = .ok r) :
    (r = ⟨s, true, []⟩ ∧ ∃ record, duplicateRecord s c = some record
        ∧ record.commandHash = broadcastProgramCommandHash c ∧ record.action = c.action)
    ∨ (duplicateRecord s c = none ∧ ∃ a, Handled s c now a
        ∧ r = ⟨a.state.recorded s c, false, a.effects⟩ ∧ r.state.Sound) := by
  simp only [applyBroadcastProgramCommand, bind_ok_iff] at h
  obtain ⟨s', hvalid, c', hnorm, _, -, h⟩ := h
  obtain ⟨rfl, -⟩ := validate_eq_of_sorted hvalid hs.sorted
  obtain rfl := normalize_eq hnorm
  split at h
  · rename_i record hdup
    simp only [duplicateResult, bind_ok_iff, failIf_ok_iff, pure_ok_iff, exists_const,
      not_or, ne_eq, not_not] at h
    obtain ⟨⟨hhash, haction⟩, rfl⟩ := h
    exact .inl ⟨rfl, record, hdup, hhash, haction⟩
  · rename_i hdup
    simp only [bind_ok_iff] at h
    obtain ⟨a, ha, hrec⟩ := h
    have hhandled := handled_of_applyCurrent ha
    obtain ⟨hstate, hsound, hflag, heffects⟩ := recordResult_ok (hhandled.sorted hs.sorted) hrec
    refine .inr ⟨hdup, a, hhandled, ?_, hsound⟩
    cases r
    simp_all

theorem AppliedWith.handled (hs : s.Sound) (h : AppliedWith s c now r) :
    duplicateRecord s c = none ∧ ∃ a, Handled s c now a
      ∧ r = ⟨a.state.recorded s c, false, a.effects⟩ := by
  rcases applyBroadcastProgramCommand_ok hs h.1 with ⟨rfl, -⟩ | ⟨hdup, a, ha, hr, -⟩
  · cases h.2
  · exact ⟨hdup, a, ha, hr⟩

theorem AppliedWith.change {s : Machine} (hs : s.Sound) {c : Command} {now : Nat}
    {r : CommandResult} (h : AppliedWith s c now r) :
    Change s now (.command c) r.state := by
  obtain ⟨-, a, ha, rfl⟩ := h.handled hs
  exact ha.change

/-- The checks a command passes before its handler runs, and the free ledger
entry its record needs. -/
structure Passes (s : Machine) (c : Command) : Prop where
  normal : normalizeBroadcastProgramCommand c = .ok c
  scope : assertScope s c = .ok ()
  unseen : duplicateRecord s c = none
  room : s.appliedCommands.length < maxBroadcastIdempotencyRecords

theorem AppliedWith.passes (hs : s.Sound) (h : AppliedWith s c now r) : Passes s c := by
  obtain ⟨hdup, -⟩ := h.handled hs
  have happly := h.1
  simp only [applyBroadcastProgramCommand, bind_ok_iff] at happly
  obtain ⟨s', hvalid, c', hnorm, _, hscope, happly⟩ := happly
  obtain ⟨rfl, -⟩ := validate_eq_of_sorted hvalid hs.sorted
  obtain rfl := normalize_eq hnorm
  rw [hdup] at happly
  simp only [recordResult, bind_ok_iff, failIf_ok_iff, exists_const, Nat.not_le] at happly
  obtain ⟨_, -, hroom, -⟩ := happly
  exact ⟨hnorm, hscope, hdup, hroom⟩

theorem renewLease_ok (hs : s.Sound) {lease lease' : Lease} {expiresAt : Nat}
    (hl : lease ∈ s.writerLeases) (h : renewLease s expiresAt now lease = .ok lease') :
    lease' = lease.renewed expiresAt now := by
  have hactive := (hs.writerLease hl).2.2.1
  rw [renewLease, if_neg (not_not.mpr hactive)] at h
  exact (validateLease_eq h).symm

theorem sorted_map_renewed {leases : List Lease} (h : Sorted leases) (expiresAt now : Nat) :
    Sorted (leases.map (·.renewed expiresAt now)) :=
  pairwise_map.mpr h

theorem renewBroadcastWriterLeases_ok (hs : s.Sound) {r : Renewal}
    (h : renewBroadcastWriterLeases s r now = .ok t) :
    Change s now (.renew r) t ∧ t.Sound := by
  simp only [renewBroadcastWriterLeases, bind_ok_iff, failIf_ok_iff, exists_const, not_or,
    Nat.not_le, Bool.not_eq_true] at h
  obtain ⟨s', hvalid, ⟨-, -, -, hnow, -, hended⟩, hstale, leases, hmap, hvalid'⟩ := h
  obtain ⟨rfl, -⟩ := validate_eq_of_sorted hvalid hs.sorted
  obtain ⟨rfl, -⟩ := mapM_ok_map (fun lease hl _ => renewLease_ok hs hl) hmap
  obtain ⟨rfl, hsound⟩ := validate_eq_of_sorted hvalid' (sorted_map_renewed hs.sorted _ _)
  refine ⟨?_, hsound⟩
  cases hw : activeWriter s' .packagerWriter with
  | none => simp [hw] at hstale
  | some packager =>
      simp only [hw, Option.all_some, Bool.or_eq_false_iff, decide_eq_false_iff_not, ne_eq,
        not_not, Nat.not_le] at hstale
      obtain ⟨⟨hholder, hfence⟩, hfresh⟩ := hstale
      exact .renew ⟨hw, hholder, hfence, hfresh, hnow, hended⟩

theorem advanceRoomEpoch_ok {current next : Nat} {update : Option Nat}
    (hcur : positiveIntegerOK current = true)
    (h : advanceRoomEpoch current update = .ok next) : positiveIntegerOK next = true := by
  unfold advanceRoomEpoch at h
  split at h
  · cases h
    exact hcur
  · simp only [bind_ok_iff, failIf_ok_iff, pure_ok_iff, exists_const, Bool.not_eq_false] at h
    obtain ⟨hpos, -, rfl⟩ := h
    exact hpos

theorem synchronizeBroadcastRoomEpochs_ok (hs : s.Sound) {u : RoomEpochs}
    (h : synchronizeBroadcastRoomEpochs s u = .ok t) :
    Change s now (.synchronize u) t ∧ t.Sound := by
  simp only [synchronizeBroadcastRoomEpochs, bind_ok_iff, failIf_ok_iff, pure_ok_iff,
    exists_const] at h
  obtain ⟨s', hvalid, -, membership, hm, route, hr, topology, ht, rfl⟩ := h
  obtain ⟨rfl, -⟩ := validate_eq_of_sorted hvalid hs.sorted
  have hepochs := hs.epochs
  simp only [normalizeEpochs, bind_ok_iff, failIf_ok_iff, pure_ok_iff, exists_const,
    Bool.not_eq_false] at hepochs
  obtain ⟨hm₀, hr₀, ht₀, hb, hl, -⟩ := hepochs
  have hnext : normalizeEpochs { s'.epochs with membership, route, topology }
      = .ok { s'.epochs with membership, route, topology } := by
    simp only [normalizeEpochs, bind_ok_iff, failIf_ok_iff, pure_ok_iff, exists_const,
      Bool.not_eq_false]
    exact ⟨advanceRoomEpoch_ok hm₀ hm, advanceRoomEpoch_ok hr₀ hr,
      advanceRoomEpoch_ok ht₀ ht, hb, hl, trivial⟩
  refine ⟨.synchronize hnext rfl rfl, ?_⟩
  -- the room epochs are read by no other check
  exact { hs with epochs := hnext, program := hs.program, leases := hs.leases }

/-- **Inversion.** An accepted call repeats an applied command or changes
the snapshot in one of the listed ways, and keeps it sound. -/
theorem change_of_run (hs : s.Sound) {e : Event} (h : runCall s e = .ok t) :
    (t = s ∨ Change s e.now e.call t) ∧ t.Sound := by
  obtain ⟨call, now⟩ := e
  cases call with
  | command c =>
      simp only [runCall, bind_ok_iff, pure_ok_iff] at h
      obtain ⟨r, hr, rfl⟩ := h
      rcases applyBroadcastProgramCommand_ok hs hr with ⟨rfl, -⟩ | ⟨-, a, ha, hstate, hsound⟩
      · exact ⟨.inl rfl, hs⟩
      · rw [hstate] at hsound ⊢
        exact ⟨.inr ha.change, hsound⟩
  | renew r =>
      obtain ⟨hchange, hsound⟩ := renewBroadcastWriterLeases_ok hs h
      exact ⟨.inr hchange, hsound⟩
  | synchronize u =>
      obtain ⟨hchange, hsound⟩ := synchronizeBroadcastRoomEpochs_ok hs h
      exact ⟨.inr hchange, hsound⟩

theorem Step.cases (hs : s.Sound) {e : Event} (h : Step s e t) :
    (t = s ∨ Change s e.now e.call t) ∧ t.Sound := by
  unfold Step afterCall at h
  split at h
  · rename_i t' hrun
    rw [h]
    exact change_of_run hs hrun
  · rw [h]
    exact ⟨.inl rfl, hs⟩

/-- A step that changes the snapshot is a change, and if it is a command's
then the command was applied. -/
theorem Step.applied (hs : s.Sound) {e : Event} (h : Step s e t) : t = s ∨ (Change s e.now e.call t
      ∧ ∀ c, e.call = .command c → ∃ r, AppliedWith s c e.now r ∧ r.state = t) := by
  obtain ⟨call, now⟩ := e
  cases call with
  | command c =>
      unfold Step afterCall at h
      split at h
      · rename_i t' hrun
        simp only [runCall, bind_ok_iff, pure_ok_iff] at hrun
        obtain ⟨r, hr, rfl⟩ := hrun
        rw [h]
        rcases applyBroadcastProgramCommand_ok hs hr with ⟨rfl, -⟩ | ⟨-, a, ha, heq, -⟩
        · exact .inl rfl
        · refine .inr ⟨heq ▸ ha.change, ?_⟩
          rintro c' hc'
          cases hc'
          exact ⟨r, ⟨hr, by rw [heq]⟩, rfl⟩
      · exact .inl h
  | renew r =>
      obtain ⟨h | hchange, -⟩ := h.cases hs
      · exact .inl h
      · exact .inr ⟨hchange, fun c hc => by cases hc⟩
  | synchronize u =>
      obtain ⟨h | hchange, -⟩ := h.cases hs
      · exact .inl h
      · exact .inr ⟨hchange, fun c hc => by cases hc⟩

/-! ## Runs -/

theorem initialize_sound {scope : Scope} {epochs : Epochs}
    (h : initializeBroadcastProgramMachine scope epochs = .ok s) :
    s.Sound ∧ s = ⟨scope, epochs, none, [], []⟩ := by
  obtain ⟨rfl, hsound⟩ := validate_eq_of_sorted h .nil
  exact ⟨hsound, rfl⟩

theorem sound_of_path {es : List Event} (hp : Path Step s es t) (hs : s.Sound) : t.Sound :=
  hp.inv (fun hstep hsound => (hstep.cases hsound).2) hs

theorem Reachable.sound (h : Reachable s) : s.Sound := by
  obtain ⟨scope, epochs, s₀, es, h₀, hp⟩ := h
  exact sound_of_path hp (initialize_sound h₀).1

/-- The snapshot after a list of calls. -/
def afterCalls (s : Machine) (es : List Event) : Machine := es.foldl afterCall s

theorem afterCalls_append (s : Machine) (es fs : List Event) :
    afterCalls s (es ++ fs) = afterCalls (afterCalls s es) fs :=
  foldl_append

theorem path_afterCalls (s : Machine) (es : List Event) : Path Step s es (afterCalls s es) := by
  induction es generalizing s with
  | nil => exact .nil s
  | cons e es ih => exact .cons rfl (ih (afterCall s e))

theorem reachable_afterCalls {scope : Scope} {epochs : Epochs} (es : List Event)
    (h : initializeBroadcastProgramMachine scope epochs = .ok s) :
    Reachable (afterCalls s es) :=
  ⟨scope, epochs, s, es, h, path_afterCalls s es⟩

/-! ## A sample program

The program the concrete runs of the later modules are about. -/

def sampleScope : Scope :=
  ⟨"tn_aaaaaaaaaaaaaaaa", "sub_bbbbbbbbbbbbbbbb", "room-alpha", "prg_aaaaaaaaaaaaaaaa"⟩

def sampleInitial : Machine := ⟨sampleScope, ⟨11, 13, 17, 19, 23⟩, none, [], []⟩

theorem sample_initial :
    initializeBroadcastProgramMachine sampleScope ⟨11, 13, 17, 19, 23⟩ = .ok sampleInitial := by
  decide +kernel

/-- A command of the owner, under the key made of one digit. -/
def sampleCommand (key : Char) (expected : Option (Nat × Nat)) (payload : Payload) : Command :=
  { tenantId := sampleScope.tenantId
    actorSubjectRef := sampleScope.ownerSubjectRef
    roomId := sampleScope.roomId
    programId := sampleScope.programId
    idempotencyKeyHash := String.ofList (replicate 64 key)
    expectedRevision := expected.map (·.1)
    expectedBroadcastEpoch := expected.map (·.2)
    payload }

def sampleEvent (key : Char) (expected : Option (Nat × Nat)) (payload : Payload)
    (now : Nat) : Event :=
  ⟨.command (sampleCommand key expected payload), now⟩

/-- A lease acquired at 1000, named after its holder. -/
def sampleLease (role : WriterRole) (name : Char) (programEpoch fencingRevision expiresAt : Nat) :
    Lease :=
  { tenantId := sampleScope.tenantId
    holderRef := "pkr_" ++ String.ofList (replicate 16 name)
    roomId := sampleScope.roomId
    programId := sampleScope.programId
    leaseId := "lea_" ++ String.ofList (replicate 16 name)
    revision := 1
    programEpoch, role
    status := .active
    fencingRevision
    acquiredAt := 1000
    renewedAt := 1000
    expiresAt
    releasedAt := none }

/-- The program is created, started, and both writers get a lease. -/
def sampleReady : List Event :=
  [sampleEvent '1' none (.create .listed none (some "pol_aaaaaaaaaaaaaaaa")) 1000,
    sampleEvent '2' (some (1, 19)) (.start true) 1001,
    sampleEvent '3' (some (2, 19))
      (.handoff 23 (sampleLease .packagerWriter 'c' 19 24 60000)) 1002,
    sampleEvent '4' (some (3, 19))
      (.handoff 24 (sampleLease .gatewayWriter 'd' 19 25 30000)) 1003]

/-- The snapshot after `sampleReady`. -/
def sampleMachine : Machine :=
  { scope := sampleScope
    epochs := ⟨11, 13, 17, 19, 25⟩
    program := some
      { tenantId := sampleScope.tenantId
        ownerSubjectRef := sampleScope.ownerSubjectRef
        roomId := sampleScope.roomId
        programId := sampleScope.programId
        revision := 4
        programEpoch := 19
        state := .preparing
        visibility := .listed
        title := none
        sourceIds := none
        publicationIds := none
        endpointIds := none
        captionTrackIds := none
        viewerPolicyId := some "pol_aaaaaaaaaaaaaaaa"
        createdAt := 1000
        updatedAt := 1003 }
    writerLeases := [sampleLease .gatewayWriter 'd' 19 25 30000,
      sampleLease .packagerWriter 'c' 19 24 60000]
    appliedCommands := [ ⟨"1111111111111111111111111111111111111111111111111111111111111111",
        "4fac020f8a1046b0c7570f90764506d205833f96b0291b838961e4a08d846a4a", .create, 1⟩,
      ⟨"2222222222222222222222222222222222222222222222222222222222222222",
        "a2c54ee982975faea0328a43690f0574c72c3d120a693f1de3b6b8a15eacd8b3", .start, 2⟩,
      ⟨"3333333333333333333333333333333333333333333333333333333333333333",
        "78d0c8222412141b968d695c00d3610099362ef5dec23d3ff7723fb5b78ada93", .handoff, 3⟩,
      ⟨"4444444444444444444444444444444444444444444444444444444444444444",
        "20610296ddde1de6e93d4beeea61b02e0e1a20d9a692b52f7c32f6a5aeee4482", .handoff, 4⟩] }

/-- The snapshot after the first `n` of these commands. -/
def sampleAt (n leases : Nat) (state : ProgramState) (lease updatedAt : Nat) : Machine :=
  { sampleMachine with
    epochs := { sampleMachine.epochs with lease }
    program := sampleMachine.program.map ({ · with revision := n, state, updatedAt })
    writerLeases := sampleMachine.writerLeases.drop (2 - leases)
    appliedCommands := sampleMachine.appliedCommands.take n }

/-- The sample program after its packager reported a failure. -/
def sampleFailed : Machine :=
  afterCall sampleMachine (sampleEvent '5' (some (4, 19)) (.fail "ENGINE_FAILED") 1004)

/-- The snapshot `sampleFailed` evaluates to. -/
def sampleStalled : Machine :=
  { sampleMachine with
    program := sampleMachine.program.map
      ({ · with revision := 5, state := .failed, updatedAt := 1004 })
    appliedCommands := sampleMachine.appliedCommands ++ [
      ⟨"5555555555555555555555555555555555555555555555555555555555555555",
        "9646273fa139df0e25d0b2db4ab23f40a409b9d541a2742e721c8d163c9edc7d", .fail, 5⟩] }

theorem sampleAt_steps : afterCall sampleInitial
        (sampleEvent '1' none (.create .listed none (some "pol_aaaaaaaaaaaaaaaa")) 1000)
      = sampleAt 1 0 .draft 23 1000
    ∧ afterCall (sampleAt 1 0 .draft 23 1000) (sampleEvent '2' (some (1, 19)) (.start true) 1001)
      = sampleAt 2 0 .preparing 23 1001
    ∧ afterCall (sampleAt 2 0 .preparing 23 1001) (sampleEvent '3' (some (2, 19))
          (.handoff 23 (sampleLease .packagerWriter 'c' 19 24 60000)) 1002)
      = sampleAt 3 1 .preparing 24 1002
    ∧ afterCall (sampleAt 3 1 .preparing 24 1002) (sampleEvent '4' (some (3, 19))
          (.handoff 24 (sampleLease .gatewayWriter 'd' 19 25 30000)) 1003)
      = sampleMachine
    ∧ sampleFailed = sampleStalled := by
  refine ⟨?_, ?_, ?_, ?_, ?_⟩ <;> decide +kernel

theorem afterCalls_sampleReady : afterCalls sampleInitial sampleReady = sampleMachine := by
  obtain ⟨hcreated, hstarted, hpackager, hgateway, -⟩ := sampleAt_steps
  simp only [afterCalls, sampleReady, foldl_cons, foldl_nil, hcreated, hstarted,
    hpackager, hgateway]

theorem reachable_sample : Reachable sampleMachine := by
  rw [← afterCalls_sampleReady]
  exact reachable_afterCalls sampleReady sample_initial

/-- **Snapshots reload.** A reachable snapshot within the size limit, and no
other, is accepted by the validator, as itself. -/
theorem reachable_revalidates (h : Reachable s) :
    validateBroadcastProgramMachine s = .ok s ↔ s.toJson.byteLength ≤ maxMachineBytes := by
  have hsound := h.sound
  rw [validate_ok_iff, sortLeases_eq hsound.sorted]
  exact ⟨fun hvalid => hvalid.1, fun hbytes => ⟨hbytes, hsound.toWellFormed, rfl⟩⟩

theorem reachable_revalidates_sample :
    validateBroadcastProgramMachine sampleMachine = .ok sampleMachine :=
  (reachable_revalidates reachable_sample).mpr (by decide +kernel)

theorem reachable_sampleFailed : Reachable sampleFailed := by
  exact reachable_sample.after _

def sampleStop : Command := sampleCommand '7' (some (5, 19)) (.stop "OWNER_STOP")

end WebrtcMinimize
