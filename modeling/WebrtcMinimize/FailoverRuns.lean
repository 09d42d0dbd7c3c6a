import WebrtcMinimize.Runs
import WebrtcMinimize.FailoverEffects

/-!
# Runs of the failover coordinator

A history is the coordinator together with the snapshots it has handed out,
which are the ones that may be restored. `FailoverStep.moved` says once what
a call can do to the program under a key: nothing, when the call is about
another key or is refused; replace it by a restored one; or have one of its
effects.
`FailoverStep.holds` is the invariant rule over histories.
-/

namespace WebrtcMinimize

open Checks Runs FailoverCoordinator KeyedMap

/-! ## Histories -/

/-- The coordinator, and the snapshots it has returned so far. -/
structure FailoverHistory where
  coordinator : FailoverCoordinator
  snapshots : List FailoverSnapshot

namespace FailoverHistory

def start (config : FailoverConfig) : FailoverHistory := ⟨.new config, []⟩

def program? (h : FailoverHistory) (key : String) : Option FailoverProgram :=
  h.coordinator.programs.get key

def reply (h : FailoverHistory) (e : FailoverEvent) : Except String FailoverReply :=
  (h.coordinator.run e).2

def after (h : FailoverHistory) (e : FailoverEvent) : FailoverHistory :=
  { coordinator := (h.coordinator.run e).1
    snapshots := match h.reply e with
      | .ok (.snapshot value) => value :: h.snapshots
      | _ => h.snapshots }

end FailoverHistory

/-- One call; only a snapshot the coordinator returned is restored. -/
def FailoverStep (h : FailoverHistory) (e : FailoverEvent) (h' : FailoverHistory) : Prop :=
  (∀ value, e.call = .restore value → value ∈ h.snapshots) ∧ h' = h.after e

/-- The lease the call hands out. -/
def FailoverHistory.handedOut (h : FailoverHistory) (e : FailoverEvent) : Option ActiveWriter :=
  match h.reply e with
  | .ok reply => reply.promoted
  | .error _ => none

/-- The call returns a stop. -/
def FailoverHistory.returnsStop (h : FailoverHistory) (e : FailoverEvent) : Bool :=
  match h.reply e with
  | .ok reply => reply.isStop
  | .error _ => false

/-- The call hands the lease out, for the program under the key. -/
def HandsOut (h : FailoverHistory) (e : FailoverEvent) (key : String) (active : ActiveWriter) :
    Prop :=
  e.call.key = key ∧ h.handedOut e = some active

/-- The call returns a stop, for the program under the key. -/
def ReturnsStop (h : FailoverHistory) (e : FailoverEvent) (key : String) : Prop :=
  e.call.key = key ∧ h.returnsStop e = true

theorem HandsOut.reply {h : FailoverHistory} {e : FailoverEvent} {key : String}
    {active : ActiveWriter} (hout : HandsOut h e key active) :
    ∃ reply, h.reply e = .ok reply ∧ reply.promoted = some active := by
  have hprom := hout.2
  unfold FailoverHistory.handedOut at hprom
  split at hprom
  · rename_i reply hreply
    exact ⟨reply, hreply, hprom⟩
  · cases hprom

theorem ReturnsStop.reply {h : FailoverHistory} {e : FailoverEvent} {key : String}
    (hstop : ReturnsStop h e key) : ∃ reply, h.reply e = .ok reply ∧ reply.isStop = true := by
  have hflag := hstop.2
  unfold FailoverHistory.returnsStop at hflag
  split at hflag
  · rename_i reply hreply
    exact ⟨reply, hreply, hflag⟩
  · cases hflag

/-! ## Steps -/

/-- The programs under a key before and after a call to the coordinator. -/
inductive Moved (c : FailoverCoordinator) (e : FailoverEvent) (key : String)
    (p q : FailoverProgram) : Prop
  | elsewhere : e.call.key ≠ key → q = p → Moved c e key p q
  | unchanged : e.call.key = key → q = p → Plain (c.run e).2 → Moved c e key p q
  | restored {value : FailoverSnapshot} : e.call = .restore value → e.call.key = key →
      restoreProgram value = .ok q → Plain (c.run e).2 → Moved c e key p q
  | effect : e.call.key = key → c.getProgram e.call.scope = .ok p →
      FailoverEffect c.config p e.now e.call q (c.run e).2 → Moved c e key p q

namespace FailoverCoordinator

variable {c : FailoverCoordinator} {p : FailoverProgram} {scope : FailoverScope}

theorem getProgram_ok
    (h : c.getProgram scope = .ok p) : c.programs.get (scopeKey scope) = some p := by
  simp only [getProgram, bind_ok_iff] at h
  obtain ⟨_, -, scope', hscope, h⟩ := h
  obtain rfl := normalizeFailoverScope_eq hscope
  split at h
  · cases h
  · rename_i program hget
    split at h
    · cases h
    · cases h
      exact hget

variable {e : FailoverEvent} {key : String}

/-- A call that works on a program in place has the effect of its work. -/
theorem moved_onProgram {α : Type} {work : FailoverProgram → Attempt α} {make : α → FailoverReply}
    (hrun : c.run e = replied make (c.onProgram e.call.scope work))
    (heffect : ∀ p, FailoverEffect c.config p e.now e.call (work p).1 ((work p).2.map make))
    (hp : c.programs.get key = some p) :
    ∃ q, (c.run e).1.programs.get key = some q ∧ Moved c e key p q := by
  by_cases hkey : e.call.key = key
  · cases hget : c.getProgram e.call.scope with
    | error code =>
        have hres : c.run e = (c, .error code) := by rw [hrun, onProgram, hget]; rfl
        refine ⟨p, by rwa [hres], .unchanged hkey rfl ?_⟩
        rw [hres]
        exact plain_error code
    | ok program =>
        have hprogram := getProgram_ok hget
        obtain rfl : program = p := by
          rw [← hkey, FailoverCall.key, hprogram] at hp
          exact Option.some.inj hp
        have hres : c.run e = ({ c with programs := c.programs.set e.call.key (work program).1 },
            (work program).2.map make) := by
          rw [hrun, onProgram, hget]
          rfl
        refine ⟨(work program).1, ?_, .effect hkey hget ?_⟩
        · rw [hres, ← hkey, get_set_self]
        · rw [hres]
          exact heffect program
  · refine ⟨p, ?_, .elsewhere hkey rfl⟩
    rw [hrun]
    unfold replied onProgram
    split
    · exact hp
    · exact (get_set_of_ne _ _ (Ne.symm hkey)).trans hp

theorem moved_same (hsame : (c.run e).1 = c) (hplain : Plain (c.run e).2)
    (hp : c.programs.get key = some p) :
    ∃ q, (c.run e).1.programs.get key = some q ∧ Moved c e key p q := by
  refine ⟨p, by rwa [hsame], ?_⟩
  by_cases hkey : e.call.key = key
  · exact .unchanged hkey rfl hplain
  · exact .elsewhere hkey rfl

theorem plain_snapshot {result : Except String FailoverSnapshot} : Plain (result.map .snapshot) :=
  plain_map fun _ => ⟨rfl, rfl⟩

theorem register_programs (c : FailoverCoordinator) (scope : FailoverScope) :
    (c.register scope).1 = c ∨ c.programs.get (scopeKey scope) = none ∧ (c.register scope).1
        = { c with programs := c.programs.set (scopeKey scope) (newProgram scope) } := by
  unfold register
  dsimp only
  split
  · exact .inl rfl
  · rename_i checked hchecked
    obtain rfl : checked = scope := by
      obtain ⟨_, -, hscope⟩ := bind_ok_iff.mp hchecked
      exact normalizeFailoverScope_eq hscope
    split
    · split
      · exact .inl rfl
      · exact .inl rfl
    · rename_i hnone
      exact .inr ⟨hnone, rfl⟩

theorem moved_register {now : Nat} (hp : c.programs.get key = some p) :
    ∃ q, (c.run ⟨.register scope, now⟩).1.programs.get key = some q
      ∧ Moved c ⟨.register scope, now⟩ key p q := by
  rcases c.register_programs scope with hsame | ⟨hnone, hset⟩
  · exact moved_same hsame plain_snapshot hp
  · have hkey : key ≠ scopeKey scope := by
      rintro rfl
      rw [hnone] at hp
      cases hp
    refine ⟨p, ?_, .elsewhere (Ne.symm hkey) rfl⟩
    show (c.register scope).1.programs.get key = some p
    rw [hset]
    exact (get_set_of_ne _ _ hkey).trans hp

variable {value : FailoverSnapshot}

theorem moved_restore {now : Nat} (hp : c.programs.get key = some p) :
    ∃ q, (c.run ⟨.restore value, now⟩).1.programs.get key = some q
      ∧ Moved c ⟨.restore value, now⟩ key p q := by
  cases hres : restoreProgram value with
  | error code =>
      have hrun : c.run ⟨.restore value, now⟩ = (c, .error code) := by
        simp only [run, restore, hres, replied]
        rfl
      refine moved_same (by rw [hrun]) ?_ hp
      rw [hrun]
      exact plain_error code
  | ok program =>
      have hset : (c.run ⟨.restore value, now⟩).1.programs
          = c.programs.set (scopeKey value.scope) program := by
        simp only [run, restore, hres, replied, (restoreProgram_restored hres).scope]
      by_cases hkey : scopeKey value.scope = key
      · refine ⟨program, ?_, .restored rfl hkey hres plain_snapshot⟩
        rw [hset, hkey, get_set_self]
      · refine ⟨p, ?_, .elsewhere hkey rfl⟩
        rw [hset, get_set_of_ne _ _ (Ne.symm hkey), hp]

theorem run_moved (hp : c.programs.get key = some p) :
    ∃ q, (c.run e).1.programs.get key = some q ∧ Moved c e key p q := by
  obtain ⟨call, now⟩ := e
  cases call with
  | register scope => exact moved_register hp
  | configureCandidates scope role candidates =>
      refine moved_onProgram rfl (fun p => ?_) hp
      exact .quiet (p.configureCandidates_quiet c.config role candidates now)
        (plain_map fun _ => ⟨rfl, rfl⟩)
  | acquire scope role =>
      exact moved_onProgram rfl (fun p => (p.acquire_decided c.config scope role now).effect) hp
  | heartbeat scope role input =>
      exact moved_onProgram rfl (fun p => p.heartbeat_effect c.config scope role input now) hp
  | evaluate scope role signals =>
      exact moved_onProgram rfl
        (fun p => (p.evaluate_decided c.config scope role signals now).effect) hp
  | authorizeWriter scope role lease =>
      exact moved_same rfl (plain_map fun _ => ⟨rfl, rfl⟩) hp
  | acknowledge scope eventId =>
      exact moved_onProgram rfl
        (fun p => .quiet (p.acknowledge_quiet eventId) (plain_map fun _ => ⟨rfl, rfl⟩)) hp
  | roleSnapshot scope role => exact moved_same rfl (plain_map fun _ => ⟨rfl, rfl⟩) hp
  | snapshot scope => exact moved_same rfl plain_snapshot hp
  | restore value => exact moved_restore hp

theorem onProgram_none {α : Type}
    {work : FailoverProgram → Attempt α} (hp : c.programs.get key = none) :
    (c.onProgram scope work).1.programs.get key = none := by
  unfold onProgram
  split
  · exact hp
  · rename_i program hget
    refine (get_set_of_ne _ _ ?_).trans hp
    rintro rfl
    rw [getProgram_ok hget] at hp
    cases hp

theorem run_created {q : FailoverProgram} (hp : c.programs.get key = none)
    (hq : (c.run e).1.programs.get key = some q) :
    (∃ scope, q = newProgram scope)
      ∨ ∃ value, e.call = .restore value ∧ restoreProgram value = .ok q := by
  obtain ⟨call, now⟩ := e
  cases call with
  | register scope =>
      have hq : (c.register scope).1.programs.get key = some q := hq
      rcases c.register_programs scope with hsame | ⟨-, hset⟩
      · rw [hsame, hp] at hq
        cases hq
      · rw [hset, get_set] at hq
        split at hq
        · exact .inl ⟨scope, (Option.some.inj hq).symm⟩
        · rw [hp] at hq
          cases hq
  | restore value =>
      have hq : (c.restore value).1.programs.get key = some q := hq
      unfold restore at hq
      split at hq
      · rw [hp] at hq
        cases hq
      · rename_i program hres
        rcases get_set_some hq with ⟨-, rfl⟩ | ⟨-, hq⟩
        · exact .inr ⟨value, rfl, hres⟩
        · rw [hp] at hq
          cases hq
  | authorizeWriter scope role lease => exact absurd (hq.symm.trans hp) (by simp)
  | roleSnapshot scope role => exact absurd (hq.symm.trans hp) (by simp)
  | snapshot scope => exact absurd (hq.symm.trans hp) (by simp)
  | configureCandidates scope role candidates =>
      exact absurd (hq.symm.trans (onProgram_none hp)) (by simp)
  | acquire scope role => exact absurd (hq.symm.trans (onProgram_none hp)) (by simp)
  | heartbeat scope role input => exact absurd (hq.symm.trans (onProgram_none hp)) (by simp)
  | evaluate scope role signals => exact absurd (hq.symm.trans (onProgram_none hp)) (by simp)
  | acknowledge scope eventId => exact absurd (hq.symm.trans (onProgram_none hp)) (by simp)

theorem snapshot_ok (h : c.snapshot scope = .ok value) :
    ∃ p, c.programs.get (scopeKey scope) = some p ∧ value = p.snapshot := by
  simp only [snapshot, bind_ok_iff, pure_ok_iff] at h
  obtain ⟨p, hget, rfl⟩ := h
  exact ⟨p, getProgram_ok hget, rfl⟩

theorem register_ok :
    (c.register scope).2 = .ok value → ∃ s, (c.register scope).1.snapshot s = .ok value := by
  unfold register
  dsimp only
  split
  · exact fun h => by cases h
  · split
    · split
      · exact fun h => by cases h
      · exact fun h => ⟨_, h⟩
    · exact fun h => ⟨_, h⟩

theorem restore_ok {input : FailoverSnapshot} :
    (c.restore input).2 = .ok value → ∃ s, (c.restore input).1.snapshot s = .ok value := by
  unfold restore
  split
  · exact fun h => by cases h
  · exact fun h => ⟨_, h⟩

/-- A returned snapshot is one of a program the call leaves behind. -/
theorem run_snapshot (h : (c.run e).2 = .ok (.snapshot value)) :
    ∃ key p, (c.run e).1.programs.get key = some p ∧ value = p.snapshot := by
  suffices hsnap : ∃ scope, (c.run e).1.snapshot scope = .ok value by
    obtain ⟨scope, hscope⟩ := hsnap
    exact ⟨_, snapshot_ok hscope⟩
  obtain ⟨call, now⟩ := e
  cases call with
  | register scope =>
      obtain ⟨_, hvalue, heq⟩ := map_ok h
      cases heq
      exact register_ok hvalue
  | restore input =>
      obtain ⟨_, hvalue, heq⟩ := map_ok h
      cases heq
      exact restore_ok hvalue
  | snapshot scope =>
      obtain ⟨_, hvalue, heq⟩ := map_ok h
      cases heq
      exact ⟨scope, hvalue⟩
  | _ =>
      obtain ⟨_, -, heq⟩ := map_ok h
      cases heq

theorem decision_program {d : Decision}
    (h : (c.run e).2 = .ok (.decision d)) : ∃ p, c.programs.get e.call.key = some p := by
  have hof : ∀ {scope : FailoverScope} {work : FailoverProgram → Attempt Decision},
      (c.onProgram scope work).2 = .ok d → ∃ p, c.programs.get (scopeKey scope) = some p := by
    intro scope work
    unfold onProgram
    split
    · exact fun h => by cases h
    · rename_i p hget
      exact fun _ => ⟨p, getProgram_ok hget⟩
  obtain ⟨call, now⟩ := e
  cases call with
  | acquire scope role =>
      obtain ⟨_, hd, heq⟩ := map_ok h
      cases heq
      exact hof hd
  | evaluate scope role signals =>
      obtain ⟨_, hd, heq⟩ := map_ok h
      cases heq
      exact hof hd
  | _ =>
      obtain ⟨_, -, heq⟩ := map_ok h
      cases heq

end FailoverCoordinator

theorem FailoverStep.moved {h h' : FailoverHistory} {e : FailoverEvent} {key : String}
    {p : FailoverProgram} (hstep : FailoverStep h e h') (hp : h.program? key = some p) :
    ∃ q, h'.program? key = some q ∧ Moved h.coordinator e key p q := by
  rw [hstep.2]
  exact run_moved hp

theorem HandsOut.program {h : FailoverHistory} {e : FailoverEvent} {key : String}
    {active : ActiveWriter} (hout : HandsOut h e key active) : ∃ p, h.program? key = some p := by
  obtain ⟨reply, hreply, hprom⟩ := hout.reply
  obtain ⟨rfl, -⟩ := hout
  cases reply with
  | decision d => exact decision_program hreply
  | _ => cases hprom

theorem ReturnsStop.program {h : FailoverHistory} {e : FailoverEvent} {key : String}
    (hstop : ReturnsStop h e key) : ∃ p, h.program? key = some p := by
  obtain ⟨reply, hreply, hprom⟩ := hstop.reply
  obtain ⟨rfl, -⟩ := hstop
  cases reply with
  | decision d => exact decision_program hreply
  | _ => cases hprom

/-! ## Invariants -/

/-- `I` holds of every program and `J` of every snapshot handed out. -/
structure Holds (I : FailoverProgram → Prop) (J : FailoverSnapshot → Prop)
    (h : FailoverHistory) : Prop where
  program : ∀ {key p}, h.program? key = some p → I p
  snapshot : ∀ {value}, value ∈ h.snapshots → J value

theorem holds_start {I : FailoverProgram → Prop} {J : FailoverSnapshot → Prop}
    (config : FailoverConfig) : Holds I J (.start config) :=
  ⟨fun h => (nomatch h), fun h => (nomatch h)⟩

/-- **Invariant rule.** New programs have it, effects keep it, and it passes
from a program to its snapshot and back. -/
theorem FailoverStep.holds {I : FailoverProgram → Prop} {J : FailoverSnapshot → Prop}
    {h h' : FailoverHistory} {e : FailoverEvent} (hstep : FailoverStep h e h')
    (hnew : ∀ scope, I (newProgram scope))
    (hrestore : ∀ {value p}, J value → restoreProgram value = .ok p → I p)
    (hsnapshot : ∀ {p}, I p → J p.snapshot)
    (heffect : ∀ {p q result}, h.coordinator.getProgram e.call.scope = .ok p →
      FailoverEffect h.coordinator.config p e.now e.call q result → I p → I q)
    (hinv : Holds I J h) : Holds I J h' := by
  have hprogram : ∀ {key q}, h'.program? key = some q → I q := by
    intro key q hq
    cases hp : h.program? key with
    | none =>
        rw [hstep.2] at hq
        rcases run_created hp hq with ⟨scope, rfl⟩ | ⟨value, hcall, hres⟩
        · exact hnew scope
        · exact hrestore (hinv.snapshot (hstep.1 value hcall)) hres
    | some p =>
        obtain ⟨q', hq', hmoved⟩ := hstep.moved hp
        cases hq'.symm.trans hq
        cases hmoved with
        | elsewhere _ hsame => exact hsame ▸ hinv.program hp
        | unchanged _ hsame => exact hsame ▸ hinv.program hp
        | restored hcall _ hres _ => exact hrestore (hinv.snapshot (hstep.1 _ hcall)) hres
        | effect _ hget heff => exact heffect hget heff (hinv.program hp)
  refine ⟨hprogram, fun {value} hmem => ?_⟩
  have hcases : value ∈ h.snapshots ∨ h.reply e = .ok (.snapshot value) := by
    rw [hstep.2] at hmem
    simp only [FailoverHistory.after] at hmem
    split at hmem
    · rename_i v hreply
      rcases List.mem_cons.mp hmem with rfl | hmem
      · exact .inr hreply
      · exact .inl hmem
    · exact .inl hmem
  rcases hcases with hmem | hreply
  · exact hinv.snapshot hmem
  · obtain ⟨key, p, hp, rfl⟩ := run_snapshot hreply
    have hnow : h'.program? key = some p := by
      rw [hstep.2]
      exact hp
    exact hsnapshot (hprogram hnow)

/-! ## A sample program -/

def sampleFailoverScope : FailoverScope :=
  { tenantId := "tn_aaaaaaaaaaaaaaaa"
    roomId := "room-failover"
    programId := "prg_bbbbbbbbbbbbbbbb"
    programEpoch := 7
    leaseEpoch := 11 }

/-- A healthy, consenting standby. -/
def sampleStandby : Candidate :=
  { holderRef := "pkr_aaaaaaaaaaaaaaaa"
    deviceRef := "dev_aaaaaaaaaaaaaaaa"
    priority := 100
    volunteerConsent := true
    decryptConsent := .preauthorized
    consentExpiresAt := 100000
    health := .healthy
    quorumEligible := true }

/-- Signals of a lost writer. -/
def sampleSignals : Signals :=
  ⟨.unavailable, .healthy, .healthy, .healthy, .healthy, .healthy⟩

def sampleRegister : FailoverEvent := ⟨.register sampleFailoverScope, 1000⟩

def sampleAcquire : FailoverEvent := ⟨.acquire sampleFailoverScope .packagerWriter, 1000⟩

def sampleConfigure : FailoverEvent :=
  ⟨.configureCandidates sampleFailoverScope .packagerWriter [sampleStandby], 1000⟩

def sampleEvaluate (now : Nat) : FailoverEvent :=
  ⟨.evaluate sampleFailoverScope .packagerWriter sampleSignals, now⟩

def sampleRegistered : FailoverHistory := (FailoverHistory.start .default).after sampleRegister

theorem FailoverStep.call {h : FailoverHistory} {e : FailoverEvent}
    (hcall : ∀ value, e.call ≠ .restore value) : FailoverStep h e (h.after e) :=
  ⟨fun value h => absurd h (hcall value), rfl⟩

end WebrtcMinimize
