import WebrtcMinimize.FailoverRuns

/-!
# Failover calls that throw

A call throws either before it has changed anything, or because the outbox has no room for
its event. A writer that is fenced is announced first and only then taken away; candidates,
a promotion and a stop are put into the program first and then announced. With a full outbox
they stay there, unannounced, and the call that made them throws.
-/

namespace WebrtcMinimize

open Checks Runs FailoverProgram Option Nat

/-! ## Calls on a program -/

/-- The calls that work on a program. -/
inductive ProgramCall where
  | configureCandidates (role : WriterRole) (candidates : List Candidate)
  | acquire (role : WriterRole)
  | heartbeat (role : WriterRole) (input : Heartbeat)
  | evaluate (role : WriterRole) (signals : Signals)
  | acknowledge (eventId : String)

def ProgramCall.on (call : ProgramCall) (scope : FailoverScope) : FailoverCall :=
  match call with
  | .configureCandidates role candidates => .configureCandidates scope role candidates
  | .acquire role => .acquire scope role
  | .heartbeat role input => .heartbeat scope role input
  | .evaluate role signals => .evaluate scope role signals
  | .acknowledge eventId => .acknowledge scope eventId

/-- What a writer or a viewer of the program can depend on. -/
@[ext]
structure ProgramView where
  candidates : WriterRole → List Candidate
  active : WriterRole → Option ActiveWriter
  failureSince : WriterRole → Option Nat
  fencingRevision : Nat
  stopped : Bool
  outbox : List OutboxEvent

namespace FailoverProgram

variable {config : FailoverConfig} {p q : FailoverProgram} {role : WriterRole} {now : Nat}

def view (p : FailoverProgram) : ProgramView where
  candidates role := (p.role role).candidates
  active role := (p.role role).active
  failureSince role := (p.role role).failureSince
  fencingRevision := p.fencingRevision
  stopped := p.stopped
  outbox := p.outbox

/-- The call as an attempt on the program. -/
def attempt (config : FailoverConfig) (p : FailoverProgram) (call : ProgramCall) (now : Nat) :
    Attempt FailoverReply :=
  match call with
  | .configureCandidates role candidates =>
      let done := p.configureCandidates config role candidates now
      (done.1, done.2.map .roleView)
  | .acquire role =>
      let done := p.acquire config role now
      (done.1, done.2.map .decision)
  | .heartbeat role input =>
      let done := p.heartbeat config role input now
      (done.1, done.2.map .heartbeat)
  | .evaluate role signals =>
      let done := p.evaluate config role signals now
      (done.1, done.2.map .decision)
  | .acknowledge eventId =>
      let done := p.acknowledge eventId
      (done.1, done.2.map .acknowledged)

/-- A call that throws leaves what one depends on. -/
def Atomic (config : FailoverConfig) (p : FailoverProgram) (call : ProgramCall) (now : Nat) : Prop :=
  ∀ code, (p.attempt config call now).2 = .error code → (p.attempt config call now).1.view = p.view

/-! ## When something is left behind -/

/-- The outbox has no room. -/
def Full (p : FailoverProgram) : Prop := maxOutbox ≤ p.outbox.length

/-- The candidates that `configureCandidates` keeps. -/
def checkedCandidates (candidatesInput : List Candidate) (now : Nat) :
    Except String (List Candidate) := do
  failIf (maxCandidates < candidatesInput.length) "invalid_broadcast_failover_candidates"
  let candidates ← candidatesInput.mapM (normalizeCandidate · now)
  failIf (¬(candidates.map fun c => (c.holderRef, c.deviceRef)).Nodup)
    "duplicate_broadcast_failover_candidate"
  return candidates.insertionSort ConfiguredLe

/-- A stop shows: the program runs, a role has a lease, or the revision can still grow. -/
def ShowsStop (p : FailoverProgram) : Prop :=
  p.stopped = false ∨ (∃ role, (p.role role).active ≠ none) ∨ p.fencingRevision ≤ maxSafeInteger

/-- There is no safe takeover. -/
def MustStop (config : FailoverConfig) (p : FailoverProgram) (role : WriterRole)
    (signals : Signals) (now : Nat) : Prop :=
  unsafeRecovery config role signals (failureStart (p.role role) now) now = true
    ∨ deterministicCandidates (p.role role).candidates now
        ((p.role role).active.map (·.holderRef)) = []

/-- The call throws after it has changed something. -/
def Loses (config : FailoverConfig) (p : FailoverProgram) (now : Nat) : ProgramCall → Prop
  | .configureCandidates role candidates =>
      p.Full ∧ ∃ checked, checkedCandidates candidates now = .ok checked
        ∧ checked ≠ (p.role role).candidates
  | .acquire role =>
      p.Full ∧ p.stopped = false ∧ (p.role role).active.any (now < ·.expiresAt) = false
  | .evaluate role signals =>
      undisturbed (p.role role) signals now = false
        ∧ failureStart (p.role role) now + config.graceMs ≤ now
        ∧ (((p.role role).active ≠ none ∧ p.outbox.length + 1 = maxOutbox)
          ∨ p.Full ∧ ((p.role role).failureSince = none
            ∨ ((p.role role).active = none ∧ (MustStop config p role signals now → p.ShowsStop))))
  | .heartbeat _ _ => False
  | .acknowledge _ => False

/-! ## Events -/

variable {fields : EventFields} {type : FailoverEventType}

theorem emit_full (h : p.Full) :
    p.emit type role now fields = (p, .error "broadcast_failover_outbox_exhausted") := if_pos h

theorem emit_room (h : ¬p.Full) : ∃ sequence event, p.emit type role now fields
      = ({ p with sequence, outbox := p.outbox ++ [event] }, .ok ()) := by
  have hroom : ¬maxOutbox ≤ p.outbox.length := h
  unfold emit
  rw [if_neg hroom]
  exact ⟨_, _, rfl⟩

theorem emit_throws : (∃ code, (p.emit type role now fields).2 = .error code) ↔ p.Full := by
  constructor
  · rintro ⟨code, hcode⟩
    by_contra hroom
    obtain ⟨_, _, heq⟩ : ∃ sequence event, p.emit type role now fields
        = ({ p with sequence, outbox := p.outbox ++ [event] }, .ok ()) := emit_room hroom
    rw [heq] at hcode
    cases hcode
  · intro hfull
    exact ⟨_, by rw [emit_full hfull]⟩

theorem map_throws {α β : Type} {result : Except String α} {f : α → β} :
    (∃ code, result.map f = .error code) ↔ ∃ code, result = .error code := by
  cases result with
  | error code => exact ⟨fun _ => ⟨code, rfl⟩, fun _ => ⟨code, rfl⟩⟩
  | ok a => exact ⟨fun ⟨_, h⟩ => (by cases h), fun ⟨_, h⟩ => (by cases h)⟩

variable {candidate : Candidate} {failureType : Option FailureType}

theorem promote_throws :
    (∃ code, (p.promote config role candidate now failureType).2 = .error code) ↔ p.Full :=
  map_throws.trans emit_throws

theorem promote_active : ((p.promote config role candidate now failureType).1.role role).active
      = some (newLease config p role candidate (increment p.fencingRevision) now) := by
  unfold promote
  rw [(emit_quiet _ _ _ _ _).active, role_setRole_self]

theorem promote_outbox (h : p.Full) :
    (p.promote config role candidate now failureType).1.outbox = p.outbox := by
  let promoted := { p with fencingRevision := increment p.fencingRevision }.setRole role
    { p.role role with
      active := some (newLease config p role candidate (increment p.fencingRevision) now)
      failureSince := none }
  have hfull : promoted.Full := h
  exact congrArg (fun attempt => attempt.1.outbox) (emit_full hfull)

variable {reasonCode : String}

theorem stop_throws {failureType : FailureType} :
    (∃ code, (p.stop role failureType now reasonCode).2 = .error code) ↔ p.Full :=
  map_throws.trans emit_throws

theorem stop_full (h : p.Full) {failureType : FailureType} :
    (p.stop role failureType now reasonCode).1 = { p with
          stopped := true
          roles := clearActive p.roles
          fencingRevision := increment p.fencingRevision } := by
  have hfull : Full { p with
      stopped := true
      roles := clearActive p.roles
      fencingRevision := increment p.fencingRevision } := h
  unfold stop
  dsimp only
  rw [emit_full hfull]

/-- A stop that is not announced shows where a lease, the flag or the revision changes. -/
theorem stop_view (h : p.Full) {failureType : FailureType} :
    (p.stop role failureType now reasonCode).1.view = p.view ↔ ¬p.ShowsStop := by
  have hcandidates (role : WriterRole) : ((clearActive p.roles).get role).candidates
      = (p.role role).candidates := by cases role <;> rfl
  have hactive (role : WriterRole) : ((clearActive p.roles).get role).active = none := by
    cases role <;> rfl
  have hsince (role : WriterRole) : ((clearActive p.roles).get role).failureSince
      = (p.role role).failureSince := by cases role <;> rfl
  rw [stop_full h, ProgramView.ext_iff]
  constructor
  · rintro ⟨-, hleases, -, hfencing, hstopped, -⟩ (hruns | ⟨role, hlease⟩ | hle)
    · have hflag : true = false := hstopped.trans hruns
      cases hflag
    · exact hlease ((congrFun hleases role).symm.trans (hactive role))
    · exact absurd hfencing (lt_increment hle).ne'
  · intro hhidden
    simp only [ShowsStop, not_or, not_exists, not_not, not_le, Bool.not_eq_false] at hhidden
    obtain ⟨hstopped, hvacant, hlast⟩ := hhidden
    refine ⟨funext hcandidates, funext fun role => ?_, funext hsince, ?_, hstopped.symm, rfl⟩
    · exact (hactive role).trans (hvacant role).symm
    · exact if_neg (not_le.mpr hlast)

/-! ## Configuring and acquiring -/

/-- The program with the candidates of a role. -/
def configured (p : FailoverProgram) (role : WriterRole) (candidates : List Candidate) :
    FailoverProgram := p.setRole role { p.role role with candidates }

theorem configured_view {candidates : List Candidate} :
    (p.configured role candidates).view = p.view ↔ candidates = (p.role role).candidates := by
  constructor
  · intro h
    have hrole := congrFun (congrArg ProgramView.candidates h) role
    exact (congrArg RoleState.candidates (role_setRole_self p role _)).symm.trans hrole
  · rintro rfl
    have hsame : p.configured role (p.role role).candidates = p := by
      cases role <;> rfl
    rw [hsame]

/-- Where the candidates pass, the call throws for want of room alone. -/
theorem configureCandidates_cases (config : FailoverConfig) (p : FailoverProgram)
    (role : WriterRole) (candidates : List Candidate) (now : Nat) :
    (∃ code, p.configureCandidates config role candidates now = (p, .error code)
        ∧ ∀ checked, checkedCandidates candidates now ≠ .ok checked)
      ∨ ∃ checked, checkedCandidates candidates now = .ok checked
        ∧ ((∃ code, (p.configureCandidates config role candidates now).2 = .error code) ↔ p.Full)
        ∧ (p.Full → (p.configureCandidates config role candidates now).1
          = p.configured role checked) := by
  unfold configureCandidates
  dsimp only
  split
  · rename_i code hchecked
    have herror : checkedCandidates candidates now = .error code := hchecked
    refine .inl ⟨code, rfl, fun checked hok => ?_⟩
    rw [herror] at hok
    cases hok
  · rename_i checked hchecked
    refine .inr ⟨checked, hchecked, map_throws.trans emit_throws, fun hfull => ?_⟩
    have hsame : (p.configured role checked).Full := hfull
    exact congrArg Prod.fst (emit_full hsame)

/-- A call that throws where `T`, and then leaves something behind where `C`. -/
theorem atomic_iff_of {call : ProgramCall} {T C : Prop}
    (hthrows : (∃ code, (p.attempt config call now).2 = .error code) ↔ T)
    (hview : T → ((p.attempt config call now).1.view = p.view ↔ ¬C)) :
    Atomic config p call now ↔ ¬(T ∧ C) := by
  constructor
  · rintro hatomic ⟨ht, hc⟩
    obtain ⟨code, hcode⟩ := hthrows.mpr ht
    exact (hview ht).mp (hatomic code hcode) hc
  · intro hkept code hcode
    have ht := hthrows.mp ⟨code, hcode⟩
    exact (hview ht).mpr fun hc => hkept ⟨ht, hc⟩

theorem configureCandidates_atomic_iff (candidates : List Candidate) :
    Atomic config p (.configureCandidates role candidates) now
      ↔ ¬Loses config p now (.configureCandidates role candidates) := by
  rcases configureCandidates_cases config p role candidates now with
    ⟨code, heq, hnone⟩ | ⟨checked, hchecked, hthrows, hleft⟩
  · refine iff_of_true (fun _ _ => ?_) fun ⟨_, checked, hok, _⟩ => hnone checked hok
    exact congrArg (fun attempt => view attempt.1) heq
  · have hloses : Loses config p now (.configureCandidates role candidates)
        ↔ p.Full ∧ checked ≠ (p.role role).candidates := by
      refine and_congr_right fun _ => ⟨?_, fun hne => ⟨checked, hchecked, hne⟩⟩
      rintro ⟨other, hother, hne⟩
      rw [hchecked] at hother
      cases hother
      exact hne
    rw [hloses]
    refine atomic_iff_of (map_throws.trans hthrows) fun hfull => ?_
    rw [not_not, ← configured_view]
    exact Eq.congr_left (congrArg view (hleft hfull))

theorem promote_view (hfree : (p.role role).active.any (now < ·.expiresAt) = false) :
    (p.promote config role candidate now failureType).1.view ≠ p.view := by
  intro h
  have hactive : (p.role role).active
      = some (newLease config p role candidate (increment p.fencingRevision) now) :=
    (congrFun (congrArg ProgramView.active h) role).symm.trans promote_active
  rw [hactive, any_some, decide_eq_false_iff_not] at hfree
  have httl := config.leaseTtl_range.1
  exact hfree (by show now < now + config.leaseTtlMs; omega)

theorem acquire_atomic_iff :
    Atomic config p (.acquire role) now ↔ ¬Loses config p now (.acquire role) := by
  by_cases hrefused : p.stopped = true ∨ (p.role role).active.any (now < ·.expiresAt) = true
  · have hsame : ∃ code, p.acquire config role now = (p, .error code) := by
      unfold acquire
      dsimp only
      rcases hrefused with hstopped | hwriter
      · rw [if_pos hstopped]
        exact ⟨_, rfl⟩
      · split <;> exact ⟨_, rfl⟩
    obtain ⟨code, heq⟩ := hsame
    refine iff_of_true (fun _ _ => congrArg (fun attempt => view attempt.1) heq) ?_
    rintro ⟨-, hruns, hfree⟩
    rcases hrefused with hstopped | hwriter
    · rw [hstopped] at hruns
      cases hruns
    · rw [hwriter] at hfree
      cases hfree
  · rw [not_or, Bool.not_eq_true, Bool.not_eq_true] at hrefused
    obtain ⟨hruns, hfree⟩ := hrefused
    have hloses : Loses config p now (.acquire role) ↔ p.Full ∧ True :=
      and_congr_right fun _ => iff_of_true ⟨hruns, hfree⟩ trivial
    rw [hloses]
    cases hcandidates : deterministicCandidates (p.role role).candidates now
        ((p.role role).active.map (·.holderRef)) with
    | nil =>
        have heq : p.acquire config role now
            = p.stop role (ownFailure role) now "NO_AUTHORIZED_STANDBY" := by
          unfold acquire
          simp only [hruns, hfree, hcandidates, Bool.false_eq_true, if_false]
        refine atomic_iff_of (map_throws.trans (heq ▸ stop_throws)) fun hfull => ?_
        refine Iff.trans (Eq.congr_left (congrArg (fun attempt => view attempt.1) heq)) ?_
        exact (stop_view hfull).trans (not_congr (iff_of_true (.inl hruns) trivial))
    | cons candidate rest =>
        have heq : p.acquire config role now = p.promote config role candidate now none := by
          unfold acquire
          simp only [hruns, hfree, hcandidates, Bool.false_eq_true, if_false]
        refine atomic_iff_of (map_throws.trans (heq ▸ promote_throws)) fun hfull => ?_
        refine Iff.trans (Eq.congr_left (congrArg (fun attempt => view attempt.1) heq)) ?_
        exact iff_of_false (promote_view hfree) (not_not.mpr trivial)

/-! ## Evaluating -/

section Evaluate

variable {signals : Signals}

theorem fence_none (h : (p.role role).active = none) {failureType : FailureType} :
    p.fence role failureType now = (p, .ok ()) := by
  unfold fence
  dsimp only
  rw [h]

theorem fence_full (failureType : FailureType) (now : Nat) (h : (p.role role).active ≠ none)
    (hfull : p.Full) :
    ∃ code, p.fence role failureType now = (p, .error code) := by
  obtain ⟨active, hactive⟩ := ne_none_iff_exists'.mp h
  unfold fence
  dsimp only
  rw [hactive]
  dsimp only
  rw [emit_full hfull]
  exact ⟨_, rfl⟩

theorem fence_room (failureType : FailureType) (now : Nat) (h : (p.role role).active ≠ none)
    (hroom : ¬p.Full) :
    ∃ q event, p.fence role failureType now = (q, .ok ()) ∧ q.outbox = p.outbox ++ [event] := by
  obtain ⟨active, hactive⟩ := ne_none_iff_exists'.mp h
  obtain ⟨sequence, event, hemit⟩ : ∃ sequence event, p.emit .writerFenced role now
      { failureType := some (some failureType)
        fencingRevision := some active.fencingRevision }
      = ({ p with sequence, outbox := p.outbox ++ [event] }, .ok ()) := emit_room hroom
  unfold fence
  dsimp only
  rw [hactive]
  dsimp only
  rw [hemit]
  exact ⟨_, event, rfl, rfl⟩

variable {excludeRef : Option String} {failureSince : Nat}

theorem recover_throws :
    (∃ code, (p.recover config role signals failureSince excludeRef now).2 = .error code)
      ↔ p.Full := by
  unfold recover
  split
  · exact stop_throws
  · split
    · exact stop_throws
    · exact promote_throws

theorem recover_view (hfull : p.Full) (hactive : (p.role role).active = none) :
    (p.recover config role signals failureSince excludeRef now).1.view = p.view
      ↔ (unsafeRecovery config role signals failureSince now = true
          ∨ deterministicCandidates (p.role role).candidates now excludeRef = []) ∧ ¬p.ShowsStop := by
  unfold recover
  split
  · rename_i hunsafe
    rw [stop_view hfull, and_iff_right (.inl hunsafe)]
  · rename_i hsafe
    split
    · rename_i hnone
      rw [stop_view hfull, and_iff_right (.inr hnone)]
    · rename_i candidate rest hsome
      refine iff_of_false (promote_view (by rw [hactive]; rfl)) fun hstop => ?_
      rcases hstop.1 with hunsafe | hnone
      · exact hsafe hunsafe
      · rw [hsome] at hnone
        cases hnone

/-- A recovery that is not announced puts nothing into the outbox. It gives the role a lease,
or keeps the time of the failure. -/
theorem recover_full (hfull : p.Full) :
    (p.recover config role signals failureSince excludeRef now).1.outbox = p.outbox
      ∧ (((p.recover config role signals failureSince excludeRef now).1.role role).active ≠ none
        ∨ ((p.recover config role signals failureSince excludeRef now).1.role role).failureSince
          = (p.role role).failureSince) := by
  have hstop (failureType : FailureType) (reasonCode : String) :
      (p.stop role failureType now reasonCode).1.outbox = p.outbox
        ∧ ((p.stop role failureType now reasonCode).1.role role).failureSince
          = (p.role role).failureSince := by
    rw [stop_full hfull]
    exact ⟨rfl, by cases role <;> rfl⟩
  unfold recover
  split
  · exact (hstop _ _).imp_right .inr
  · split
    · exact (hstop _ _).imp_right .inr
    · refine ⟨promote_outbox hfull, .inl fun hnone => ?_⟩
      rw [promote_active] at hnone
      cases hnone

/-- `evaluate` that has nothing to do, or not yet, does not throw. -/
theorem evaluate_waits (h : undisturbed (p.role role) signals now = true
    ∨ now < failureStart (p.role role) now + config.graceMs) :
    ∃ d, (p.evaluate config role signals now).2 = .ok d := by
  unfold evaluate
  dsimp only
  split
  · exact ⟨_, rfl⟩
  · rename_i hdisturbed
    rcases h with hundisturbed | hgrace
    · obtain ⟨active, hactive⟩ := undisturbed_active hundisturbed
      exact absurd hundisturbed (hdisturbed active hactive)
    · rw [if_pos hgrace]
      exact ⟨_, rfl⟩

section Late

variable (hdisturbed : undisturbed (p.role role) signals now = false)
  (hgrace : failureStart (p.role role) now + config.graceMs ≤ now)

include hdisturbed hgrace

theorem evaluate_of_fence_error {code : String}
    (hfence : (p.noted role signals now).fence role (failureTypeOf role signals) now
      = (q, .error code)) : p.evaluate config role signals now = (q, .error code) := by
  unfold evaluate
  dsimp only
  split
  · rename_i hundisturbed
    rw [hdisturbed] at hundisturbed
    cases hundisturbed
  · rw [if_neg (not_lt.mpr hgrace), hfence]

theorem evaluate_of_fence_ok
    (hfence : (p.noted role signals now).fence role (failureTypeOf role signals) now = (q, .ok ())) :
    p.evaluate config role signals now = q.recover config role signals
      (failureStart (p.role role) now) ((p.role role).active.map (·.holderRef)) now := by
  unfold evaluate
  dsimp only
  split
  · rename_i hundisturbed
    rw [hdisturbed] at hundisturbed
    cases hundisturbed
  · rw [if_neg (not_lt.mpr hgrace), hfence]

end Late

theorem noted_role : (p.noted role signals now).role role = { p.role role with
        failureSince := some (failureStart (p.role role) now)
        lastFailureType := some (failureTypeOf role signals) } := role_setRole_self p role _

theorem noted_view :
    (p.noted role signals now).view = p.view ↔ (p.role role).failureSince ≠ none := by
  constructor
  · intro h hnone
    have hsince : some (failureStart (p.role role) now) = (p.role role).failureSince :=
      (congrArg RoleState.failureSince noted_role).symm.trans
        (congrFun (congrArg ProgramView.failureSince h) role)
    rw [hnone] at hsince
    cases hsince
  · intro h
    obtain ⟨since, hsince⟩ := ne_none_iff_exists'.mp h
    have hstart : some (failureStart (p.role role) now) = (p.role role).failureSince := by
      rw [failureStart, hsince, getD_some]
    have heach (other : WriterRole) : ((p.noted role signals now).role other).candidates
          = (p.role other).candidates
        ∧ ((p.noted role signals now).role other).active = (p.role other).active
        ∧ ((p.noted role signals now).role other).failureSince = (p.role other).failureSince := by
      by_cases hother : other = role
      · subst hother
        rw [noted_role]
        exact ⟨rfl, rfl, hstart⟩
      · rw [noted, role_setRole_of_ne p _ hother]
        exact ⟨rfl, rfl, rfl⟩
    exact ProgramView.ext (funext fun other => (heach other).1) (funext fun other => (heach other).2.1)
      (funext fun other => (heach other).2.2) rfl rfl rfl

theorem noted_showsStop : (p.noted role signals now).ShowsStop ↔ p.ShowsStop := by
  have hactive := (p.noted_quiet role signals now).active
  simp only [ShowsStop, hactive]
  exact Iff.rfl

theorem evaluate_atomic_iff : Atomic config p (.evaluate role signals) now
      ↔ ¬Loses config p now (.evaluate role signals) := by
  by_cases hlate : undisturbed (p.role role) signals now = false
      ∧ failureStart (p.role role) now + config.graceMs ≤ now
  · obtain ⟨hdisturbed, hgrace⟩ := hlate
    have hloses : Loses config p now (.evaluate role signals)
        ↔ ((p.role role).active ≠ none ∧ p.outbox.length + 1 = maxOutbox)
          ∨ p.Full ∧ ((p.role role).failureSince = none
            ∨ ((p.role role).active = none ∧ (MustStop config p role signals now → p.ShowsStop))) :=
      (and_iff_right hdisturbed).trans (and_iff_right hgrace)
    rw [hloses]
    have hnoted : ((p.noted role signals now).role role).active = (p.role role).active := by
      rw [noted_role]
    by_cases hactive : (p.role role).active = none
    · have heq := evaluate_of_fence_ok hdisturbed hgrace (fence_none (hnoted.trans hactive))
      have hthrows : (∃ code, (p.evaluate config role signals now).2 = .error code) ↔ p.Full := by
        rw [heq]
        exact recover_throws
      rw [or_iff_right fun h => h.1 hactive]
      refine atomic_iff_of (map_throws.trans hthrows) fun hfull => ?_
      refine (Eq.congr_left (congrArg (fun attempt => view attempt.1) heq)).trans ?_
      by_cases hsince : (p.role role).failureSince = none
      · refine iff_of_false (fun hview => ?_) (not_not.mpr (.inl hsince))
        rcases (recover_full (p := p.noted role signals now) hfull).2 with hleased | hnote
        · exact hleased ((congrFun (congrArg ProgramView.active hview) role).trans hactive)
        · rw [noted_role] at hnote
          have hkept := congrFun (congrArg ProgramView.failureSince hview) role
          exact absurd (hnote.symm.trans (hkept.trans hsince)) (some_ne_none _)
      · rw [or_iff_right hsince, and_iff_right hactive, Classical.not_imp, ← noted_view.mpr hsince,
          recover_view (p := p.noted role signals now) hfull (hnoted.trans hactive), noted_role,
          noted_showsStop]
        exact Iff.rfl
    · have hleased : ((p.noted role signals now).role role).active ≠ none := hnoted ▸ hactive
      by_cases hfull : p.Full
      · -- the lease stays, but the failure is noted
        obtain ⟨code, hfence⟩ := fence_full (failureTypeOf role signals) now hleased hfull
        have heq := evaluate_of_fence_error hdisturbed hgrace hfence
        have hthrows : (∃ code, (p.evaluate config role signals now).2 = .error code) ↔ True := by
          rw [heq]
          exact iff_of_true ⟨code, rfl⟩ trivial
        have hlast : ¬p.outbox.length + 1 = maxOutbox := ne_of_gt (lt_succ_of_le hfull)
        have hreduced : ((p.role role).active ≠ none ∧ p.outbox.length + 1 = maxOutbox)
              ∨ p.Full ∧ ((p.role role).failureSince = none
                ∨ ((p.role role).active = none ∧ (MustStop config p role signals now → p.ShowsStop)))
            ↔ True ∧ (p.role role).failureSince = none := by
          rw [or_iff_right fun h => hlast h.2, and_iff_right hfull, or_iff_left fun h => hactive h.1,
            true_and]
        rw [hreduced]
        refine atomic_iff_of (map_throws.trans hthrows) fun _ => ?_
        exact (Eq.congr_left (congrArg (fun attempt => view attempt.1) heq)).trans noted_view
      · -- the lease is announced as taken away, and with the last place in the outbox
        obtain ⟨q, event, hfence, houtbox⟩ := fence_room (failureTypeOf role signals) now hleased hfull
        have heq := evaluate_of_fence_ok hdisturbed hgrace hfence
        have hthrows : (∃ code, (p.evaluate config role signals now).2 = .error code) ↔ q.Full := by
          rw [heq]
          exact recover_throws
        have hlength : q.outbox.length = p.outbox.length + 1 := by
          rw [houtbox, List.length_append, List.length_singleton]
          rfl
        have hlast : q.Full ↔ p.outbox.length + 1 = maxOutbox := by
          rw [Full, hlength]
          exact ⟨fun h => Nat.le_antisymm (Nat.succ_le_of_lt (Nat.lt_of_not_le hfull)) h, Nat.le_of_eq ∘ Eq.symm⟩
        rw [or_iff_left fun h => hfull h.1, and_iff_right hactive, ← hlast, ← and_true q.Full]
        refine atomic_iff_of (map_throws.trans hthrows) fun hfilled => ?_
        refine (Eq.congr_left (congrArg (fun attempt => view attempt.1) heq)).trans ?_
        refine iff_of_false (fun hview => ?_) (not_not.mpr trivial)
        have hsame := (recover_full hfilled).1.symm.trans (congrArg ProgramView.outbox hview)
        have hgrown := congrArg List.length hsame
        rw [hlength] at hgrown
        exact absurd hgrown (succ_ne_self _)
  · have hwaits : ∃ d, (p.evaluate config role signals now).2 = .ok d := by
      refine evaluate_waits ?_
      by_contra hneither
      rw [not_or, Bool.not_eq_true, not_lt] at hneither
      exact hlate hneither
    obtain ⟨d, hd⟩ := hwaits
    refine iff_of_true (fun code hcode => ?_) fun hloses => hlate ⟨hloses.1, hloses.2.1⟩
    have hmapped : (p.evaluate config role signals now).2.map FailoverReply.decision = .error code :=
      hcode
    rw [hd] at hmapped
    cases hmapped

end Evaluate

/-! ## All calls -/

theorem heartbeat_keeps (input : Heartbeat) {code : String}
    (h : (p.heartbeat config role input now).2 = .error code) :
    (p.heartbeat config role input now).1 = p := by
  unfold heartbeat at h ⊢
  dsimp only at h ⊢
  split at h
  · rfl
  · split at h
    · rfl
    · split at h
      · rename_i hstale
        rw [if_pos hstale]
      · rename_i hfresh
        rw [if_neg hfresh]
        split at h
        · rfl
        · cases h
        · cases h

theorem acknowledge_keeps {eventId code : String} (h : (p.acknowledge eventId).2 = .error code) :
    (p.acknowledge eventId).1 = p := by
  unfold acknowledge at h ⊢
  split at h
  · cases h
  · rename_i hinvalid
    rw [if_neg hinvalid]

theorem attempt_atomic_iff (call : ProgramCall) :
    Atomic config p call now ↔ ¬Loses config p now call := by
  cases call with
  | configureCandidates role candidates => exact configureCandidates_atomic_iff candidates
  | acquire role => exact acquire_atomic_iff
  | evaluate role signals => exact evaluate_atomic_iff
  | heartbeat role input =>
      refine iff_of_true (fun code hcode => ?_) not_false
      obtain ⟨code, hthrown⟩ := map_throws.mp ⟨code, hcode⟩
      exact congrArg view (heartbeat_keeps input hthrown)
  | acknowledge eventId =>
      refine iff_of_true (fun code hcode => ?_) not_false
      obtain ⟨code, hthrown⟩ := map_throws.mp ⟨code, hcode⟩
      exact congrArg view (acknowledge_keeps hthrown)

end FailoverProgram

namespace FailoverCoordinator

variable {c : FailoverCoordinator} {scope : FailoverScope} {call : ProgramCall} {now : Nat}
  {p q : FailoverProgram}

/-- What one can depend on of the program under a key. -/
def view (c : FailoverCoordinator) (key : String) : Option ProgramView :=
  (c.programs.get key).map FailoverProgram.view

/-- A call that throws leaves the coordinator, as far as one depends on it. -/
def AtomicOnError (c : FailoverCoordinator) (e : FailoverEvent) : Prop :=
  ∀ code, (c.run e).2 = .error code → ∀ key, (c.run e).1.view key = c.view key

theorem run_on (c : FailoverCoordinator) (scope : FailoverScope) (call : ProgramCall) (now : Nat) :
    c.run ⟨call.on scope, now⟩ = c.onProgram scope fun p => p.attempt c.config call now := by
  cases call <;>
    simp only [ProgramCall.on, run, replied, configureCandidates, acquire, heartbeat, evaluate,
      acknowledge, onProgram] <;>
    cases c.getProgram scope <;> rfl

theorem run_of_get (hget : c.getProgram scope = .ok p) : c.run ⟨call.on scope, now⟩
    = ({ c with programs := c.programs.set (scopeKey scope) (p.attempt c.config call now).1 },
      (p.attempt c.config call now).2) := by
  rw [run_on, onProgram, hget]

theorem run_of_none {code : String} (hget : c.getProgram scope = .error code) :
    c.run ⟨call.on scope, now⟩ = (c, .error code) := by
  rw [run_on, onProgram, hget]

theorem atomicOnError_of_get (hget : c.getProgram scope = .ok p) :
    c.AtomicOnError ⟨call.on scope, now⟩ ↔ p.Atomic c.config call now := by
  have hold : c.view (scopeKey scope) = some p.view := by
    rw [view, getProgram_ok hget, map_some]
  have hview (q : FailoverProgram) (key : String) :
      view { c with programs := c.programs.set (scopeKey scope) q } key
        = if key = scopeKey scope then some q.view else c.view key := by
    rw [view, KeyedMap.get_set]
    split <;> rfl
  rw [AtomicOnError, run_of_get hget]
  refine forall₂_congr fun code _ => ⟨fun hkept => ?_, fun hkept key => ?_⟩
  · have hsame := hkept (scopeKey scope)
    rw [hview, if_pos rfl, hold] at hsame
    exact some.inj hsame
  · rw [hview]
    split
    · rename_i hkey
      rw [hkey, hold, hkept]
    · rfl

/-- **Failover calls that throw.** A call that throws leaves candidates, leases, fencing
revision, stopped flag, failure times and outbox as they were, exactly when it does not meet
a full outbox after a change, or fill it. -/
theorem failover_atomic_iff (c : FailoverCoordinator) (scope : FailoverScope) (call : ProgramCall)
    (now : Nat) : c.AtomicOnError ⟨call.on scope, now⟩
      ↔ ¬∃ p, c.getProgram scope = .ok p ∧ p.Loses c.config now call := by
  cases hget : c.getProgram scope with
  | error code =>
      refine iff_of_true (fun _ _ key => ?_) fun ⟨p, hp, _⟩ => (by cases hp)
      rw [run_of_none hget]
  | ok p =>
      rw [atomicOnError_of_get hget, attempt_atomic_iff]
      refine not_congr ⟨fun h => ⟨p, rfl, h⟩, ?_⟩
      rintro ⟨other, hother, h⟩
      cases hother
      exact h

/-! ## A stop that is not announced -/

theorem getProgram_set (hget : c.getProgram scope = .ok p) (hscope : q.scope = p.scope) :
    getProgram { c with programs := c.programs.set (scopeKey scope) q } scope = .ok q := by
  simp only [getProgram, bind_ok_iff] at hget ⊢
  obtain ⟨_, hclone, scope', hnormal, hfound⟩ := hget
  refine ⟨_, hclone, scope', hnormal, ?_⟩
  obtain rfl := normalizeFailoverScope_eq hnormal
  rw [KeyedMap.get_set_self]
  split at hfound
  · cases hfound
  · split at hfound
    · cases hfound
    · rename_i hsame
      cases hfound
      rw [hscope, if_neg hsame]

/-- Configuring a role without candidates takes a place in the outbox and leaves the leases. -/
theorem configure_none (config : FailoverConfig) (role : WriterRole) (now : Nat) (hroom : ¬p.Full)
    (hq : (p.attempt config (.configureCandidates role []) now).1 = q) :
    q.scope = p.scope ∧ q.stopped = p.stopped
      ∧ (∀ other, (q.role other).active = (p.role other).active)
      ∧ q.outbox.length = p.outbox.length + 1 := by
  have hconfigured : ¬(p.configured role []).Full := hroom
  obtain ⟨sequence, event, hemit⟩ : ∃ sequence event,
      (p.configured role []).emit .standbysConfigured role now
          { standbyCount := some (min 0 config.maxStandbys) }
        = ({ p.configured role [] with
              sequence, outbox := (p.configured role []).outbox ++ [event] }, .ok ()) :=
    emit_room hconfigured
  have hafter : (p.attempt config (.configureCandidates role []) now).1
      = { p.configured role [] with
          sequence, outbox := (p.configured role []).outbox ++ [event] } := congrArg Prod.fst hemit
  obtain rfl := hq.symm.trans hafter
  have hquiet : Quiet p (p.configured role []) := setRole_quiet rfl
  refine ⟨rfl, rfl, fun other => hquiet.active other, ?_⟩
  rw [List.length_append, List.length_singleton]
  rfl

theorem after_of_get {h : FailoverHistory} (hget : h.coordinator.getProgram scope = .ok p) :
    (h.after ⟨call.on scope, now⟩).coordinator = { h.coordinator with
      programs := h.coordinator.programs.set (scopeKey scope)
        (p.attempt h.coordinator.config call now).1 } :=
  congrArg Prod.fst (run_of_get hget)

/-- A program that runs without a lease, with so many events in its outbox. -/
structure Filled (h : FailoverHistory) (n : Nat) (p : FailoverProgram) : Prop where
  get : h.coordinator.getProgram sampleFailoverScope = .ok p
  length : p.outbox.length = n
  runs : p.stopped = false
  vacant : (p.role .packagerWriter).active = none

theorem filled_reachable : ∀ n ≤ maxOutbox, ∃ es h p,
    Path FailoverStep (.start .default) es h ∧ Filled h n p
  | 0, _ => by
      refine ⟨[sampleRegister], sampleRegistered, newProgram sampleFailoverScope,
        .single (FailoverStep.call fun value hcall => by cases hcall), ?_, rfl, rfl, rfl⟩
      decide +kernel
  | n + 1, hn => by
      obtain ⟨es, h, p, hpath, hfilled⟩ := filled_reachable n (by omega)
      have hroom : ¬p.Full := by
        rw [FailoverProgram.Full, hfilled.length]
        omega
      obtain ⟨hscope, hstopped, hactive, hlength⟩ :=
        configure_none h.coordinator.config .packagerWriter 1000 hroom rfl
      refine ⟨_, _, _, hpath.append (.single (FailoverStep.call (e := ⟨(ProgramCall.configureCandidates
        .packagerWriter []).on sampleFailoverScope, 1000⟩) fun value hcall => by cases hcall)), ?_,
        hlength.trans (congrArg (· + 1) hfilled.length), hstopped.trans hfilled.runs,
        (hactive _).trans hfilled.vacant⟩
      rw [after_of_get hfilled.get]
      exact getProgram_set hfilled.get hscope

/-- With a full outbox a program without candidates is stopped by a call that throws. -/
theorem stop_not_announced : ¬∀ (config : FailoverConfig) (es : List FailoverEvent)
    (h : FailoverHistory) (scope : FailoverScope) (call : ProgramCall) (now : Nat),
    Path FailoverStep (.start config) es h → h.coordinator.AtomicOnError ⟨call.on scope, now⟩ := by
  intro hatomic
  obtain ⟨es, h, p, hpath, hfilled⟩ := filled_reachable maxOutbox le_rfl
  have hcall := hatomic _ es h sampleFailoverScope (.acquire .packagerWriter) 1000 hpath
  rw [atomicOnError_of_get hfilled.get, attempt_atomic_iff] at hcall
  refine hcall ⟨hfilled.length.ge, hfilled.runs, ?_⟩
  rw [hfilled.vacant]
  rfl

end FailoverCoordinator

end WebrtcMinimize
