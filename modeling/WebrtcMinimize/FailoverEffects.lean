import WebrtcMinimize.FailoverCoordinator

/-!
# Effects of the failover calls

Each call on a program has one of four effects on what writers depend on,
its stopped flag, its fencing revision and its active leases: it leaves them
alone, makes one lease good until later, promotes a candidate, or stops the
program. `Promotes` is the exact condition under which `acquire` and
`evaluate` get to the promotion, on the program before the call.
-/

namespace WebrtcMinimize

open Checks FailoverProgram

/-! ## Calls -/

inductive FailoverCall where
  | register (scope : FailoverScope)
  | configureCandidates (scope : FailoverScope) (role : WriterRole) (candidates : List Candidate)
  | acquire (scope : FailoverScope) (role : WriterRole)
  | heartbeat (scope : FailoverScope) (role : WriterRole) (input : Heartbeat)
  | evaluate (scope : FailoverScope) (role : WriterRole) (signals : Signals)
  | authorizeWriter (scope : FailoverScope) (role : WriterRole) (lease : LeaseClaim)
  | acknowledge (scope : FailoverScope) (eventId : String)
  | roleSnapshot (scope : FailoverScope) (role : WriterRole)
  | snapshot (scope : FailoverScope)
  | restore (value : FailoverSnapshot)

def FailoverCall.scope : FailoverCall → FailoverScope
  | .register scope => scope
  | .configureCandidates scope _ _ => scope
  | .acquire scope _ => scope
  | .heartbeat scope _ _ => scope
  | .evaluate scope _ _ => scope
  | .authorizeWriter scope _ _ => scope
  | .acknowledge scope _ => scope
  | .roleSnapshot scope _ => scope
  | .snapshot scope => scope
  | .restore value => value.scope

/-- The program a call is about. -/
def FailoverCall.key (call : FailoverCall) : String := scopeKey call.scope

structure FailoverEvent where
  call : FailoverCall
  now : Nat

inductive FailoverReply where
  | snapshot (value : FailoverSnapshot)
  | roleView (value : RoleView)
  | decision (value : Decision)
  | heartbeat (value : HeartbeatResult)
  | authorized
  | acknowledged (found : Bool)

/-- The lease a reply hands out. -/
def FailoverReply.promoted : FailoverReply → Option ActiveWriter
  | .decision value => value.promoted
  | _ => none

def FailoverReply.isStop : FailoverReply → Bool
  | .decision value => value.isStop
  | _ => false

abbrev FailoverOutcome := FailoverCoordinator × Except String FailoverReply

/-- A call's result under the name of its kind. -/
def replied {α : Type} (make : α → FailoverReply) (result : FailoverCoordinator × Except String α) :
    FailoverOutcome :=
  (result.1, result.2.map make)

def FailoverCoordinator.run (c : FailoverCoordinator) (e : FailoverEvent) : FailoverOutcome :=
  match e.call with
  | .register scope => replied .snapshot (c.register scope)
  | .configureCandidates scope role candidates =>
      replied .roleView (c.configureCandidates scope role candidates e.now)
  | .acquire scope role => replied .decision (c.acquire scope role e.now)
  | .heartbeat scope role input => replied .heartbeat (c.heartbeat scope role input e.now)
  | .evaluate scope role signals => replied .decision (c.evaluate scope role signals e.now)
  | .authorizeWriter scope role lease =>
      replied (fun _ => .authorized) (c, c.authorizeWriter scope role lease e.now)
  | .acknowledge scope eventId => replied .acknowledged (c.acknowledge scope eventId)
  | .roleSnapshot scope role => replied .roleView (c, c.roleSnapshot scope role e.now)
  | .snapshot scope => replied .snapshot (c, c.snapshot scope)
  | .restore value => replied .snapshot (c.restore value)

/-! ## Effects -/

/-- Nothing but candidates, failure times and events changed. -/
structure Quiet (p q : FailoverProgram) : Prop where
  stopped : q.stopped = p.stopped
  fencing : q.fencingRevision = p.fencingRevision
  active : ∀ role, (q.role role).active = (p.role role).active

/-- A heartbeat made the lease of a role good until later. -/
structure Extended (config : FailoverConfig) (p q : FailoverProgram) (role : WriterRole)
    (input : Heartbeat) (now : Nat) : Prop where
  stopped : q.stopped = p.stopped
  fencing : q.fencingRevision = p.fencingRevision
  healthy : heartbeatHealthy input = .ok true
  active : ∃ active, (p.role role).active = some active ∧ active.claim = input.toLeaseClaim
    ∧ (q.role role).active
      = some { active with lastHeartbeatAt := now, expiresAt := now + config.leaseTtlMs }
  others : ∀ other, other ≠ role → (q.role other).active = (p.role other).active

/-- A candidate got the lease of a role under the next fencing revision. -/
structure Promoted (p q : FailoverProgram) (role : WriterRole) (active : ActiveWriter) :
    Prop where
  stopped : q.stopped = p.stopped
  fencing : q.fencingRevision = increment p.fencingRevision
  lease : active.fencingRevision = increment p.fencingRevision
  active : (q.role role).active = some active
  others : ∀ other, other ≠ role → (q.role other).active = (p.role other).active

/-- The program was stopped. -/
structure Stopped (p q : FailoverProgram) : Prop where
  stopped : q.stopped = true
  fencing : q.fencingRevision = increment p.fencingRevision
  active : ∀ role, (q.role role).active = none

/-- The call gets to its promotion. -/
def Promotes (config : FailoverConfig) (p : FailoverProgram) (now : Nat) : FailoverCall → Prop
  | .acquire _ role =>
      p.stopped = false ∧ (p.role role).active.any (now < ·.expiresAt) = false
        ∧ deterministicCandidates (p.role role).candidates now
            ((p.role role).active.map (·.holderRef)) ≠ []
  | .evaluate _ role signals =>
      undisturbed (p.role role) signals now = false
        ∧ failureStart (p.role role) now + config.graceMs ≤ now
        ∧ ((p.role role).active = none ∨ p.outbox.length < maxOutbox)
        ∧ unsafeRecovery config role signals
            (failureStart (p.role role) now) now = false
        ∧ deterministicCandidates (p.role role).candidates now
            ((p.role role).active.map (·.holderRef)) ≠ []
  | _ => False

/-- A result with no lease and no stop in it. -/
def Plain (result : Except String FailoverReply) : Prop :=
  ∀ reply, result = .ok reply → reply.promoted = none ∧ reply.isStop = false

theorem plain_error (code : String) : Plain (.error code) := fun _ h => by cases h

/-- What a call does to the program it is about, and what it says of it. -/
inductive FailoverEffect (config : FailoverConfig) (p : FailoverProgram) (now : Nat) :
    FailoverCall → FailoverProgram → Except String FailoverReply → Prop
  | quiet {call : FailoverCall} {q : FailoverProgram} {result : Except String FailoverReply} :
      Quiet p q → Plain result → FailoverEffect config p now call q result
  | extended {call : FailoverCall} {scope : FailoverScope} {role : WriterRole} {input : Heartbeat}
      {q : FailoverProgram} {result : Except String FailoverReply} :
      call = .heartbeat scope role input → Extended config p q role input now → Plain result →
      FailoverEffect config p now call q result
  | promoted {call : FailoverCall} {q : FailoverProgram} {result : Except String FailoverReply}
      {role : WriterRole} {active : ActiveWriter} :
      Promotes config p now call → Promoted p q role active →
      (∀ reply, result = .ok reply → reply.promoted = some active ∧ reply.isStop = false) →
      FailoverEffect config p now call q result
  | stopped {call : FailoverCall} {q : FailoverProgram} {result : Except String FailoverReply} :
      Stopped p q → (∀ reply, result = .ok reply → reply.promoted = none) →
      FailoverEffect config p now call q result

theorem Quiet.rfl {p : FailoverProgram} : Quiet p p := ⟨Eq.refl _, Eq.refl _, fun _ => Eq.refl _⟩

theorem Quiet.trans {p q r : FailoverProgram} (h₁ : Quiet p q) (h₂ : Quiet q r) : Quiet p r :=
  ⟨h₂.stopped.trans h₁.stopped, h₂.fencing.trans h₁.fencing,
    fun role => (h₂.active role).trans (h₁.active role)⟩

theorem plain_map {α : Type} {result : Except String α} {make : α → FailoverReply}
    (h : ∀ a, (make a).promoted = none ∧ (make a).isStop = false) : Plain (result.map make) := by
  intro reply hreply
  obtain ⟨a, -, rfl⟩ := map_ok hreply
  exact h a

/-- What the attempt of a deciding call comes to. -/
inductive Decided (config : FailoverConfig) (p : FailoverProgram) (now : Nat)
    (call : FailoverCall) (attempt : Attempt Decision) : Prop
  | quiet : Quiet p attempt.1 →
      (∀ d, attempt.2 = .ok d → d.promoted = none ∧ d.isStop = false) →
      Decided config p now call attempt
  | promoted {role : WriterRole} {active : ActiveWriter} :
      Promotes config p now call → Promoted p attempt.1 role active →
      (∀ d, attempt.2 = .ok d → d.promoted = some active ∧ d.isStop = false) →
      Decided config p now call attempt
  | stopped : Stopped p attempt.1 → (∀ d, attempt.2 = .ok d → d.promoted = none) →
      Decided config p now call attempt

theorem Decided.effect {config : FailoverConfig} {p : FailoverProgram} {now : Nat}
    {call : FailoverCall} {attempt : Attempt Decision} (h : Decided config p now call attempt) :
    FailoverEffect config p now call attempt.1 (attempt.2.map .decision) := by
  cases h with
  | quiet hquiet hres =>
      refine .quiet hquiet fun reply hreply => ?_
      obtain ⟨d, hd, rfl⟩ := map_ok hreply
      exact hres d hd
  | promoted hcall hprom hres =>
      refine .promoted hcall hprom fun reply hreply => ?_
      obtain ⟨d, hd, rfl⟩ := map_ok hreply
      exact hres d hd
  | stopped hstop hres =>
      refine .stopped hstop fun reply hreply => ?_
      obtain ⟨d, hd, rfl⟩ := map_ok hreply
      exact hres d hd

/-- The lease of a role was taken away, with room for the event. -/
structure Vacated (p q : FailoverProgram) (role : WriterRole) : Prop where
  stopped : q.stopped = p.stopped
  fencing : q.fencingRevision = p.fencingRevision
  active : (q.role role).active = none
  candidates : (q.role role).candidates = (p.role role).candidates
  others : ∀ other, other ≠ role → (q.role other).active = (p.role other).active
  room : (p.role role).active = none ∨ p.outbox.length < maxOutbox

/-- A promotion or a stop after the lease of the role was taken away is one
of the program as it was. -/
theorem Promoted.of_vacated {p q r : FailoverProgram} {role : WriterRole} {active : ActiveWriter}
    (hvac : Vacated p q role) (h : Promoted q r role active) : Promoted p r role active :=
  ⟨h.stopped.trans hvac.stopped, hvac.fencing ▸ h.fencing, hvac.fencing ▸ h.lease, h.active,
    fun other hother => (h.others other hother).trans (hvac.others other hother)⟩

theorem Stopped.of_fencing {p q r : FailoverProgram}
    (hfencing : q.fencingRevision = p.fencingRevision) (h : Stopped q r) : Stopped p r :=
  ⟨h.stopped, hfencing ▸ h.fencing, h.active⟩

namespace FailoverProgram

theorem role_setRole_self (p : FailoverProgram) (role : WriterRole) (state : RoleState) :
    (p.setRole role state).role role = state :=
  p.roles.get_set_self role state

theorem role_setRole_of_ne (p : FailoverProgram) {role other : WriterRole} (state : RoleState)
    (h : other ≠ role) : (p.setRole role state).role other = p.role other :=
  p.roles.get_set_of_ne state h

theorem emit_quiet (p : FailoverProgram) (type : FailoverEventType) (role : WriterRole)
    (now : Nat) (fields : EventFields) : Quiet p (p.emit type role now fields).1 := by
  unfold emit
  split
  · exact .rfl
  · exact ⟨rfl, rfl, fun _ => rfl⟩

/-- Setting a role's state without touching its lease is quiet. -/
theorem setRole_quiet {p : FailoverProgram} {role : WriterRole} {state : RoleState}
    (h : state.active = (p.role role).active) : Quiet p (p.setRole role state) := by
  refine ⟨rfl, rfl, fun other => ?_⟩
  by_cases hother : other = role
  · subst hother
    rw [role_setRole_self, h]
  · rw [role_setRole_of_ne p state hother]

theorem promote_promoted (config : FailoverConfig) (p : FailoverProgram) (role : WriterRole)
    (candidate : Candidate) (now : Nat) (failureType : Option FailureType) :
    ∃ active, Promoted p (p.promote config role candidate now failureType).1 role active
      ∧ ∀ d, (p.promote config role candidate now failureType).2 = .ok d →
        d.promoted = some active ∧ d.isStop = false := by
  let fencingRevision := increment p.fencingRevision
  let active := newLease config p role candidate fencingRevision now
  let promoted := { p with fencingRevision }.setRole role
    { p.role role with active := some active, failureSince := none }
  refine ⟨active, ?_, fun d hd => ?_⟩
  · have hquiet : Quiet promoted (p.promote config role candidate now failureType).1 :=
      promoted.emit_quiet _ _ _ _
    refine ⟨hquiet.stopped, hquiet.fencing, rfl, ?_, fun other hother => ?_⟩
    · rw [hquiet.active, role_setRole_self]
    · rw [hquiet.active, role_setRole_of_ne _ _ hother]
  · simp only [promote] at hd
    cases hsent : (emit promoted (if failureType.isSome then .writerTakeover else .writerAcquired)
        role now { failureType := some failureType
                   fencingRevision := some active.fencingRevision
                   disposition := some (recoveryFor failureType true).disposition }).2 with
    | error code => rw [hsent] at hd; cases hd
    | ok _ =>
        rw [hsent] at hd
        cases failureType <;> cases hd <;> exact ⟨rfl, rfl⟩

theorem stop_stopped (p : FailoverProgram) (role : WriterRole) (failureType : FailureType)
    (now : Nat) (reasonCode : String) :
    Stopped p (p.stop role failureType now reasonCode).1
      ∧ ∀ d, (p.stop role failureType now reasonCode).2 = .ok d → d.promoted = none := by
  let stopped : FailoverProgram :=
    { p with
      stopped := true, roles := clearActive p.roles
      fencingRevision := increment p.fencingRevision }
  refine ⟨?_, fun d hd => ?_⟩
  · have hquiet : Quiet stopped (p.stop role failureType now reasonCode).1 :=
      stopped.emit_quiet _ _ _ _
    refine ⟨hquiet.stopped, hquiet.fencing, fun role => ?_⟩
    rw [hquiet.active]
    cases role <;> rfl
  · simp only [stop] at hd
    cases hsent : (emit stopped .programStopped role now
        { failureType := some (some failureType)
          fencingRevision := some (increment p.fencingRevision)
          disposition := some (recoveryFor (some failureType) false).disposition
          reasonCode := some reasonCode }).2 with
    | error code => rw [hsent] at hd; cases hd
    | ok _ => rw [hsent] at hd; cases hd; rfl

theorem acquire_decided (config : FailoverConfig) (p : FailoverProgram) (scope : FailoverScope)
    (role : WriterRole) (now : Nat) :
    Decided config p now (.acquire scope role) (p.acquire config role now) := by
  unfold acquire
  dsimp only
  split
  · exact .quiet .rfl fun d hd => by cases hd
  · rename_i hrunning
    split
    · exact .quiet .rfl fun d hd => by cases hd
    · rename_i hfree
      split
      · obtain ⟨hstop, hres⟩ := p.stop_stopped role (ownFailure role) now "NO_AUTHORIZED_STANDBY"
        exact .stopped hstop hres
      · rename_i candidate rest hcandidates
        obtain ⟨active, hprom, hres⟩ := promote_promoted config p role candidate now none
        refine .promoted ⟨?_, ?_, ?_⟩ hprom hres
        · exact Bool.eq_false_iff.mpr hrunning
        · exact Bool.eq_false_iff.mpr hfree
        · rw [hcandidates]
          exact List.cons_ne_nil _ _

theorem emit_ok {p : FailoverProgram} {type : FailoverEventType} {role : WriterRole}
    {now : Nat} {fields : EventFields} {q : FailoverProgram}
    (h : p.emit type role now fields = (q, .ok ())) :
    p.outbox.length < maxOutbox ∧ q.roles = p.roles ∧ q.stopped = p.stopped
      ∧ q.fencingRevision = p.fencingRevision := by
  unfold emit at h
  split at h
  · cases h
  · rename_i hroom
    cases h
    exact ⟨Nat.lt_of_not_le hroom, rfl, rfl, rfl⟩

theorem emit_error {p : FailoverProgram} {type : FailoverEventType} {role : WriterRole}
    {now : Nat} {fields : EventFields} {q : FailoverProgram} {code : String}
    (h : p.emit type role now fields = (q, .error code)) : q = p := by
  unfold emit at h
  split at h
  · cases h
    rfl
  · cases h

theorem fence_cases {p q : FailoverProgram} {role : WriterRole} {failureType : FailureType}
    {now : Nat} {result : Except String Unit}
    (h : p.fence role failureType now = (q, result)) :
    (∃ code, result = .error code ∧ q = p) ∨ (result = .ok () ∧ Vacated p q role) := by
  unfold fence at h
  dsimp only at h
  split at h
  · rename_i hnone
    cases h
    exact .inr ⟨rfl, rfl, rfl, hnone, rfl, fun _ _ => rfl, .inl hnone⟩
  · split at h
    · rename_i hemit
      cases h
      exact .inl ⟨_, rfl, emit_error hemit⟩
    · rename_i hemit
      cases h
      obtain ⟨hroom, hroles, hstopped, hfencing⟩ := emit_ok hemit
      refine .inr ⟨rfl, hstopped, hfencing, ?_, ?_, fun other hother => ?_, .inr hroom⟩
      · rw [role_setRole_self]
      · rw [role_setRole_self]
      · rw [role_setRole_of_ne _ _ hother, FailoverProgram.role, hroles]

theorem noted_quiet (p : FailoverProgram) (role : WriterRole) (signals : Signals) (now : Nat) :
    Quiet p (p.noted role signals now) :=
  setRole_quiet rfl

theorem vacated_of_noted {p q : FailoverProgram} {role : WriterRole} {signals : Signals}
    {now : Nat} (h : Vacated (p.noted role signals now) q role) : Vacated p q role := by
  have hnoted := p.noted_quiet role signals now
  refine ⟨h.stopped, h.fencing, h.active, ?_, fun other hother => ?_, ?_⟩
  · rw [h.candidates, noted, role_setRole_self]
  · rw [h.others other hother, hnoted.active]
  · have hroom := h.room
    rwa [hnoted.active] at hroom

theorem undisturbed_active {state : RoleState} {signals : Signals} {now : Nat}
    (h : undisturbed state signals now = true) : ∃ active, state.active = some active := by
  simp only [undisturbed, Bool.and_eq_true, Option.any_eq_true] at h
  obtain ⟨⟨⟨active, hactive, -⟩, -⟩, -⟩ := h
  exact ⟨active, hactive⟩

theorem evaluate_decided (config : FailoverConfig) (p : FailoverProgram) (scope : FailoverScope)
    (role : WriterRole) (signals : Signals) (now : Nat) :
    Decided config p now (.evaluate scope role signals)
      (p.evaluate config role signals now) := by
  have hnoted := p.noted_quiet role signals now
  unfold evaluate
  dsimp only
  split
  · exact .quiet .rfl fun d hd => by cases hd; exact ⟨rfl, rfl⟩
  · rename_i hdisturbed
    split
    · exact .quiet hnoted fun d hd => by cases hd; exact ⟨rfl, rfl⟩
    · rename_i hgrace
      split
      · rename_i q code hfence
        rcases fence_cases hfence with ⟨_, -, rfl⟩ | ⟨hres, -⟩
        · exact .quiet hnoted fun d hd => by cases hd
        · cases hres
      · rename_i q hfence
        rcases fence_cases hfence with ⟨_, hres, -⟩ | ⟨-, hvac⟩
        · cases hres
        · unfold recover
          split
          · obtain ⟨hstop, hres⟩ := q.stop_stopped role (failureTypeOf role signals) now
              "RECOVERY_NOT_SAFE"
            exact .stopped (hstop.of_fencing hvac.fencing) hres
          · rename_i hsafe
            split
            · obtain ⟨hstop, hres⟩ := q.stop_stopped role (failureTypeOf role signals) now
                "NO_AUTHORIZED_STANDBY"
              exact .stopped (hstop.of_fencing hvac.fencing) hres
            · rename_i candidate rest hcandidates
              obtain ⟨active, hprom, hres⟩ := promote_promoted config q role candidate now
                (some (failureTypeOf role signals))
              have hvac' := vacated_of_noted hvac
              refine .promoted ⟨?_, ?_, ?_, ?_, ?_⟩ (hprom.of_vacated hvac') hres
              · rw [Bool.eq_false_iff]
                intro hundisturbed
                obtain ⟨active, hactive⟩ := undisturbed_active hundisturbed
                exact hdisturbed active hactive hundisturbed
              · exact Nat.le_of_not_lt hgrace
              · exact hvac'.room
              · exact Bool.eq_false_iff.mpr hsafe
              · rw [← hvac'.candidates, hcandidates]
                exact List.cons_ne_nil _ _

theorem configureCandidates_quiet (config : FailoverConfig) (p : FailoverProgram)
    (role : WriterRole) (candidates : List Candidate) (now : Nat) :
    Quiet p (p.configureCandidates config role candidates now).1 := by
  unfold configureCandidates
  dsimp only
  split
  · exact .rfl
  · rename_i configured _
    have hset : Quiet p (p.setRole role { p.role role with candidates := configured }) :=
      setRole_quiet rfl
    exact hset.trans (emit_quiet _ _ _ _ _)

theorem acknowledge_quiet (p : FailoverProgram) (eventId : String) :
    Quiet p (p.acknowledge eventId).1 := by
  unfold acknowledge
  split
  · exact ⟨rfl, rfl, fun _ => rfl⟩
  · exact .rfl

theorem heartbeat_effect (config : FailoverConfig) (p : FailoverProgram) (scope : FailoverScope)
    (role : WriterRole) (input : Heartbeat) (now : Nat) :
    FailoverEffect config p now (.heartbeat scope role input) (p.heartbeat config role input now).1
      ((p.heartbeat config role input now).2.map .heartbeat) := by
  have hplain : Plain ((p.heartbeat config role input now).2.map .heartbeat) :=
    plain_map fun _ => ⟨rfl, rfl⟩
  suffices h : Quiet p (p.heartbeat config role input now).1
      ∨ Extended config p (p.heartbeat config role input now).1 role input now by
    rcases h with hquiet | hextended
    · exact .quiet hquiet hplain
    · exact .extended rfl hextended hplain
  unfold heartbeat
  dsimp only
  split
  · exact .inl .rfl
  · split
    · exact .inl .rfl
    · rename_i active hactive
      split
      · exact .inl .rfl
      · rename_i hclaim
        split
        · exact .inl .rfl
        · exact .inl (setRole_quiet rfl)
        · rename_i hhealthy
          refine .inr ⟨rfl, rfl, hhealthy, ⟨active, hactive, not_not.mp hclaim, ?_⟩, ?_⟩
          · rw [role_setRole_self]
          · intro other hother
            rw [role_setRole_of_ne _ _ hother]

end FailoverProgram

/-! ## Restored programs -/

theorem normalizeFailoverScope_eq {scope scope' : FailoverScope}
    (h : normalizeFailoverScope scope = .ok scope') : scope' = scope := by
  simp only [normalizeFailoverScope, bind_ok_iff, failIf_ok_iff, pure_ok_iff, exists_const] at h
  obtain ⟨-, -, -, -, -, rfl⟩ := h
  rfl

theorem normalizeActive_eq {value active : Option ActiveWriter}
    (h : normalizeActive value = .ok active) : active = value := by
  unfold normalizeActive at h
  split at h
  · exact (Except.ok.inj h).symm
  · simp only [bind_ok_iff, failIf_ok_iff, pure_ok_iff, exists_const] at h
    obtain ⟨-, -, -, -, -, -, -, -, rfl⟩ := h
    rfl

/-- Every role of a restored program is as it was or comes from the list,
with a lease that is not ahead of the fencing revision. -/
theorem restoreRoles_get {fencingRevision : Nat} : ∀ {states : List RoleSnapshot}
    {seen : List WriterRole} {roles roles' : RoleStates},
    restoreRoles fencingRevision states seen roles = .ok roles' → ∀ role,
      roles'.get role = roles.get role ∨ ∃ state ∈ states, state.role = role
        ∧ (roles'.get role).active = state.active
        ∧ ∀ active, state.active = some active → active.fencingRevision ≤ fencingRevision
  | [], _, _, _, h, role => by
      cases h
      exact .inl rfl
  | state :: rest, seen, roles, roles', h, role => by
      simp only [restoreRoles, bind_ok_iff, failIf_ok_iff, exists_const] at h
      obtain ⟨-, active, hactive, -, hfence, hrest⟩ := h
      obtain rfl := normalizeActive_eq hactive
      rcases restoreRoles_get hrest role with hsame | ⟨state', hmem, hstate'⟩
      · by_cases hrole : role = state.role
        · subst hrole
          refine .inr ⟨state, List.mem_cons_self, rfl, ?_, fun active hsome => ?_⟩
          · rw [hsame, RoleStates.get_set_self]
          · simpa [hsome] using hfence
        · exact .inl (hsame.trans (RoleStates.get_set_of_ne _ _ hrole))
      · exact .inr ⟨state', List.mem_cons_of_mem _ hmem, hstate'⟩

/-- What a restored program has from its snapshot. -/
structure Restored (value : FailoverSnapshot) (p : FailoverProgram) : Prop where
  scope : p.scope = value.scope
  fencing : p.fencingRevision = value.fencingRevision
  stopped : p.stopped = value.stopped
  active : ∀ {role active}, (p.role role).active = some active →
    active.fencingRevision ≤ p.fencingRevision
      ∧ ∃ state ∈ value.roles, state.role = role ∧ state.active = some active

theorem restoreProgram_restored {value : FailoverSnapshot} {p : FailoverProgram}
    (h : restoreProgram value = .ok p) : Restored value p := by
  simp only [restoreProgram, bind_ok_iff, failIf_ok_iff, pure_ok_iff] at h
  obtain ⟨_, -, _, -, _, -, scope, hscope, _, -, _, -, outbox, -, _, -, roles, hroles, rfl⟩ := h
  refine ⟨normalizeFailoverScope_eq hscope, rfl, rfl, fun {role active} hactive => ?_⟩
  have hactive : (roles.get role).active = some active := hactive
  rcases restoreRoles_get hroles role with hsame | ⟨state, hmem, hrole, heq, hfence⟩
  · rw [hsame, RoleStates.get_initial] at hactive
    cases hactive
  · have hsome : state.active = some active := heq.symm.trans hactive
    exact ⟨hfence active hsome, state, hmem, hrole, hsome⟩

end WebrtcMinimize
