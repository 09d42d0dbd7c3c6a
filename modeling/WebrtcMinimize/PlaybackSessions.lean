import WebrtcMinimize.PlaybackModel

/-!
# Live playback

A call that waits keeps the session it began with. When it goes on, that
session is still registered and unexpired or the call fails: an object
number is never used twice (`StoreKept`), so a session that was closed or pruned
does not come back (`StoreLater`). Sessions are counted against the limits when
they are stored, and a renewal counts nothing anew (`WithinLimits`).
-/

namespace WebrtcMinimize

open Attempts Checks Runs KeyedMap Option List Nat

/-! ## Counting -/

/-- The open sessions keep within the limits. -/
structure WithinLimits (limits : PlaybackLimits) (scopes : List GrantScope) : Prop where
  deployment : scopes.length ≤ limits.deployment
  tenant : ∀ tenantId,
    scopes.countP (fun scope => scope.tenantId = tenantId) ≤ limits.tenant
  program : ∀ tenantId programId,
    scopes.countP (fun scope => scope.tenantId = tenantId ∧ scope.programId = programId)
      ≤ limits.program
  audience : ∀ audienceRef,
    scopes.countP (fun scope => scope.audienceRef = audienceRef) ≤ limits.audience

namespace WithinLimits

variable {limits : PlaybackLimits} {scopes : List GrantScope}

theorem sublist (h : WithinLimits limits scopes) {fewer : List GrantScope}
    (hsub : fewer.Sublist scopes) : WithinLimits limits fewer where
  deployment := le_trans hsub.length_le h.deployment
  tenant tenantId := le_trans hsub.countP_le (h.tenant tenantId)
  program tenantId programId := le_trans hsub.countP_le (h.program tenantId programId)
  audience audienceRef := le_trans hsub.countP_le (h.audience audienceRef)

theorem countP_snoc_le {p : GrantScope → Bool} {scope : GrantScope} {bound : Nat}
    (h : scopes.countP p ≤ bound) (hroom : p scope = true → 1 + scopes.countP p ≤ bound) :
    (scopes ++ [scope]).countP p ≤ bound := by
  rw [countP_append, countP_singleton]
  split
  · rename_i hp
    have := hroom hp
    omega
  · omega

theorem store_allowed (h : WithinLimits limits scopes) {scope : GrantScope}
    (hallows : limits.allows scope scopes = true) : WithinLimits limits (scopes ++ [scope]) := by
  simp only [PlaybackLimits.allows, Bool.and_eq_true, decide_eq_true_eq] at hallows
  obtain ⟨⟨⟨⟨⟨-, hdeployment⟩, -⟩, htenant⟩, hprogram⟩, haudience⟩ := hallows
  refine ⟨?_, fun tenantId => ?_, fun tenantId programId => ?_, fun audienceRef => ?_⟩
  · rw [length_append, length_singleton]
    exact hdeployment
  · refine countP_snoc_le (h.tenant tenantId) fun hp => ?_
    obtain rfl := of_decide_eq_true hp
    exact htenant
  · refine countP_snoc_le (h.program tenantId programId) fun hp => ?_
    obtain ⟨rfl, rfl⟩ := of_decide_eq_true hp
    exact hprogram
  · refine countP_snoc_le (h.audience audienceRef) fun hp => ?_
    obtain rfl := of_decide_eq_true hp
    exact haudience

end WithinLimits

/-! ## Objects -/

def PlaybackCall.session? : PlaybackCall → Option PlaybackSession
  | .create _ _ _ _ => none
  | .renew _ session _ _ => some session
  | .authorize session _ _ _ => some session

def PlaybackCall.time : PlaybackCall → CheckTime
  | .create _ _ time _ => time
  | .renew _ _ time _ => time
  | .authorize _ _ _ time => time

/-- The session is registered, or a waiting call began with it. -/
def PlaybackStore.Holds (s : PlaybackStore) (session : PlaybackSession) : Prop :=
  (∃ id, s.sessions.get id = some session)
    ∨ ∃ id call, s.calls.get id = some call ∧ call.session? = some session

/-- The session is one that the store has made. -/
structure SessionMade (s : PlaybackStore) (session : PlaybackSession) : Prop where
  object : session.object < s.objects
  scope : session.scopeObject < s.objects
  same : ∀ other, s.Holds other → other.object = session.object → other = session

structure StoreKept (limits : PlaybackLimits) (s : PlaybackStore) : Prop where
  filed : ∀ id session, s.sessions.get id = some session → session.sessionId = id
  made : ∀ session, s.Holds session → SessionMade s session
  within : WithinLimits limits s.scopes

/-- Of the sessions there were, those that are there now. -/
structure StoreLater (s t : PlaybackStore) : Prop where
  objects : s.objects ≤ t.objects
  back : ∀ id session, t.sessions.get id = some session → session.scopeObject < s.objects →
    ∃ before, s.sessions.get id = some before ∧ before.scopeObject = session.scopeObject

theorem StoreLater.refl (s : PlaybackStore) : StoreLater s s :=
  ⟨le_refl _, fun _ session hget _ => ⟨session, hget, rfl⟩⟩

variable {s t : PlaybackStore}

theorem StoreLater.trans {u : PlaybackStore} (hst : StoreLater s t) (htu : StoreLater t u) :
    StoreLater s u where
  objects := le_trans hst.objects htu.objects
  back := fun id session hget hold => by
    obtain ⟨between, hbetween, hscope⟩ :=
      htu.back id session hget (lt_of_lt_of_le hold hst.objects)
    rw [← hscope] at hold ⊢
    exact hst.back id between hbetween hold

/-- What is kept since a store. -/
structure StoreSince (limits : PlaybackLimits) (s₀ s : PlaybackStore) : Prop where
  kept : StoreKept limits s
  later : StoreLater s₀ s

section

variable {limits : PlaybackLimits} {s₀ s t : PlaybackStore} {session : PlaybackSession}

theorem SessionMade.fewer (h : SessionMade s session) (hobjects : t.objects = s.objects)
    (hholds : ∀ other, t.Holds other → s.Holds other) : SessionMade t session :=
  ⟨hobjects ▸ h.object, hobjects ▸ h.scope, fun other hother => h.same other (hholds other hother)⟩

theorem StoreSince.fewer (h : StoreSince limits s₀ s) (hobjects : t.objects = s.objects)
    (hsessions : ∀ id other, t.sessions.get id = some other → s.sessions.get id = some other)
    (hscopes : t.scopes.Sublist s.scopes) (hholds : ∀ other, t.Holds other → s.Holds other) :
    StoreSince limits s₀ t where
  kept := {
    filed := fun id other hget => h.kept.filed id other (hsessions id other hget)
    made := fun other hother => (h.kept.made other (hholds other hother)).fewer hobjects hholds
    within := h.kept.within.sublist hscopes }
  later := h.later.trans ⟨le_of_eq hobjects.symm, fun id other hget _ =>
    ⟨other, hsessions id other hget, rfl⟩⟩

variable {other : PlaybackSession}

theorem holds_of_sessions_calls
    (hsessions : ∀ id x, t.sessions.get id = some x → s.sessions.get id = some x)
    (hcalls : ∀ id call, t.calls.get id = some call → s.calls.get id = some call)
    (h : t.Holds other) : s.Holds other := by
  rcases h with ⟨id, hget⟩ | ⟨id, call, hget, hsession⟩
  · exact .inl ⟨id, hsessions id other hget⟩
  · exact .inr ⟨id, call, hcalls id call hget, hsession⟩

theorem get_prune {now : Nat} {id : String} : (s.prune now).sessions.get id = some other
      ↔ s.sessions.get id = some other ∧ now < other.expiresAt := by
  rw [PlaybackStore.prune, get_keep_eq_some_iff, decide_eq_true_eq]

theorem holds_prune {now : Nat} (h : (s.prune now).Holds other) : s.Holds other :=
  holds_of_sessions_calls (fun _ _ hget => (get_prune.mp hget).1) (fun _ _ hget => hget) h

theorem StoreSince.prune (h : StoreSince limits s₀ s) (now : Nat) :
    StoreSince limits s₀ (s.prune now) :=
  h.fewer rfl (fun _ _ hget => (get_prune.mp hget).1)
    ((values_keep_sublist _ _).map _) fun _ => holds_prune

theorem holds_settle {id : Nat} (h : (s.settle id).Holds other) : s.Holds other := by
  have hcalls : ∀ otherId call, (s.settle id).calls.get otherId = some call →
      s.calls.get otherId = some call :=
    fun _ _ hget => (get_keep_eq_some_iff.mp hget).1
  exact holds_of_sessions_calls (t := s.settle id) (fun _ _ hget => hget) hcalls h

theorem StoreSince.settle (h : StoreSince limits s₀ s) (id : Nat) :
    StoreSince limits s₀ (s.settle id) :=
  h.fewer rfl (fun _ _ hget => hget) (.refl _) fun _ => holds_settle

theorem StoreSince.erase (h : StoreSince limits s₀ s) (id : String) :
    StoreSince limits s₀ { s with sessions := s.sessions.erase id } := by
  have hget : ∀ otherId other, (s.sessions.erase id).get otherId = some other →
      s.sessions.get otherId = some other :=
    fun _ _ hget => (get_keep_eq_some_iff.mp hget).1
  exact h.fewer rfl hget ((values_keep_sublist _ _).map _) fun _ =>
    holds_of_sessions_calls hget fun _ _ hget => hget

theorem holds_calls_set {id : Nat} {call : PlaybackCall} {begun : Nat}
    (h : PlaybackStore.Holds { s with calls := s.calls.set id call, begun := begun } other) :
    s.Holds other ∨ call.session? = some other := by
  rcases h with hregistered | ⟨otherId, waiting, hget, hsession⟩
  · exact .inl (.inl hregistered)
  · rcases get_set_some hget with ⟨-, rfl⟩ | ⟨-, hget⟩
    · exact .inr hsession
    · exact .inl (.inr ⟨otherId, waiting, hget, hsession⟩)

theorem StoreSince.wait (h : StoreSince limits s₀ s) {call : PlaybackCall}
    (hmade : ∀ session, call.session? = some session → SessionMade s session) (id begun : Nat) :
    StoreSince limits s₀ { s with calls := s.calls.set id call, begun := begun } where
  kept := {
    filed := h.kept.filed
    made := fun other hother => by
      have hbefore : SessionMade s other := by
        rcases holds_calls_set hother with hheld | hcall
        · exact h.kept.made other hheld
        · exact hmade other hcall
      refine ⟨hbefore.object, hbefore.scope, fun another hanother hobject => ?_⟩
      rcases holds_calls_set hanother with hheld | hcall
      · exact hbefore.same another hheld hobject
      · rcases holds_calls_set hother with hheld' | hcall'
        · exact ((hmade another hcall).same other hheld' hobject.symm).symm
        · exact some.inj (hcall.symm.trans hcall')
    within := h.kept.within }
  later := ⟨h.later.objects, h.later.back⟩

theorem StoreSince.store (h : StoreSince limits s₀ s) {id : String} {new : PlaybackSession}
    (hid : new.sessionId = id) (hobject : new.object = s.objects)
    (hscope : new.scopeObject < s.objects + 1)
    (hwithin : WithinLimits limits ((s.sessions.set id new).values.map PlaybackSession.grantScope))
    (hback : new.scopeObject < s.objects → ∃ before,
      s.sessions.get id = some before ∧ before.scopeObject = new.scopeObject) :
    StoreSince limits s₀ { s with
      sessions := s.sessions.set id new
      objects := s.objects + 1 } := by
  have hset : ∀ otherId other, (s.sessions.set id new).get otherId = some other →
      otherId = id ∧ other = new ∨ s.sessions.get otherId = some other := by
    intro otherId other hget
    rw [get_set] at hget
    split at hget
    · rename_i heq
      exact .inl ⟨heq, (some.inj hget).symm⟩
    · exact .inr hget
  have hholds : ∀ other, PlaybackStore.Holds { s with
      sessions := s.sessions.set id new
      objects := s.objects + 1 } other → other = new ∨ s.Holds other := by
    rintro other (⟨otherId, hget⟩ | hcall)
    · rcases hset otherId other hget with ⟨-, heq⟩ | hget
      · exact .inl heq
      · exact .inr (.inl ⟨otherId, hget⟩)
    · exact .inr (.inr hcall)
  refine ⟨⟨?_, ?_, hwithin⟩, h.later.trans ⟨le_succ _, ?_⟩⟩
  · intro otherId other hget
    rcases hset otherId other hget with ⟨rfl, rfl⟩ | hget
    · exact hid
    · exact h.kept.filed otherId other hget
  · intro other hother
    rcases hholds other hother with rfl | hheld
    · refine ⟨lt_succ_of_le (le_of_eq hobject), hscope, fun another hanother heq => ?_⟩
      rcases hholds another hanother with rfl | hheld
      · rfl
      · have := (h.kept.made another hheld).object
        omega
    · have hbefore := h.kept.made other hheld
      refine ⟨lt_succ_of_lt hbefore.object, lt_succ_of_lt hbefore.scope,
        fun another hanother heq => ?_⟩
      rcases hholds another hanother with rfl | hheld'
      · have := hbefore.object
        omega
      · exact hbefore.same another hheld' heq
  · intro otherId other hget hold
    rcases hset otherId other hget with ⟨rfl, rfl⟩ | hget
    · exact hback hold
    · exact ⟨other, hget, rfl⟩

end

/-! ## The operations -/

namespace BroadcastPlaybackSessionStore

variable {config : PlaybackConfig} {s₀ : PlaybackStore}

theorem ensures_create (input : CreateInput) (readings : Readings) :
    Ensures (StoreSince config.limits s₀) (create config input readings)
      (fun _ => StoreSince config.limits s₀) (StoreSince config.limits s₀) := by
  refine .failWhen_bind (fun _ hs => hs) fun _ => ?_
  refine .check_bind (fun _ hs => hs) fun time _ => ?_
  refine .write_bind (fun s hs => hs.prune input.now) ?_
  refine .check_bind (fun _ hs => hs) fun next _ => ?_
  exact .write fun s hs => hs.wait (fun session hsession => by cases hsession) _ _

theorem ensures_renew (input : RenewInput) (readings : Readings) :
    Ensures (StoreSince config.limits s₀) (renew config input readings)
      (fun _ => StoreSince config.limits s₀) (StoreSince config.limits s₀) := by
  refine .failWhen_bind (fun _ hs => hs) fun _ => ?_
  refine .check_bind (fun _ hs => hs) fun time _ => ?_
  refine .write_bind (fun s hs => hs.prune input.now) ?_
  refine .get_bind fun s hs => ?_
  cases hget : s.sessions.get input.sessionId with
  | none => exact .checked (fun _ hs' => hs' ▸ hs) fun a h => by cases h
  | some session =>
      refine .failWhen_bind (fun _ hs' => hs' ▸ hs) fun _ => ?_
      refine .check_bind (fun _ hs' => hs' ▸ hs) fun next _ => ?_
      refine .write ?_
      rintro _ rfl
      refine hs.wait (fun captured hcaptured => ?_) _ _
      cases hcaptured
      exact hs.kept.made session (.inl ⟨_, hget⟩)

theorem ensures_requestSession (input : RequestInput) :
    Ensures (StoreSince config.limits s₀) (requestSession config input)
      (fun found s => StoreSince config.limits s₀ s ∧ ∃ id, s.sessions.get id = some found.1)
      (StoreSince config.limits s₀) := by
  refine .failWhen_bind (fun _ hs => hs) fun _ => ?_
  refine .write_bind (fun s hs => hs.prune input.now) ?_
  refine .get_bind fun s hs => ?_
  dsimp only
  split
  · exact .checked (fun _ hs' => hs' ▸ hs) fun a h => by cases h
  · rename_i session hfind
    have hmem := mem_of_find?_eq_some hfind
    obtain ⟨p, -, hp⟩ := mem_filterMap.mp hmem
    refine .failWhen_bind (fun _ hs' => hs' ▸ hs) fun _ => ?_
    split
    · exact .checked (fun _ hs' => hs' ▸ hs) fun a h => by cases h
    · refine .ret ?_
      rintro _ rfl
      exact ⟨hs, p.2, (filter_eq_some_iff.mp hp).1⟩

theorem ensures_rateLimitKey (input : RequestInput) :
    Ensures (StoreSince config.limits s₀) (rateLimitKey config input)
      (fun _ => StoreSince config.limits s₀) (StoreSince config.limits s₀) :=
  .bind (ensures_requestSession input) fun _ => .ret fun _ hs => hs.1

theorem ensures_authorize (input : RequestInput) (readings : Readings) :
    Ensures (StoreSince config.limits s₀) (authorize config input readings)
      (fun _ => StoreSince config.limits s₀) (StoreSince config.limits s₀) := by
  refine .bind (ensures_requestSession input) fun found => ?_
  refine .check_bind (fun _ hs => hs.1) fun time _ => ?_
  refine .check_bind (fun _ hs => hs.1) fun next _ => ?_
  refine .write fun s hs => ?_
  obtain ⟨hsince, id, hget⟩ := hs
  refine hsince.wait (fun captured hcaptured => ?_) _ _
  cases hcaptured
  exact hsince.kept.made found.1 (.inl ⟨id, hget⟩)

theorem ensures_close (input : CloseInput) :
    Ensures (StoreSince config.limits s₀) (close config input)
      (fun _ => StoreSince config.limits s₀) (StoreSince config.limits s₀) := by
  refine .write_bind (fun s hs => hs.prune input.now) ?_
  refine .get_bind fun s hs => ?_
  split
  · exact .checked (fun _ hs' => hs' ▸ hs) fun a h => by cases h
  · refine .failWhen_bind (fun _ hs' => hs' ▸ hs) fun _ => ?_
    refine .write_bind (Q := StoreSince config.limits s₀) ?_ (.ret fun _ hs => hs)
    rintro _ rfl
    exact hs.erase _

theorem ensures_inspectProgramCapacity (tenantId programId : String)
    (additionalSessions now : Nat) :
    Ensures (StoreSince config.limits s₀)
      (inspectProgramCapacity config tenantId programId additionalSessions now)
      (fun _ => StoreSince config.limits s₀) (StoreSince config.limits s₀) := by
  refine .failWhen_bind (fun _ hs => hs) fun _ => ?_
  refine .failWhen_bind (fun _ hs => hs) fun _ => ?_
  refine .write_bind (fun s hs => hs.prune now) ?_
  refine .get_bind fun s hs => ?_
  exact .checked (fun _ hs' => hs' ▸ hs) fun _ _ _ hs' => hs' ▸ hs

end BroadcastPlaybackSessionStore

/-- The session a result is for is registered and unexpired at the time the
call completes. Where the call began with a session, it is that session,
which was registered and unexpired right before. -/
def Released (s : PlaybackStore) (call : PlaybackCall) (answer : Answer) (result : PlaybackResult)
    (t : PlaybackStore) : Prop :=
  ∃ now time session, call.time.now answer.reading = .ok (now, time)
    ∧ t.sessions.get result.sessionId = some session ∧ now < session.expiresAt
    ∧ ∀ captured, call.session? = some captured → result.sessionId = captured.sessionId
      ∧ session.scopeObject = captured.scopeObject ∧ now < captured.expiresAt
      ∧ ∃ before, s.sessions.get captured.sessionId = some before
        ∧ before.scopeObject = captured.scopeObject ∧ now < before.expiresAt

namespace BroadcastPlaybackSessionStore

variable {config : PlaybackConfig} {s₀ : PlaybackStore}

theorem ensures_storeSession (s : PlaybackStore) (authorizationHeader resourceRef : String)
    (time : CheckTime) (stage : PlaybackStage) (grant : PlaybackGrant) (answer : Answer) :
    Ensures (StoreSince config.limits s₀)
      (storeSession config authorizationHeader resourceRef time grant answer)
      (fun result t => StoreSince config.limits s₀ t
        ∧ Released s (.create authorizationHeader resourceRef time stage) answer result t)
      (StoreSince config.limits s₀) := by
  refine .check_bind (fun _ hs => hs) fun first hfirst => ?_
  obtain ⟨now, after⟩ := first
  refine .write_bind (fun s hs => hs.prune now) ?_
  refine .failWhen_bind (fun _ hs => hs) fun hgrant => ?_
  simp only [not_or, not_le] at hgrant
  refine .failWhen_bind (fun _ hs => hs) fun _ => ?_
  refine .get_bind fun s hs => ?_
  refine .failWhen_bind (fun _ hs' => hs' ▸ hs) fun hallows => ?_
  rw [Bool.not_eq_false] at hallows
  refine .failWhen_bind (fun _ hs' => hs' ▸ hs) fun hid => ?_
  simp only [not_or, Bool.not_eq_true, isSome_eq_false_iff, isNone_iff_eq_none] at hid
  refine .check_bind (fun _ hs' => hs' ▸ hs) fun second _ => ?_
  refine .failWhen_bind (fun _ hs' => hs' ▸ hs) fun _ => ?_
  refine .write_bind (Q := fun t => StoreSince config.limits s₀ t ∧ ∃ session,
    t.sessions.get answer.sessionId = some session ∧ session.expiresAt = grant.expiresAt) ?_ ?_
  · rintro _ rfl
    refine ⟨hs.store rfl rfl (lt_succ_self _) ?_ fun hlt => absurd hlt (lt_irrefl _), _,
      get_set_self _ _ _, rfl⟩
    rw [values_set_of_none hid.2, map_append]
    exact hs.kept.within.store_allowed hallows
  · refine .ret fun t ht => ?_
    obtain ⟨hsince, session, hget, hexpires⟩ := ht
    refine ⟨hsince, now, after, session, hfirst, hget, hexpires ▸ hgrant.2.2.2, ?_⟩
    intro captured hcaptured
    cases hcaptured

/-- The store once a call that began with the session goes on. -/
structure Resumed (limits : PlaybackLimits) (s₀ s : PlaybackStore) (session : PlaybackSession)
    (t : PlaybackStore) : Prop where
  since : StoreSince limits s₀ t
  made : SessionMade t session
  left : ∀ id other, t.sessions.get id = some other → s.sessions.get id = some other

theorem Resumed.prune {s t : PlaybackStore} {session : PlaybackSession}
    (h : Resumed config.limits s₀ s session t) (now : Nat) :
    Resumed config.limits s₀ s session (t.prune now) where
  since := h.since.prune now
  made := h.made.fewer rfl fun _ => holds_prune
  left := fun id other hget => h.left id other (get_prune.mp hget).1

theorem ensures_renewSession (s : PlaybackStore) (authorizationHeader : String)
    (session : PlaybackSession) (time : CheckTime) (stage : PlaybackStage) (grant : PlaybackGrant)
    (answer : Answer) :
    Ensures (Resumed config.limits s₀ s session)
      (renewSession authorizationHeader session time grant answer)
      (fun result t => StoreSince config.limits s₀ t
        ∧ Released s (.renew authorizationHeader session time stage) answer result t)
      (StoreSince config.limits s₀) := by
  refine .check_bind (fun _ hs => hs.since) fun first hfirst => ?_
  obtain ⟨now, after⟩ := first
  refine .write_bind (Q := fun t => Resumed config.limits s₀ s session t
    ∧ ∀ id other, t.sessions.get id = some other → now < other.expiresAt)
    (fun t ht => ⟨ht.prune now, fun _ _ hget => (get_prune.mp hget).2⟩) ?_
  refine .get_bind fun t ht => ?_
  obtain ⟨hresumed, hfresh⟩ := ht
  refine .failWhen_bind (fun _ ht' => ht' ▸ hresumed.since) fun hvalid => ?_
  simp only [not_or, not_le, ne_eq, not_not] at hvalid
  obtain ⟨-, -, -, hexpires, hsession, hscope, hobject⟩ := hvalid
  obtain ⟨registered, hget, hsame⟩ := map_eq_some_iff.mp hobject
  obtain rfl := hresumed.made.same registered (.inl ⟨_, hget⟩) hsame
  refine .write_bind (Q := fun u => StoreSince config.limits s₀ u ∧ ∃ renewed,
    u.sessions.get registered.sessionId = some renewed ∧ renewed.expiresAt = grant.expiresAt
      ∧ renewed.scopeObject = registered.scopeObject) ?_ ?_
  · rintro _ rfl
    refine ⟨hresumed.since.store rfl rfl (lt_succ_of_lt hresumed.made.scope) ?_
      fun _ => ⟨registered, hget, rfl⟩, _, get_set_self _ _ _, rfl, rfl⟩
    rw [map_values_set hget]
    · exact hresumed.since.kept.within
    · rfl
  · refine .ret fun u hu => ?_
    obtain ⟨hsince, renewed, hrenewed, hexpiry, hkeep⟩ := hu
    refine ⟨hsince, now, after, renewed, hfirst, hrenewed, hexpiry ▸ hexpires, ?_⟩
    intro captured hcaptured
    cases hcaptured
    exact ⟨rfl, hkeep, hsession, registered, hresumed.left _ _ hget, rfl, hsession⟩

theorem ensures_releaseRequest (s : PlaybackStore) (session : PlaybackSession)
    (normalizedQuery file : String) (time : CheckTime) (answer : Answer) :
    Ensures (Resumed config.limits s₀ s session)
      (releaseRequest session normalizedQuery file time answer)
      (fun result t => StoreSince config.limits s₀ t
        ∧ Released s (.authorize session normalizedQuery file time) answer result t)
      (StoreSince config.limits s₀) := by
  refine .check_bind (fun _ hs => hs.since) fun first hfirst => ?_
  obtain ⟨now, after⟩ := first
  refine .write_bind (Q := fun t => Resumed config.limits s₀ s session t
    ∧ ∀ id other, t.sessions.get id = some other → now < other.expiresAt)
    (fun t ht => ⟨ht.prune now, fun _ _ hget => (get_prune.mp hget).2⟩) ?_
  refine .get_bind fun t ht => ?_
  obtain ⟨hresumed, hfresh⟩ := ht
  refine .failWhen_bind (fun _ ht' => ht' ▸ hresumed.since) fun hvalid => ?_
  simp only [not_or, not_le, ne_eq, not_not] at hvalid
  obtain ⟨hexpires, hobject⟩ := hvalid
  obtain ⟨registered, hget, hsame⟩ := map_eq_some_iff.mp hobject
  refine .ret ?_
  rintro _ rfl
  refine ⟨hresumed.since, now, after, registered, hfirst, hget, hfresh _ _ hget, ?_⟩
  intro captured hcaptured
  cases hcaptured
  exact ⟨rfl, hsame, hexpires, registered, hresumed.left _ _ hget, hsame, hfresh _ _ hget⟩

variable {s : PlaybackStore}

section

variable (hs : StoreSince config.limits s₀ s)

include hs

theorem since_settle {id : Nat}
    {call : PlaybackCall} (hget : s.calls.get id = some call) {session : PlaybackSession}
    (hsession : call.session? = some session) :
    Resumed config.limits s₀ s session (s.settle id) where
  since := hs.settle id
  made := (hs.kept.made session (.inr ⟨id, call, hget, hsession⟩)).fewer rfl fun _ => holds_settle
  left := fun _ _ h => h

/-- A call that goes on waits again or returns what is released. -/
theorem ensures_goOn {id : Nat}
    (answer : Answer) {call : PlaybackCall} (hget : s.calls.get id = some call) :
    Ensures (· = s) (goOn config id answer call) (fun result t => StoreSince config.limits s₀ t
        ∧ ∀ r, result = some r → Released s call answer r t)
      (StoreSince config.limits s₀) := by
  have hwaits : ∀ {t : PlaybackStore} {next : PlaybackCall}, StoreSince config.limits s₀ t →
      (∀ session, next.session? = some session → SessionMade t session) →
        StoreSince config.limits s₀ (t.await id next) ∧ ∀ r,
          (none : Option PlaybackResult) = some r → Released s call answer r (t.await id next) :=
    fun ht hmade => ⟨ht.wait hmade _ _, fun _ hr => by cases hr⟩
  cases call with
  | create authorizationHeader resourceRef time stage =>
      cases stage with
      | authorized grant =>
          refine .write_bind (Q := StoreSince config.limits s₀) (fun _ h => h ▸ hs.settle id) ?_
          refine .bind (ensures_storeSession s authorizationHeader resourceRef time
            (.authorized grant) grant answer) fun r => .ret fun t ht => ⟨ht.1, fun _ hr => ?_⟩
          cases hr
          exact ht.2
      | manifest =>
          refine .write_bind (Q := StoreSince config.limits s₀) (fun _ h => h ▸ hs.settle id) ?_
          refine .check_bind (fun _ h => h) fun next _ => ?_
          exact .write_bind (fun t ht => hwaits ht fun _ h => by cases h) (.ret fun _ h => h)
      | segment grant =>
          refine .write_bind (Q := StoreSince config.limits s₀) (fun _ h => h ▸ hs.settle id) ?_
          refine .check_bind (fun _ h => h) fun next _ => ?_
          exact .write_bind (fun t ht => hwaits ht fun _ h => by cases h) (.ret fun _ h => h)
  | renew authorizationHeader session time stage =>
      have hresumed := since_settle hs hget rfl
      cases stage with
      | authorized grant =>
          refine .write_bind (Q := Resumed config.limits s₀ s session) (fun _ h => h ▸ hresumed) ?_
          refine .bind (ensures_renewSession s authorizationHeader session time
            (.authorized grant) grant answer) fun r => .ret fun t ht => ⟨ht.1, fun _ hr => ?_⟩
          cases hr
          exact ht.2
      | manifest =>
          refine .write_bind (Q := Resumed config.limits s₀ s session) (fun _ h => h ▸ hresumed) ?_
          refine .check_bind (fun _ h => h.since) fun next _ => ?_
          refine .write_bind (fun t ht => hwaits ht.since fun _ h => ?_) (.ret fun _ h => h)
          cases h
          exact ht.made
      | segment grant =>
          refine .write_bind (Q := Resumed config.limits s₀ s session) (fun _ h => h ▸ hresumed) ?_
          refine .check_bind (fun _ h => h.since) fun next _ => ?_
          refine .write_bind (fun t ht => hwaits ht.since fun _ h => ?_) (.ret fun _ h => h)
          cases h
          exact ht.made
  | authorize session normalizedQuery file time =>
      have hresumed := since_settle hs hget rfl
      refine .write_bind (Q := Resumed config.limits s₀ s session) (fun _ h => h ▸ hresumed) ?_
      refine .failWhen_bind (fun _ h => h.since) fun _ => ?_
      refine .bind (ensures_releaseRequest s session normalizedQuery file time answer) fun r =>
        .ret fun t ht => ⟨ht.1, fun _ hr => ?_⟩
      cases hr
      exact ht.2

theorem ensures_resume (id : Nat) (answer : Answer) :
    Ensures (· = s) (resume config id answer)
      (fun result t => StoreSince config.limits s₀ t ∧ ∀ r, result = some r →
        ∃ call, s.calls.get id = some call ∧ Released s call answer r t)
      (StoreSince config.limits s₀) := by
  refine .get_bind fun t ht => ?_
  subst ht
  cases hget : t.calls.get id with
  | none =>
      refine .ret ?_
      rintro _ rfl
      exact ⟨hs, fun _ hr => by cases hr⟩
  | some call =>
      exact (ensures_goOn hs answer hget).mono (fun _ h => h)
        (fun _ _ h => ⟨h.1, fun r hr => ⟨call, rfl, h.2 r hr⟩⟩) fun _ h => h

end

end BroadcastPlaybackSessionStore

/-! ## Runs -/

open BroadcastPlaybackSessionStore

theorem since_step {config : PlaybackConfig} {s₀ : PlaybackStore} {event : PlaybackEvent}
    (hstep : PlaybackStep config s event t) (hs : StoreSince config.limits s₀ s) :
    StoreSince config.limits s₀ t := by
  cases hstep
  cases event with
  | create input readings => exact (ensures_create input readings).after_of hs
  | renew input readings => exact (ensures_renew input readings).after_of hs
  | authorize input readings => exact (ensures_authorize input readings).after_of hs
  | rateLimitKey input => exact (ensures_rateLimitKey input).after_of hs
  | close input => exact (ensures_close input).after_of hs
  | inspectProgramCapacity tenantId programId additionalSessions now =>
      exact (ensures_inspectProgramCapacity tenantId programId additionalSessions now).after_of hs
  | resume id answer =>
      exact ((ensures_resume hs id answer).mono (fun _ h => h) (fun _ _ h => h.1)
        fun _ h => h).after_of rfl

theorem since_empty (limits : PlaybackLimits) : StoreSince limits .empty .empty := by
  have hholds : ∀ session, ¬PlaybackStore.empty.Holds session := by
    rintro session (⟨id, hget⟩ | ⟨id, call, hget, -⟩) <;> cases hget
  refine ⟨⟨fun _ _ hget => (by cases hget), fun _ h => absurd h (hholds _), ?_⟩, .refl _⟩
  constructor <;> simp [PlaybackStore.scopes, PlaybackStore.empty, values, empty]

theorem since_run {config : PlaybackConfig} {s₀ : PlaybackStore} {es : List PlaybackEvent}
    (hpath : Path (PlaybackStep config) s es t) (hs : StoreSince config.limits s₀ s) :
    StoreSince config.limits s₀ t :=
  hpath.inv (I := StoreSince config.limits s₀) since_step hs

/-- **Live playback.** In every state that a run of the store reaches, what a
waiting call returns belongs to a session that is registered and unexpired
as it completes, and that was so right before; the open sessions keep within
the limits; and no session that was closed or pruned comes back. -/
theorem playback_results_live {config : PlaybackConfig} {s : PlaybackStore}
    {es : List PlaybackEvent} (hpath : Path (PlaybackStep config) .empty es s) :
    (∀ id answer result t, resume config id answer s = .ok (some result) t →
      ∃ call, s.calls.get id = some call ∧ Released s call answer result t)
    ∧ WithinLimits config.limits s.scopes
    ∧ ∀ fs t, Path (PlaybackStep config) s fs t → StoreLater s t := by
  have hsince := since_run hpath (since_empty config.limits)
  refine ⟨fun id answer result t hresume => ?_, hsince.kept.within, fun fs t hrest => ?_⟩
  · exact ((ensures_resume hsince id answer).of_ok rfl hresume).2 result rfl
  · exact (since_run hrest ⟨hsince.kept, .refl s⟩).later

/-! ## Samples -/

def samplePlaybackConfig : PlaybackConfig where
  origin := "https://webrtc.ananta.de"
  limits := ⟨1, 1, 1, 1⟩

def samplePlaybackGrant : PlaybackGrant where
  grantKind := "playback"
  tenantId := "tn_aaaaaaaaaaaaaaaa"
  audienceRef := "sub_aaaaaaaaaaaaaaaa"
  deviceRef := "dev_aaaaaaaaaaaaaaaa"
  roomId := "room-alpha"
  programId := "prg_aaaaaaaaaaaaaaaa"
  programEpoch := 2
  resourceRef := "res_aaaaaaaaaaaaaaaa"
  policyId := "pol_aaaaaaaaaaaaaaaa"
  policyRevision := 3
  expiresAt := 61000

def samplePlaybackAnswer : Answer where
  grant := some samplePlaybackGrant
  reading := some 0
  next := some 0
  sessionId := "pbs_aaaaaaaaaaaaaaaaaaaaaaaa"

def samplePlaybackCreate : PlaybackEvent :=
  .create ⟨"Bearer playback-grant", "res_aaaaaaaaaaaaaaaa", "https://webrtc.ananta.de", 1000⟩
    ⟨some 0, some 0⟩

/-- A session is created, and a request for its manifest waits. -/
def samplePlayback : List PlaybackEvent :=
  [samplePlaybackCreate, .resume 0 samplePlaybackAnswer, .resume 0 samplePlaybackAnswer,
    .resume 0 samplePlaybackAnswer,
    .authorize {
      cookieHeader :=
        "__Secure-webrtc-broadcast-2Q7idYxzlqwA=pbs_aaaaaaaaaaaaaaaaaaaaaaaa"
      method := "GET"
      resourceRef := "res_aaaaaaaaaaaaaaaa"
      file := "index.m3u8"
      query := ""
      range := ""
      origin := ""
      now := 2000 } ⟨some 0, some 0⟩]

def PlaybackCall.isCreate : PlaybackCall → Bool
  | .create _ _ _ _ => true
  | .renew _ _ _ _ => false
  | .authorize _ _ _ _ => false

/-- The sessions whose creation waits for the authority. -/
def PlaybackStore.pending (s : PlaybackStore) : Nat :=
  s.calls.values.countP PlaybackCall.isCreate

def playbackRun (config : PlaybackConfig) (es : List PlaybackEvent) : PlaybackStore :=
  es.foldl (PlaybackEvent.apply config) .empty

theorem playbackRun_path (config : PlaybackConfig) (es : List PlaybackEvent) :
    Path (PlaybackStep config) .empty es (playbackRun config es) :=
  Path.foldl (PlaybackEvent.apply config) es .empty

/-- A creation that waits takes no place: two of them wait where one session
may be open. -/
theorem pending_creates_exceed : ∃ es s, Path (PlaybackStep samplePlaybackConfig) .empty es s
      ∧ samplePlaybackConfig.limits.deployment < s.scopes.length + s.pending :=
  ⟨_, _, playbackRun_path samplePlaybackConfig [samplePlaybackCreate, samplePlaybackCreate],
    by decide +kernel⟩

theorem playback_results_live_sample :
    ∃ result t, resume samplePlaybackConfig 1 samplePlaybackAnswer
        (playbackRun samplePlaybackConfig samplePlayback) = .ok (some result) t
      ∧ result.sessionId = "pbs_aaaaaaaaaaaaaaaaaaaaaaaa"
      ∧ ∃ call, Released (playbackRun samplePlaybackConfig samplePlayback) call
        samplePlaybackAnswer result t := by
  have hreturned : returned (resume samplePlaybackConfig 1 samplePlaybackAnswer
      (playbackRun samplePlaybackConfig samplePlayback))
        = some (some (.request "pbs_aaaaaaaaaaaaaaaaaaaaaaaa" "tn_aaaaaaaaaaaaaaaa"
          "sub_aaaaaaaaaaaaaaaa" "/res_aaaaaaaaaaaaaaaa/index.m3u8" "Bearer playback-grant"
          "private, no-store, max-age=0")) := by
    decide +kernel
  obtain ⟨t, hresume⟩ := returned_eq_some_iff.mp hreturned
  obtain ⟨call, -, hreleased⟩ := (playback_results_live (playbackRun_path samplePlaybackConfig
    samplePlayback)).1 1 samplePlaybackAnswer _ t hresume
  exact ⟨_, t, hresume, rfl, call, hreleased⟩

end WebrtcMinimize
