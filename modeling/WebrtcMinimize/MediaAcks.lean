import WebrtcMinimize.MediaRoutes

/-!
# Subscriptions and their acknowledgement

A subscription is planned for the agent its subscriber is assigned to, and
what an agent reported about it is forgotten with the plan, with its
revision and with the epoch (`served_run`). So a subscriber that confirms a
replacement confirms what its agent reported for exactly this plan, in this
epoch (`acknowledge_reported`).
-/

namespace WebrtcMinimize

open Checks Runs
open Keys MediaRoom KeyedMap Option
open List hiding any_eq_true

/-! ## Plans and reports -/

/-- What holds of a plan in its room. -/
structure PlanFits (room : MediaRoom) (key : String) (plan : SubscriptionPlan) : Prop where
  key : key = subscriptionKey plan.subscriberPeerId plan.publisherPeerId plan.publicationId
  assigned : room.subscriberAssignments.get plan.subscriberPeerId = some plan.agentId
  distinct : plan.subscriberPeerId ≠ plan.publisherPeerId
  layers : validSubscriptionLayers plan.source plan.enabled plan.preferredLayer plan.maximumLayer
    = true
  revised : 1 ≤ plan.revision

/-- The agent of the plan reports that it serves the plan with the layer. -/
def Reports (roomId : String) (routeEpoch : Nat) (key : String) (plan : SubscriptionPlan)
    (layer : MediaLayer) (s : MediaAgentRegistry) (e : MediaEvent) : Prop :=
  ∃ subscriberPeerId publisherPeerId publicationId now,
    e = .setAgentSubscriptionState roomId plan.agentId routeEpoch subscriberPeerId publisherPeerId
        publicationId plan.revision layer true now
      ∧ key = subscriptionKey subscriberPeerId publisherPeerId publicationId
      ∧ s.subscriptionPlan roomId plan.agentId routeEpoch subscriberPeerId publisherPeerId
        publicationId now = some plan

/-- What holds of what an agent applied, after a run. -/
structure AppliedFits (config : MediaAgentConfig) (es : List MediaEvent) (s : MediaAgentRegistry)
    (roomId : String) (room : MediaRoom) (key : String) (applied : AppliedSubscription)
    (plan : SubscriptionPlan) : Prop where
  planned : room.subscriptions.get key = some plan
  agent : applied.agentId = plan.agentId
  revision : applied.revision = plan.revision
  enabled : plan.enabled = true
  layer : validSelectedLayer plan applied.selectedLayer = true
  reported : Through (NamedStep config)
    (Reports roomId room.routeEpoch key plan applied.selectedLayer) .empty es s

/-- What holds of the subscriptions of a room after a run. -/
structure Served (config : MediaAgentConfig) (es : List MediaEvent) (s : MediaAgentRegistry)
    (roomId : String) (room : MediaRoom) : Prop where
  plans : ∀ key plan, room.subscriptions.get key = some plan → PlanFits room key plan
  applied : ∀ key applied, room.agentSubscriptions.get key = some applied →
    ∃ plan, AppliedFits config es s roomId room key applied plan

section

variable {config : MediaAgentConfig} {es : List MediaEvent} {s t : MediaAgentRegistry}
  {e : MediaEvent} {roomId : String} {room room' : MediaRoom}

theorem PlanFits.congr {key : String} {plan : SubscriptionPlan} (h : PlanFits room key plan)
    (hassigned : ∀ peerId, room'.subscriberAssignments.get peerId
      = room.subscriberAssignments.get peerId) : PlanFits room' key plan :=
  { h with assigned := (hassigned _).trans h.assigned }

/-- A call keeps what it does not take away, in the same epoch. -/
theorem Served.keep (h : Served config es s roomId room) (hstep : NamedStep config s e t)
    (hassigned : ∀ peerId, room'.subscriberAssignments.get peerId
      = room.subscriberAssignments.get peerId)
    (hepoch : room'.routeEpoch = room.routeEpoch)
    (hplans : ∀ key plan, room'.subscriptions.get key = some plan →
      room.subscriptions.get key = some plan)
    (happlied : ∀ key applied, room'.agentSubscriptions.get key = some applied →
      room.agentSubscriptions.get key = some applied
        ∧ room'.subscriptions.get key = room.subscriptions.get key) :
    Served config (es ++ [e]) t roomId room' where
  plans key plan hget := (h.plans key plan (hplans key plan hget)).congr hassigned
  applied key applied hget := by
    obtain ⟨hold, hsame⟩ := happlied key applied hget
    obtain ⟨plan, hfits⟩ := h.applied key applied hold
    refine ⟨plan, { hfits with planned := hsame.trans hfits.planned, reported := ?_ }⟩
    rw [hepoch]
    exact hfits.reported.snoc hstep

/-! ## Calls -/

/-- What is still applied after subscriptions were dropped has its plan. -/
theorem Served.drop (h : Served config es s roomId room) (hstep : NamedStep config s e t)
    (p : SubscriptionPlan → Bool)
    (hassigned : room'.subscriberAssignments = room.subscriberAssignments)
    (hepoch : room'.routeEpoch = room.routeEpoch)
    (hplans : room'.subscriptions = (room.dropSubscriptions p).subscriptions)
    (happlied : room'.agentSubscriptions = (room.dropSubscriptions p).agentSubscriptions) :
    Served config (es ++ [e]) t roomId room' := by
  refine h.keep hstep (fun _ => by rw [hassigned]) hepoch (fun key plan hget => ?_)
    fun key applied hget => ?_
  · rw [hplans] at hget
    exact (get_keep_eq_some_iff.mp hget).1
  · rw [happlied] at hget
    obtain ⟨hold, hkept⟩ := get_keep_eq_some_iff.mp hget
    refine ⟨hold, ?_⟩
    obtain ⟨plan, hfits⟩ := h.applied key applied hold
    rw [hfits.planned] at hkept
    rw [hplans, hfits.planned]
    exact get_keep_eq_some_iff.mpr ⟨hfits.planned, hkept⟩

theorem Served.plan (h : Served config es s roomId room) (hstep : NamedStep config s e t)
    {peer : RoomPeer} {input : SubscriptionIntent} {source : MediaSource}
    (hother : input.publisherPeerId ≠ peer.id)
    (hagent : room.subscriberAssignments.get peer.id = some input.agentId)
    (hlayers : validSubscriptionLayers source input.enabled input.preferredLayer input.maximumLayer
      = true) :
    Served config (es ++ [e]) t roomId (room.planned peer input source) where
  plans key plan hget := by
    have hset : (room.subscriptions.set
        (subscriptionKey peer.id input.publisherPeerId input.publicationId)
        (room.planOf peer input source)).get key = some plan := hget
    rw [get_set] at hset
    split at hset
    · obtain rfl := some.inj hset
      exact ⟨‹_›, hagent, hother.symm, hlayers, Nat.le_add_left 1 _⟩
    · exact (h.plans key plan hset).congr fun _ => rfl
  applied key applied hget := by
    have herase : (room.agentSubscriptions.erase
        (subscriptionKey peer.id input.publisherPeerId input.publicationId)).get key
          = some applied := hget
    rw [get_erase] at herase
    split at herase
    · cases herase
    · rename_i hne
      obtain ⟨plan, hfits⟩ := h.applied key applied herase
      exact ⟨plan, { hfits with
        planned := (get_set_of_ne _ _ hne).trans hfits.planned
        reported := hfits.reported.snoc hstep }⟩

theorem validSubscriptionLayers_disable {source : MediaSource} {enabled : Bool}
    {preferredLayer maximumLayer : MediaLayer}
    (h : validSubscriptionLayers source enabled preferredLayer maximumLayer = true) :
    validSubscriptionLayers source false preferredLayer maximumLayer = true := by
  cases source with
  | camera =>
      simp only [validSubscriptionLayers] at h ⊢
      split
      · rename_i hsingle
        rwa [if_pos hsingle] at h
      · rename_i hranked
        rw [if_neg hranked] at h
        simp only [Bool.and_eq_true] at h
        simp [h.1]
  | _ => exact h

/-- Withdrawing a plan forgets what was applied for it and touches no other. -/
theorem withdraw_get (allowed : SubscriptionPlan → Bool) (key : String)
    (applied : AppliedSubscription) : ∀ (entries : List (String × SubscriptionPlan))
      (room : MediaRoom),
      (entries.foldl (withdraw allowed) room).agentSubscriptions.get key = some applied →
        room.agentSubscriptions.get key = some applied
          ∧ (entries.foldl (withdraw allowed) room).subscriptions.get key
            = room.subscriptions.get key
  | [], room, h => ⟨h, rfl⟩
  | entry :: entries, room, h => by
      rw [foldl_cons] at h ⊢
      obtain ⟨happlied, hplan⟩ := withdraw_get allowed key applied entries _ h
      rw [hplan]
      rw [withdraw] at happlied ⊢
      split at happlied
      · rename_i hkept
        rw [if_pos hkept]
        exact ⟨happlied, rfl⟩
      · rename_i hwithdrawn
        rw [if_neg hwithdrawn]
        rw [get_erase] at happlied
        split at happlied
        · cases happlied
        · rename_i hne
          exact ⟨happlied, get_set_of_ne _ _ hne⟩

theorem withdraw_plans (allowed : SubscriptionPlan → Bool) :
    ∀ (entries : List (String × SubscriptionPlan)) (room : MediaRoom),
      (∀ entry ∈ entries, PlanFits room entry.1 entry.2) →
        (∀ key plan, room.subscriptions.get key = some plan → PlanFits room key plan) →
          ∀ key plan, (entries.foldl (withdraw allowed) room).subscriptions.get key
            = some plan → PlanFits room key plan
  | [], room, _, h, key, plan, hget => h key plan hget
  | entry :: entries, room, hentries, h, key, plan, hget => by
      obtain ⟨hentry, hrest⟩ := forall_mem_cons.mp hentries
      have hassigned : (room.withdraw allowed entry).subscriberAssignments
          = room.subscriberAssignments := by
        rw [withdraw]
        split <;> rfl
      have hback : PlanFits (room.withdraw allowed entry) key plan := by
        refine withdraw_plans allowed entries _ (fun other hother =>
          (hrest other hother).congr fun _ => by rw [hassigned]) (fun key plan hget => ?_) key plan hget
        suffices hfits : PlanFits room key plan from hfits.congr fun _ => by rw [hassigned]
        rw [withdraw] at hget
        split at hget
        · exact h key plan hget
        · rcases get_set_some hget with ⟨heq, rfl⟩ | ⟨-, hget⟩
          · exact ⟨heq.trans hentry.key, hentry.assigned, hentry.distinct,
              validSubscriptionLayers_disable hentry.layers, Nat.le_add_left 1 _⟩
          · exact h key plan hget
      exact hback.congr fun _ => by rw [hassigned]

section

variable (h : Served config es s roomId room)

include h

theorem Served.withdraw (hstep : NamedStep config s e t)
    (allowed : SubscriptionPlan → Bool) :
    Served config (es ++ [e]) t roomId
      (room.subscriptions.entries.foldl (withdraw allowed) room) := by
  have hplans := withdraw_plans allowed room.subscriptions.entries room
    (fun entry hentry => h.plans _ _ (get_eq_some_iff.mpr hentry)) h.plans
  have hkeeps := withdraw_keeps allowed room.subscriptions.entries room
  have happlied := withdraw_get allowed
  generalize hroom' : room.subscriptions.entries.foldl (MediaRoom.withdraw allowed) room = room'
    at *
  refine ⟨fun key plan hget => (hplans key plan hget).congr fun _ => by rw [hkeeps],
    fun key applied hget => ?_⟩
  obtain ⟨hold, hsame⟩ := happlied key applied room.subscriptions.entries room (hroom' ▸ hget)
  obtain ⟨plan, hfits⟩ := h.applied key applied hold
  refine ⟨plan, { hfits with planned := (hroom' ▸ hsame).trans hfits.planned, reported := ?_ }⟩
  rw [hkeeps]
  exact hfits.reported.snoc hstep

theorem Served.store (hstep : NamedStep config s e t)
    (hassigned : room'.subscriberAssignments = room.subscriberAssignments)
    (hepoch : room'.routeEpoch = room.routeEpoch)
    (hplans : room'.subscriptions = room.subscriptions) {key : String}
    {applied : AppliedSubscription}
    (happlied : room'.agentSubscriptions = room.agentSubscriptions.set key applied)
    (hfits : ∃ plan, AppliedFits config (es ++ [e]) t roomId room' key applied plan) :
    Served config (es ++ [e]) t roomId room' where
  plans otherKey plan hget :=
    (h.plans otherKey plan (hplans ▸ hget)).congr fun _ => by rw [hassigned]
  applied otherKey other hget := by
    rw [happlied, get_set] at hget
    split at hget
    · rename_i heq
      exact heq ▸ some.inj hget ▸ hfits
    · obtain ⟨plan, hold⟩ := h.applied otherKey other hget
      refine ⟨plan, { hold with planned := hplans ▸ hold.planned, reported := ?_ }⟩
      rw [hepoch]
      exact hold.reported.snoc hstep

theorem Served.report
    (hpath : Path (NamedStep config) .empty es s) (hroom : s.rooms.get roomId = some room)
    {subscriberPeerId publisherPeerId publicationId : String} {routeEpoch now : Nat}
    {selectedLayer : MediaLayer} {ready : Bool} {plan : SubscriptionPlan}
    (hstep : NamedStep config s (.setAgentSubscriptionState roomId plan.agentId routeEpoch
      subscriberPeerId publisherPeerId publicationId plan.revision selectedLayer ready now) t)
    (hcurrent : room.current routeEpoch now = true)
    (hplan : room.subscriptions.get (subscriptionKey subscriberPeerId publisherPeerId publicationId)
      = some plan)
    (hready : ready = true → plan.enabled = true ∧ validSelectedLayer plan selectedLayer = true) :
    Served config (es ++ [.setAgentSubscriptionState roomId plan.agentId routeEpoch
        subscriberPeerId publisherPeerId publicationId plan.revision selectedLayer ready now]) t
      roomId (room.reported ⟨plan.agentId, routeEpoch, subscriberPeerId, publisherPeerId,
        publicationId, selectedLayer, plan.revision, ready⟩) := by
  have hepoch : room.routeEpoch = routeEpoch := by
    simp only [current, decide_eq_true_eq] at hcurrent
    exact hcurrent.1
  subst hepoch
  cases ready with
  | false =>
      refine h.keep hstep (fun _ => rfl) rfl (fun _ _ hget => hget) fun key applied hget => ?_
      have herase : (room.agentSubscriptions.erase _).get key = some applied := hget
      exact ⟨(get_keep_eq_some_iff.mp herase).1, rfl⟩
  | true =>
      obtain ⟨henabled, hlayer⟩ := hready rfl
      refine h.store hstep rfl rfl rfl rfl ⟨plan, hplan, rfl, rfl, henabled, hlayer, .last hpath hstep
        ⟨subscriberPeerId, publisherPeerId, publicationId, now, rfl, rfl, ?_⟩⟩
      rw [MediaAgentRegistry.subscriptionPlan, hroom]
      simp [reported, hcurrent, hplan]

end

/-- A reconciliation forgets the subscriptions, or keeps them in the epoch. -/
theorem reconcileRoom_subscriptions (config : MediaAgentConfig) (registry : MediaAgentRegistry)
    (roomId : String) (room : MediaRoom) (members : List String) (membershipEpoch : Nat) (requestId : String) (now : Nat) :
    let room' := registry.reconcileRoom config roomId room members membershipEpoch requestId now
    room'.subscriptions = .empty ∧ room'.agentSubscriptions = .empty
      ∨ room'.routeEpoch = room.routeEpoch ∧ room'.subscriptions = room.subscriptions
        ∧ room'.agentSubscriptions = room.agentSubscriptions := by
  simp only [MediaAgentRegistry.reconcileRoom, install]
  split
  · exact .inl ⟨rfl, rfl⟩
  · exact .inr ⟨rfl, rfl, rfl⟩

theorem served_of_empty (hplans : room.subscriptions = .empty)
    (happlied : room.agentSubscriptions = .empty) : Served config es s roomId room :=
  ⟨fun _ _ hget => (by rw [hplans] at hget; cases hget),
    fun _ _ hget => (by rw [happlied] at hget; cases hget)⟩

theorem Served.reconcile (h : Served config es s roomId room)
    (hpath : Path (NamedStep config) .empty es s) (hroom : s.rooms.get roomId = some room)
    {members : List String} {membershipEpoch now : Nat} {requestId : String}
    (hstep : NamedStep config s (.reconcile roomId members membershipEpoch requestId now) t)
    (hroom' : t.rooms.get roomId = some room')
    (heq : room' = (s.known roomId members membershipEpoch).reconcileRoom config roomId room members
      membershipEpoch requestId now) :
    Served config (es ++ [.reconcile roomId members membershipEpoch requestId now]) t roomId
      room' := by
  have hfresher := fresher_step hpath hstep hroom hroom'
  obtain ⟨_, -, -, hrouted⟩ := routed_run hpath roomId room hroom
  obtain ⟨_, -, -, hrouted'⟩ := routed_run (hpath.append (.single hstep)) roomId room' hroom'
  have hkept := reconcileRoom_subscriptions config (s.known roomId members membershipEpoch)
    roomId room members membershipEpoch requestId now
  rw [← heq] at hkept
  rcases hkept with ⟨hplans, happlied⟩ | ⟨hepoch, hplans, happlied⟩
  · exact served_of_empty hplans happlied
  · refine h.keep hstep (fun peerId => ?_) hepoch (fun _ _ hget => hplans ▸ hget)
      fun _ _ hget => ⟨happlied ▸ hget, by rw [hplans]⟩
    rcases hfresher with hlt | ⟨-, -, -, -, -, hassigned⟩
    · exact absurd hlt (by omega)
    · rw [hrouted.subscribers, hrouted'.subscribers, hassigned]

/-- **Subscriptions.** After every run the subscriptions of every room are in order. -/
theorem served_run (hpath : Path (NamedStep config) .empty es s) :
    ∀ roomId room, s.rooms.get roomId = some room → Served config es s roomId room := by
  refine hpath.history (J := fun es s => ∀ roomId room, s.rooms.get roomId = some room →
    Served config es s roomId room) (fun roomId room hget => by cases hget) ?_
  intro es s e t hes hj hstep roomId room' hget
  have hkeep : ∀ {room : MediaRoom}, s.rooms.get roomId = some room →
      room'.subscriberAssignments = room.subscriberAssignments →
        room'.routeEpoch = room.routeEpoch → room'.subscriptions = room.subscriptions →
          room'.agentSubscriptions = room.agentSubscriptions →
            Served config (es ++ [e]) t roomId room' := by
    intro room hroom hassigned hepoch hplans happlied
    exact (hj roomId room hroom).keep hstep (fun _ => by rw [hassigned]) hepoch
      (fun _ _ h => hplans ▸ h) fun _ _ h => ⟨happlied ▸ h, by rw [hplans]⟩
  cases room_moved hstep.1 hget with
  | same hroom => exact hkeep hroom rfl rfl rfl rfl
  | @reconcile members membershipEpoch now requestId =>
      cases hroom : s.rooms.get roomId with
      | none =>
          have hkept := reconcileRoom_subscriptions config
            (s.known roomId members membershipEpoch) roomId (.new membershipEpoch) members
            membershipEpoch requestId now
          rcases hkept with ⟨hplans, happlied⟩ | ⟨-, hplans, happlied⟩
          · exact served_of_empty hplans happlied
          · exact served_of_empty hplans happlied
      | some room =>
          rw [hroom] at hget
          exact (hj roomId room hroom).reconcile hes hroom hstep hget rfl
  | @respond _ _ accepted _ _ _ hroom => cases accepted <;> exact hkeep hroom rfl rfl rfl rfl
  | leave hroom => exact (hj roomId _ hroom).drop hstep _ rfl rfl rfl rfl
  | removeSource hroom => exact (hj roomId _ hroom).drop hstep _ rfl rfl rfl rfl
  | layers hroom => exact hkeep hroom rfl rfl rfl rfl
  | intent hroom _ hother _ hagent hlayers =>
      exact (hj roomId _ hroom).plan hstep hother hagent hlayers
  | withdraw hroom => exact (hj roomId _ hroom).withdraw hstep _
  | report hroom hcurrent hplan hagent hready =>
      subst hagent
      exact (hj roomId _ hroom).report hes hroom hstep hcurrent hplan hready
  | readiness hroom => exact hkeep hroom rfl rfl rfl rfl

/-! ## Acknowledgements -/

/-- A selected layer that has a rank is at most the preferred and the maximum one. -/
theorem le_of_validSelectedLayer {plan : SubscriptionPlan} {layer : MediaLayer}
    (h : validSelectedLayer plan layer = true) (hranked : layer.rank.isSome = true) :
    layer.le plan.preferredLayer = true ∧ layer.le plan.maximumLayer = true := by
  have hunranked : layer ≠ .audio ∧ layer ≠ .single := by
    refine ⟨?_, ?_⟩ <;> (rintro rfl; cases hranked)
  rw [validSelectedLayer] at h
  split at h
  · exact absurd (of_decide_eq_true h) hunranked.1
  · exact absurd (of_decide_eq_true h) hunranked.1
  · exact absurd (of_decide_eq_true h) hunranked.2
  · simpa [hunranked.2] using h

/-- A ready acknowledgement is for a plan that its agent reported as served,
in the current epoch and revision. -/
theorem acknowledge_reported (hpath : Path (NamedStep config) .empty es s) {peer : RoomPeer}
    {input : SubscriptionAck} {now : Nat} {applied : AppliedSubscription}
    (hack : s.acknowledgeSubscription peer input now = .ok applied) (hready : input.ready = true) :
    ∃ room plan, s.rooms.get peer.roomId = some room ∧ room.subscriptions.get
        (subscriptionKey peer.id input.publisherPeerId input.publicationId) = some plan
      ∧ input.routeEpoch = room.routeEpoch ∧ input.agentId = plan.agentId
      ∧ input.revision = plan.revision ∧ plan.enabled = true
      ∧ validSelectedLayer plan applied.selectedLayer = true
      ∧ Through (NamedStep config) (Reports peer.roomId room.routeEpoch
        (subscriptionKey peer.id input.publisherPeerId input.publicationId) plan
        applied.selectedLayer) .empty es s := by
  unfold MediaAgentRegistry.acknowledgeSubscription at hack
  split at hack
  · cases hack
  · rename_i room hroom
    simp only [bind_ok_iff, failIf_ok_iff, not_or, not_and] at hack
    obtain ⟨-, ⟨-, hepoch⟩, -, hreported, hack⟩ := hack
    have happlied := hreported hready
    rw [Bool.not_eq_false, any_eq_true] at happlied
    obtain ⟨other, hget, hmatch⟩ := happlied
    simp only [Bool.and_eq_true, decide_eq_true_eq] at hmatch
    obtain ⟨⟨-, hagent⟩, hrevision⟩ := hmatch
    obtain ⟨plan, hfits⟩ := (served_run hpath peer.roomId room hroom).applied _ other hget
    rw [hfits.planned] at hack
    simp only [bind_ok_iff, pure_ok_iff, hget, getD_some] at hack
    obtain ⟨-, -, rfl⟩ := hack
    exact ⟨room, plan, hroom, hfits.planned, not_not.mp hepoch, hagent.symm.trans hfits.agent,
      hrevision.symm.trans hfits.revision, hfits.enabled, hfits.layer, hfits.reported⟩

/-- **Route epochs.** After every run, and for every run that follows without
removing the room, the room's epoch does not fall and rises when its route
changes; every subscription is planned for its subscriber's agent and crosses
two peers; and a ready acknowledgement succeeds only for what the agent
reported for the plan in the epoch, with a layer the plan admits. -/
theorem route_epochs_fresh (hpath : Path (NamedStep config) .empty es s) :
    (∀ roomId room, s.rooms.get roomId = some room → ∀ fs t, Path (NamedStep config) s fs t →
      .removeRoom roomId ∉ fs → ∃ room', t.rooms.get roomId = some room'
        ∧ room.routeEpoch ≤ room'.routeEpoch
        ∧ (¬SameRoute room room' → room.routeEpoch < room'.routeEpoch))
    ∧ (∀ roomId room, s.rooms.get roomId = some room → ∀ plan ∈ room.subscriptions.values,
      room.subscriberAssignments.get plan.subscriberPeerId = some plan.agentId
        ∧ plan.subscriberPeerId ≠ plan.publisherPeerId)
    ∧ ∀ peer input now applied, s.acknowledgeSubscription peer input now = .ok applied →
      input.ready = true → ∃ room plan, s.rooms.get peer.roomId = some room ∧ room.subscriptions.get
          (subscriptionKey peer.id input.publisherPeerId input.publicationId) = some plan
        ∧ input.routeEpoch = room.routeEpoch ∧ input.agentId = plan.agentId
        ∧ input.revision = plan.revision ∧ plan.enabled = true
        ∧ validSelectedLayer plan applied.selectedLayer = true
        ∧ (applied.selectedLayer.rank.isSome = true →
          applied.selectedLayer.le plan.preferredLayer = true
            ∧ applied.selectedLayer.le plan.maximumLayer = true)
        ∧ Through (NamedStep config) (Reports peer.roomId room.routeEpoch
          (subscriptionKey peer.id input.publisherPeerId input.publicationId) plan
          applied.selectedLayer) .empty es s := by
  refine ⟨fun roomId room hroom fs t hrun hkept => ?_, fun roomId room hroom plan hplan => ?_,
    fun peer input now applied hack hready => ?_⟩
  · obtain ⟨room', hroom', hfresher⟩ := fresher_run hpath hrun hkept hroom
    refine ⟨room', hroom', ?_, fun hother => ?_⟩
    · rcases hfresher with hlt | ⟨heq, -⟩
      · exact hlt.le
      · exact heq.le
    · exact hfresher.resolve_right fun hsame => hother hsame.2
  · obtain ⟨key, hget⟩ := mem_values_iff.mp hplan
    have hfits := (served_run hpath roomId room hroom).plans key plan hget
    exact ⟨hfits.assigned, hfits.distinct⟩
  · obtain ⟨room, plan, hroom, hplan, hepoch, hagent, hrevision, henabled, hlayer, hreported⟩ :=
      acknowledge_reported hpath hack hready
    exact ⟨room, plan, hroom, hplan, hepoch, hagent, hrevision, henabled, hlayer,
      le_of_validSelectedLayer hlayer, hreported⟩

end

/-! ## Sample runs -/

theorem path_namedRun (config : MediaAgentConfig) : ∀ (events : List MediaEvent)
    (s : MediaAgentRegistry), (∀ e ∈ events, e.Named) →
      Path (NamedStep config) s events (mediaRun config events s)
  | [], s, _ => .nil s
  | event :: events, s, h => by
      obtain ⟨hevent, hrest⟩ := forall_mem_cons.mp h
      exact .cons ⟨rfl, hevent⟩ (path_namedRun config events (event.apply config s) hrest)

/-- The owner subscribes to the guest's camera, and the primary reports it as served. -/
def sampleServing : List MediaEvent :=
  sampleElection true ++ [
    .setSubscriptionIntent sampleOwner ⟨"room-123456", "guest-edge", 1, "fedcba9876543210",
      "camera-1", true, .medium, .high⟩ (some .camera) 11000,
    .setAgentSubscriptionState "room-123456" "guest-edge" 1 "0123456789abcdef" "fedcba9876543210"
      "camera-1" 1 .low true 12000]

def sampleAck : SubscriptionAck :=
  ⟨"room-123456", "guest-edge", 1, "fedcba9876543210", "camera-1", 1, true⟩

/-- The route epoch a state has for the sample room. -/
def sampleEpoch (s : MediaAgentRegistry) : Option Nat :=
  (s.rooms.get "room-123456").map routeEpoch

theorem named_sampleServing : ∀ e ∈ sampleServing, e.Named := by
  simp only [sampleServing, sampleElection, cons_append, nil_append,
    forall_mem_cons, MediaEvent.Named, true_and]
  exact ⟨by decide, by decide, by decide, fun _ h => absurd h not_mem_nil⟩

theorem route_epochs_fresh_sample :
    ∃ applied plan, (mediaRun sampleMediaConfig sampleServing .empty).acknowledgeSubscription
        sampleOwner sampleAck 13000 = .ok applied
      ∧ applied.selectedLayer = .low ∧ plan.preferredLayer = .medium
      ∧ Through (NamedStep sampleMediaConfig) (Reports "room-123456" 1
        (subscriptionKey "0123456789abcdef" "fedcba9876543210" "camera-1") plan
        applied.selectedLayer) .empty sampleServing
        (mediaRun sampleMediaConfig sampleServing .empty) := by
  have hpath := path_namedRun sampleMediaConfig sampleServing .empty named_sampleServing
  have hack : (mediaRun sampleMediaConfig sampleServing .empty).acknowledgeSubscription
      sampleOwner sampleAck 13000
        = .ok ⟨"guest-edge", 1, "0123456789abcdef", "fedcba9876543210", "camera-1", .low, 1, true⟩ := by
    rfl
  obtain ⟨room, plan, hroom, hplan, hepoch, -, -, -, -, -, hreported⟩ :=
    (route_epochs_fresh hpath).2.2 _ _ _ _ hack rfl
  have hpreferred : ((mediaRun sampleMediaConfig sampleServing .empty).rooms.get
      "room-123456").bind (fun room => (room.subscriptions.get (subscriptionKey "0123456789abcdef"
        "fedcba9876543210" "camera-1")).map SubscriptionPlan.preferredLayer) = some .medium := by
    decide
  have hlayer : some plan.preferredLayer = some MediaLayer.medium := by
    have hget : (mediaRun sampleMediaConfig sampleServing .empty).rooms.get "room-123456"
        = some room := hroom
    have hstored : room.subscriptions.get (subscriptionKey "0123456789abcdef" "fedcba9876543210"
        "camera-1") = some plan := hplan
    rw [hget, bind_some, hstored, map_some] at hpreferred
    exact hpreferred
  refine ⟨_, plan, hack, rfl, some.inj hlayer, ?_⟩
  have hroomEpoch : room.routeEpoch = 1 := hepoch.symm
  rw [hroomEpoch] at hreported
  exact hreported

/-- The sample room changes its members, and with them its epoch. -/
def sampleRejoin : List MediaEvent :=
  sampleServing ++ [.reconcile "room-123456" sampleMembers 2 "r2" 13000]

/-- Everyone leaves the room and it is removed; those who come back find its
epochs counted from the start. -/
def sampleReturn : List MediaEvent :=
  [.removeRoom "room-123456", .reconcile "room-123456" sampleMembers 3 "r3" 14000]

theorem removed_room_restarts :
    ∃ es s fs t room room', Path (NamedStep sampleMediaConfig) .empty es s
      ∧ Path (NamedStep sampleMediaConfig) s fs t
      ∧ s.rooms.get "room-123456" = some room ∧ t.rooms.get "room-123456" = some room'
      ∧ room'.routeEpoch < room.routeEpoch := by
  have hmembers : ∀ member ∈ sampleMembers, peerIdOK member = true := by decide
  have hrejoin : ∀ e ∈ sampleRejoin, e.Named := by
    rw [sampleRejoin, forall_mem_append, forall_mem_singleton]
    exact ⟨named_sampleServing, hmembers⟩
  have hreturn : ∀ e ∈ sampleReturn, e.Named := by
    rw [sampleReturn, forall_mem_cons, forall_mem_singleton]
    exact ⟨trivial, hmembers⟩
  have hbefore : sampleEpoch (mediaRun sampleMediaConfig sampleRejoin .empty) = some 2 := by
    decide
  have hafter : sampleEpoch (mediaRun sampleMediaConfig sampleReturn
      (mediaRun sampleMediaConfig sampleRejoin .empty)) = some 1 := by decide
  obtain ⟨room, hroom, hepoch⟩ := map_eq_some_iff.mp hbefore
  obtain ⟨room', hroom', hepoch'⟩ := map_eq_some_iff.mp hafter
  exact ⟨_, _, _, _, room, room', path_namedRun _ _ _ hrejoin, path_namedRun _ _ _ hreturn, hroom,
    hroom', by omega⟩

end WebrtcMinimize
