import WebrtcMinimize.MediaSubscriptions

/-!
# What a call can do to a room

One inversion for the whole registry. `RoomMove` lists how a call may leave
a room: as it was, reconciled, or changed by one of the operations on its
takeover request, its subscriptions or its readiness. `room_moved` says
that every room of the state after a call has made one of these moves, so
an invariant of rooms is proved by cases on them and never unfolds the
registry.
-/

namespace WebrtcMinimize

open Checks
open Keys MediaAgentRegistry Option

/-- The room after its pending takeover request was answered. -/
def MediaRoom.answered (room : MediaRoom) (config : MediaAgentConfig) (agentId : String)
    (accepted : Bool) (now : Nat) : MediaRoom :=
  if accepted then
    { room with pending := none, approved := room.approved.set agentId (now + config.leaseMs) }
  else
    { room with pending := none, declined := room.declined.set agentId (now + config.takeoverTtlMs) }

/-- The plan an intent leads to. -/
def MediaRoom.planOf (room : MediaRoom) (peer : RoomPeer) (input : SubscriptionIntent)
    (source : MediaSource) : SubscriptionPlan where
  subscriberPeerId := peer.id
  publisherPeerId := input.publisherPeerId
  publicationId := input.publicationId
  source := source
  enabled := input.enabled
  preferredLayer := input.preferredLayer
  maximumLayer := input.maximumLayer
  revision := room.subscriptionRevision + 1
  agentId := input.agentId

/-- The room after an intent was accepted. -/
def MediaRoom.planned (room : MediaRoom) (peer : RoomPeer) (input : SubscriptionIntent)
    (source : MediaSource) : MediaRoom :=
  { room with
    subscriptionRevision := room.subscriptionRevision + 1
    subscriptions := room.subscriptions.set
      (subscriptionKey peer.id input.publisherPeerId input.publicationId)
      (room.planOf peer input source)
    agentSubscriptions := room.agentSubscriptions.erase
      (subscriptionKey peer.id input.publisherPeerId input.publicationId) }

/-- The room after an agent reported about a subscription. -/
def MediaRoom.reported (room : MediaRoom) (applied : AppliedSubscription) : MediaRoom :=
  let key := subscriptionKey applied.subscriberPeerId applied.publisherPeerId applied.publicationId
  { room with
    agentSubscriptions := if applied.ready then room.agentSubscriptions.set key applied
      else room.agentSubscriptions.erase key }

/-- The registry that a reconciliation reads. -/
def MediaAgentRegistry.known (registry : MediaAgentRegistry) (roomId : String)
    (members : List String) (membershipEpoch : Nat) : MediaAgentRegistry :=
  (registry.setRoom roomId ((registry.rooms.get roomId).getD (.new membershipEpoch))).keepConsents
    roomId members

/-- What a call may do to the room it leaves behind under an identifier. -/
inductive RoomMove (config : MediaAgentConfig) (s : MediaAgentRegistry) (roomId : String) :
    MediaEvent → MediaRoom → Prop
  | same {e : MediaEvent} {room : MediaRoom} : s.rooms.get roomId = some room →
      RoomMove config s roomId e room
  | reconcile {members : List String} {membershipEpoch now : Nat} {requestId : String} :
      RoomMove config s roomId (.reconcile roomId members membershipEpoch requestId now)
        ((s.known roomId members membershipEpoch).reconcileRoom config roomId
          ((s.rooms.get roomId).getD (.new membershipEpoch)) members membershipEpoch requestId now)
  | respond {peer : RoomPeer} {requestId : String} {accepted : Bool} {now : Nat} {room : MediaRoom}
      {pending : TakeoverPending} : s.rooms.get roomId = some room → peer.roomId = roomId →
      room.pending = some pending → pending.requestId = requestId → pending.peerId = peer.id →
      now ≤ pending.expiresAt →
      RoomMove config s roomId (.respondToTakeover peer requestId accepted now)
        (room.answered config pending.agentId accepted now)
  | leave {peer : RoomPeer} {room : MediaRoom} : s.rooms.get roomId = some room →
      RoomMove config s roomId (.leavePeer peer) (room.leavePeer peer.id)
  | removeSource {publisherPeerId : String} {source : MediaSource} {room : MediaRoom} :
      s.rooms.get roomId = some room →
      RoomMove config s roomId (.removePublisherSource roomId publisherPeerId source)
        (room.removePublisherSource publisherPeerId source)
  | layers {e : MediaEvent} {room : MediaRoom} {layers : KeyedMap String PublicationLayers} :
      s.rooms.get roomId = some room →
      RoomMove config s roomId e { room with publicationLayers := layers }
  | intent {peer : RoomPeer} {input : SubscriptionIntent} {source : MediaSource} {now : Nat}
      {room : MediaRoom} : s.rooms.get roomId = some room → peer.roomId = roomId →
      input.publisherPeerId ≠ peer.id → room.current input.routeEpoch now = true →
      room.subscriberAssignments.get peer.id = some input.agentId →
      validSubscriptionLayers source input.enabled input.preferredLayer input.maximumLayer = true →
      RoomMove config s roomId (.setSubscriptionIntent peer input (some source) now)
        (room.planned peer input source)
  | withdraw {allowed : SubscriptionPlan → Bool} {room : MediaRoom} :
      s.rooms.get roomId = some room →
      RoomMove config s roomId (.revokeSubscriptions roomId allowed)
        (room.subscriptions.entries.foldl (MediaRoom.withdraw allowed) room)
  | report {agentId subscriberPeerId publisherPeerId publicationId : String}
      {routeEpoch now : Nat} {selectedLayer : MediaLayer} {ready : Bool} {room : MediaRoom}
      {plan : SubscriptionPlan} : s.rooms.get roomId = some room →
      room.current routeEpoch now = true →
      room.subscriptions.get (subscriptionKey subscriberPeerId publisherPeerId publicationId)
        = some plan →
      plan.agentId = agentId →
      (ready = true → plan.enabled = true ∧ validSelectedLayer plan selectedLayer = true) →
      RoomMove config s roomId (.setAgentSubscriptionState roomId agentId routeEpoch
          subscriberPeerId publisherPeerId publicationId plan.revision selectedLayer ready now)
        (room.reported ⟨agentId, routeEpoch, subscriberPeerId, publisherPeerId, publicationId,
          selectedLayer, plan.revision, ready⟩)
  | readiness {e : MediaEvent} {room : MediaRoom}
      {browserReady agentReady federationReady : KeyedMap String (List String)} :
      s.rooms.get roomId = some room →
      RoomMove config s roomId e
        { room with
          browserReady := browserReady
          agentReady := agentReady
          federationReady := federationReady }

/-! ## Calls that leave the rooms alone -/

section

variable {registry changed : MediaAgentRegistry}

theorem rooms_registerDefinition {definition : AgentDefinition}
    (h : registry.registerDefinition definition = .ok changed) : changed.rooms = registry.rooms := by
  simp only [registerDefinition, bind_ok_iff, pure_ok_iff] at h
  obtain ⟨-, -, rfl⟩ := h
  rfl

theorem rooms_authenticate (socket : Nat) (agentId : String) (timestamp : Nat) (validProof : Bool)
    (now : Nat) :
    (registry.authenticate socket agentId timestamp validProof now).1.rooms = registry.rooms := by
  rw [authenticate]
  split
  · rfl
  · split <;> rfl

theorem rooms_enroll (socket : Nat) (agentId : String) (timestamp : Nat)
    (completed : Option AgentDefinition) (now : Nat) :
    (registry.enroll socket agentId timestamp completed now).1.rooms = registry.rooms := by
  unfold enroll
  split
  · rfl
  · split
    · rfl
    · dsimp only
      split
      · rfl
      · rename_i hregistered
        exact (rooms_registerDefinition hregistered :)

theorem rooms_revoke {agentId : String} (h : registry.revoke agentId = .ok changed) :
    changed.rooms = registry.rooms := by
  rw [revoke] at h
  split at h
  · cases h
  · split at h
    · cases h
    · cases h
      rfl

theorem rooms_disconnect (socket : Nat) : (registry.disconnect socket).rooms = registry.rooms := by
  rw [disconnect]
  split
  · rfl
  · split <;> rfl

theorem rooms_setCapability {socket : Nat} {capability : AgentCapability}
    (h : registry.setCapability socket capability = .ok changed) :
    changed.rooms = registry.rooms := by
  rw [setCapability] at h
  split at h
  · cases h
  · cases h
    rfl

variable {now : Nat}

theorem rooms_setDraining {socket : Nat} {enabled : Bool}
    (h : registry.setDraining socket enabled now = .ok changed) :
    changed.rooms = registry.rooms := by
  rw [setDraining] at h
  split at h
  · cases h
  · cases h
    rfl

theorem rooms_heartbeat {socket : Nat} {rooms : List (String × Nat)}
    (h : registry.heartbeat socket rooms now = .ok changed) : changed.rooms = registry.rooms := by
  rw [heartbeat] at h
  split at h
  · cases h
  · simp only [bind_ok_iff, pure_ok_iff] at h
    obtain ⟨-, -, -, -, rfl⟩ := h
    rfl

theorem rooms_setConsentSet {peer : RoomPeer} {agentIds : List String} {automaticTakeover : Bool}
    {creatorPrincipal : String}
    (h : registry.setConsentSet peer agentIds automaticTakeover creatorPrincipal now = .ok changed) :
    changed.rooms = registry.rooms := by
  simp only [setConsentSet, bind_ok_iff] at h
  obtain ⟨-, -, -, -, h⟩ := h
  split at h
  · simp only [pure_ok_iff] at h
    exact h ▸ rfl
  · simp only [pure_ok_iff] at h
    exact h ▸ rfl

theorem rooms_setConsent {peer : RoomPeer} {enabled : Bool} {agentId : String}
    {automaticTakeover : Bool} {creatorPrincipal : String}
    (h : registry.setConsent peer enabled agentId automaticTakeover creatorPrincipal now
      = .ok changed) : changed.rooms = registry.rooms := by
  simp only [setConsent, bind_ok_iff] at h
  obtain ⟨-, -, h⟩ := h
  exact rooms_setConsentSet h

theorem rooms_orKeep {outcome : Except String MediaAgentRegistry}
    (h : ∀ changed, outcome = .ok changed → changed.rooms = registry.rooms) :
    (orKeep registry outcome).rooms = registry.rooms := by
  cases outcome with
  | error code => rfl
  | ok changed => exact h changed rfl

end

/-! ## Calls on one room -/

section

variable {config : MediaAgentConfig} {s t : MediaAgentRegistry} {e : MediaEvent} {roomId : String}
  {room : MediaRoom}

theorem get_setRoom (registry : MediaAgentRegistry) (roomId other : String) (room : MediaRoom) :
    (registry.setRoom roomId room).rooms.get other
      = if other = roomId then some room else registry.rooms.get other :=
  KeyedMap.get_set registry.rooms roomId other room

variable {changedId : String}

/-- The room a change of one room leaves behind is the changed one or the same. -/
theorem updateRoom_cases {change : MediaRoom → MediaRoom}
    (h : (s.updateRoom changedId change).rooms.get roomId = some room) :
    s.rooms.get roomId = some room
      ∨ roomId = changedId ∧ ∃ old, s.rooms.get roomId = some old ∧ room = change old := by
  rw [updateRoom] at h
  split at h
  · exact .inl h
  · rename_i old hold
    rw [get_setRoom] at h
    split at h
    · rename_i heq
      exact .inr ⟨heq, old, heq ▸ hold, (some.inj h).symm⟩
    · exact .inl h

theorem setRoom_cases {changed : MediaRoom}
    (h : (s.setRoom changedId changed).rooms.get roomId = some room) :
    s.rooms.get roomId = some room ∨ roomId = changedId ∧ room = changed := by
  rw [get_setRoom] at h
  split at h
  · rename_i heq
    exact .inr ⟨heq, (some.inj h).symm⟩
  · exact .inl h

theorem rooms_keepConsents (members : List String) :
    (s.keepConsents roomId members).rooms = s.rooms := by
  rw [keepConsents]
  split <;> rfl

variable {now : Nat}

theorem moved_reconcile {members : List String} {membershipEpoch : Nat} {requestId : String}
    (h : (s.reconcile config changedId members membershipEpoch requestId now).rooms.get roomId
      = some room) :
    RoomMove config s roomId (.reconcile changedId members membershipEpoch requestId now) room := by
  rcases setRoom_cases h with hother | ⟨rfl, rfl⟩
  · rw [rooms_keepConsents] at hother
    rcases setRoom_cases hother with hsame | ⟨rfl, rfl⟩
    · exact .same hsame
    · rw [reconcile, get_setRoom, if_pos rfl] at h
      exact some.inj h ▸ .reconcile
  · exact .reconcile

variable {peer : RoomPeer}

theorem moved_leavePeer (h : (s.leavePeer peer).rooms.get roomId = some room) :
    RoomMove config s roomId (.leavePeer peer) room := by
  rcases updateRoom_cases h with hsame | ⟨-, old, hold, rfl⟩
  · split at hsame <;> exact .same hsame
  · split at hold <;> exact .leave hold

theorem moved_respond {requestId : String} {accepted : Bool}
    (h : s.respondToTakeover config peer requestId accepted now = .ok t)
    (hroom : t.rooms.get roomId = some room) :
    RoomMove config s roomId (.respondToTakeover peer requestId accepted now) room := by
  unfold respondToTakeover at h
  split at h
  · cases h
  · rename_i old hold
    split at h
    · cases h
    · rename_i pending hpending
      simp only [bind_ok_iff, failIf_ok_iff, pure_ok_iff, not_or, not_lt] at h
      obtain ⟨-, ⟨hid, hpeer, hopen⟩, rfl⟩ := h
      rcases setRoom_cases hroom with hsame | ⟨rfl, rfl⟩
      · exact .same hsame
      · exact .respond hold rfl hpending (not_not.mp hid) (not_not.mp hpeer) hopen

theorem moved_layers {agentId : String} {routeEpoch : Nat}
    {publisherPeerId publicationId : String} {source : MediaSource} {layer : MediaLayer}
    {active : Bool}
    (h : s.setPublicationLayerState changedId agentId routeEpoch publisherPeerId publicationId
      source layer active now = .ok t)
    (hroom : t.rooms.get roomId = some room) : RoomMove config s roomId e room := by
  unfold setPublicationLayerState at h
  split at h
  · cases h
  · rename_i old hold
    simp only [bind_ok_iff] at h
    obtain ⟨-, -, h⟩ := h
    split at h
    · split at h
      · cases h
        exact .same hroom
      · cases h
        rcases setRoom_cases hroom with hsame | ⟨rfl, rfl⟩
        · exact .same hsame
        · exact .layers hold
    · simp only [bind_ok_iff, pure_ok_iff] at h
      obtain ⟨-, -, rfl⟩ := h
      rcases setRoom_cases hroom with hsame | ⟨rfl, rfl⟩
      · exact .same hsame
      · exact .layers hold

theorem moved_intent {input : SubscriptionIntent} {source : Option MediaSource}
    {plan : SubscriptionPlan} (h : s.setSubscriptionIntent peer input source now = .ok (t, plan))
    (hroom : t.rooms.get roomId = some room) :
    RoomMove config s roomId (.setSubscriptionIntent peer input source now) room := by
  unfold setSubscriptionIntent at h
  split at h
  · rename_i old source hold
    simp only [bind_ok_iff, failIf_ok_iff, pure_ok_iff, not_or, Prod.mk.injEq] at h
    obtain ⟨-, ⟨-, hself, hcurrent, hagent, hlayers⟩, rfl, -⟩ := h
    rcases setRoom_cases hroom with hsame | ⟨rfl, rfl⟩
    · exact .same hsame
    · exact .intent hold rfl hself (by simpa using hcurrent) (not_not.mp hagent)
        (by simpa using hlayers)
  · cases h

theorem moved_report {agentId : String} {routeEpoch : Nat}
    {subscriberPeerId publisherPeerId publicationId : String} {revision : Nat}
    {selectedLayer : MediaLayer} {ready : Bool} {applied : AppliedSubscription}
    (h : s.setAgentSubscriptionState changedId agentId routeEpoch subscriberPeerId publisherPeerId
      publicationId revision selectedLayer ready now = .ok (t, applied))
    (hroom : t.rooms.get roomId = some room) :
    RoomMove config s roomId (.setAgentSubscriptionState changedId agentId routeEpoch
      subscriberPeerId publisherPeerId publicationId revision selectedLayer ready now) room := by
  unfold setAgentSubscriptionState at h
  split at h
  · rename_i old plan hold hplan
    simp only [bind_ok_iff, failIf_ok_iff, pure_ok_iff, not_or, Prod.mk.injEq] at h
    obtain ⟨-, ⟨hrevision, hready⟩, rfl, -⟩ := h
    obtain rfl := not_not.mp hrevision
    rcases setRoom_cases hroom with hsame | ⟨rfl, rfl⟩
    · exact .same hsame
    · rw [subscriptionPlan, hold] at hplan
      dsimp only at hplan
      split at hplan
      · cases hplan
      · rename_i hcurrent
        obtain ⟨hget, hagent⟩ := filter_eq_some_iff.mp hplan
        refine .report hold (by simpa using hcurrent) hget (by simpa using hagent) ?_
        intro hon
        simpa [hon] using hready
  · cases h

/-- **Moves.** Every room after a call has made a move. -/
theorem room_moved (h : MediaStep config s e t) (hroom : t.rooms.get roomId = some room) :
    RoomMove config s roomId e room := by
  obtain rfl := h
  have hsame : ∀ {rooms : KeyedMap String MediaRoom}, rooms = s.rooms →
      rooms.get roomId = some room → RoomMove config s roomId e room :=
    fun heq hget => .same (heq ▸ hget)
  have hkept : ∀ {outcome : Except String MediaAgentRegistry},
      (orKeep s outcome).rooms.get roomId = some room →
      (∀ changed, outcome = .ok changed → changed.rooms.get roomId = some room →
        RoomMove config s roomId e room) → RoomMove config s roomId e room := by
    intro outcome hget hmoved
    cases outcome with
    | error code => exact .same hget
    | ok changed => exact hmoved changed rfl hget
  cases e with
  | registerDefinition definition =>
      exact hsame (rooms_orKeep fun _ h => rooms_registerDefinition h) hroom
  | issueChallenge socket now => exact .same hroom
  | authenticate socket agentId timestamp validProof now =>
      exact hsame (rooms_authenticate socket agentId timestamp validProof now) hroom
  | enroll socket agentId timestamp completed now =>
      exact hsame (rooms_enroll socket agentId timestamp completed now) hroom
  | revoke agentId => exact hsame (rooms_orKeep fun _ h => rooms_revoke h) hroom
  | disconnect socket => exact hsame (rooms_disconnect socket) hroom
  | setCapability socket capability =>
      exact hsame (rooms_orKeep fun _ h => rooms_setCapability h) hroom
  | heartbeat socket rooms now => exact hsame (rooms_orKeep fun _ h => rooms_heartbeat h) hroom
  | setDraining socket enabled now =>
      exact hsame (rooms_orKeep fun _ h => rooms_setDraining h) hroom
  | setConsent peer enabled agentId automaticTakeover creatorPrincipal now =>
      exact hsame (rooms_orKeep fun _ h => rooms_setConsent h) hroom
  | setConsentSet peer agentIds automaticTakeover creatorPrincipal now =>
      exact hsame (rooms_orKeep fun _ h => rooms_setConsentSet h) hroom
  | leavePeer peer => exact moved_leavePeer hroom
  | removePublisherSource changedId publisherPeerId source =>
      rcases updateRoom_cases hroom with hold | ⟨rfl, old, hold, rfl⟩
      · exact .same hold
      · exact .removeSource hold
  | removeRoom changedId =>
      have hget : (s.rooms.erase changedId).get roomId = some room := hroom
      rw [KeyedMap.get_erase] at hget
      split at hget
      · cases hget
      · exact .same hget
  | respondToTakeover peer requestId accepted now =>
      exact hkept hroom fun _ h hget => moved_respond h hget
  | reconcile changedId members membershipEpoch requestId now => exact moved_reconcile hroom
  | setPublicationLayerState changedId agentId routeEpoch publisherPeerId publicationId source layer
      active now => exact hkept hroom fun _ h hget => moved_layers h hget
  | setSubscriptionIntent peer input source now =>
      refine hkept hroom fun changed h hget => ?_
      obtain ⟨⟨_, plan⟩, hintent, rfl⟩ := map_ok h
      exact moved_intent hintent hget
  | revokeSubscriptions changedId allowed =>
      rcases updateRoom_cases hroom with hold | ⟨rfl, old, hold, rfl⟩
      · exact .same hold
      · exact .withdraw hold
  | setAgentSubscriptionState changedId agentId routeEpoch subscriberPeerId publisherPeerId
      publicationId revision selectedLayer ready now =>
      refine hkept hroom fun changed h hget => ?_
      obtain ⟨⟨_, applied⟩, hreport, rfl⟩ := map_ok h
      exact moved_report hreport hget
  | acknowledgeSubscription peer input now => exact .same hroom
  | setBrowserPeerState changedId agentId routeEpoch peerId connected now =>
      refine hkept hroom fun changed h hget => ?_
      simp only [setBrowserPeerState, bind_ok_iff, pure_ok_iff] at h
      obtain ⟨-, -, rfl⟩ := h
      rcases updateRoom_cases hget with hold | ⟨rfl, old, hold, rfl⟩
      · exact .same hold
      · exact .readiness hold
  | setAgentPeerState socket changedId peerId routeEpoch connected now =>
      refine hkept hroom fun changed h hget => ?_
      unfold setAgentPeerState at h
      split at h
      · cases h
      · simp only [bind_ok_iff, pure_ok_iff] at h
        obtain ⟨-, -, rfl⟩ := h
        rcases updateRoom_cases hget with hold | ⟨rfl, old, hold, rfl⟩
        · exact .same hold
        · exact .readiness hold
  | setFederationState socket changedId routeEpoch linkId remoteAgentId connected now =>
      refine hkept hroom fun changed h hget => ?_
      unfold setFederationState at h
      split at h
      · cases h
      · simp only [bind_ok_iff, pure_ok_iff] at h
        obtain ⟨-, -, rfl⟩ := h
        rcases updateRoom_cases hget with hold | ⟨rfl, old, hold, rfl⟩
        · exact .same hold
        · exact .readiness hold

end

end WebrtcMinimize
