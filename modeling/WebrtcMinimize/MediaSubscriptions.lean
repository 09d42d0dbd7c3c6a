import WebrtcMinimize.MediaReconcile
import WebrtcMinimize.Runs

/-!
# Subscriptions and the runs of the registry

The operations on one room between two reconciliations: what a leaving
member takes along, takeover responses, publication layers, subscription
intents and what the agents report about them. `MediaEvent` is one call of
the registry with its arguments and `MediaStep` what it does to the state;
a call that throws leaves the state as it is, up to a used challenge.
-/

namespace WebrtcMinimize

open Checks
open Keys

/-! ## Rooms -/

/-- Add a value to a set that keeps the order of insertion. -/
def insertNew (values : List String) (value : String) : List String :=
  if value ∈ values then values else values ++ [value]

/-- Add to or remove from the set under a key. -/
def setMember (sets : KeyedMap String (List String)) (key value : String) (present : Bool) :
    KeyedMap String (List String) :=
  let values := (sets.get key).getD []
  sets.set key (if present then insertNew values value else values.filter (· ≠ value))

/-- The key starts with the peer's identifier and the separator. -/
def publicationOf (peerId key : String) : Bool :=
  (peerId ++ "\x00").toList.isPrefixOf key.toList

/-- Subscriptions with the property are dropped, with what was applied for them. -/
def MediaRoom.dropSubscriptions (room : MediaRoom) (p : SubscriptionPlan → Bool) : MediaRoom :=
  { room with
    subscriptions := room.subscriptions.keep fun _ plan => !p plan
    agentSubscriptions := room.agentSubscriptions.keep fun key _ =>
      match room.subscriptions.get key with
      | some plan => !p plan
      | none => true }

def MediaRoom.leavePeer (room : MediaRoom) (peerId : String) : MediaRoom :=
  let served := room.dropSubscriptions fun plan =>
    plan.subscriberPeerId = peerId ∨ plan.publisherPeerId = peerId
  { served with
    browserReady := room.browserReady.mapValues fun _ peers => peers.filter (· ≠ peerId)
    agentReady := room.agentReady.mapValues fun _ peers => peers.filter (· ≠ peerId)
    publicationLayers := room.publicationLayers.keep fun key _ => !publicationOf peerId key
    pending := room.pending.filter fun pending => pending.peerId ≠ peerId }

def MediaRoom.removePublisherSource (room : MediaRoom) (publisherPeerId : String)
    (source : MediaSource) : MediaRoom :=
  let served := room.dropSubscriptions fun plan =>
    plan.publisherPeerId = publisherPeerId ∧ plan.source = source
  { served with
    publicationLayers := room.publicationLayers.keep fun key publication =>
      !(publicationOf publisherPeerId key && decide (publication.source = source)) }

/-- The route of the room is the one the caller knows, and its lease runs. -/
def MediaRoom.current (room : MediaRoom) (routeEpoch now : Nat) : Bool :=
  room.routeEpoch = routeEpoch ∧ now ≤ room.leaseExpiresAt

/-- What a subscriber asks its agent for. -/
structure SubscriptionIntent where
  roomId : String
  agentId : String
  routeEpoch : Nat
  publisherPeerId : String
  publicationId : String
  enabled : Bool
  preferredLayer : MediaLayer
  maximumLayer : MediaLayer
deriving DecidableEq, Repr

/-- What a subscriber confirms about a plan. -/
structure SubscriptionAck where
  roomId : String
  agentId : String
  routeEpoch : Nat
  publisherPeerId : String
  publicationId : String
  revision : Nat
  ready : Bool
deriving DecidableEq, Repr

def MediaRoom.withdraw (allowed : SubscriptionPlan → Bool) (room : MediaRoom)
    (entry : String × SubscriptionPlan) : MediaRoom :=
  if !entry.2.enabled || allowed entry.2 then room
  else
    { room with
      subscriptionRevision := room.subscriptionRevision + 1
      subscriptions := room.subscriptions.set entry.1
        { entry.2 with enabled := false, revision := room.subscriptionRevision + 1 }
      agentSubscriptions := room.agentSubscriptions.erase entry.1 }

namespace MediaAgentRegistry

variable (registry : MediaAgentRegistry)

def removeRoom (roomId : String) : MediaAgentRegistry :=
  { registry with
    consents := registry.consents.erase roomId
    rooms := registry.rooms.erase roomId }

/-- Apply a change to a room, when the registry has it. -/
def updateRoom (roomId : String) (change : MediaRoom → MediaRoom) : MediaAgentRegistry :=
  match registry.rooms.get roomId with
  | none => registry
  | some room => registry.setRoom roomId (change room)

def leavePeer (peer : RoomPeer) : MediaAgentRegistry :=
  let left := match registry.consents.get peer.roomId with
    | none => registry
    | some consents =>
        let kept := consents.keep fun _ consent => decide (consent.peerId ≠ peer.id)
        { registry with
          consents := if kept.entries = [] then registry.consents.erase peer.roomId
            else registry.consents.set peer.roomId kept }
  left.updateRoom peer.roomId fun room => room.leavePeer peer.id

def removePublisherSource (roomId publisherPeerId : String) (source : MediaSource) :
    MediaAgentRegistry :=
  registry.updateRoom roomId fun room => room.removePublisherSource publisherPeerId source

def respondToTakeover (config : MediaAgentConfig) (peer : RoomPeer) (requestId : String)
    (accepted : Bool) (now : Nat) : Except String MediaAgentRegistry :=
  match registry.rooms.get peer.roomId with
  | none => .error "agent_takeover_request_expired"
  | some room =>
      match room.pending with
      | none => .error "agent_takeover_request_expired"
      | some pending => do
          failIf (pending.requestId ≠ requestId ∨ pending.peerId ≠ peer.id ∨ pending.expiresAt < now)
            "agent_takeover_request_expired"
          return registry.setRoom peer.roomId
            (if accepted then
              { room with
                pending := none
                approved := room.approved.set pending.agentId (now + config.leaseMs) }
            else
              { room with
                pending := none
                declined := room.declined.set pending.agentId (now + config.takeoverTtlMs) })

def authorizePublisher (roomId agentId : String) (routeEpoch : Nat) (publisherPeerId : String)
    (now : Nat) : Bool :=
  match registry.rooms.get roomId with
  | none => false
  | some room =>
      room.current routeEpoch now && room.publisherAssignments.get publisherPeerId == some agentId

def setPublicationLayerState (roomId agentId : String) (routeEpoch : Nat)
    (publisherPeerId publicationId : String) (source : MediaSource) (layer : MediaLayer)
    (active : Bool) (now : Nat) : Except String MediaAgentRegistry :=
  match registry.rooms.get roomId with
  | none => .error "stale_agent_publication_layer"
  | some room => do
      failIf (registry.authorizePublisher roomId agentId routeEpoch publisherPeerId now = false)
        "stale_agent_publication_layer"
      let key := publicationKey publisherPeerId publicationId
      match room.publicationLayers.get key with
      | none =>
          if active = false then return registry
          return registry.setRoom roomId
            { room with publicationLayers := room.publicationLayers.set key ⟨source, [layer]⟩ }
      | some publication =>
          failIf (publication.source ≠ source) "stale_agent_publication_layer"
          let layers := if active then
              if layer ∈ publication.layers then publication.layers
              else publication.layers ++ [layer]
            else publication.layers.filter (· ≠ layer)
          return registry.setRoom roomId
            { room with
              publicationLayers := if layers = [] then room.publicationLayers.erase key
                else room.publicationLayers.set key { publication with layers := layers } }

/-- `source` is the publication's, none where there is no such publication. -/
def setSubscriptionIntent (peer : RoomPeer) (input : SubscriptionIntent)
    (source : Option MediaSource) (now : Nat) :
    Except String (MediaAgentRegistry × SubscriptionPlan) :=
  match registry.rooms.get peer.roomId, source with
  | some room, some source => do
      failIf (input.roomId ≠ peer.roomId ∨ input.publisherPeerId = peer.id
        ∨ room.current input.routeEpoch now = false
        ∨ room.subscriberAssignments.get peer.id ≠ some input.agentId
        ∨ validSubscriptionLayers source input.enabled input.preferredLayer input.maximumLayer = false)
        "invalid_agent_subscription_intent"
      let key := subscriptionKey peer.id input.publisherPeerId input.publicationId
      let plan : SubscriptionPlan :=
        { subscriberPeerId := peer.id
          publisherPeerId := input.publisherPeerId
          publicationId := input.publicationId
          source := source
          enabled := input.enabled
          preferredLayer := input.preferredLayer
          maximumLayer := input.maximumLayer
          revision := room.subscriptionRevision + 1
          agentId := input.agentId }
      return (registry.setRoom peer.roomId { room with
          subscriptionRevision := room.subscriptionRevision + 1
          subscriptions := room.subscriptions.set key plan
          agentSubscriptions := room.agentSubscriptions.erase key }, plan)
  | _, _ => .error "invalid_agent_subscription_intent"

def revokeSubscriptions (roomId : String) (allowed : SubscriptionPlan → Bool) :
    MediaAgentRegistry :=
  registry.updateRoom roomId fun room =>
    room.subscriptions.entries.foldl (MediaRoom.withdraw allowed) room

def subscriptionPlan (roomId agentId : String) (routeEpoch : Nat)
    (subscriberPeerId publisherPeerId publicationId : String) (now : Nat) :
    Option SubscriptionPlan :=
  match registry.rooms.get roomId with
  | none => none
  | some room =>
      if room.current routeEpoch now = false then none
      else (room.subscriptions.get
        (subscriptionKey subscriberPeerId publisherPeerId publicationId)).filter
          fun plan => plan.agentId = agentId

def setAgentSubscriptionState (roomId agentId : String) (routeEpoch : Nat)
    (subscriberPeerId publisherPeerId publicationId : String) (revision : Nat)
    (selectedLayer : MediaLayer) (ready : Bool) (now : Nat) :
    Except String (MediaAgentRegistry × AppliedSubscription) :=
  match registry.rooms.get roomId, registry.subscriptionPlan roomId agentId routeEpoch
      subscriberPeerId publisherPeerId publicationId now with
  | some room, some plan => do
      failIf (plan.revision ≠ revision
        ∨ ready = true ∧ (plan.enabled = false ∨ validSelectedLayer plan selectedLayer = false))
        "stale_agent_subscription"
      let key := subscriptionKey subscriberPeerId publisherPeerId publicationId
      let applied : AppliedSubscription :=
        { agentId := agentId
          routeEpoch := routeEpoch
          subscriberPeerId := subscriberPeerId
          publisherPeerId := publisherPeerId
          publicationId := publicationId
          selectedLayer := selectedLayer
          revision := plan.revision
          ready := ready }
      return (registry.setRoom roomId { room with
          agentSubscriptions := if ready then room.agentSubscriptions.set key applied
            else room.agentSubscriptions.erase key }, applied)
  | _, _ => .error "stale_agent_subscription"

def acknowledgeSubscription (peer : RoomPeer) (input : SubscriptionAck) (now : Nat) :
    Except String AppliedSubscription :=
  match registry.rooms.get peer.roomId with
  | none => .error "stale_agent_subscription"
  | some room => do
      failIf (input.roomId ≠ peer.roomId ∨ input.routeEpoch ≠ room.routeEpoch)
        "stale_agent_subscription"
      let key := subscriptionKey peer.id input.publisherPeerId input.publicationId
      let applied := room.agentSubscriptions.get key
      failIf (input.ready = true ∧ (applied.any fun a =>
          a.ready && decide (a.agentId = input.agentId) && decide (a.revision = input.revision))
        = false) "stale_agent_subscription"
      match room.subscriptions.get key with
      | none => .error "stale_agent_subscription"
      | some plan =>
          failIf (plan.agentId ≠ input.agentId ∨ plan.publisherPeerId = peer.id
            ∨ plan.revision ≠ input.revision ∨ room.leaseExpiresAt < now)
            "stale_agent_subscription"
          return applied.getD
            { agentId := input.agentId
              routeEpoch := input.routeEpoch
              subscriberPeerId := peer.id
              publisherPeerId := input.publisherPeerId
              publicationId := input.publicationId
              selectedLayer := plan.preferredLayer
              revision := plan.revision
              ready := false }

def authorizePeerAgent (roomId agentId : String) (routeEpoch : Nat) (peerId : String)
    (now : Nat) : Bool :=
  match registry.rooms.get roomId with
  | none => false
  | some room =>
      room.current routeEpoch now && (room.publisherAssignments.get peerId == some agentId
        || room.subscriberAssignments.get peerId == some agentId)

def setBrowserPeerState (roomId agentId : String) (routeEpoch : Nat) (peerId : String)
    (connected : Bool) (now : Nat) : Except String MediaAgentRegistry := do
  failIf (registry.authorizePeerAgent roomId agentId routeEpoch peerId now = false)
    "stale_agent_route"
  return registry.updateRoom roomId fun room =>
    { room with browserReady := setMember room.browserReady agentId peerId connected }

def setAgentPeerState (socket : Nat) (roomId peerId : String) (routeEpoch : Nat)
    (connected : Bool) (now : Nat) : Except String MediaAgentRegistry :=
  match registry.agentOf socket with
  | none => .error "stale_agent_route"
  | some agent => do
      failIf (registry.authorizePeerAgent roomId agent.definition.id routeEpoch peerId now = false)
        "stale_agent_route"
      return registry.updateRoom roomId fun room =>
        { room with agentReady := setMember room.agentReady agent.definition.id peerId connected }

def federationLink (roomId : String) (routeEpoch : Nat) (linkId firstAgentId secondAgentId : String)
    (now : Nat) : Option FederationLink :=
  match registry.rooms.get roomId with
  | none => none
  | some room =>
      if room.current routeEpoch now = false then none
      else (room.federationLinks.find? (·.linkId = linkId)).filter fun link =>
        link.joins firstAgentId secondAgentId && decide (firstAgentId ≠ secondAgentId)

def setFederationState (socket : Nat) (roomId : String) (routeEpoch : Nat)
    (linkId remoteAgentId : String) (connected : Bool) (now : Nat) :
    Except String MediaAgentRegistry :=
  match registry.agentOf socket with
  | none => .error "stale_federation_link"
  | some agent => do
      failIf ((registry.federationLink roomId routeEpoch linkId agent.definition.id remoteAgentId
        now).isNone = true) "stale_federation_link"
      return registry.updateRoom roomId fun room =>
        { room with
          federationReady := setMember room.federationReady linkId agent.definition.id connected }

end MediaAgentRegistry

/-! ## Runs -/

inductive MediaEvent where
  | registerDefinition (definition : AgentDefinition)
  | issueChallenge (socket now : Nat)
  | authenticate (socket : Nat) (agentId : String) (timestamp : Nat) (validProof : Bool) (now : Nat)
  | enroll (socket : Nat) (agentId : String) (timestamp : Nat)
      (completed : Option AgentDefinition) (now : Nat)
  | revoke (agentId : String)
  | disconnect (socket : Nat)
  | setCapability (socket : Nat) (capability : AgentCapability)
  | heartbeat (socket : Nat) (rooms : List (String × Nat)) (now : Nat)
  | setDraining (socket : Nat) (enabled : Bool) (now : Nat)
  | setConsent (peer : RoomPeer) (enabled : Bool) (agentId : String) (automaticTakeover : Bool)
      (creatorPrincipal : String) (now : Nat)
  | setConsentSet (peer : RoomPeer) (agentIds : List String) (automaticTakeover : Bool)
      (creatorPrincipal : String) (now : Nat)
  | leavePeer (peer : RoomPeer)
  | removePublisherSource (roomId publisherPeerId : String) (source : MediaSource)
  | removeRoom (roomId : String)
  | respondToTakeover (peer : RoomPeer) (requestId : String) (accepted : Bool) (now : Nat)
  | reconcile (roomId : String) (members : List String) (membershipEpoch : Nat)
      (requestId : String) (now : Nat)
  | setPublicationLayerState (roomId agentId : String) (routeEpoch : Nat)
      (publisherPeerId publicationId : String) (source : MediaSource) (layer : MediaLayer)
      (active : Bool) (now : Nat)
  | setSubscriptionIntent (peer : RoomPeer) (input : SubscriptionIntent)
      (source : Option MediaSource) (now : Nat)
  | revokeSubscriptions (roomId : String) (allowed : SubscriptionPlan → Bool)
  | setAgentSubscriptionState (roomId agentId : String) (routeEpoch : Nat)
      (subscriberPeerId publisherPeerId publicationId : String) (revision : Nat)
      (selectedLayer : MediaLayer) (ready : Bool) (now : Nat)
  | acknowledgeSubscription (peer : RoomPeer) (input : SubscriptionAck) (now : Nat)
  | setBrowserPeerState (roomId agentId : String) (routeEpoch : Nat) (peerId : String)
      (connected : Bool) (now : Nat)
  | setAgentPeerState (socket : Nat) (roomId peerId : String) (routeEpoch : Nat)
      (connected : Bool) (now : Nat)
  | setFederationState (socket : Nat) (roomId : String) (routeEpoch : Nat)
      (linkId remoteAgentId : String) (connected : Bool) (now : Nat)

/-- The state a throwing call leaves behind is the one it found. -/
def orKeep (registry : MediaAgentRegistry) (outcome : Except String MediaAgentRegistry) :
    MediaAgentRegistry :=
  match outcome with
  | .ok changed => changed
  | .error _ => registry

def MediaEvent.apply (config : MediaAgentConfig) (registry : MediaAgentRegistry) :
    MediaEvent → MediaAgentRegistry
  | .registerDefinition definition => orKeep registry (registry.registerDefinition definition)
  | .issueChallenge socket now => registry.issueChallenge socket now
  | .authenticate socket agentId timestamp validProof now =>
      (registry.authenticate socket agentId timestamp validProof now).1
  | .enroll socket agentId timestamp completed now =>
      (registry.enroll socket agentId timestamp completed now).1
  | .revoke agentId => orKeep registry (registry.revoke agentId)
  | .disconnect socket => registry.disconnect socket
  | .setCapability socket capability => orKeep registry (registry.setCapability socket capability)
  | .heartbeat socket rooms now => orKeep registry (registry.heartbeat socket rooms now)
  | .setDraining socket enabled now => orKeep registry (registry.setDraining socket enabled now)
  | .setConsent peer enabled agentId automaticTakeover creatorPrincipal now =>
      orKeep registry
        (registry.setConsent peer enabled agentId automaticTakeover creatorPrincipal now)
  | .setConsentSet peer agentIds automaticTakeover creatorPrincipal now =>
      orKeep registry (registry.setConsentSet peer agentIds automaticTakeover creatorPrincipal now)
  | .leavePeer peer => registry.leavePeer peer
  | .removePublisherSource roomId publisherPeerId source =>
      registry.removePublisherSource roomId publisherPeerId source
  | .removeRoom roomId => registry.removeRoom roomId
  | .respondToTakeover peer requestId accepted now =>
      orKeep registry (registry.respondToTakeover config peer requestId accepted now)
  | .reconcile roomId members membershipEpoch requestId now =>
      registry.reconcile config roomId members membershipEpoch requestId now
  | .setPublicationLayerState roomId agentId routeEpoch publisherPeerId publicationId source layer
      active now =>
      orKeep registry (registry.setPublicationLayerState roomId agentId routeEpoch publisherPeerId
        publicationId source layer active now)
  | .setSubscriptionIntent peer input source now =>
      orKeep registry ((registry.setSubscriptionIntent peer input source now).map Prod.fst)
  | .revokeSubscriptions roomId allowed => registry.revokeSubscriptions roomId allowed
  | .setAgentSubscriptionState roomId agentId routeEpoch subscriberPeerId publisherPeerId
      publicationId revision selectedLayer ready now =>
      orKeep registry ((registry.setAgentSubscriptionState roomId agentId routeEpoch
        subscriberPeerId publisherPeerId publicationId revision selectedLayer ready now).map Prod.fst)
  | .acknowledgeSubscription _ _ _ => registry
  | .setBrowserPeerState roomId agentId routeEpoch peerId connected now =>
      orKeep registry (registry.setBrowserPeerState roomId agentId routeEpoch peerId connected now)
  | .setAgentPeerState socket roomId peerId routeEpoch connected now =>
      orKeep registry (registry.setAgentPeerState socket roomId peerId routeEpoch connected now)
  | .setFederationState socket roomId routeEpoch linkId remoteAgentId connected now =>
      orKeep registry
        (registry.setFederationState socket roomId routeEpoch linkId remoteAgentId connected now)

/-- One call of the registry. -/
def MediaStep (config : MediaAgentConfig) (s : MediaAgentRegistry) (event : MediaEvent)
    (t : MediaAgentRegistry) : Prop :=
  t = event.apply config s

/-- The state after a list of calls. -/
def mediaRun (config : MediaAgentConfig) (events : List MediaEvent) (s : MediaAgentRegistry) :
    MediaAgentRegistry :=
  events.foldl (fun s event => event.apply config s) s

theorem path_mediaRun (config : MediaAgentConfig) : ∀ (events : List MediaEvent)
    (s : MediaAgentRegistry), Runs.Path (MediaStep config) s events (mediaRun config events s)
  | [], s => .nil s
  | event :: events, s => .cons rfl (path_mediaRun config events (event.apply config s))

end WebrtcMinimize
