import WebrtcMinimize.FailoverModel

/-!
# Media-agent data

What the control plane keeps about the native media agents: the agents with
their last reported capability, the consents of each room, and for every
room the route: one primary, its standbys, the assignment of each publisher
to a forwarding agent, the federation plan between the forwarders, and the
subscriptions the agents were asked to serve.

Absent agents and peers are the empty text in the source, and here. A room
keeps its maps under keys that join several texts with NUL.
-/

namespace WebrtcMinimize

open Checks
open Keys

/-! ## Identifiers -/

/-- `^[a-z0-9][a-z0-9-]{0,31}$` -/
def mediaAgentIdOK (s : String) : Bool :=
  match utf8 s with
  | b :: bs => lowerDigit b && spanOK (fun b => lowerDigit b || b == '-'.toNat) 0 31 bs
  | [] => false

/-- `^[A-Za-z0-9_={}:-]{1,128}$` -/
def trackIdOK (s : String) : Bool :=
  spanOK (fun b => refByte b || b == '='.toNat || b == 0x7b || b == 0x7d || b == ':'.toNat) 1 128
    (utf8 s)

/-- `^[A-Za-z0-9_-]{22}$` -/
def linkIdOK (s : String) : Bool := spanOK refByte 22 22 (utf8 s)

/-! ## Media -/

inductive MediaSource where
  | microphone | camera | screen | screenAudio
deriving DecidableEq, Repr

inductive MediaLayer where
  | audio | single | low | medium | high
deriving DecidableEq, Repr

def MediaLayer.text : MediaLayer → String
  | .audio => "audio"
  | .single => "single"
  | .low => "low"
  | .medium => "medium"
  | .high => "high"

/-- `VIDEO_LAYER_RANK` -/
def MediaLayer.rank : MediaLayer → Option Nat
  | .low => some 0
  | .medium => some 1
  | .high => some 2
  | .audio => none
  | .single => none

/-- `VIDEO_LAYER_RANK[left] <= VIDEO_LAYER_RANK[right]`, which does not hold
for a layer without a rank. -/
def MediaLayer.le (left right : MediaLayer) : Bool :=
  match left.rank, right.rank with
  | some l, some r => decide (l ≤ r)
  | _, _ => false

def validSubscriptionLayers (source : MediaSource) (enabled : Bool)
    (preferredLayer maximumLayer : MediaLayer) : Bool :=
  match source with
  | .microphone | .screenAudio => preferredLayer = .audio ∧ maximumLayer = .audio
  | .screen => preferredLayer = .single ∧ maximumLayer = .single
  | .camera =>
      if preferredLayer = .single ∨ maximumLayer = .single then
        preferredLayer = .single ∧ maximumLayer = .single
      else
        preferredLayer.rank.isSome && maximumLayer.rank.isSome
          && (!enabled || preferredLayer.le maximumLayer)

structure SubscriptionPlan where
  subscriberPeerId : String
  publisherPeerId : String
  publicationId : String
  source : MediaSource
  enabled : Bool
  preferredLayer : MediaLayer
  maximumLayer : MediaLayer
  revision : Nat
  agentId : String
deriving DecidableEq, Repr

def validSelectedLayer (plan : SubscriptionPlan) (selectedLayer : MediaLayer) : Bool :=
  match plan.source with
  | .microphone | .screenAudio => decide (selectedLayer = .audio)
  | .screen => decide (selectedLayer = .single)
  | .camera =>
      decide (selectedLayer = .single)
        || selectedLayer.le plan.preferredLayer && selectedLayer.le plan.maximumLayer

/-- What an agent reported about a subscription it serves. -/
structure AppliedSubscription where
  agentId : String
  routeEpoch : Nat
  subscriberPeerId : String
  publisherPeerId : String
  publicationId : String
  selectedLayer : MediaLayer
  revision : Nat
  ready : Bool
deriving DecidableEq, Repr

/-- The layers of a publication that its ingress agent receives. -/
structure PublicationLayers where
  source : MediaSource
  layers : List MediaLayer
deriving DecidableEq, Repr

def subscriptionKey (subscriberPeerId publisherPeerId publicationId : String) : String :=
  joined [subscriberPeerId, publisherPeerId, publicationId]

def publicationKey (publisherPeerId publicationId : String) : String :=
  joined [publisherPeerId, publicationId]

/-! ## Federation -/

structure FederationLink where
  linkId : String
  leftAgentId : String
  rightAgentId : String
  initiatorAgentId : String
deriving DecidableEq, Repr

structure FederationEdge where
  linkId : String
  fromAgentId : String
  toAgentId : String
deriving DecidableEq, Repr

structure FederationRoute where
  publisherPeerId : String
  sourceAgentId : String
  maximumHops : Nat
  edges : List FederationEdge
deriving DecidableEq, Repr

structure FederationDemand where
  linkId : String
  fromAgentId : String
  toAgentId : String
  publisherPeerId : String
  publicationId : String
  layer : MediaLayer
deriving DecidableEq, Repr

/-! ## Agents and rooms -/

inductive Battery where
  | critical | limited | mains | unknown
deriving DecidableEq, Repr

inductive Network where
  | constrained | normal | fast | unknown
deriving DecidableEq, Repr

structure AgentCapability where
  visible : Bool
  battery : Battery
  network : Network
  capacity : Nat
  load : Nat
  maxRooms : Nat
  maxPeers : Nat
  maxTracks : Nat
deriving DecidableEq, Repr

def defaultCapability : AgentCapability where
  visible := true
  battery := .unknown
  network := .unknown
  capacity := 50
  load := 0
  maxRooms := 8
  maxPeers := 20
  maxTracks := 80

structure AgentDefinition where
  id : String
  ownerPrincipal : String
  /-- `authType` is `public-key` rather than `shared-secret`. -/
  publicKey : Bool
deriving DecidableEq, Repr

/-- A registered agent; a socket is the number of its connection. -/
structure MediaAgent where
  definition : AgentDefinition
  socket : Option Nat
  lastSeen : Nat
  capability : AgentCapability
  draining : Bool
deriving DecidableEq, Repr

structure MediaConsent where
  peerId : String
  principal : String
  agentId : String
  automaticTakeover : Bool
  creatorOwned : Bool
  updatedAt : Nat
deriving DecidableEq, Repr

structure TakeoverPending where
  requestId : String
  agentId : String
  peerId : String
  expiresAt : Nat
  creatorPreferred : Bool
deriving DecidableEq, Repr

structure MediaRoom where
  membershipEpoch : Nat
  routeEpoch : Nat
  primaryId : String
  standbyIds : List String
  forwarderIds : List String
  publisherAssignments : KeyedMap String String
  subscriberAssignments : KeyedMap String String
  federationLinks : List FederationLink
  federationRoutes : List FederationRoute
  federationReady : KeyedMap String (List String)
  leaseExpiresAt : Nat
  hadPrimary : Bool
  pending : Option TakeoverPending
  approved : KeyedMap String Nat
  declined : KeyedMap String Nat
  browserReady : KeyedMap String (List String)
  agentReady : KeyedMap String (List String)
  subscriptions : KeyedMap String SubscriptionPlan
  agentSubscriptions : KeyedMap String AppliedSubscription
  publicationLayers : KeyedMap String PublicationLayers
  subscriptionRevision : Nat

/-- The room `reconcile` starts a new entry with. -/
def MediaRoom.new (membershipEpoch : Nat) : MediaRoom where
  membershipEpoch := membershipEpoch
  routeEpoch := 0
  primaryId := ""
  standbyIds := []
  forwarderIds := []
  publisherAssignments := .empty
  subscriberAssignments := .empty
  federationLinks := []
  federationRoutes := []
  federationReady := .empty
  leaseExpiresAt := 0
  hadPrimary := false
  pending := none
  approved := .empty
  declined := .empty
  browserReady := .empty
  agentReady := .empty
  subscriptions := .empty
  agentSubscriptions := .empty
  publicationLayers := .empty
  subscriptionRevision := 0

/-- The agent a peer is assigned to, when there is one. -/
def assignedAgent (assignments : KeyedMap String String) (peerId : String) : Option String :=
  (assignments.get peerId).filter (· ≠ "")

theorem assignedAgent_eq_some_iff {assignments : KeyedMap String String} {peerId agentId : String} :
    assignedAgent assignments peerId = some agentId
      ↔ assignments.get peerId = some agentId ∧ agentId ≠ "" := by
  simp [assignedAgent, Option.filter_eq_some_iff]

end WebrtcMinimize
