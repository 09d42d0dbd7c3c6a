import Mathlib.Algebra.Order.Ring.Rat
import WebrtcMinimize.Climbing
import WebrtcMinimize.Json
import WebrtcMinimize.Sha256

/-!
# Room topologies

The control plane builds a topology for a room: for every member either the
direct mesh or a tree of trusted relays below it, as its edges. A browser
validates what it receives with code of its own.

Peer ids are the hexadecimal texts the control plane draws; on them
`localeCompare` and the default order of `sort` are the order of the bytes.
What the browser reads is a `RawState`: its fields after the coercions
`String(value || "")` and `Number(value)`, `none` where the number is not a
safe integer or a value does not have the shape that is asked for.
-/

namespace WebrtcMinimize

open Checks

namespace Topology

def idLe (left right : String) : Bool := Json.lexLe (utf8 left) (utf8 right)

def maxSafeInteger : Int := 9007199254740991

/-! ## Building -/

structure RelayCapability where
  visible : Option Bool
  battery : Option String
  network : Option String
  selfCapacity : Option Rat
  observedCapacity : Option Rat
  deliveryRatio : Option Rat

structure Peer where
  id : String
  relayConsent : Bool
  relayCapability : Option RelayCapability

def batteryRank : String → Option Nat
  | "critical" => some 0
  | "unknown" => some 1
  | "limited" => some 2
  | "mains" => some 3
  | _ => none

def networkRank : String → Option Nat
  | "constrained" => some 0
  | "unknown" => some 1
  | "normal" => some 2
  | "fast" => some 3
  | _ => none

structure Capability where
  visible : Bool
  battery : String
  network : String
  capacity : Rat
  delivery : Rat

/-- The value where it has a rank, else `unknown`. -/
def known (rank : String → Option Nat) (value : Option String) : String :=
  match value with
  | none => "unknown"
  | some value => if (rank value).isSome then value else "unknown"

def capabilityOf (peer : Peer) : Capability :=
  let capability := peer.relayCapability.getD ⟨none, none, none, none, none, none⟩
  { visible := capability.visible != some false
    battery := known batteryRank capability.battery
    network := known networkRank capability.network
    capacity := min (capability.selfCapacity.getD 50) (capability.observedCapacity.getD 50)
    delivery := capability.deliveryRatio.getD 1 }

structure Rank where
  numbers : List Rat
  id : String

def relayRank (peer : Peer) : Rank :=
  let capability := capabilityOf peer
  { numbers := [if capability.visible then 1 else 0,
      (((batteryRank capability.battery).getD 0 : Nat) : Rat),
      (((networkRank capability.network).getD 0 : Nat) : Rat), capability.capacity,
      capability.delivery]
    id := peer.id }

/-- `compareRanks(left, right) <= 0`: the larger numbers come first. -/
def compareRanks (left right : Rank) : Bool :=
  match (left.numbers.zip right.numbers).find? (fun p => p.1 != p.2) with
  | some (l, r) => decide (r ≤ l)
  | none => idLe left.id right.id

def isEligibleRelay (peer : Peer) (blockedRelayIds : List String) : Bool :=
  let capability := capabilityOf peer
  peer.relayConsent && capability.visible && capability.battery != "critical"
    && capability.network != "constrained" && decide (25 ≤ capability.capacity)
    && decide (4 / 5 ≤ capability.delivery) && !blockedRelayIds.contains peer.id

/-- The first 22 characters of the digest. -/
def makeLeaseId (rootPeerId parentPeerId childPeerId : String) (routeEpoch : Int) : String :=
  String.ofList ((Sha256.base64 (utf8 (rootPeerId ++ "\x00" ++ parentPeerId ++ "\x00" ++ childPeerId
    ++ "\x00" ++ toString routeEpoch))).toList.take 22)

structure TopologyEdge where
  leaseId : String
  parentPeerId : String
  backupParentPeerId : Option String
  childPeerId : String
  depth : Int
  expiresAt : Int
deriving DecidableEq

/-- A peer that can take children. -/
structure Parent where
  peerId : String
  depth : Int
  children : Int
deriving DecidableEq

structure Limits where
  maxChildren : Int
  maxHops : Int
deriving DecidableEq

def Limits.room (limits : Limits) (candidate : Parent) : Bool :=
  decide (candidate.depth < limits.maxHops) && decide (candidate.children < limits.maxChildren)

/-- One child more at the first candidate with room. -/
def addChild (limits : Limits) : List Parent → List Parent
  | [] => []
  | p :: ps =>
      if limits.room p then { p with children := p.children + 1 } :: ps
      else p :: addChild limits ps

/-- What one tree is built from. -/
structure Tree where
  rootPeerId : String
  limits : Limits
  eligible : List String
  routeEpoch : Int
  expiresAt : Int

/-- The edge to a child under a parent. -/
def Tree.edge (t : Tree) (parents : List Parent) (parent : Parent) (childPeerId : String) :
    TopologyEdge :=
  let backup := parents.find? fun candidate =>
    candidate.peerId != parent.peerId && t.limits.room candidate && candidate.peerId != childPeerId
  { leaseId := makeLeaseId t.rootPeerId parent.peerId childPeerId t.routeEpoch
    parentPeerId := parent.peerId
    backupParentPeerId := (backup.map Parent.peerId).filter (· ≠ "")
    childPeerId := childPeerId
    depth := parent.depth + 1
    expiresAt := t.expiresAt }

/-- The loop over the peers that remain; it gives up where no parent has room. -/
def Tree.grow (t : Tree) : (remaining : List String) → List Parent → Option (List TopologyEdge)
  | [], _ => some []
  | childPeerId :: remaining, parents =>
      match parents.find? t.limits.room with
      | none => none
      | some parent =>
          let depth := parent.depth + 1
          let grown := addChild t.limits parents
            ++ if t.eligible.contains childPeerId && decide (depth < t.limits.maxHops) then
                [⟨childPeerId, depth, 0⟩]
              else []
          (t.grow remaining grown).map (t.edge parents parent childPeerId :: ·)

/-- The order in which peers are taken: eligible ones first, then by rank. -/
def takenLe (eligible : List String) (ranks : String → Option Rank) (left right : String) : Bool :=
  let rankOf := fun id => (ranks id).getD ⟨[0, 0, 0, 0, 0], id⟩
  if eligible.contains left != eligible.contains right then eligible.contains left
  else compareRanks (rankOf left) (rankOf right)

def sortedIds (ids : List String) : List String :=
  ids.dedup.insertionSort fun left right => idLe left right = true

def buildRelayTree (peerIds : List String) (rootPeerId : String) (eligibleRelayIds : List String)
    (limits : Limits) (routeEpoch expiresAt : Int) (ranks : String → Option Rank) :
    Except String (Option (List TopologyEdge)) := do
  let peers := sortedIds peerIds
  failIf (rootPeerId ∉ peers) "topology_root_missing"
  failIf (limits.maxChildren < 2 ∨ 5 < limits.maxChildren) "invalid_topology_max_children"
  failIf (limits.maxHops < 1 ∨ 4 < limits.maxHops) "invalid_topology_max_hops"
  let eligible := eligibleRelayIds.filter fun id => id ∈ peers ∧ id ≠ rootPeerId
  let remaining := (peers.filter (· ≠ rootPeerId)).insertionSort
    fun left right => takenLe eligible ranks left right = true
  return (Tree.mk rootPeerId limits eligible routeEpoch expiresAt).grow remaining [⟨rootPeerId, 0, 0⟩]

structure Epochs where
  membership : Int
  route : Int
  topology : Int

structure Options where
  enabled : Bool := true
  minimumParticipants : Int := 3
  maxChildren : Int := 3
  maxHops : Int := 3
  leaseMs : Int := 60000
  now : Int
  blockedRelayIds : List String := []

def Options.limits (options : Options) : Limits := ⟨options.maxChildren, options.maxHops⟩

structure TopologyRoute where
  rootPeerId : String
  scopeId : String
  mode : String
  edges : List TopologyEdge
deriving DecidableEq

structure TopologyState where
  membershipEpoch : Int
  routeEpoch : Int
  topologyEpoch : Int
  leaseExpiresAt : Int
  peers : List String
  routes : List TopologyRoute
deriving DecidableEq

/-- The rank a peer id is mapped to; a later peer of the same id wins. -/
def ranksOf (peers : List Peer) (id : String) : Option Rank :=
  (peers.reverse.find? (·.id = id)).map relayRank

/-- The tree of a route, where one is asked for. -/
def relayTree (peers : List Peer) (peerIds : List String) (epochs : Epochs) (options : Options)
    (rootPeerId : String) : Except String (Option (List TopologyEdge)) :=
  let eligible := ((peers.filter fun peer => isEligibleRelay peer options.blockedRelayIds).insertionSort
    fun left right => compareRanks (relayRank left) (relayRank right) = true).map Peer.id
  if options.enabled ∧ options.minimumParticipants ≤ peerIds.length
      ∧ options.maxChildren < (peerIds.length : Int) - 1 then
    buildRelayTree peerIds rootPeerId eligible options.limits epochs.route
      (options.now + options.leaseMs) (ranksOf peers)
  else .ok none

def buildRoute (peers : List Peer) (peerIds : List String) (epochs : Epochs) (options : Options)
    (rootPeerId : String) : Except String TopologyRoute := do
  let edges ← relayTree peers peerIds epochs options rootPeerId
  return {
    rootPeerId := rootPeerId
    scopeId := "video:" ++ rootPeerId
    mode := if edges.isSome then "trusted_peer_relay" else "adaptive_mesh"
    edges := edges.getD []
  }

def buildRoomTopology (peers : List Peer) (epochs : Epochs) (options : Options) :
    Except String TopologyState := do
  let peerIds := sortedIds (peers.map Peer.id)
  let routes ← peerIds.mapM (buildRoute peers peerIds epochs options)
  return {
    membershipEpoch := epochs.membership
    routeEpoch := epochs.route
    topologyEpoch := epochs.topology
    leaseExpiresAt := options.now + options.leaseMs
    peers := peerIds
    routes := routes
  }

/-! ## Validating -/

structure RawEdge where
  /-- whether all its keys are known ones -/
  known : Bool
  leaseId : String
  parentPeerId : String
  backupParentPeerId : Option String
  childPeerId : String
  depth : Option Int
  expiresAt : Option Int

structure RawRoute where
  known : Bool
  rootPeerId : String
  scopeId : String
  mode : String
  edges : Option (List (Option RawEdge))

structure RawState where
  known : Bool
  version : Option Int
  type : Option String
  membershipEpoch : Option Int
  routeEpoch : Option Int
  topologyEpoch : Option Int
  leaseExpiresAt : Option Int
  peers : Option (List (Option String))
  routes : Option (List (Option RawRoute))

/-- `/^[A-Za-z0-9_-]{22}$/` -/
def leaseIdOK (leaseId : String) : Bool := spanOK refByte 22 22 (utf8 leaseId)

/-- An edge that is added to the ones validated before it. -/
def validateEdge (members : List String) (limits : Limits) (leaseExpiresAt : Int)
    (edges : List TopologyEdge) (raw : Option RawEdge) : Option TopologyEdge :=
  match raw with
  | none => none
  | some edge =>
      match edge.depth, edge.expiresAt with
      | some depth, some expiresAt =>
          if edge.known = false ∨ edge.parentPeerId ∉ members ∨ edge.childPeerId ∉ members
              ∨ edge.parentPeerId = edge.childPeerId ∨ depth < 1 ∨ limits.maxHops < depth
              ∨ edge.childPeerId ∈ edges.map TopologyEdge.childPeerId
              ∨ leaseIdOK edge.leaseId = false ∨ expiresAt ≠ leaseExpiresAt
              ∨ (∃ backup ∈ edge.backupParentPeerId, backup ∉ members ∨ backup = edge.parentPeerId
                ∨ backup = edge.childPeerId) then none
          else if limits.maxChildren
              < ((edges.map TopologyEdge.parentPeerId).count edge.parentPeerId : Int) + 1 then none
          else some {
            leaseId := edge.leaseId
            parentPeerId := edge.parentPeerId
            backupParentPeerId := edge.backupParentPeerId
            childPeerId := edge.childPeerId
            depth := depth
            expiresAt := expiresAt
          }
      | _, _ => none

def validateEdges (members : List String) (limits : Limits) (leaseExpiresAt : Int) :
    List (Option RawEdge) → List TopologyEdge → Option (List TopologyEdge)
  | [], edges => some edges
  | raw :: raws, edges =>
      match validateEdge members limits leaseExpiresAt edges raw with
      | none => none
      | some edge => validateEdges members limits leaseExpiresAt raws (edges ++ [edge])

/-- `childParents.get(current) || ""`, where the empty text is none -/
def parentOf (edges : List TopologyEdge) (peerId : String) : Option String :=
  match (edges.find? fun edge => edge.childPeerId = peerId).map TopologyEdge.parentPeerId with
  | none => none
  | some "" => none
  | some parent => some parent

/-- What a relay route has to be besides its edges. -/
def relayOK (members : List String) (rootPeerId : String) (edges : List TopologyEdge) : Bool :=
  decide ((edges.length : Int) = (members.length : Int) - 1)
    && decide (rootPeerId ∉ edges.map TopologyEdge.childPeerId)
    && members.all fun member =>
      decide (member = rootPeerId)
        || Climbing.climbs (parentOf edges) rootPeerId (edges.length + 1) [member] member

def validateRoute (members : List String) (limits : Limits) (leaseExpiresAt : Int)
    (roots : List String) (raw : Option RawRoute) : Option TopologyRoute :=
  match raw with
  | none => none
  | some value =>
      if value.known = false ∨ value.rootPeerId ∉ members ∨ value.rootPeerId ∈ roots
          ∨ value.scopeId ≠ "video:" ++ value.rootPeerId
          ∨ (value.mode ≠ "adaptive_mesh" ∧ value.mode ≠ "trusted_peer_relay") then none
      else
        match value.edges with
        | none => none
        | some raws =>
            if max 0 ((members.length : Int) - 1) < raws.length then none
            else
              match validateEdges members limits leaseExpiresAt raws [] with
              | none => none
              | some edges =>
                  if (value.mode = "adaptive_mesh" ∧ edges ≠ [])
                      ∨ (value.mode = "trusted_peer_relay"
                        ∧ relayOK members value.rootPeerId edges = false) then none
                  else some {
                    rootPeerId := value.rootPeerId
                    scopeId := value.scopeId
                    mode := value.mode
                    edges := edges
                  }

def validateRoutes (members : List String) (limits : Limits) (leaseExpiresAt : Int) :
    List (Option RawRoute) → List TopologyRoute → Option (List TopologyRoute)
  | [], routes => some routes
  | raw :: raws, routes =>
      match validateRoute members limits leaseExpiresAt (routes.map TopologyRoute.rootPeerId) raw with
      | none => none
      | some route => validateRoutes members limits leaseExpiresAt raws (routes ++ [route])

/-- The epochs a browser has seen last. -/
structure Seen where
  lastEpoch : Int
  lastMembershipEpoch : Int
  lastRouteEpoch : Int

/-- What the epochs of a state have to be. -/
def epochsOK (seen : Seen) (membershipEpoch routeEpoch topologyEpoch : Int) : Prop :=
  1 ≤ membershipEpoch ∧ 1 ≤ routeEpoch ∧ 1 ≤ topologyEpoch
    ∧ seen.lastMembershipEpoch ≤ membershipEpoch ∧ seen.lastRouteEpoch < routeEpoch
    ∧ seen.lastEpoch < topologyEpoch

instance (seen : Seen) (m r t : Int) : Decidable (epochsOK seen m r t) :=
  inferInstanceAs (Decidable (_ ∧ _))

def validateTopologyState (raw : RawState) (peerIds : List String) (seen : Seen) (limits : Limits)
    (now : Int) : Option TopologyState :=
  if raw.known = false ∨ raw.version ≠ some 1 ∨ raw.type ≠ some "topology-state" then none
  else
    match raw.membershipEpoch, raw.routeEpoch, raw.topologyEpoch, raw.leaseExpiresAt with
    | some membershipEpoch, some routeEpoch, some topologyEpoch, some leaseExpiresAt =>
        let members := peerIds.dedup
        if ¬epochsOK seen membershipEpoch routeEpoch topologyEpoch ∨ leaseExpiresAt ≤ now
            ∨ now + 300000 < leaseExpiresAt then none
        else
          match raw.peers, raw.routes with
          | some peers, some rawRoutes =>
              if peers.length ≠ members.length
                  ∨ (∃ peer ∈ peers, ∀ id ∈ peer, id ∉ members) ∨ rawRoutes.length ≠ members.length then
                none
              else
                match validateRoutes members limits leaseExpiresAt rawRoutes [] with
                | none => none
                | some routes =>
                    if routes.length ≠ members.length then none
                    else some {
                      membershipEpoch := membershipEpoch
                      routeEpoch := routeEpoch
                      topologyEpoch := topologyEpoch
                      leaseExpiresAt := leaseExpiresAt
                      peers := sortedIds members
                      routes := routes
                    }
          | _, _ => none
    | _, _, _, _ => none

end Topology

end WebrtcMinimize
