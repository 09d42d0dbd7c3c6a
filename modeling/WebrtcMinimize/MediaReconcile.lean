import WebrtcMinimize.MediaRegistry

/-!
# Reconciling a room

`reconcile` brings the route of a room in line with its members, consents
and agents: it drops what has expired, gathers the candidates, lets the
election pick a primary and standbys, assigns the members to the
forwarders, and starts a new route epoch when any of that differs from what
the room had. A new epoch forgets every subscription and readiness report.
-/

namespace WebrtcMinimize

open Checks
open Keys

/-- What has expired or needs more participants is dropped before the election. -/
def MediaRoom.refresh (room : MediaRoom) (roomHasFanoutBenefit : Bool) (now : Nat) : MediaRoom :=
  { room with
    approved := room.approved.keep fun _ expiresAt => decide (now ≤ expiresAt)
    declined := room.declined.keep fun _ expiresAt => decide (now ≤ expiresAt)
    pending := if roomHasFanoutBenefit then
        room.pending.filter fun pending => now ≤ pending.expiresAt
      else none
    hadPrimary := room.hadPrimary && roomHasFanoutBenefit }

/-- The candidacy a consent gives, when its agent could serve the room. -/
def candidateFor (registry : MediaAgentRegistry) (config : MediaAgentConfig) (roomId : String)
    (members : List String) (now : Nat) (consent : MediaConsent) : Option MediaCandidate :=
  match registry.agents.get consent.agentId with
  | none => none
  | some agent =>
      let assignedRooms := registry.roomsForAgent consent.agentId
      if agent.socket = none ∨ agent.lastSeen + config.leaseMs < now
          ∨ agent.definition.ownerPrincipal ≠ consent.principal
          ∨ agent.capability.maxPeers < members.length then none
      else if roomId ∉ assignedRooms ∧ agent.capability.maxRooms ≤ assignedRooms.length then none
      else some { id := consent.agentId
                  ownerPeerId := consent.peerId
                  creatorOwned := consent.creatorOwned
                  automaticTakeover := consent.automaticTakeover
                  healthy := true
                  draining := agent.draining
                  capability := agent.capability }

/-- An agent that several members consent to is a candidate once; the
creator's consent replaces another. -/
def addCandidate (byAgent : KeyedMap String MediaCandidate) (candidate : MediaCandidate) :
    KeyedMap String MediaCandidate :=
  if (byAgent.get candidate.id).isNone || candidate.creatorOwned then
    byAgent.set candidate.id candidate
  else byAgent

def gatherCandidates (candidates : List MediaCandidate) : List MediaCandidate :=
  (candidates.foldl addCandidate .empty).values

/-- Members without an agent take the forwarders in turn. -/
def assignInTurn (forwarderIds : List String) : List String → Nat → KeyedMap String String →
    KeyedMap String String
  | [], _, assignments => assignments
  | member :: members, cursor, assignments =>
      if (assignments.get member).isSome then assignInTurn forwarderIds members cursor assignments
      else
        let agentId := forwarderIds.getD (cursor % forwarderIds.length) ""
        assignInTurn forwarderIds members (cursor + 1) (assignments.set member agentId)

/-- The primary's owner stays with the primary; the others take turns,
starting behind the primary when there are standbys. -/
def assignPublishers (forwarderIds : List String) (primaryId primaryOwnerPeerId : String)
    (members : List String) : KeyedMap String String :=
  if forwarderIds = [] then .empty
  else
    let orderedMembers := sorted members
    let owner := if primaryOwnerPeerId ∈ orderedMembers then
        KeyedMap.empty.set primaryOwnerPeerId primaryId
      else .empty
    assignInTurn forwarderIds orderedMembers (if 1 < forwarderIds.length then 1 else 0) owner

def assignmentSignature (assignments : KeyedMap String String) : String :=
  joined (assignments.entries.map fun entry => entry.1 ++ ":" ++ entry.2)

/-- A primary that is no candidate any more is dropped. -/
def MediaRoom.dropPrimary (room : MediaRoom) (currentHealthy : Bool) : MediaRoom :=
  { room with primaryId := if currentHealthy then room.primaryId else "" }

/-- The route a reconciliation decides on. -/
structure RoomRoute where
  primaryId : String
  standbyIds : List String
  forwarderIds : List String
  assignments : KeyedMap String String
  pending : Option TakeoverPending

/-- The election over the candidates and the assignments that follow from it.
The room has been refreshed, and its primary is gone unless `currentHealthy`. -/
def decideRoute (config : MediaAgentConfig) (room : MediaRoom) (candidates : List MediaCandidate)
    (currentHealthy : Bool) (members : List String) (requestId : String) (now : Nat) : RoomRoute :=
  let failover := room.hadPrimary && !currentHealthy
  let plan := planMediaAgents
    (candidates.filter fun candidate => (room.declined.get candidate.id).isNone)
    room.primaryId config.maxStandbys failover room.approved.keys
  let elected := match plan.primary with
    | some primary => primary.id
    | none => ""
  let primaryId := if plan.takeover.isSome && decide (room.primaryId ≠ "") && currentHealthy then
      room.primaryId
    else elected
  let pending := match plan.takeover with
    | some takeover =>
        match room.pending with
        | some pending =>
            if pending.agentId ≠ takeover.id then
              some ⟨requestId, takeover.id, takeover.candidate.ownerPeerId,
                now + config.takeoverTtlMs, takeover.candidate.creatorOwned⟩
            else some pending
        | none => some ⟨requestId, takeover.id, takeover.candidate.ownerPeerId,
            now + config.takeoverTtlMs, takeover.candidate.creatorOwned⟩
    | none => room.pending.filter fun pending => pending.agentId ≠ primaryId
  let standbyIds := (plan.standbys.map RankedCandidate.id).filter (· ≠ primaryId)
  let forwarderIds := if primaryId = "" then []
    else primaryId :: if config.shardMinParticipants ≤ members.length then standbyIds else []
  let primaryOwnerPeerId := match plan.ranked.find? fun candidate => candidate.id = primaryId with
    | some candidate => candidate.candidate.ownerPeerId
    | none => ""
  { primaryId := primaryId
    standbyIds := standbyIds
    forwarderIds := forwarderIds
    assignments := assignPublishers forwarderIds primaryId primaryOwnerPeerId members
    pending := pending }

/-- The route differs from the one the room has. -/
def MediaRoom.differs (room : MediaRoom) (route : RoomRoute) (membershipEpoch : Nat) : Bool :=
  room.membershipEpoch ≠ membershipEpoch ∨ room.primaryId ≠ route.primaryId
    ∨ joined room.standbyIds ≠ joined route.standbyIds
    ∨ joined room.forwarderIds ≠ joined route.forwarderIds
    ∨ assignmentSignature room.publisherAssignments ≠ assignmentSignature route.assignments

/-- A new route epoch starts without subscriptions and readiness. -/
def MediaRoom.nextEpoch (room : MediaRoom) : MediaRoom :=
  { room with
    routeEpoch := room.routeEpoch + 1
    browserReady := .empty
    agentReady := .empty
    subscriptions := .empty
    agentSubscriptions := .empty
    publicationLayers := .empty
    federationReady := .empty }

/-- The room takes the route and, where it differs, a new epoch. -/
def MediaRoom.install (room : MediaRoom) (config : MediaAgentConfig) (roomId : String)
    (route : RoomRoute) (members : List String) (membershipEpoch now : Nat) : MediaRoom :=
  let moved := room.differs route membershipEpoch || room.routeEpoch == 0
  let epoch := if moved then room.nextEpoch else room
  let federation := buildFederationPlan roomId epoch.routeEpoch route.forwarderIds
    route.assignments route.assignments members
  { epoch with
    membershipEpoch := membershipEpoch
    primaryId := route.primaryId
    standbyIds := route.standbyIds
    forwarderIds := route.forwarderIds
    publisherAssignments := route.assignments
    subscriberAssignments := route.assignments
    pending := route.pending
    federationLinks := federation.links
    federationRoutes := federation.routes
    leaseExpiresAt := now + config.leaseMs
    hadPrimary := room.hadPrimary || decide (route.primaryId ≠ "") }

namespace MediaAgentRegistry

variable (registry : MediaAgentRegistry)

/-- The candidates of a room, none where a route would not save any uploads. -/
def candidates (config : MediaAgentConfig) (roomId : String) (members : List String)
    (now : Nat) : List MediaCandidate :=
  if config.minimumParticipants ≤ members.length then
    gatherCandidates ((registry.roomConsents roomId).values.filterMap
      (candidateFor registry config roomId members now))
  else []

/-- The consents of members that are gone are dropped. -/
def keepConsents (roomId : String) (members : List String) : MediaAgentRegistry :=
  match registry.consents.get roomId with
  | none => registry
  | some consents => { registry with
      consents := registry.consents.set roomId
        (consents.keep fun _ consent => decide (consent.peerId ∈ members)) }

/-- The room's new state; the registry holds the room and its members' consents only. -/
def reconcileRoom (config : MediaAgentConfig) (roomId : String) (room : MediaRoom)
    (members : List String) (membershipEpoch : Nat) (requestId : String) (now : Nat) : MediaRoom :=
  let refreshed := room.refresh (decide (config.minimumParticipants ≤ members.length)) now
  let candidates := registry.candidates config roomId members now
  let currentHealthy := candidates.any fun candidate => candidate.id = room.primaryId
  let settled := refreshed.dropPrimary currentHealthy
  settled.install config roomId
    (decideRoute config settled candidates currentHealthy members requestId now)
    members membershipEpoch now

def reconcile (config : MediaAgentConfig) (roomId : String) (members : List String)
    (membershipEpoch : Nat) (requestId : String) (now : Nat) : MediaAgentRegistry :=
  let room := (registry.rooms.get roomId).getD (.new membershipEpoch)
  let known := (registry.setRoom roomId room).keepConsents roomId members
  known.setRoom roomId
    (known.reconcileRoom config roomId room members membershipEpoch requestId now)

end MediaAgentRegistry

end WebrtcMinimize
