import WebrtcMinimize.MediaElection

/-!
# The media-agent registry

The operations of the registry on its agents, consents and rooms, each with
the checks of the source in the source's order. An operation that throws
answers with the code and changes nothing; authentication and enrolment,
which use up the socket's challenge before they check anything, answer with
the registry as well. Whether a proof of identity is valid, what the
enrolment store hands out, and the random identifier of a takeover request
are inputs.
-/

namespace WebrtcMinimize

open Checks
open Keys

def authWindowMs : Nat := 30000

def maxMediaAgentConsents : Nat := 3

structure MediaAgentConfig where
  leaseMs : Nat
  maxStandbys : Nat
  minimumParticipants : Nat
  shardMinParticipants : Nat
  takeoverTtlMs : Nat
deriving DecidableEq, Repr

structure MediaAgentRegistry where
  agents : KeyedMap String MediaAgent
  bySocket : KeyedMap Nat String
  /-- When the challenge of a socket expires. -/
  challenges : KeyedMap Nat Nat
  consents : KeyedMap String (KeyedMap String MediaConsent)
  rooms : KeyedMap String MediaRoom

/-- The registry of a new control plane. -/
def MediaAgentRegistry.empty : MediaAgentRegistry := ⟨.empty, .empty, .empty, .empty, .empty⟩

/-- A member of a room, as the control plane knows it. -/
structure RoomPeer where
  id : String
  principal : String
  roomId : String
  creator : Bool
deriving DecidableEq, Repr

namespace MediaAgentRegistry

variable (registry : MediaAgentRegistry)

def setAgent (agent : MediaAgent) : MediaAgentRegistry :=
  { registry with agents := registry.agents.set agent.definition.id agent }

def setRoom (roomId : String) (room : MediaRoom) : MediaAgentRegistry :=
  { registry with rooms := registry.rooms.set roomId room }

/-- The agent authenticated on a socket. -/
def agentOf (socket : Nat) : Option MediaAgent :=
  (registry.bySocket.get socket).bind registry.agents.get

/-! ## Agents -/

def registerDefinition (definition : AgentDefinition) : Except String MediaAgentRegistry := do
  failIf ((registry.agents.get definition.id).isSome = true) "media_agent_id_conflict"
  return registry.setAgent
    { definition := definition, socket := none, lastSeen := 0, capability := defaultCapability,
      draining := false }

def issueChallenge (socket now : Nat) : MediaAgentRegistry :=
  { registry with challenges := registry.challenges.set socket (now + authWindowMs) }

/-- The socket's challenge is open and the message is timely. -/
def timely (socket timestamp now : Nat) : Bool :=
  match registry.challenges.get socket with
  | none => false
  | some expiresAt =>
      decide (now ≤ expiresAt) && decide (now ≤ timestamp + authWindowMs)
        && decide (timestamp ≤ now + authWindowMs)

def authenticate (socket : Nat) (agentId : String) (timestamp : Nat) (validProof : Bool)
    (now : Nat) : MediaAgentRegistry × Except String Unit :=
  let used := { registry with challenges := registry.challenges.erase socket }
  match registry.agents.get agentId with
  | none => (used, .error "agent_authentication_failed")
  | some agent =>
      if registry.timely socket timestamp now = false ∨ validProof = false then
        (used, .error "agent_authentication_failed")
      else
        let released := match agent.socket with
          | some other => if other = socket then used.bySocket else used.bySocket.erase other
          | none => used.bySocket
        ({ used with
            agents := used.agents.set agentId
              { agent with socket := some socket, lastSeen := now, draining := false }
            bySocket := released.set socket agentId }, .ok ())

/-- `completed` is the definition the enrolment store and the proof lead to. -/
def enroll (socket : Nat) (agentId : String) (timestamp : Nat)
    (completed : Option AgentDefinition) (now : Nat) : MediaAgentRegistry × Except String Unit :=
  let used := { registry with challenges := registry.challenges.erase socket }
  if registry.timely socket timestamp now = false
      ∨ (registry.agents.get agentId).isSome = true then (used, .error "agent_enrollment_failed")
  else match completed with
  | none => (used, .error "agent_enrollment_failed")
  | some definition =>
      match used.registerDefinition definition with
      | .error code => (used, .error code)
      | .ok registered => (registered, .ok ())

def revoke (agentId : String) : Except String MediaAgentRegistry :=
  match registry.agents.get agentId with
  | none => .error "media_agent_not_found"
  | some agent =>
      if agent.definition.publicKey = false then .error "media_agent_not_found"
      else
        let withdrawn := registry.consents.mapValues fun _ consents =>
          consents.keep fun _ consent => decide (consent.agentId ≠ agentId)
        .ok { registry with
          consents := withdrawn.keep fun _ consents => !consents.entries.isEmpty
          bySocket := match agent.socket with
            | some socket => registry.bySocket.erase socket
            | none => registry.bySocket
          agents := registry.agents.erase agentId }

def disconnect (socket : Nat) : MediaAgentRegistry :=
  let closed := { registry with
    bySocket := registry.bySocket.erase socket
    challenges := registry.challenges.erase socket }
  match registry.agentOf socket with
  | none => closed
  | some agent =>
      if agent.socket ≠ some socket then closed
      else closed.setAgent { agent with socket := none, lastSeen := 0, draining := false }

def setCapability (socket : Nat) (capability : AgentCapability) :
    Except String MediaAgentRegistry :=
  match registry.agentOf socket with
  | none => .error "agent_not_authenticated"
  | some agent => .ok (registry.setAgent { agent with capability := capability })

/-- The rooms the agent is the primary or a standby of. -/
def roomsForAgent (agentId : String) : List String :=
  ((registry.rooms.keep fun _ room =>
    decide (room.primaryId = agentId ∨ agentId ∈ room.standbyIds)).keys).insertionSort
      fun left right => Json.lexLe (utf8 left) (utf8 right) = true

def heartbeat (socket : Nat) (rooms : List (String × Nat)) (now : Nat) :
    Except String MediaAgentRegistry :=
  match registry.agentOf socket with
  | none => .error "agent_not_authenticated"
  | some agent => do
      let expectedRoomIds := registry.roomsForAgent agent.definition.id
      failIf (rooms.length ≠ expectedRoomIds.length ∨ ¬(rooms.map Prod.fst).Nodup)
        "stale_agent_lease"
      expectedRoomIds.forM fun roomId =>
        match registry.rooms.get roomId, rooms.lookup roomId with
        | some room, some routeEpoch =>
            failIf (room.routeEpoch ≠ routeEpoch
              ∨ agent.definition.id ∉ room.primaryId :: room.standbyIds) "stale_agent_lease"
        | _, _ => .error "stale_agent_lease"
      return registry.setAgent { agent with lastSeen := now }

def setDraining (socket : Nat) (enabled : Bool) (now : Nat) : Except String MediaAgentRegistry :=
  match registry.agentOf socket with
  | none => .error "agent_not_authenticated"
  | some agent => .ok (registry.setAgent { agent with draining := enabled, lastSeen := now })

/-! ## Consents -/

def consentKey (peerId agentId : String) : String := joined [peerId, agentId]

/-- The consents of a room, none where it has no entry. -/
def roomConsents (roomId : String) : KeyedMap String MediaConsent :=
  (registry.consents.get roomId).getD .empty

/-- The agent is registered and belongs to the principal. -/
def owns (principal agentId : String) : Bool :=
  match registry.agents.get agentId with
  | none => false
  | some agent => decide (agent.definition.ownerPrincipal = principal)

def setConsentSet (peer : RoomPeer) (agentIds : List String) (automaticTakeover : Bool)
    (creatorPrincipal : String) (now : Nat) : Except String MediaAgentRegistry := do
  failIf (maxMediaAgentConsents < agentIds.length ∨ ¬agentIds.Nodup)
    "invalid_media_agent_consent_set"
  agentIds.forM fun agentId =>
    failIf (registry.owns peer.principal agentId = false) "media_agent_not_owned"
  let cleared := (registry.roomConsents peer.roomId).keep fun _ consent =>
    decide (consent.peerId ≠ peer.id)
  if agentIds = [] then
    return { registry with
      consents := match registry.consents.get peer.roomId with
        | none => registry.consents
        | some _ =>
            if cleared.entries = [] then registry.consents.erase peer.roomId
            else registry.consents.set peer.roomId cleared }
  let creatorOwned := if creatorPrincipal = "" then peer.creator
    else decide (peer.principal = creatorPrincipal)
  let consents := (sorted agentIds).map fun agentId =>
    (⟨peer.id, peer.principal, agentId, automaticTakeover, creatorOwned, now⟩ : MediaConsent)
  return { registry with
    consents := registry.consents.set peer.roomId
      (consents.foldl (fun room consent => room.set (consentKey peer.id consent.agentId) consent)
        cleared) }

def setConsent (peer : RoomPeer) (enabled : Bool) (agentId : String) (automaticTakeover : Bool)
    (creatorPrincipal : String) (now : Nat) : Except String MediaAgentRegistry := do
  failIf (registry.owns peer.principal agentId = false) "media_agent_not_owned"
  registry.setConsentSet peer (if enabled then [agentId] else []) automaticTakeover
    creatorPrincipal now

end MediaAgentRegistry

end WebrtcMinimize
