import WebrtcMinimize.MediaTakeover

/-!
# Route epochs

A room's route epoch counts the routes it had. A reconciliation tells
routes apart by joined texts, which is faithful because identifiers follow
the protocol's patterns, and it blanks a lost primary before it compares,
which the forwarders make up for (`fresher_reconcile`). So between any two
states of a run the epoch of a room that was not removed has not fallen,
and it has risen where the routes differ (`fresher_run`).
-/

namespace WebrtcMinimize

open Checks Runs
open Keys MediaAgentRegistry KeyedMap List MediaRoom
open Option hiding all_eq_true map_map or_assoc

/-! ## Identifiers -/

variable {s : String}

section

variable (h : mediaAgentIdOK s = true)

include h

theorem not_mem_of_mediaAgentIdOK {c : Char}
    (hascii : c.toNat < 128) (hc : (lowerDigit c.toNat || c.toNat == '-'.toNat) = false) :
    c ∉ s.toList := by
  intro hmem
  have hin := mem_utf8_of_mem hascii hmem
  rw [mediaAgentIdOK] at h
  split at h
  · rename_i b bs hbytes
    rw [hbytes] at hin
    rw [Bool.and_eq_true, spanOK, Bool.and_eq_true, Bool.and_eq_true, all_eq_true] at h
    rw [Bool.or_eq_false_iff] at hc
    rcases mem_cons.mp hin with heq | hrest
    · rw [heq, h.1] at hc
      cases hc.1
    · have hclass := h.2.1.1 c.toNat hrest
      rw [hc.1, hc.2] at hclass
      cases hclass
  · cases h

theorem nulFree_of_mediaAgentIdOK : NulFree s :=
  not_mem_of_mediaAgentIdOK h (by decide) (by decide)

theorem ne_empty_of_mediaAgentIdOK : s ≠ "" := by
  rintro rfl
  revert h
  decide

end

theorem nulFree_of_peerIdOK (h : peerIdOK s = true) : NulFree s :=
  not_mem_of_spanOK h (by decide) (by decide)

/-- The identifiers that a call brings into the registry follow the
protocol's patterns. -/
def MediaEvent.Named : MediaEvent → Prop
  | .registerDefinition definition => mediaAgentIdOK definition.id = true
  | .enroll _ _ _ (some definition) _ => mediaAgentIdOK definition.id = true
  | .reconcile _ members _ _ _ => ∀ member ∈ members, peerIdOK member = true
  | _ => True

/-- The calls of a registry whose callers keep to the patterns. -/
abbrev NamedStep (config : MediaAgentConfig) :=
  Guarded (MediaStep config) fun _ e => e.Named

/-! ## Agents -/

/-- The registry keeps its agents under their identifiers. -/
def KnownAgents (s : MediaAgentRegistry) : Prop :=
  ∀ agentId agent, s.agents.get agentId = some agent →
    agent.definition.id = agentId ∧ mediaAgentIdOK agentId = true

section

variable {config : MediaAgentConfig} {s t : MediaAgentRegistry}

section

variable (h : KnownAgents s)

include h

theorem KnownAgents.setAgent {agent : MediaAgent}
    (hid : mediaAgentIdOK agent.definition.id = true) : KnownAgents (s.setAgent agent) := by
  intro agentId other hget
  have hset : (s.agents.set agent.definition.id agent).get agentId = some other := hget
  rw [get_set] at hset
  split at hset
  · rename_i heq
    exact ⟨some.inj hset ▸ heq.symm, heq ▸ hid⟩
  · exact h agentId other hset

theorem KnownAgents.agentOf {socket : Nat} {agent : MediaAgent}
    (hagent : s.agentOf socket = some agent) : mediaAgentIdOK agent.definition.id = true := by
  obtain ⟨agentId, -, hget⟩ := bind_eq_some_iff.mp hagent
  obtain ⟨heq, hok⟩ := h agentId agent hget
  rwa [heq]

theorem KnownAgents.congr (hagents : t.agents = s.agents) : KnownAgents t := by
  rwa [KnownAgents, hagents]

theorem KnownAgents.registerDefinition {definition : AgentDefinition}
    (hid : mediaAgentIdOK definition.id = true) (hok : s.registerDefinition definition = .ok t) :
    KnownAgents t := by
  simp only [MediaAgentRegistry.registerDefinition, bind_ok_iff, pure_ok_iff] at hok
  obtain ⟨-, -, rfl⟩ := hok
  exact h.setAgent hid

theorem KnownAgents.orKeep {outcome : Except String MediaAgentRegistry}
    (hok : ∀ changed, outcome = .ok changed → KnownAgents changed) :
    KnownAgents (orKeep s outcome) := by
  cases outcome with
  | error code => exact h
  | ok changed => exact hok changed rfl

end

/-- The call changed one room at most, and nothing else. -/
def TouchesRoom (s t : MediaAgentRegistry) : Prop :=
  t = s ∨ ∃ roomId room, t = s.setRoom roomId room

theorem TouchesRoom.agents (h : TouchesRoom s t) : t.agents = s.agents := by
  rcases h with rfl | ⟨roomId, room, rfl⟩
  · rfl
  · rfl

variable {roomId : String}

theorem TouchesRoom.persists (h : TouchesRoom s t)
    (hroom : (s.rooms.get roomId).isSome = true) : (t.rooms.get roomId).isSome = true := by
  rcases h with rfl | ⟨changedId, room, rfl⟩
  · exact hroom
  · rw [get_setRoom]
    split
    · rfl
    · exact hroom

theorem touches_updateRoom (roomId : String) (change : MediaRoom → MediaRoom) :
    TouchesRoom s (s.updateRoom roomId change) := by
  rw [updateRoom]
  split
  · exact .inl rfl
  · exact .inr ⟨_, _, rfl⟩

variable {now : Nat} {peer : RoomPeer}

theorem agents_setConsentSet {agentIds : List String} {automaticTakeover : Bool}
    {creatorPrincipal : String}
    (h : s.setConsentSet peer agentIds automaticTakeover creatorPrincipal now = .ok t) :
    t.agents = s.agents := by
  simp only [setConsentSet, bind_ok_iff] at h
  obtain ⟨-, -, -, -, h⟩ := h
  split at h
  · simp only [pure_ok_iff] at h
    exact h ▸ rfl
  · simp only [pure_ok_iff] at h
    exact h ▸ rfl

theorem touches_respondToTakeover {requestId : String} {accepted : Bool}
    (h : s.respondToTakeover config peer requestId accepted now = .ok t) :
    TouchesRoom s t := by
  unfold respondToTakeover at h
  split at h
  · cases h
  · split at h
    · cases h
    · simp only [bind_ok_iff, pure_ok_iff] at h
      obtain ⟨-, -, rfl⟩ := h
      exact .inr ⟨_, _, rfl⟩

variable {agentId : String} {routeEpoch : Nat}

theorem touches_setPublicationLayerState
    {publisherPeerId publicationId : String} {source : MediaSource} {layer : MediaLayer}
    {active : Bool}
    (h : s.setPublicationLayerState roomId agentId routeEpoch publisherPeerId publicationId source
      layer active now = .ok t) : TouchesRoom s t := by
  unfold setPublicationLayerState at h
  split at h
  · cases h
  · simp only [bind_ok_iff] at h
    obtain ⟨-, -, h⟩ := h
    split at h
    · split at h
      · cases h
        exact .inl rfl
      · cases h
        exact .inr ⟨_, _, rfl⟩
    · simp only [bind_ok_iff, pure_ok_iff] at h
      obtain ⟨-, -, rfl⟩ := h
      exact .inr ⟨_, _, rfl⟩

theorem touches_setSubscriptionIntent {input : SubscriptionIntent}
    {source : Option MediaSource} {plan : SubscriptionPlan}
    (h : s.setSubscriptionIntent peer input source now = .ok (t, plan)) : TouchesRoom s t := by
  unfold setSubscriptionIntent at h
  split at h
  · simp only [bind_ok_iff, pure_ok_iff, Prod.mk.injEq] at h
    obtain ⟨-, -, rfl, -⟩ := h
    exact .inr ⟨_, _, rfl⟩
  · cases h

theorem touches_setAgentSubscriptionState
    {subscriberPeerId publisherPeerId publicationId : String} {revision : Nat}
    {selectedLayer : MediaLayer} {ready : Bool} {applied : AppliedSubscription}
    (h : s.setAgentSubscriptionState roomId agentId routeEpoch subscriberPeerId publisherPeerId
      publicationId revision selectedLayer ready now = .ok (t, applied)) : TouchesRoom s t := by
  unfold setAgentSubscriptionState at h
  split at h
  · simp only [bind_ok_iff, pure_ok_iff, Prod.mk.injEq] at h
    obtain ⟨-, -, rfl, -⟩ := h
    exact .inr ⟨_, _, rfl⟩
  · cases h

variable {connected : Bool}

theorem touches_setBrowserPeerState {peerId : String}
    (h : s.setBrowserPeerState roomId agentId routeEpoch peerId connected now = .ok t) :
    TouchesRoom s t := by
  simp only [setBrowserPeerState, bind_ok_iff, pure_ok_iff] at h
  obtain ⟨-, -, rfl⟩ := h
  exact touches_updateRoom _ _

theorem touches_setAgentPeerState {socket : Nat} {peerId : String}
    (h : s.setAgentPeerState socket roomId peerId routeEpoch connected now = .ok t) :
    TouchesRoom s t := by
  unfold setAgentPeerState at h
  split at h
  · cases h
  · simp only [bind_ok_iff, pure_ok_iff] at h
    obtain ⟨-, -, rfl⟩ := h
    exact touches_updateRoom _ _

theorem touches_setFederationState {socket : Nat} {linkId remoteAgentId : String}
    (h : s.setFederationState socket roomId routeEpoch linkId remoteAgentId connected now = .ok t) :
    TouchesRoom s t := by
  unfold setFederationState at h
  split at h
  · cases h
  · simp only [bind_ok_iff, pure_ok_iff] at h
    obtain ⟨-, -, rfl⟩ := h
    exact touches_updateRoom _ _

section

variable (h : KnownAgents s)

include h

theorem KnownAgents.authenticate (socket : Nat) (agentId : String)
    (timestamp : Nat) (validProof : Bool) (now : Nat) :
    KnownAgents (s.authenticate socket agentId timestamp validProof now).1 := by
  rw [MediaAgentRegistry.authenticate]
  split
  · exact h
  · rename_i agent hagent
    split
    · exact h
    · obtain ⟨hid, hok⟩ := h agentId agent hagent
      intro otherId other hget
      have hset : (s.agents.set agentId
          { agent with socket := some socket, lastSeen := now, draining := false }).get otherId
          = some other := hget
      rw [get_set] at hset
      split at hset
      · rename_i heq
        exact ⟨some.inj hset ▸ hid.trans heq.symm, heq ▸ hok⟩
      · exact h otherId other hset

theorem KnownAgents.enroll {socket : Nat} {agentId : String} {timestamp : Nat}
    {completed : Option AgentDefinition} {now : Nat}
    (hnamed : (MediaEvent.enroll socket agentId timestamp completed now).Named) :
    KnownAgents (s.enroll socket agentId timestamp completed now).1 := by
  unfold MediaAgentRegistry.enroll
  split
  · exact h
  · split
    · exact h
    · dsimp only
      split
      · exact h
      · rename_i hregistered
        have hused : KnownAgents { s with challenges := s.challenges.erase socket } := h
        exact hused.registerDefinition hnamed hregistered

theorem KnownAgents.revoke {agentId : String}
    (hok : s.revoke agentId = .ok t) : KnownAgents t := by
  rw [MediaAgentRegistry.revoke] at hok
  split at hok
  · cases hok
  · split at hok
    · cases hok
    · cases hok
      exact fun otherId other hget => h otherId other (get_keep_eq_some_iff.mp hget).1

theorem KnownAgents.disconnect (socket : Nat) :
    KnownAgents (s.disconnect socket) := by
  rw [MediaAgentRegistry.disconnect]
  split
  · exact h
  · rename_i agent hagent
    split
    · exact h
    · have hid := h.agentOf hagent
      have hclosed : KnownAgents { s with
          bySocket := s.bySocket.erase socket, challenges := s.challenges.erase socket } := h
      exact hclosed.setAgent hid

end

theorem knownAgents_step {e : MediaEvent} (hstep : NamedStep config s e t) (h : KnownAgents s) :
    KnownAgents t := by
  obtain ⟨rfl, hnamed⟩ := hstep
  cases e with
  | registerDefinition definition =>
      exact h.orKeep fun _ hok => h.registerDefinition hnamed hok
  | issueChallenge socket now => exact h
  | authenticate socket agentId timestamp validProof now =>
      exact h.authenticate socket agentId timestamp validProof now
  | enroll socket agentId timestamp completed now => exact h.enroll hnamed
  | revoke agentId => exact h.orKeep fun _ hok => h.revoke hok
  | disconnect socket => exact h.disconnect socket
  | setCapability socket capability =>
      refine h.orKeep fun changed hok => ?_
      rw [setCapability] at hok
      split at hok
      · cases hok
      · rename_i hagent
        have hid := h.agentOf hagent
        cases hok
        exact h.setAgent hid
  | heartbeat socket rooms now =>
      refine h.orKeep fun changed hok => ?_
      rw [heartbeat] at hok
      split at hok
      · cases hok
      · rename_i hagent
        have hid := h.agentOf hagent
        simp only [bind_ok_iff, pure_ok_iff] at hok
        obtain ⟨-, -, -, -, rfl⟩ := hok
        exact h.setAgent hid
  | setDraining socket enabled now =>
      refine h.orKeep fun changed hok => ?_
      rw [setDraining] at hok
      split at hok
      · cases hok
      · rename_i hagent
        have hid := h.agentOf hagent
        cases hok
        exact h.setAgent hid
  | setConsent peer enabled agentId automaticTakeover creatorPrincipal now =>
      refine h.orKeep fun changed hok => h.congr ?_
      simp only [setConsent, bind_ok_iff] at hok
      obtain ⟨-, -, hok⟩ := hok
      exact agents_setConsentSet hok
  | setConsentSet peer agentIds automaticTakeover creatorPrincipal now =>
      exact h.orKeep fun _ hok => h.congr (agents_setConsentSet hok)
  | leavePeer peer =>
      refine h.congr ((touches_updateRoom _ _).agents.trans ?_)
      split <;> rfl
  | removePublisherSource roomId publisherPeerId source => exact h.congr (touches_updateRoom _ _).agents
  | removeRoom roomId => exact h
  | respondToTakeover peer requestId accepted now =>
      exact h.orKeep fun _ hok => h.congr (touches_respondToTakeover hok).agents
  | reconcile roomId members membershipEpoch requestId now => exact h.congr agents_known
  | setPublicationLayerState roomId agentId routeEpoch publisherPeerId publicationId source layer
      active now => exact h.orKeep fun _ hok => h.congr (touches_setPublicationLayerState hok).agents
  | setSubscriptionIntent peer input source now =>
      refine h.orKeep fun changed hok => ?_
      obtain ⟨⟨_, plan⟩, hintent, rfl⟩ := map_ok hok
      exact h.congr (touches_setSubscriptionIntent hintent).agents
  | revokeSubscriptions roomId allowed => exact h.congr (touches_updateRoom _ _).agents
  | setAgentSubscriptionState roomId agentId routeEpoch subscriberPeerId publisherPeerId
      publicationId revision selectedLayer ready now =>
      refine h.orKeep fun changed hok => ?_
      obtain ⟨⟨_, applied⟩, hreport, rfl⟩ := map_ok hok
      exact h.congr (touches_setAgentSubscriptionState hreport).agents
  | acknowledgeSubscription peer input now => exact h
  | setBrowserPeerState roomId agentId routeEpoch peerId connected now =>
      exact h.orKeep fun _ hok => h.congr (touches_setBrowserPeerState hok).agents
  | setAgentPeerState socket roomId peerId routeEpoch connected now =>
      exact h.orKeep fun _ hok => h.congr (touches_setAgentPeerState hok).agents
  | setFederationState socket roomId routeEpoch linkId remoteAgentId connected now =>
      exact h.orKeep fun _ hok => h.congr (touches_setFederationState hok).agents

end

/-! ## The candidates and their ranking -/

/-- What is gathered is kept under the candidates' identifiers. -/
theorem get_foldl_addCandidate {agentId : String} {c : MediaCandidate} :
    ∀ {cs : List MediaCandidate} {byAgent : KeyedMap String MediaCandidate},
      (∀ agentId c, byAgent.get agentId = some c → c.id = agentId) →
        (cs.foldl addCandidate byAgent).get agentId = some c → c.id = agentId
  | [], _, h, hget => h agentId c hget
  | d :: cs, byAgent, h, hget => by
      have hrest : (cs.foldl addCandidate (addCandidate byAgent d)).get agentId = some c := hget
      refine get_foldl_addCandidate (fun otherId other hother => ?_) hrest
      rw [addCandidate] at hother
      split at hother
      · rw [get_set] at hother
        split at hother
        · rename_i heq
          exact some.inj hother ▸ heq.symm
        · exact h otherId other hother
      · exact h otherId other hother

theorem nodup_gatherCandidates (cs : List MediaCandidate) :
    ((gatherCandidates cs).map MediaCandidate.id).Nodup := by
  have hkeys : (gatherCandidates cs).map MediaCandidate.id
      = (cs.foldl addCandidate .empty).entries.map Prod.fst := by
    rw [gatherCandidates, values, map_map]
    refine map_congr_left fun entry hentry => ?_
    exact get_foldl_addCandidate (fun _ _ h => by cases h) (get_eq_some_iff.mpr hentry)
  exact hkeys ▸ (cs.foldl addCandidate .empty).nodup

theorem nodup_rankMediaAgents {candidates : List MediaCandidate}
    (h : (candidates.map MediaCandidate.id).Nodup) :
    ((rankMediaAgents candidates).map RankedCandidate.id).Nodup := by
  have hscored : ((candidates.filterMap fun candidate =>
      (mediaAgentScore candidate).map fun score => (⟨candidate, score⟩ : RankedCandidate)).map
        RankedCandidate.candidate).Sublist candidates := by
    refine map_filterMap_sublist (fun candidate ranked hranked => ?_) candidates
    obtain ⟨score, -, rfl⟩ := map_eq_some_iff.mp hranked
    rfl
  have hids := h.sublist (hscored.map MediaCandidate.id)
  rw [map_map] at hids
  exact ((perm_insertionSort RankLe _).map RankedCandidate.id).nodup_iff.mpr hids

section

variable {config : MediaAgentConfig} {s : MediaAgentRegistry} {roomId : String}
  {members : List String} {membershipEpoch now : Nat}

theorem nodup_candidates : ((s.candidates config roomId members now).map MediaCandidate.id).Nodup := by
  rw [candidates]
  split
  · exact nodup_gatherCandidates _
  · exact nodup_nil

theorem idOK_candidates (h : KnownAgents s) {candidate : MediaCandidate}
    (hmem : candidate ∈ (s.known roomId members membershipEpoch).candidates config roomId members
      now) : mediaAgentIdOK candidate.id = true := by
  obtain ⟨agent, consent, hserves, rfl⟩ := serves_of_mem_candidates hmem
  exact (h _ _ hserves.registered).2

end

/-! ## The assignments -/

section

variable {forwarderIds : List String}

theorem assignInTurn_spec (hne : forwarderIds ≠ []) : ∀ (members : List String) (cursor : Nat)
    (assignments : KeyedMap String String),
      (∀ peerId agentId, assignments.get peerId = some agentId → agentId ∈ forwarderIds) →
        (∀ peerId, ((assignInTurn forwarderIds members cursor assignments).get peerId).isSome = true
          ↔ peerId ∈ members ∨ (assignments.get peerId).isSome = true)
        ∧ ∀ peerId agentId, (assignInTurn forwarderIds members cursor assignments).get peerId
          = some agentId → agentId ∈ forwarderIds
  | [], _, assignments, h => ⟨fun _ => by simp [assignInTurn], h⟩
  | member :: members, cursor, assignments, h => by
      rw [assignInTurn]
      split
      · rename_i hassigned
        obtain ⟨hall, hto⟩ := assignInTurn_spec hne members cursor assignments h
        refine ⟨fun peerId => (hall peerId).trans ?_, hto⟩
        rw [mem_cons, or_assoc]
        refine ⟨.inr, ?_⟩
        rintro (rfl | hrest)
        · exact .inr hassigned
        · exact hrest
      · have hlt : cursor % forwarderIds.length < forwarderIds.length :=
          Nat.mod_lt _ (length_pos_iff.mpr hne)
        obtain ⟨hall, hto⟩ := assignInTurn_spec hne members (cursor + 1)
          (assignments.set member (forwarderIds.getD (cursor % forwarderIds.length) "")) (by
            intro peerId agentId hget
            rw [get_set] at hget
            split at hget
            · rw [← some.inj hget, getD_eq_getElem?_getD, getElem?_eq_getElem hlt]
              exact getElem_mem hlt
            · exact h peerId agentId hget)
        refine ⟨fun peerId => (hall peerId).trans ?_, hto⟩
        rw [get_set, mem_cons]
        split
        · simp [*]
        · simp [*]

theorem assignPublishers_spec {primaryId primaryOwnerPeerId : String} {members : List String}
    (hprimary : forwarderIds ≠ [] → primaryId ∈ forwarderIds) :
    (∀ peerId, ((assignPublishers forwarderIds primaryId primaryOwnerPeerId members).get
        peerId).isSome = true ↔ peerId ∈ members ∧ forwarderIds ≠ [])
      ∧ ∀ peerId agentId, (assignPublishers forwarderIds primaryId primaryOwnerPeerId members).get
        peerId = some agentId → agentId ∈ forwarderIds := by
  rw [assignPublishers]
  split
  · rename_i hnil
    exact ⟨fun peerId => by simp [hnil], fun _ _ h => by cases h⟩
  · rename_i hne
    have howner : ∀ peerId agentId, (if primaryOwnerPeerId ∈ sorted members then
        empty.set primaryOwnerPeerId primaryId else .empty).get peerId = some agentId →
          peerId ∈ members ∧ agentId ∈ forwarderIds := by
      intro peerId agentId hget
      split at hget
      · rename_i hmember
        rw [get_set] at hget
        split at hget
        · rename_i heq
          exact ⟨heq ▸ mem_sorted.mp hmember, some.inj hget ▸ hprimary hne⟩
        · cases hget
      · cases hget
    obtain ⟨hall, hto⟩ := assignInTurn_spec hne (sorted members)
      (if 1 < forwarderIds.length then 1 else 0) _ fun peerId agentId h =>
        (howner peerId agentId h).2
    refine ⟨fun peerId => (hall peerId).trans ?_, hto⟩
    rw [mem_sorted]
    refine ⟨fun h => ⟨h.elim id fun hsome => ?_, hne⟩, fun h => .inl h.1⟩
    obtain ⟨agentId, hget⟩ := isSome_iff_exists.mp hsome
    exact (howner peerId agentId hget).1

end

/-! ## The route decided on -/

/-- What holds of a route whatever the election says. -/
structure RoomRoute.Fits (config : MediaAgentConfig) (members : List String) (route : RoomRoute) :
    Prop where
  leads : route.primaryId = "" ∧ route.forwarderIds = []
    ∨ route.primaryId ≠ "" ∧ ∃ shards, route.forwarderIds = route.primaryId :: shards
      ∧ (shards = route.standbyIds ∨ shards = [])
  primary : route.primaryId ≠ "" → mediaAgentIdOK route.primaryId = true
  standbys : ∀ agentId ∈ route.standbyIds, mediaAgentIdOK agentId = true
  nodup : (route.primaryId :: route.standbyIds).Nodup
  few : route.standbyIds.length ≤ config.maxStandbys
  assigned : ∀ peerId, (route.assignments.get peerId).isSome = true
    ↔ peerId ∈ members ∧ route.forwarderIds ≠ []
  assigns : ∀ peerId agentId, route.assignments.get peerId = some agentId →
    agentId ∈ route.forwarderIds

section

variable {config : MediaAgentConfig} {members : List String} {route : RoomRoute}

section

variable (h : route.Fits config members)

include h

theorem RoomRoute.Fits.forwards :
    route.forwarderIds = [] ↔ route.primaryId = "" := by
  rcases h.leads with ⟨hprimary, hnil⟩ | ⟨hprimary, shards, hcons, -⟩
  · simp [hprimary, hnil]
  · simp [hprimary, hcons]

theorem RoomRoute.Fits.forwarder {agentId : String}
    (hmem : agentId ∈ route.forwarderIds) :
    agentId = route.primaryId ∨ agentId ∈ route.standbyIds := by
  rcases h.leads with ⟨-, hnil⟩ | ⟨-, shards, hcons, hshards⟩
  · rw [hnil] at hmem
    exact absurd hmem not_mem_nil
  · rw [hcons] at hmem
    refine (mem_cons.mp hmem).imp_right fun hin => ?_
    rcases hshards with rfl | rfl
    · exact hin
    · exact absurd hin not_mem_nil

theorem RoomRoute.Fits.forwarderOK {agentId : String}
    (hmem : agentId ∈ route.forwarderIds) : mediaAgentIdOK agentId = true := by
  rcases h.forwarder hmem with rfl | hstandby
  · exact h.primary fun hnone => by
      rw [h.forwards.mpr hnone] at hmem
      exact not_mem_nil hmem
  · exact h.standbys agentId hstandby

end

variable (config members) (room : MediaRoom) (candidates : List MediaCandidate)
  (currentHealthy : Bool) (requestId : String) (now : Nat)

theorem decideRoute_leads :
    let route := decideRoute config room candidates currentHealthy members requestId now
    route.primaryId = "" ∧ route.forwarderIds = []
      ∨ route.primaryId ≠ "" ∧ ∃ shards, route.forwarderIds = route.primaryId :: shards
        ∧ (shards = route.standbyIds ∨ shards = []) := by
  intro route
  have hforwarders : route.forwarderIds = if route.primaryId = "" then []
      else route.primaryId :: if config.shardMinParticipants ≤ members.length then route.standbyIds
        else [] := rfl
  by_cases hnone : route.primaryId = ""
  · exact .inl ⟨hnone, hforwarders.trans (if_pos hnone)⟩
  · refine .inr ⟨hnone, _, hforwarders.trans (if_neg hnone), ?_⟩
    split
    · exact .inl rfl
    · exact .inr rfl

theorem decideRoute_assignments :
    let route := decideRoute config room candidates currentHealthy members requestId now
    ∃ primaryOwnerPeerId, route.assignments
      = assignPublishers route.forwarderIds route.primaryId primaryOwnerPeerId members :=
  ⟨_, rfl⟩

/-- The standbys are the ranked candidates' best, without the primary. -/
theorem decideRoute_standbyIds :
    let route := decideRoute config room candidates currentHealthy members requestId now
    route.standbyIds.Sublist ((rankMediaAgents (candidates.filter fun candidate =>
        (room.declined.get candidate.id).isNone)).map RankedCandidate.id)
      ∧ route.standbyIds.length ≤ config.maxStandbys ∧ route.primaryId ∉ route.standbyIds := by
  intro route
  refine ⟨?_, ?_, fun hmem => ?_⟩
  · exact filter_sublist.trans (((take_sublist _ _).trans filter_sublist).map RankedCandidate.id)
  · refine (length_filter_le _ _).trans ?_
    rw [length_map]
    exact length_take_le _ _
  · exact of_decide_eq_true (mem_filter.mp hmem).2 rfl

variable {config members room candidates currentHealthy requestId now}

/-- Over candidates with proper identifiers, each given once, every route fits. -/
theorem decideRoute_fits (hids : ∀ candidate ∈ candidates, mediaAgentIdOK candidate.id = true)
    (hnodup : (candidates.map MediaCandidate.id).Nodup) :
    (decideRoute config room candidates currentHealthy members requestId now).Fits config
      members := by
  have hleads := decideRoute_leads config members room candidates currentHealthy requestId now
  obtain ⟨hsublist, hfew, hother⟩ :=
    decideRoute_standbyIds config members room candidates currentHealthy requestId now
  obtain ⟨owner, hassignments⟩ :=
    decideRoute_assignments config members room candidates currentHealthy requestId now
  have hprimary : ∀ agentId, agentId
      = (decideRoute config room candidates currentHealthy members requestId now).primaryId →
        agentId ≠ "" → mediaAgentIdOK agentId = true := by
    rintro _ rfl hne
    obtain ⟨primary, -, hid, hmem, -⟩ := decideRoute_cases hne
    exact hid ▸ hids _ hmem
  generalize decideRoute config room candidates currentHealthy members requestId now = route at *
  have hlead : route.forwarderIds ≠ [] → route.primaryId ∈ route.forwarderIds := by
    intro hne
    rcases hleads with ⟨-, hnil⟩ | ⟨-, shards, hcons, -⟩
    · exact absurd hnil hne
    · exact hcons ▸ mem_cons_self
  refine ⟨hleads, hprimary _ rfl, fun agentId hmem => ?_, nodup_cons.mpr ⟨hother, ?_⟩, hfew, ?_, ?_⟩
  · obtain ⟨ranked, hin, rfl⟩ := mem_map.mp (hsublist.mem hmem)
    exact hids _ (ranked_eligible hin).1
  · exact (nodup_rankMediaAgents (hnodup.sublist (filter_sublist.map _))).sublist hsublist
  · rw [hassignments]
    exact (assignPublishers_spec hlead).1
  · rw [hassignments]
    exact (assignPublishers_spec hlead).2

end

/-! ## The epoch -/

/-- The routes of two states of a room agree. -/
def SameRoute (left right : MediaRoom) : Prop :=
  left.membershipEpoch = right.membershipEpoch ∧ left.primaryId = right.primaryId
    ∧ left.standbyIds = right.standbyIds ∧ left.forwarderIds = right.forwarderIds
    ∧ ∀ peerId, left.publisherAssignments.get peerId = right.publisherAssignments.get peerId

/-- The later state of a room has a larger epoch, or the same epoch and route. -/
def Fresher (earlier later : MediaRoom) : Prop :=
  earlier.routeEpoch < later.routeEpoch
    ∨ earlier.routeEpoch = later.routeEpoch ∧ SameRoute earlier later

theorem Fresher.refl (room : MediaRoom) : Fresher room room :=
  .inr ⟨rfl, rfl, rfl, rfl, rfl, fun _ => rfl⟩

theorem Fresher.trans {a b c : MediaRoom} (h₁ : Fresher a b) (h₂ : Fresher b c) : Fresher a c := by
  rcases h₁ with hlt | ⟨heq, hm, hp, hs, hf, ha⟩
  · rcases h₂ with hlt' | ⟨heq', -⟩
    · exact .inl (hlt.trans hlt')
    · exact .inl (heq' ▸ hlt)
  · rcases h₂ with hlt' | ⟨heq', hm', hp', hs', hf', ha'⟩
    · exact .inl (heq ▸ hlt')
    · exact .inr ⟨heq.trans heq', hm.trans hm', hp.trans hp', hs.trans hs', hf.trans hf',
        fun peerId => (ha peerId).trans (ha' peerId)⟩

/-- The part of a room that a route decides. -/
def MediaRoom.route (room : MediaRoom) : RoomRoute where
  primaryId := room.primaryId
  standbyIds := room.standbyIds
  forwarderIds := room.forwarderIds
  assignments := room.publisherAssignments
  pending := room.pending

/-- What holds of a room whose members were last given to a reconciliation. -/
structure Routed (config : MediaAgentConfig) (roomId : String) (members : List String)
    (room : MediaRoom) : Prop where
  fits : room.route.Fits config members
  subscribers : room.subscriberAssignments = room.publisherAssignments
  federation : buildFederationPlan roomId room.routeEpoch room.forwarderIds
    room.publisherAssignments room.subscriberAssignments members
      = ⟨room.federationLinks, room.federationRoutes⟩
  started : 1 ≤ room.routeEpoch

theorem map_inj_on {α β : Type} {f : α → β} : ∀ {as bs : List α},
    (∀ a ∈ as, ∀ b ∈ bs, f a = f b → a = b) → as.map f = bs.map f → as = bs
  | [], [], _, _ => rfl
  | [], _ :: _, _, h => by cases h
  | _ :: _, [], _, h => by cases h
  | a :: as, b :: bs, hinj, h => by
      obtain ⟨hhead, htail⟩ := cons.inj h
      rw [hinj a mem_cons_self b mem_cons_self hhead, map_inj_on (fun x hx y hy =>
        hinj x (mem_cons_of_mem a hx) y (mem_cons_of_mem b hy)) htail]

/-- The parts of an assignment contain no separator. -/
def SeparableAssignments (assignments : KeyedMap String String) : Prop :=
  ∀ peerId agentId, assignments.get peerId = some agentId →
    peerIdOK peerId = true ∧ mediaAgentIdOK agentId = true

theorem assignmentSignature_inj {left right : KeyedMap String String}
    (hl : SeparableAssignments left) (hr : SeparableAssignments right)
    (h : assignmentSignature left = assignmentSignature right) (peerId : String) :
    left.get peerId = right.get peerId := by
  have hparts : ∀ {m : KeyedMap String String}, SeparableAssignments m →
      ∀ entry ∈ m.entries, peerIdOK entry.1 = true ∧ mediaAgentIdOK entry.2 = true :=
    fun hm entry hentry => hm entry.1 entry.2 (KeyedMap.get_eq_some_iff.mpr hentry)
  have htexts : ∀ {m : KeyedMap String String}, SeparableAssignments m →
      ∀ text ∈ m.entries.map (fun entry => entry.1 ++ ":" ++ entry.2), text ≠ "" ∧ NulFree text := by
    intro m hm text htext
    obtain ⟨entry, hentry, rfl⟩ := mem_map.mp htext
    obtain ⟨hpeer, hagent⟩ := hparts hm entry hentry
    refine ⟨fun hempty => ?_, ?_⟩
    · simpa using congrArg String.toList hempty
    · have hleft := nulFree_of_peerIdOK hpeer
      have hright := nulFree_of_mediaAgentIdOK hagent
      rw [NulFree] at hleft hright ⊢
      simp [hleft, hright]
  have hentries : left.entries = right.entries := by
    refine map_inj_on (fun a ha b hb hab => ?_) (joined_inj (htexts hl) (htexts hr) h)
    have hcolon : ∀ {s : String}, peerIdOK s = true → ':' ∉ s.toList :=
      fun hs => not_mem_of_spanOK hs (by decide) (by decide)
    have hchars := congrArg String.toList hab
    simp only [String.toList_append, append_assoc] at hchars
    obtain ⟨hpeer, hagent⟩ := append_separator_inj (hcolon (hparts hl a ha).1)
      (hcolon (hparts hr b hb).1) hchars
    exact Prod.ext (String.toList_inj.mp hpeer) (String.toList_inj.mp hagent)
  rw [KeyedMap.get, KeyedMap.get, hentries]

section

variable {config : MediaAgentConfig} {roomId : String} {members : List String} {room : MediaRoom}

theorem Routed.separable (h : Routed config roomId members room)
    (hmembers : ∀ member ∈ members, peerIdOK member = true) :
    SeparableAssignments room.publisherAssignments := by
  intro peerId agentId hget
  have hassigned := (h.fits.assigned peerId).mp (isSome_iff_exists.mpr ⟨agentId, hget⟩)
  exact ⟨hmembers peerId hassigned.1, h.fits.forwarderOK (h.fits.assigns peerId agentId hget)⟩

end

section

variable {room : MediaRoom} {config : MediaAgentConfig} {roomId : String} {route : RoomRoute}
  {members : List String} {membershipEpoch now : Nat}

theorem install_routeEpoch :
    (room.install config roomId route members membershipEpoch now).routeEpoch
      = if (room.differs route membershipEpoch || room.routeEpoch == 0) = true then
          room.routeEpoch + 1
        else room.routeEpoch := by
  simp only [install]
  split <;> rfl

theorem routed_install (hfits : route.Fits config members) :
    Routed config roomId members (room.install config roomId route members membershipEpoch now) where
  fits := hfits
  subscribers := rfl
  federation := rfl
  started := by
    rw [install_routeEpoch]
    split
    · exact Nat.le_add_left 1 _
    · rename_i hkept
      simp only [Bool.or_eq_true, beq_iff_eq, not_or] at hkept
      omega

end

section

variable {config : MediaAgentConfig} {s : MediaAgentRegistry} {roomId : String}
  {members : List String} {room : MediaRoom} {membershipEpoch now : Nat} {requestId : String}

/-- A reconciliation leaves a room with a route that fits the members. -/
theorem routed_reconcile (h : KnownAgents s) :
    Routed config roomId members ((s.known roomId members membershipEpoch).reconcileRoom config
      roomId room members membershipEpoch requestId now) :=
  routed_install (decideRoute_fits (fun _ hmem => idOK_candidates h hmem) nodup_candidates)

/-- Installing a route that differs from the room's starts a new epoch. A lost
primary is blank by then, and the forwarders tell that the room had one. -/
theorem fresher_install {known : List String} {route : RoomRoute} {roomHasFanoutBenefit : Bool}
    (currentHealthy : Bool) (hrouted : Routed config roomId known room)
    (hknown : ∀ member ∈ known, peerIdOK member = true)
    (hmembers : ∀ member ∈ members, peerIdOK member = true) (hfits : route.Fits config members) :
    Fresher room (((room.refresh roomHasFanoutBenefit now).dropPrimary currentHealthy).install
      config roomId route members membershipEpoch now) := by
  have hnames : ∀ {ids : List String}, (∀ agentId ∈ ids, mediaAgentIdOK agentId = true) →
      ∀ agentId ∈ ids, agentId ≠ "" ∧ NulFree agentId := fun h agentId hmem =>
    ⟨ne_empty_of_mediaAgentIdOK (h agentId hmem), nulFree_of_mediaAgentIdOK (h agentId hmem)⟩
  have hrouteEpoch : ((room.refresh roomHasFanoutBenefit now).dropPrimary
      currentHealthy).routeEpoch = room.routeEpoch := rfl
  by_cases hmoved : (((room.refresh roomHasFanoutBenefit now).dropPrimary currentHealthy).differs
      route membershipEpoch || room.routeEpoch == 0) = true
  · refine .inl ?_
    rw [install_routeEpoch, hrouteEpoch, if_pos hmoved]
    exact Nat.lt_succ_self room.routeEpoch
  · refine .inr ⟨by rw [install_routeEpoch, hrouteEpoch, if_neg hmoved], ?_⟩
    rw [Bool.or_eq_true, not_or, differs, decide_eq_true_eq] at hmoved
    simp only [not_or, not_not] at hmoved
    obtain ⟨⟨hepoch, hprimary, hstandbys, hforwarders, hassignments⟩, -⟩ := hmoved
    have hsameForwarders : room.forwarderIds = route.forwarderIds :=
      joined_inj (hnames fun _ hmem => hrouted.fits.forwarderOK hmem)
        (hnames fun _ hmem => hfits.forwarderOK hmem) hforwarders
    refine ⟨hepoch, ?_, ?_, hsameForwarders, ?_⟩
    · cases currentHealthy with
      | true => exact hprimary
      | false =>
          have hnone : route.primaryId = "" := hprimary.symm
          have hnoForwarders := hfits.forwards.mpr hnone
          rw [← hsameForwarders] at hnoForwarders
          exact (hrouted.fits.forwards.mp hnoForwarders).trans hnone.symm
    · exact joined_inj (hnames hrouted.fits.standbys) (hnames hfits.standbys) hstandbys
    · refine assignmentSignature_inj (hrouted.separable hknown) ?_ hassignments
      intro peerId agentId hget
      have hassigned := (hfits.assigned peerId).mp (isSome_iff_exists.mpr ⟨agentId, hget⟩)
      exact ⟨hmembers peerId hassigned.1, hfits.forwarderOK (hfits.assigns peerId agentId hget)⟩

/-- A reconciliation that changes the route starts a new epoch. -/
theorem fresher_reconcile (h : KnownAgents s) {known : List String}
    (hrouted : Routed config roomId known room) (hknown : ∀ member ∈ known, peerIdOK member = true)
    (hmembers : ∀ member ∈ members, peerIdOK member = true) :
    Fresher room ((s.known roomId members membershipEpoch).reconcileRoom config roomId room members
      membershipEpoch requestId now) :=
  fresher_install _ hrouted hknown hmembers
    (decideRoute_fits (fun _ hmem => idOK_candidates h hmem) nodup_candidates)

end

/-! ## Runs -/

section

variable {config : MediaAgentConfig} {s t : MediaAgentRegistry} {e : MediaEvent} {roomId : String}

theorem room_persists (hstep : MediaStep config s e t) (hkept : e ≠ .removeRoom roomId)
    (hroom : (s.rooms.get roomId).isSome = true) : (t.rooms.get roomId).isSome = true := by
  obtain rfl := hstep
  have hsame : ∀ {rooms : KeyedMap String MediaRoom}, rooms = s.rooms →
      (rooms.get roomId).isSome = true := fun heq => heq ▸ hroom
  have htouched : ∀ {outcome : Except String MediaAgentRegistry},
      (∀ changed, outcome = .ok changed → TouchesRoom s changed) →
        ((orKeep s outcome).rooms.get roomId).isSome = true := by
    intro outcome htouches
    cases outcome with
    | error code => exact hroom
    | ok changed => exact (htouches changed rfl).persists hroom
  cases e with
  | registerDefinition definition => exact hsame (rooms_orKeep fun _ h => rooms_registerDefinition h)
  | issueChallenge socket now => exact hroom
  | authenticate socket agentId timestamp validProof now =>
      exact hsame (rooms_authenticate socket agentId timestamp validProof now)
  | enroll socket agentId timestamp completed now =>
      exact hsame (rooms_enroll socket agentId timestamp completed now)
  | revoke agentId => exact hsame (rooms_orKeep fun _ h => rooms_revoke h)
  | disconnect socket => exact hsame (rooms_disconnect socket)
  | setCapability socket capability => exact hsame (rooms_orKeep fun _ h => rooms_setCapability h)
  | heartbeat socket rooms now => exact hsame (rooms_orKeep fun _ h => rooms_heartbeat h)
  | setDraining socket enabled now => exact hsame (rooms_orKeep fun _ h => rooms_setDraining h)
  | setConsent peer enabled agentId automaticTakeover creatorPrincipal now =>
      exact hsame (rooms_orKeep fun _ h => rooms_setConsent h)
  | setConsentSet peer agentIds automaticTakeover creatorPrincipal now =>
      exact hsame (rooms_orKeep fun _ h => rooms_setConsentSet h)
  | leavePeer peer =>
      refine (touches_updateRoom _ _).persists ?_
      split <;> exact hroom
  | removePublisherSource changedId publisherPeerId source =>
      exact (touches_updateRoom _ _).persists hroom
  | removeRoom removedId =>
      have hother : roomId ≠ removedId := by
        rintro rfl
        exact hkept rfl
      show ((s.rooms.erase removedId).get roomId).isSome = true
      rw [get_erase_of_ne _ hother]
      exact hroom
  | respondToTakeover peer requestId accepted now =>
      exact htouched fun _ h => touches_respondToTakeover h
  | reconcile changedId members membershipEpoch requestId now =>
      have hknown : ((s.known changedId members membershipEpoch).rooms.get roomId).isSome = true := by
        rw [known, rooms_keepConsents]
        exact TouchesRoom.persists (.inr ⟨_, _, rfl⟩) hroom
      exact TouchesRoom.persists (.inr ⟨_, _, rfl⟩) hknown
  | setPublicationLayerState changedId agentId routeEpoch publisherPeerId publicationId source layer
      active now => exact htouched fun _ h => touches_setPublicationLayerState h
  | setSubscriptionIntent peer input source now =>
      refine htouched fun changed h => ?_
      obtain ⟨⟨_, plan⟩, hintent, rfl⟩ := map_ok h
      exact touches_setSubscriptionIntent hintent
  | revokeSubscriptions changedId allowed => exact (touches_updateRoom _ _).persists hroom
  | setAgentSubscriptionState changedId agentId routeEpoch subscriberPeerId publisherPeerId
      publicationId revision selectedLayer ready now =>
      refine htouched fun changed h => ?_
      obtain ⟨⟨_, applied⟩, hreport, rfl⟩ := map_ok h
      exact touches_setAgentSubscriptionState hreport
  | acknowledgeSubscription peer input now => exact hroom
  | setBrowserPeerState changedId agentId routeEpoch peerId connected now =>
      exact htouched fun _ h => touches_setBrowserPeerState h
  | setAgentPeerState socket changedId peerId routeEpoch connected now =>
      exact htouched fun _ h => touches_setAgentPeerState h
  | setFederationState socket changedId routeEpoch linkId remoteAgentId connected now =>
      exact htouched fun _ h => touches_setFederationState h

end

/-- What only a reconciliation changes of a room. -/
structure KeepsRoute (room room' : MediaRoom) : Prop where
  membershipEpoch : room'.membershipEpoch = room.membershipEpoch
  routeEpoch : room'.routeEpoch = room.routeEpoch
  primaryId : room'.primaryId = room.primaryId
  standbyIds : room'.standbyIds = room.standbyIds
  forwarderIds : room'.forwarderIds = room.forwarderIds
  publisherAssignments : room'.publisherAssignments = room.publisherAssignments
  subscriberAssignments : room'.subscriberAssignments = room.subscriberAssignments
  federationLinks : room'.federationLinks = room.federationLinks
  federationRoutes : room'.federationRoutes = room.federationRoutes
  leaseExpiresAt : room'.leaseExpiresAt = room.leaseExpiresAt

theorem KeepsRoute.refl (room : MediaRoom) : KeepsRoute room room :=
  ⟨rfl, rfl, rfl, rfl, rfl, rfl, rfl, rfl, rfl, rfl⟩

theorem KeepsRoute.fresher {room room' : MediaRoom} (h : KeepsRoute room room') :
    Fresher room room' :=
  .inr ⟨h.routeEpoch.symm, h.membershipEpoch.symm, h.primaryId.symm, h.standbyIds.symm,
    h.forwarderIds.symm, fun _ => by rw [h.publisherAssignments]⟩

theorem KeepsRoute.routed {config : MediaAgentConfig} {roomId : String} {members : List String}
    {room room' : MediaRoom} (h : KeepsRoute room room') (hrouted : Routed config roomId members room) :
    Routed config roomId members room' where
  fits := by
    have hroute : room'.route = { room.route with pending := room'.pending } := by
      simp only [route, h.primaryId, h.standbyIds, h.forwarderIds, h.publisherAssignments]
    obtain ⟨hleads, hprimary, hstandbys, hnodup, hfew, hassigned, hassigns⟩ := hrouted.fits
    rw [hroute]
    exact ⟨hleads, hprimary, hstandbys, hnodup, hfew, hassigned, hassigns⟩
  subscribers := by rw [h.subscriberAssignments, h.publisherAssignments, hrouted.subscribers]
  federation := by
    rw [h.routeEpoch, h.forwarderIds, h.publisherAssignments, h.subscriberAssignments,
      h.federationLinks, h.federationRoutes, hrouted.federation]
  started := h.routeEpoch ▸ hrouted.started

/-- The members of the room's last reconciliation, none once the room is removed. -/
def MediaEvent.membersAfter (roomId : String) (known : Option (List String)) :
    MediaEvent → Option (List String)
  | .reconcile reconciledId members _ _ _ => if reconciledId = roomId then some members else known
  | .removeRoom removedId => if removedId = roomId then none else known
  | _ => known

def lastMembers (roomId : String) (es : List MediaEvent) : Option (List String) :=
  es.foldl (fun known e => e.membersAfter roomId known) none

theorem lastMembers_snoc (roomId : String) (es : List MediaEvent) (e : MediaEvent) :
    lastMembers roomId (es ++ [e]) = e.membersAfter roomId (lastMembers roomId es) := by
  rw [lastMembers, foldl_append, foldl_cons, foldl_nil, lastMembers]

section

variable {config : MediaAgentConfig} {s t : MediaAgentRegistry} {e : MediaEvent} {roomId : String}
  {room' : MediaRoom}

/-- A room is reconciled, or the call keeps its route and its members. -/
theorem room_rerouted (hstep : MediaStep config s e t) (hroom : t.rooms.get roomId = some room') :
    (∃ members membershipEpoch requestId now,
        e = .reconcile roomId members membershipEpoch requestId now
          ∧ room' = (s.known roomId members membershipEpoch).reconcileRoom config roomId
            ((s.rooms.get roomId).getD (.new membershipEpoch)) members membershipEpoch requestId
            now)
      ∨ (∀ known, e.membersAfter roomId known = known)
        ∧ ∃ room, s.rooms.get roomId = some room ∧ KeepsRoute room room' := by
  by_cases hreconcile : ∃ members membershipEpoch requestId now,
      e = .reconcile roomId members membershipEpoch requestId now
  · obtain ⟨members, membershipEpoch, requestId, now, rfl⟩ := hreconcile
    obtain rfl := hstep
    have hget : ((s.known roomId members membershipEpoch).setRoom roomId
        ((s.known roomId members membershipEpoch).reconcileRoom config roomId
          ((s.rooms.get roomId).getD (.new membershipEpoch)) members membershipEpoch requestId
          now)).rooms.get roomId = some room' := hroom
    rw [get_setRoom, if_pos rfl] at hget
    exact .inl ⟨members, membershipEpoch, requestId, now, rfl, (some.inj hget).symm⟩
  · refine .inr ⟨?_, ?_⟩
    · cases e with
      | reconcile reconciledId members membershipEpoch requestId now =>
          have hother : reconciledId ≠ roomId := by
            rintro rfl
            exact hreconcile ⟨_, _, _, _, rfl⟩
          exact fun known => if_neg hother
      | removeRoom removedId =>
          have hother : removedId ≠ roomId := by
            rintro rfl
            obtain rfl := hstep
            have hget : (s.rooms.erase removedId).get removedId = some room' := hroom
            rw [get_erase_self] at hget
            cases hget
          exact fun known => if_neg hother
      | _ => exact fun _ => rfl
    · cases room_moved hstep hroom with
      | same hold => exact ⟨_, hold, .refl _⟩
      | reconcile => exact absurd ⟨_, _, _, _, rfl⟩ hreconcile
      | @respond _ _ accepted _ _ _ hold =>
          refine ⟨_, hold, ?_⟩
          cases accepted <;> exact ⟨rfl, rfl, rfl, rfl, rfl, rfl, rfl, rfl, rfl, rfl⟩
      | leave hold => exact ⟨_, hold, rfl, rfl, rfl, rfl, rfl, rfl, rfl, rfl, rfl, rfl⟩
      | removeSource hold => exact ⟨_, hold, rfl, rfl, rfl, rfl, rfl, rfl, rfl, rfl, rfl, rfl⟩
      | layers hold => exact ⟨_, hold, rfl, rfl, rfl, rfl, rfl, rfl, rfl, rfl, rfl, rfl⟩
      | intent hold => exact ⟨_, hold, rfl, rfl, rfl, rfl, rfl, rfl, rfl, rfl, rfl, rfl⟩
      | withdraw hold =>
          rw [withdraw_keeps]
          exact ⟨_, hold, rfl, rfl, rfl, rfl, rfl, rfl, rfl, rfl, rfl, rfl⟩
      | report hold => exact ⟨_, hold, rfl, rfl, rfl, rfl, rfl, rfl, rfl, rfl, rfl, rfl⟩
      | readiness hold => exact ⟨_, hold, rfl, rfl, rfl, rfl, rfl, rfl, rfl, rfl, rfl, rfl⟩

end

section

variable {config : MediaAgentConfig} {s t : MediaAgentRegistry} {es : List MediaEvent}

section

variable (hpath : Path (NamedStep config) .empty es s)

include hpath

theorem knownAgents_run : KnownAgents s :=
  hpath.inv (fun hstep h => knownAgents_step hstep h) fun _ _ h => by cases h

/-- **Routes.** After every run every room's route fits the members of its
last reconciliation. -/
theorem routed_run :
    ∀ roomId room, s.rooms.get roomId = some room → ∃ members, lastMembers roomId es = some members
      ∧ (∀ member ∈ members, peerIdOK member = true) ∧ Routed config roomId members room := by
  refine hpath.history (J := fun es s => ∀ roomId room, s.rooms.get roomId = some room →
    ∃ members, lastMembers roomId es = some members
      ∧ (∀ member ∈ members, peerIdOK member = true) ∧ Routed config roomId members room)
    (fun roomId room hget => by cases hget) ?_
  intro es s e t hes hj hstep roomId room' hget
  rw [lastMembers_snoc]
  rcases room_rerouted hstep.1 hget with ⟨members, membershipEpoch, requestId, now, rfl, rfl⟩ |
    ⟨hmembers, room, hroom, hkeeps⟩
  · exact ⟨members, if_pos rfl, hstep.2, routed_reconcile (knownAgents_run hes)⟩
  · obtain ⟨members, hlast, hnamed, hrouted⟩ := hj roomId room hroom
    exact ⟨members, (hmembers _).trans hlast, hnamed, hkeeps.routed hrouted⟩

/-- The epoch rises with the route, across every call that keeps the room. -/
theorem fresher_step {e : MediaEvent} {roomId : String}
    (hstep : NamedStep config s e t) {room room' : MediaRoom}
    (hroom : s.rooms.get roomId = some room) (hroom' : t.rooms.get roomId = some room') :
    Fresher room room' := by
  rcases room_rerouted hstep.1 hroom' with ⟨members, membershipEpoch, requestId, now, rfl, rfl⟩ |
    ⟨-, old, hold, hkeeps⟩
  · obtain ⟨known, -, hknown, hrouted⟩ := routed_run hpath roomId room hroom
    rw [hroom, getD_some]
    exact fresher_reconcile (knownAgents_run hpath) hrouted hknown hstep.2
  · cases hroom.symm.trans hold
    exact hkeeps.fresher

/-- **Epochs.** A room that no call removes is there at the end of the run,
with an epoch that has not fallen and has risen where the route differs. -/
theorem fresher_run {fs : List MediaEvent}
    (hrun : Path (NamedStep config) s fs t) {roomId : String} (hkept : .removeRoom roomId ∉ fs)
    {room : MediaRoom} (hroom : s.rooms.get roomId = some room) :
    ∃ room', t.rooms.get roomId = some room' ∧ Fresher room room' := by
  induction hrun generalizing es room with
  | nil s => exact ⟨room, hroom, .refl room⟩
  | cons hstep hrest ih =>
      rw [mem_cons, not_or] at hkept
      obtain ⟨middle, hmiddle⟩ := isSome_iff_exists.mp
        (room_persists hstep.1 (Ne.symm hkept.1) (isSome_iff_exists.mpr ⟨room, hroom⟩))
      obtain ⟨room', hroom', hfresher⟩ := ih (hpath.append (.single hstep)) hkept.2 hmiddle
      exact ⟨room', hroom', (fresher_step hpath hstep hroom hmiddle).trans hfresher⟩

end

end

end WebrtcMinimize
