import WebrtcMinimize.MediaMoves

/-!
# Takeovers

Who may take over from the primary of a room. The election puts another
agent in the primary's place only with that agent's automatic consent or an
approval, unless no failover is under way and the primary is not ranked;
approvals come from accepted takeover requests and end with their lease.
What is left is a primary that is still a candidate and yet not ranked: one
that reports `draining`, or a condition it cannot serve in. Outside that
case every change of primary is consented (`takeover_consented`).
-/

namespace WebrtcMinimize

open Checks Runs MediaAgentRegistry MediaRoom Option List KeyedMap

/-! ## Candidates -/

theorem mem_foldl_addCandidate {c : MediaCandidate} : ∀ {cs : List MediaCandidate}
    {byAgent : KeyedMap String MediaCandidate}, c ∈ (cs.foldl addCandidate byAgent).values →
      c ∈ cs ∨ c ∈ byAgent.values
  | [], _, h => .inr h
  | d :: cs, byAgent, h => by
      have hrest : c ∈ (cs.foldl addCandidate (addCandidate byAgent d)).values := h
      rcases mem_foldl_addCandidate hrest with hmem | hmem
      · exact .inl (mem_cons_of_mem d hmem)
      · rw [addCandidate] at hmem
        split at hmem
        · obtain ⟨key, hget⟩ := mem_values_iff.mp hmem
          rw [get_set] at hget
          split at hget
          · exact .inl (some.inj hget ▸ mem_cons_self)
          · exact .inr (mem_values_iff.mpr ⟨key, hget⟩)
        · exact .inr hmem

/-- The agent could carry the room: it is registered and connected, its
heartbeat is fresh, the room is within its limit, and a member who owns it
consents. -/
structure Serves (config : MediaAgentConfig) (s : MediaAgentRegistry) (roomId : String)
    (members : List String) (now : Nat) (agent : MediaAgent) (consent : MediaConsent) : Prop where
  registered : s.agents.get consent.agentId = some agent
  connected : agent.socket ≠ none
  fresh : now ≤ agent.lastSeen + config.leaseMs
  within : members.length ≤ agent.capability.maxPeers
  consents : consent ∈ (s.roomConsents roomId).values
  member : consent.peerId ∈ members
  owner : consent.principal = agent.definition.ownerPrincipal

/-- The condition an agent reports lets it serve. -/
def MediaAgent.Fit (agent : MediaAgent) : Prop :=
  agent.draining = false ∧ agent.capability.battery ≠ .critical
    ∧ agent.capability.network ≠ .constrained ∧ agent.capability.visible = true
    ∧ 25 ≤ agent.capability.capacity ∧ agent.capability.load < 90

section

variable {config : MediaAgentConfig} {s : MediaAgentRegistry} {roomId : String}
  {members : List String} {membershipEpoch now : Nat} {candidate : MediaCandidate}

/-- The candidacy a consent gives. -/
def MediaConsent.candidacy (consent : MediaConsent) (agent : MediaAgent) : MediaCandidate where
  id := consent.agentId
  ownerPeerId := consent.peerId
  creatorOwned := consent.creatorOwned
  automaticTakeover := consent.automaticTakeover
  healthy := true
  draining := agent.draining
  capability := agent.capability

theorem agents_known : (s.known roomId members membershipEpoch).agents = s.agents := by
  rw [known, keepConsents]
  split <;> rfl

theorem mem_roomConsents_known {consent : MediaConsent} :
    consent ∈ ((s.known roomId members membershipEpoch).roomConsents roomId).values
      ↔ consent ∈ (s.roomConsents roomId).values ∧ consent.peerId ∈ members := by
  have hconsents : (s.known roomId members membershipEpoch).roomConsents roomId
      = (s.roomConsents roomId).keep fun _ consent => decide (consent.peerId ∈ members) := by
    rw [known, keepConsents]
    cases hroom : s.consents.get roomId with
    | none => simp [setRoom, roomConsents, hroom]; rfl
    | some consents => simp [setRoom, roomConsents, hroom]
  rw [hconsents]
  simp only [mem_values_iff, get_keep_eq_some_iff, decide_eq_true_eq, exists_and_right]

/-- A candidate of a reconciliation is the candidacy of an agent that serves. -/
theorem serves_of_mem_candidates
    (h : candidate ∈ (s.known roomId members membershipEpoch).candidates config roomId members now) :
    ∃ agent consent, Serves config s roomId members now agent consent
      ∧ candidate = consent.candidacy agent := by
  rw [candidates] at h
  split at h
  · rcases mem_foldl_addCandidate h with hmem | hnone
    · obtain ⟨consent, hconsent, hcandidate⟩ := mem_filterMap.mp hmem
      obtain ⟨hin, hmember⟩ := mem_roomConsents_known.mp hconsent
      rw [candidateFor, agents_known] at hcandidate
      split at hcandidate
      · cases hcandidate
      · rename_i agent hagent
        dsimp only at hcandidate
        split at hcandidate
        · cases hcandidate
        · rename_i hserves
          simp only [not_or, not_lt, not_not] at hserves
          obtain ⟨hsocket, hfresh, howner, hwithin⟩ := hserves
          split at hcandidate
          · cases hcandidate
          · exact ⟨agent, consent, ⟨hagent, hsocket, hfresh, hwithin, hin, hmember, howner.symm⟩,
              (some.inj hcandidate).symm⟩
    · exact absurd hnone not_mem_nil
  · exact absurd h not_mem_nil

theorem minimumParticipants_le (h : candidate ∈ s.candidates config roomId members now) :
    config.minimumParticipants ≤ members.length := by
  rw [candidates] at h
  split at h
  · assumption
  · exact absurd h not_mem_nil

theorem candidacy_electable {agent : MediaAgent} {consent : MediaConsent} (h : agent.Fit) :
    (consent.candidacy agent).Electable :=
  ⟨rfl, h⟩

end

/-! ## The election -/

section

variable {candidates : List MediaCandidate} {currentPrimaryId : String} {maxStandbys : Nat}
  {failover : Bool} {approvedAgentIds : List String}

theorem planMediaAgents_primary {primary : RankedCandidate}
    (h : (planMediaAgents candidates currentPrimaryId maxStandbys failover approvedAgentIds).primary
      = some primary) :
    primary ∈ rankMediaAgents candidates
      ∧ (primary.id = currentPrimaryId ∨ primary.candidate.automaticTakeover = true
        ∨ primary.id ∈ approvedAgentIds
        ∨ failover = false ∧ ∀ other ∈ rankMediaAgents candidates, other.id ≠ currentPrimaryId) := by
  simp only [planMediaAgents] at h
  cases hcurrent : (rankMediaAgents candidates).find? (fun c => c.id = currentPrimaryId) with
  | none =>
      have hnone : ∀ other ∈ rankMediaAgents candidates, other.id ≠ currentPrimaryId := by
        simpa using find?_eq_none.mp hcurrent
      cases hbest : (rankMediaAgents candidates).head? with
      | none => simp [hcurrent, hbest] at h
      | some best =>
          have hmem := mem_of_mem_head? (mem_def.mpr hbest)
          simp only [hcurrent, hbest] at h
          split at h
          · rename_i hwhy
            cases h
            refine ⟨hmem, .inr ?_⟩
            simp only [Bool.or_eq_true, Bool.not_eq_true', decide_eq_true_eq] at hwhy
            rcases hwhy with hcalm | hauto | happroved
            · exact .inr (.inr ⟨hcalm, hnone⟩)
            · exact .inl hauto
            · exact .inr (.inl happroved)
          · cases h
  | some current =>
      have hmem := mem_of_find?_eq_some hcurrent
      have hid : current.id = currentPrimaryId := by simpa using find?_some hcurrent
      cases hbest : (rankMediaAgents candidates).head? with
      | none =>
          simp only [hcurrent, hbest, some.injEq] at h
          exact h ▸ ⟨hmem, .inl hid⟩
      | some best =>
          have hbestMem := mem_of_mem_head? (mem_def.mpr hbest)
          simp only [hcurrent, hbest] at h
          split at h
          · split at h
            · rename_i hwhy
              cases h
              refine ⟨hbestMem, .inr ?_⟩
              simp only [Bool.or_eq_true, decide_eq_true_eq] at hwhy
              rcases hwhy with hauto | happroved
              · exact .inl hauto
              · exact .inr (.inl happroved)
            · exact some.inj h ▸ ⟨hmem, .inl hid⟩
          · exact some.inj h ▸ ⟨hmem, .inl hid⟩

/-- The candidate put forward is ranked and not the primary; while a failover
is under way there is no primary, else it is the current one. -/
theorem planMediaAgents_takeover {takeover : RankedCandidate}
    (h : (planMediaAgents candidates currentPrimaryId maxStandbys failover approvedAgentIds).takeover
      = some takeover) :
    takeover ∈ rankMediaAgents candidates
      ∧ ((planMediaAgents candidates currentPrimaryId maxStandbys failover approvedAgentIds).primary
          = none ∧ failover = true
        ∨ ∃ primary, (planMediaAgents candidates currentPrimaryId maxStandbys failover
            approvedAgentIds).primary = some primary ∧ primary.id = currentPrimaryId
          ∧ takeover.id ≠ primary.id) := by
  simp only [planMediaAgents] at h ⊢
  cases hcurrent : (rankMediaAgents candidates).find? (fun c => c.id = currentPrimaryId) with
  | none =>
      cases hbest : (rankMediaAgents candidates).head? with
      | none => simp [hcurrent, hbest] at h
      | some best =>
          have hmem := mem_of_mem_head? (mem_def.mpr hbest)
          simp only [hcurrent, hbest] at h ⊢
          split at h
          · cases h
          · rename_i hwhy
            cases h
            rw [if_neg hwhy]
            simp only [Bool.or_eq_true, Bool.not_eq_true', not_or, Bool.not_eq_false] at hwhy
            exact ⟨hmem, .inl ⟨rfl, hwhy.1⟩⟩
  | some current =>
      have hid : current.id = currentPrimaryId := by simpa using find?_some hcurrent
      cases hbest : (rankMediaAgents candidates).head? with
      | none => simp [hcurrent, hbest] at h
      | some best =>
          have hmem := mem_of_mem_head? (mem_def.mpr hbest)
          simp only [hcurrent, hbest] at h ⊢
          split at h
          · rename_i hbetter
            split at h
            · cases h
            · rename_i hwhy
              cases h
              rw [if_pos hbetter, if_neg hwhy]
              exact ⟨hmem, .inr ⟨current, rfl, hid, hbetter.1⟩⟩
          · cases h

end

/-! ## The route decided on -/

/-- The election of a reconciliation. -/
def routePlan (config : MediaAgentConfig) (room : MediaRoom) (candidates : List MediaCandidate)
    (currentHealthy : Bool) : MediaAgentPlan :=
  planMediaAgents (candidates.filter fun candidate => (room.declined.get candidate.id).isNone)
    room.primaryId config.maxStandbys (room.hadPrimary && !currentHealthy) room.approved.keys

section

variable {config : MediaAgentConfig} {room : MediaRoom} {candidates : List MediaCandidate}
  {currentHealthy : Bool} {members : List String} {requestId : String} {now : Nat}

theorem ranked_eligible {ranked : RankedCandidate} (h : ranked ∈ rankMediaAgents
      (candidates.filter fun candidate => (room.declined.get candidate.id).isNone)) :
    ranked.candidate ∈ candidates ∧ room.declined.get ranked.id = none := by
  obtain ⟨hmem, -⟩ := mem_rankMediaAgents.mp h
  obtain ⟨hin, hopen⟩ := mem_filter.mp hmem
  exact ⟨hin, isNone_iff_eq_none.mp hopen⟩

/-- The primary decided on is the elected one: a takeover that is only asked
for leaves the election's primary in place. -/
theorem decideRoute_primaryId :
    (decideRoute config room candidates currentHealthy members requestId now).primaryId
      = match (routePlan config room candidates currentHealthy).primary with
        | some primary => primary.id
        | none => "" := by
  simp only [decideRoute, routePlan]
  split
  · rename_i hkept
    simp only [Bool.and_eq_true, decide_eq_true_eq, isSome_iff_exists] at hkept
    obtain ⟨⟨⟨takeover, htakeover⟩, -⟩, hhealthy⟩ := hkept
    rcases (planMediaAgents_takeover htakeover).2 with ⟨-, hfailover⟩ | ⟨primary, hprimary, hid, -⟩
    · rw [hhealthy] at hfailover
      simp at hfailover
    · rw [hprimary]
      exact hid.symm
  · rfl

theorem decideRoute_cases
    (h : (decideRoute config room candidates currentHealthy members requestId now).primaryId ≠ "") :
    ∃ primary, (routePlan config room candidates currentHealthy).primary = some primary ∧ primary.id
        = (decideRoute config room candidates currentHealthy members requestId now).primaryId
      ∧ primary.candidate ∈ candidates ∧ room.declined.get primary.id = none
      ∧ (primary.id = room.primaryId ∨ primary.candidate.automaticTakeover = true
        ∨ (∃ expiresAt, room.approved.get primary.id = some expiresAt)
        ∨ (room.hadPrimary && !currentHealthy) = false
          ∧ ∀ candidate ∈ candidates, candidate.id = room.primaryId →
            room.declined.get candidate.id = none → ¬candidate.Electable) := by
  rw [decideRoute_primaryId] at h ⊢
  cases hprimary : (routePlan config room candidates currentHealthy).primary with
  | none => exact absurd (by rw [hprimary]) h
  | some primary =>
      obtain ⟨hranked, hwhy⟩ := planMediaAgents_primary hprimary
      obtain ⟨hmem, hopen⟩ := ranked_eligible hranked
      refine ⟨primary, rfl, rfl, hmem, hopen, hwhy.imp_right (Or.imp_right (Or.imp ?_ ?_))⟩
      · exact mem_keys_iff.mp
      · rintro ⟨hcalm, hnone⟩
        refine ⟨hcalm, fun candidate hcandidate hid hundeclined helectable => ?_⟩
        have hfiltered : candidate ∈ candidates.filter fun c => (room.declined.get c.id).isNone :=
          mem_filter.mpr ⟨hcandidate, by rw [hundeclined]; rfl⟩
        obtain ⟨ranked, hin, rfl⟩ := exists_ranked hfiltered helectable
        exact hnone ranked hin hid

/-- A request that is pending after the decision is for another agent than
the primary, and it was pending before or is made for a candidate now. -/
theorem decideRoute_pending {pending : TakeoverPending}
    (h : (decideRoute config room candidates currentHealthy members requestId now).pending
      = some pending) :
    ((decideRoute config room candidates currentHealthy members requestId now).primaryId ≠ "" →
        pending.agentId
          ≠ (decideRoute config room candidates currentHealthy members requestId now).primaryId)
      ∧ (room.pending = some pending ∨ ∃ candidate ∈ candidates,
          candidate.id = pending.agentId ∧ candidate.ownerPeerId = pending.peerId) := by
  cases htakeover : (routePlan config room candidates currentHealthy).takeover with
  | none =>
      have hfiltered : room.pending.filter (fun p => p.agentId
          ≠ (decideRoute config room candidates currentHealthy members requestId now).primaryId)
          = some pending := by
        simp only [decideRoute, routePlan] at h htakeover ⊢
        simpa only [htakeover] using h
      obtain ⟨hpending, hother⟩ := filter_eq_some_iff.mp hfiltered
      exact ⟨fun _ => by simpa using hother, .inl hpending⟩
  | some takeover =>
      obtain ⟨hranked, hprimary⟩ := planMediaAgents_takeover htakeover
      have hagent : pending.agentId = takeover.id ∧ (room.pending = some pending
          ∨ pending.peerId = takeover.candidate.ownerPeerId) := by
        simp only [decideRoute, routePlan] at h htakeover
        simp only [htakeover] at h
        split at h
        · rename_i old hold
          split at h
          · cases h
            exact ⟨rfl, .inr rfl⟩
          · rename_i hsame
            cases h
            exact ⟨not_not.mp hsame, .inl hold⟩
        · cases h
          exact ⟨rfl, .inr rfl⟩
      refine ⟨fun hne heq => ?_, hagent.2.imp_right fun hpeer =>
        ⟨takeover.candidate, (ranked_eligible hranked).1, hagent.1.symm, hpeer.symm⟩⟩
      rw [decideRoute_primaryId] at hne heq
      rcases hprimary with ⟨hnone, -⟩ | ⟨primary, hsome, -, hother⟩
      · exact hne (by rw [routePlan, hnone])
      · rw [routePlan, hsome] at heq
        exact hother (hagent.1.symm.trans heq)

end

/-! ## The reconciled room -/

section

variable (room : MediaRoom) (config : MediaAgentConfig) (roomId : String) (route : RoomRoute)
  (members : List String) (membershipEpoch now : Nat)

@[simp] theorem install_primaryId :
    (room.install config roomId route members membershipEpoch now).primaryId = route.primaryId := rfl

@[simp] theorem install_pending :
    (room.install config roomId route members membershipEpoch now).pending = route.pending := rfl

@[simp] theorem install_hadPrimary :
    (room.install config roomId route members membershipEpoch now).hadPrimary
      = (room.hadPrimary || decide (route.primaryId ≠ "")) := rfl

@[simp] theorem install_approved :
    (room.install config roomId route members membershipEpoch now).approved = room.approved := by
  simp only [install]
  split <;> rfl

@[simp] theorem install_declined :
    (room.install config roomId route members membershipEpoch now).declined = room.declined := by
  simp only [install]
  split <;> rfl

end

/-! ## Requests and answers along a run -/

/-- A reconciliation finds a member who owns the agent and consents. -/
def AsksOwner (config : MediaAgentConfig) (roomId agentId peerId : String)
    (s : MediaAgentRegistry) (e : MediaEvent) : Prop :=
  ∃ members membershipEpoch requestId now agent consent,
    e = .reconcile roomId members membershipEpoch requestId now
      ∧ Serves config s roomId members now agent consent
      ∧ consent.agentId = agentId ∧ consent.peerId = peerId

/-- The peer accepts the pending request for the agent in time. -/
def Accepts (roomId agentId peerId : String) (acceptedAt : Nat) (s : MediaAgentRegistry)
    (e : MediaEvent) : Prop :=
  ∃ peer requestId room pending, e = .respondToTakeover peer requestId true acceptedAt
    ∧ peer.roomId = roomId ∧ peer.id = peerId ∧ s.rooms.get roomId = some room
    ∧ room.pending = some pending ∧ pending.requestId = requestId ∧ pending.peerId = peerId
    ∧ pending.agentId = agentId ∧ acceptedAt ≤ pending.expiresAt

/-- In the run the agent's owner was asked to take over and accepted. -/
def OwnerAccepted (config : MediaAgentConfig) (es : List MediaEvent) (roomId agentId : String)
    (acceptedAt : Nat) : Prop :=
  ∃ es₁ e es₂ u peerId, es = es₁ ++ e :: es₂ ∧ Path (MediaStep config) .empty es₁ u
    ∧ Accepts roomId agentId peerId acceptedAt u e
    ∧ Through (MediaStep config) (AsksOwner config roomId agentId peerId) .empty es₁ u

theorem OwnerAccepted.snoc {config : MediaAgentConfig} {es : List MediaEvent}
    {roomId agentId : String} {acceptedAt : Nat} (e : MediaEvent)
    (h : OwnerAccepted config es roomId agentId acceptedAt) :
    OwnerAccepted config (es ++ [e]) roomId agentId acceptedAt := by
  obtain ⟨es₁, e₁, es₂, u, peerId, rfl, h⟩ := h
  exact ⟨es₁, e₁, es₂ ++ [e], u, peerId, by simp, h⟩

/-- What holds of a room's takeover bookkeeping after a run. -/
structure Consenting (config : MediaAgentConfig) (es : List MediaEvent) (s : MediaAgentRegistry)
    (roomId : String) (room : MediaRoom) : Prop where
  had : room.primaryId ≠ "" → room.hadPrimary = true
  waiting : ∀ pending, room.pending = some pending → room.primaryId ≠ "" →
    pending.agentId ≠ room.primaryId
  undeclined : room.primaryId ≠ "" → room.declined.get room.primaryId = none
  asked : ∀ pending, room.pending = some pending →
    Through (MediaStep config) (AsksOwner config roomId pending.agentId pending.peerId) .empty es s
  accepted : ∀ agentId expiresAt, room.approved.get agentId = some expiresAt →
    ∃ acceptedAt, expiresAt = acceptedAt + config.leaseMs
      ∧ OwnerAccepted config es roomId agentId acceptedAt

section

variable {config : MediaAgentConfig} {es : List MediaEvent} {s t : MediaAgentRegistry}
  {e : MediaEvent} {roomId : String} {room room' : MediaRoom}

/-- A call that leaves the primary and the answers alone, and drops the
request at most, keeps the bookkeeping. -/
theorem Consenting.keep (h : Consenting config es s roomId room) (hstep : MediaStep config s e t)
    (hprimary : room'.primaryId = room.primaryId) (hhad : room'.hadPrimary = room.hadPrimary)
    (hpending : ∀ pending, room'.pending = some pending → room.pending = some pending)
    (happroved : room'.approved = room.approved) (hdeclined : room'.declined = room.declined) :
    Consenting config (es ++ [e]) t roomId room' where
  had := by
    rw [hprimary, hhad]
    exact h.had
  waiting := by
    rw [hprimary]
    exact fun pending hp => h.waiting pending (hpending pending hp)
  undeclined := by
    rw [hprimary, hdeclined]
    exact h.undeclined
  asked := fun pending hp => (h.asked pending (hpending pending hp)).snoc hstep
  accepted := by
    intro agentId expiresAt hget
    obtain ⟨acceptedAt, heq, haccepted⟩ := h.accepted agentId expiresAt (happroved ▸ hget)
    exact ⟨acceptedAt, heq, haccepted.snoc e⟩

theorem Consenting.respond (h : Consenting config es s roomId room)
    (hpath : Path (MediaStep config) .empty es s) {peer : RoomPeer} {requestId : String}
    {accepted : Bool} {now : Nat} {pending : TakeoverPending}
    (hroom : s.rooms.get roomId = some room) (hpeerRoom : peer.roomId = roomId)
    (hpending : room.pending = some pending) (hid : pending.requestId = requestId)
    (hpeer : pending.peerId = peer.id) (hopen : now ≤ pending.expiresAt) :
    Consenting config (es ++ [.respondToTakeover peer requestId accepted now]) t roomId
      (room.answered config pending.agentId accepted now) := by
  cases accepted with
  | true =>
      refine ⟨h.had, fun _ hp => (by cases hp), h.undeclined, fun _ hp => (by cases hp), ?_⟩
      intro agentId expiresAt hget
      have hset : (room.approved.set pending.agentId (now + config.leaseMs)).get agentId
          = some expiresAt := hget
      rw [get_set] at hset
      split at hset
      · rename_i heq
        refine ⟨now, (some.inj hset).symm, es, _, [], s, pending.peerId, rfl, hpath, ?_,
          heq ▸ h.asked pending hpending⟩
        exact ⟨peer, requestId, room, pending, rfl, hpeerRoom, hpeer.symm, hroom, hpending, hid,
          rfl, heq.symm, hopen⟩
      · obtain ⟨acceptedAt, heq, haccepted⟩ := h.accepted agentId expiresAt hset
        exact ⟨acceptedAt, heq, haccepted.snoc _⟩
  | false =>
      refine ⟨h.had, fun _ hp => (by cases hp), fun hne => ?_, fun _ hp => (by cases hp), ?_⟩
      · show (room.declined.set pending.agentId (now + config.takeoverTtlMs)).get room.primaryId
          = none
        rw [get_set_of_ne _ _ (h.waiting pending hpending hne).symm]
        exact h.undeclined hne
      · intro agentId expiresAt hget
        obtain ⟨acceptedAt, heq, haccepted⟩ := h.accepted agentId expiresAt hget
        exact ⟨acceptedAt, heq, haccepted.snoc _⟩

/-- A reconciliation renews the bookkeeping: the primary is not declined, a
request is for another agent and was made to a consenting owner. -/
theorem Consenting.reconcile (h : ∀ room, s.rooms.get roomId = some room →
      Consenting config es s roomId room)
    (hpath : Path (MediaStep config) .empty es s) {members : List String}
    {membershipEpoch now : Nat} {requestId : String}
    (hstep : MediaStep config s (.reconcile roomId members membershipEpoch requestId now) t) :
    Consenting config (es ++ [.reconcile roomId members membershipEpoch requestId now]) t roomId
      ((s.known roomId members membershipEpoch).reconcileRoom config roomId
        ((s.rooms.get roomId).getD (.new membershipEpoch)) members membershipEpoch requestId
        now) := by
  -- a new room has no bookkeeping to speak of
  have hold : Consenting config es s roomId ((s.rooms.get roomId).getD (.new membershipEpoch)) := by
    cases hroom : s.rooms.get roomId with
    | some room => exact h room hroom
    | none =>
        exact ⟨fun hne => absurd rfl hne, fun _ hp => (by cases hp), fun hne => absurd rfl hne,
          fun _ hp => (by cases hp), fun _ _ hget => (by cases hget)⟩
  generalize (s.rooms.get roomId).getD (.new membershipEpoch) = room at hold ⊢
  refine ⟨fun hne => ?_, fun pending hp hne => ?_, fun hne => ?_, fun pending hp => ?_,
    fun agentId expiresAt hget => ?_⟩
  · rw [reconcileRoom, install_primaryId] at hne
    rw [reconcileRoom, install_hadPrimary, decide_eq_true hne, Bool.or_true]
  · rw [reconcileRoom, install_primaryId] at hne ⊢
    exact (decideRoute_pending hp).1 hne
  · rw [reconcileRoom, install_primaryId, install_declined]
    obtain ⟨primary, -, hid, -, hopen, -⟩ := decideRoute_cases hne
    exact hid ▸ hopen
  · rw [reconcileRoom, install_pending] at hp
    rcases (decideRoute_pending hp).2 with hbefore | ⟨candidate, hcandidate, hid, hpeer⟩
    · refine (hold.asked pending ?_).snoc hstep
      have hrefreshed : (room.refresh (decide (config.minimumParticipants ≤ members.length))
          now).pending = some pending := hbefore
      simp only [refresh] at hrefreshed
      split at hrefreshed
      · exact (filter_eq_some_iff.mp hrefreshed).1
      · cases hrefreshed
    · obtain ⟨agent, consent, hserves, rfl⟩ := serves_of_mem_candidates hcandidate
      exact .last hpath hstep ⟨members, membershipEpoch, requestId, now, agent, consent, rfl,
        hserves, hid, hpeer⟩
  · rw [reconcileRoom, install_approved] at hget
    obtain ⟨acceptedAt, heq, haccepted⟩ :=
      hold.accepted agentId expiresAt (get_keep_eq_some_iff.mp hget).1
    exact ⟨acceptedAt, heq, haccepted.snoc _⟩

/-- Withdrawing subscriptions leaves everything else of the room alone. -/
theorem withdraw_keeps (allowed : SubscriptionPlan → Bool) :
    ∀ (entries : List (String × SubscriptionPlan)) (room : MediaRoom),
      entries.foldl (withdraw allowed) room = { room with
            subscriptionRevision := (entries.foldl (withdraw allowed) room).subscriptionRevision
            subscriptions := (entries.foldl (withdraw allowed) room).subscriptions
            agentSubscriptions := (entries.foldl (withdraw allowed) room).agentSubscriptions }
  | [], room => rfl
  | entry :: entries, room => by
      rw [foldl_cons, withdraw_keeps allowed entries]
      rw [withdraw]
      split <;> rfl

/-- **Bookkeeping.** After every run every room's bookkeeping is in order. -/
theorem consenting_run (hpath : Path (MediaStep config) .empty es s) :
    ∀ roomId room, s.rooms.get roomId = some room → Consenting config es s roomId room := by
  refine hpath.history (J := fun es s => ∀ roomId room, s.rooms.get roomId = some room →
    Consenting config es s roomId room) (fun roomId room hget => by cases hget) ?_
  intro es s e t hes hj hstep roomId room' hget
  cases room_moved hstep hget with
  | same hroom => exact (hj roomId _ hroom).keep hstep rfl rfl (fun _ hp => hp) rfl rfl
  | reconcile => exact .reconcile (hj roomId) hes hstep
  | respond hroom hpeerRoom hpending hid hpeer hopen =>
      exact (hj roomId _ hroom).respond hes hroom hpeerRoom hpending hid hpeer hopen
  | leave hroom =>
      exact (hj roomId _ hroom).keep hstep rfl rfl
        (fun _ hp => (filter_eq_some_iff.mp hp).1) rfl rfl
  | removeSource hroom => exact (hj roomId _ hroom).keep hstep rfl rfl (fun _ hp => hp) rfl rfl
  | layers hroom => exact (hj roomId _ hroom).keep hstep rfl rfl (fun _ hp => hp) rfl rfl
  | intent hroom => exact (hj roomId _ hroom).keep hstep rfl rfl (fun _ hp => hp) rfl rfl
  | withdraw hroom =>
      rw [withdraw_keeps]
      exact (hj roomId _ hroom).keep hstep rfl rfl (fun _ hp => hp) rfl rfl
  | report hroom => exact (hj roomId _ hroom).keep hstep rfl rfl (fun _ hp => hp) rfl rfl
  | readiness hroom => exact (hj roomId _ hroom).keep hstep rfl rfl (fun _ hp => hp) rfl rfl

end

/-! ## Consent -/

/-- The room's primary, when it could still carry the room, reports a
condition that lets it serve. -/
def PrimaryFit (config : MediaAgentConfig) (s : MediaAgentRegistry) (roomId : String)
    (members : List String) (now : Nat) : Prop :=
  ∀ room, s.rooms.get roomId = some room → ∀ agent consent,
    Serves config s roomId members now agent consent → consent.agentId = room.primaryId → agent.Fit

/-- The agent may take over: a member's consent for it is automatic, or its
owner accepted and the approval lease runs. -/
def MayTakeOver (config : MediaAgentConfig) (es : List MediaEvent) (s : MediaAgentRegistry)
    (roomId : String) (members : List String) (now : Nat) (agentId : String) : Prop :=
  (∃ consent ∈ (s.roomConsents roomId).values, consent.agentId = agentId
      ∧ consent.peerId ∈ members ∧ consent.automaticTakeover = true)
    ∨ ∃ acceptedAt, OwnerAccepted config es roomId agentId acceptedAt
      ∧ now ≤ acceptedAt + config.leaseMs

section

variable {config : MediaAgentConfig} {es : List MediaEvent} {s t : MediaAgentRegistry}
  {roomId : String} {members : List String} {membershipEpoch now : Nat} {requestId : String}
  {room room' : MediaRoom}

theorem reconcile_room (hroom : s.rooms.get roomId = some room)
    (hstep : MediaStep config s (.reconcile roomId members membershipEpoch requestId now) t)
    (hroom' : t.rooms.get roomId = some room') :
    room' = (s.known roomId members membershipEpoch).reconcileRoom config roomId room members
      membershipEpoch requestId now := by
  obtain rfl := hstep
  have hget : (s.reconcile config roomId members membershipEpoch requestId now).rooms.get roomId
      = some room' := hroom'
  rw [reconcile, get_setRoom, if_pos rfl, hroom] at hget
  rw [known, hroom]
  exact (some.inj hget).symm

/-- **Consented takeover.** After any run, a reconciliation that puts another
agent in the place of a room's primary, or in its empty place after it had
one, finds that agent's consent, provided a primary that could still carry
the room is fit to serve. -/
theorem takeover_consented (hpath : Path (MediaStep config) .empty es s)
    (hstep : MediaStep config s (.reconcile roomId members membershipEpoch requestId now) t)
    (hroom : s.rooms.get roomId = some room) (hroom' : t.rooms.get roomId = some room')
    (hfit : PrimaryFit config s roomId members now) (hhad : room.hadPrimary = true)
    (hvacant : room.primaryId = "" → s.agents.get "" = none) (hnew : room'.primaryId ≠ "")
    (hchange : room'.primaryId ≠ room.primaryId) :
    MayTakeOver config es s roomId members now room'.primaryId := by
  have hbook := consenting_run hpath roomId room hroom
  obtain rfl := reconcile_room hroom hstep hroom'
  rw [reconcileRoom, install_primaryId] at hnew hchange ⊢
  obtain ⟨primary, -, hid, hcandidate, -, hwhy⟩ := decideRoute_cases hnew
  rw [← hid] at hnew hchange ⊢
  obtain ⟨agent, consent, hserves, hcandidacy⟩ := serves_of_mem_candidates hcandidate
  have hconsent : consent.agentId = primary.id := congrArg MediaCandidate.id hcandidacy.symm
  rcases hwhy with hsame | hauto | ⟨expiresAt, hget⟩ | ⟨hcalm, hnone⟩
  · -- the primary that is left is the room's own
    simp only [dropPrimary] at hsame
    split at hsame
    · exact absurd hsame hchange
    · exact absurd hsame hnew
  · rw [hcandidacy] at hauto
    exact .inl ⟨consent, hserves.consents, hconsent, hserves.member, hauto⟩
  · obtain ⟨hbefore, hrunning⟩ := get_keep_eq_some_iff.mp hget
    obtain ⟨acceptedAt, rfl, haccepted⟩ := hbook.accepted _ _ hbefore
    exact .inr ⟨acceptedAt, haccepted, of_decide_eq_true hrunning⟩
  · -- no failover: the primary is a candidate, so it is ranked
    have hbenefit := minimumParticipants_le hcandidate
    have hhealthy : ((s.known roomId members membershipEpoch).candidates config roomId members
        now).any (fun candidate => candidate.id = room.primaryId) = true := by
      simpa [dropPrimary, refresh, hhad, hbenefit] using hcalm
    obtain ⟨current, hcurrent, hcurrentId⟩ := any_eq_true.mp hhealthy
    have hname : current.id = room.primaryId := of_decide_eq_true hcurrentId
    obtain ⟨agent', consent', hserves', rfl⟩ := serves_of_mem_candidates hcurrent
    have hagentId : consent'.agentId = room.primaryId := hname
    have hne : room.primaryId ≠ "" := by
      intro hempty
      have hregistered := hserves'.registered
      rw [hagentId, hempty, hvacant hempty] at hregistered
      cases hregistered
    have hsettled : (room.refresh (decide (config.minimumParticipants ≤ members.length))
        now).declined.get room.primaryId = none := by
      rw [eq_none_iff_forall_ne_some]
      intro expiresAt hget
      have hbefore := (get_keep_eq_some_iff.mp hget).1
      rw [hbook.undeclined hne] at hbefore
      cases hbefore
    refine absurd (candidacy_electable (hfit room hroom agent' consent' hserves' hagentId))
      (hnone _ hcurrent ?_ ?_)
    · rw [hhealthy]
      exact hname
    · rw [hname]
      exact hsettled

end

/-! ## Sample runs -/

instance (agent : MediaAgent) : Decidable agent.Fit := inferInstanceAs (Decidable (_ ∧ _))

def sampleMediaConfig : MediaAgentConfig where
  leaseMs := 30000
  maxStandbys := 2
  minimumParticipants := 3
  shardMinParticipants := 6
  takeoverTtlMs := 20000

def sampleOwner : RoomPeer := ⟨"0123456789abcdef", "owner", "room-123456", true⟩

def sampleGuest : RoomPeer := ⟨"fedcba9876543210", "guest", "room-123456", false⟩

def sampleMembers : List String := ["0123456789abcdef", "fedcba9876543210", "1111111111111111"]

/-- Two members' agents connect, and the guest's becomes primary. -/
def sampleElection (guestAutomatic : Bool) : List MediaEvent :=
  [.registerDefinition ⟨"owner-edge", "owner", false⟩,
    .registerDefinition ⟨"guest-edge", "guest", false⟩,
    .issueChallenge 1 10000, .authenticate 1 "owner-edge" 10000 true 10000,
    .issueChallenge 2 10000, .authenticate 2 "guest-edge" 10000 true 10000,
    .setCapability 1 ⟨true, .mains, .fast, 80, 5, 8, 20, 80⟩,
    .setConsent sampleGuest true "guest-edge" guestAutomatic "owner" 10000,
    .reconcile "room-123456" sampleMembers 1 "r1" 10000]

/-- The primary a state has for the sample room. -/
def samplePrimary (s : MediaAgentRegistry) : Option String :=
  (s.rooms.get "room-123456").map primaryId

/-- The sample run in which the owner consents to an automatic takeover. -/
def sampleMediaTakeover : List MediaEvent :=
  sampleElection false ++ [.setConsent sampleOwner true "owner-edge" true "owner" 11000]

theorem takeover_consented_sample :
    samplePrimary (mediaRun sampleMediaConfig sampleMediaTakeover .empty) = some "guest-edge"
      ∧ MayTakeOver sampleMediaConfig sampleMediaTakeover
        (mediaRun sampleMediaConfig sampleMediaTakeover .empty) "room-123456" sampleMembers 12000
        "owner-edge" := by
  have hprimary : samplePrimary (mediaRun sampleMediaConfig sampleMediaTakeover .empty)
      = some "guest-edge" := by decide +kernel
  have hnew : samplePrimary ((MediaEvent.reconcile "room-123456" sampleMembers 2 "r2" 12000).apply
      sampleMediaConfig (mediaRun sampleMediaConfig sampleMediaTakeover .empty)) = some "owner-edge" := by
    decide
  have hagent : (mediaRun sampleMediaConfig sampleMediaTakeover .empty).agents.get "guest-edge"
      = some ⟨⟨"guest-edge", "guest", false⟩, some 2, 10000, defaultCapability, false⟩ := by
    decide
  obtain ⟨room, hroom, hroomPrimary⟩ := map_eq_some_iff.mp hprimary
  obtain ⟨room', hroom', hroomPrimary'⟩ := map_eq_some_iff.mp hnew
  have hpath := path_mediaRun sampleMediaConfig sampleMediaTakeover .empty
  have hhad := (consenting_run hpath _ room hroom).had (by rw [hroomPrimary]; decide)
  have hfit : PrimaryFit sampleMediaConfig (mediaRun sampleMediaConfig sampleMediaTakeover .empty)
      "room-123456" sampleMembers 12000 := by
    intro other hother agent consent hserves hid
    cases hroom.symm.trans hother
    have hregistered := hserves.registered
    rw [hid, hroomPrimary, hagent] at hregistered
    exact some.inj hregistered ▸ by decide
  refine ⟨hprimary, hroomPrimary' ▸ takeover_consented hpath rfl hroom hroom' hfit hhad ?_ ?_ ?_⟩
  · rw [hroomPrimary]
    exact fun h => absurd h (by decide)
  · rw [hroomPrimary']
    decide
  · rw [hroomPrimary, hroomPrimary']
    decide

def MediaEvent.responds : MediaEvent → Bool
  | .respondToTakeover .. => true
  | _ => false

/-- The sample run in which the primary reports that it is draining. -/
def sampleDrain : List MediaEvent :=
  sampleElection false ++ [.setConsent sampleOwner true "owner-edge" false "owner" 10500,
    .setDraining 2 true 11000]

/-- A primary that announces its leave is replaced at once, by an agent whose
owner was neither asked nor had agreed to it. -/
theorem draining_primary_replaced : ∃ es s t, Path (MediaStep sampleMediaConfig) .empty es s
      ∧ MediaStep sampleMediaConfig s (.reconcile "room-123456" sampleMembers 2 "r2" 11000) t
      ∧ samplePrimary s = some "guest-edge" ∧ samplePrimary t = some "owner-edge"
      ∧ ¬MayTakeOver sampleMediaConfig es s "room-123456" sampleMembers 11000 "owner-edge" := by
  refine ⟨sampleDrain, _, _, path_mediaRun _ _ _, rfl, by decide +kernel, by decide, ?_⟩
  rintro (⟨consent, hconsent, -, -, hauto⟩ | ⟨acceptedAt, haccepted, -⟩)
  · have hnone : ∀ consent ∈ ((mediaRun sampleMediaConfig sampleDrain .empty).roomConsents
        "room-123456").values, consent.automaticTakeover = false := by decide
    rw [hnone consent hconsent] at hauto
    cases hauto
  · obtain ⟨es₁, e, es₂, u, peerId, hes, -, haccepts, -⟩ := haccepted
    obtain ⟨peer, requestId, room, pending, rfl, -⟩ := haccepts
    have hnone : ∀ e ∈ sampleDrain, e.responds = false := by decide
    have hresponds := hnone _ (hes ▸ mem_append_right _ mem_cons_self)
    cases hresponds

end WebrtcMinimize
