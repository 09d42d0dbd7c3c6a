import WebrtcMinimize.MediaFederation

/-!
# The election of a primary

`planMediaAgents` ranks the candidates of a room by what their agents
reported and picks the primary. A candidate that cannot serve has no score
and is not ranked. The current primary stays unless another candidate is
better by the switch margin; taking over from a primary, or after one has
failed, needs the candidate's automatic consent or an approval, and without
them the candidate is put forward for a takeover request.
-/

namespace WebrtcMinimize

/-- A consenting agent that could serve the room. -/
structure MediaCandidate where
  id : String
  ownerPeerId : String
  creatorOwned : Bool
  automaticTakeover : Bool
  healthy : Bool
  draining : Bool
  capability : AgentCapability
deriving DecidableEq, Repr

/-- `BATTERY_SCORE` -/
def Battery.score : Battery → Int
  | .mains => 90
  | .unknown => 35
  | .limited => 10
  | .critical => -500

/-- `NETWORK_SCORE` -/
def Network.score : Network → Int
  | .fast => 100
  | .normal => 60
  | .unknown => 25
  | .constrained => -250

def creatorPreferenceScore : Int := 240

def switchMargin : Int := 200

/-- The agent is in a condition to serve at all. -/
def MediaCandidate.Electable (candidate : MediaCandidate) : Prop :=
  candidate.healthy = true ∧ candidate.draining = false
    ∧ candidate.capability.battery ≠ .critical ∧ candidate.capability.network ≠ .constrained
    ∧ candidate.capability.visible = true ∧ 25 ≤ candidate.capability.capacity
    ∧ candidate.capability.load < 90

instance (candidate : MediaCandidate) : Decidable candidate.Electable :=
  inferInstanceAs (Decidable (_ ∧ _))

/-- The score of a candidate; one that cannot serve scores minus infinity. -/
def mediaAgentScore (candidate : MediaCandidate) : Option Int :=
  if candidate.Electable then
    some ((if candidate.creatorOwned then creatorPreferenceScore else 0)
      + candidate.capability.battery.score + candidate.capability.network.score
      + min 100 candidate.capability.capacity * 2 - min 100 candidate.capability.load)
  else none

structure RankedCandidate where
  candidate : MediaCandidate
  score : Int
deriving DecidableEq, Repr

def RankedCandidate.id (ranked : RankedCandidate) : String := ranked.candidate.id

/-- The order of the ranking: the better score first, then by identifier. -/
def RankLe (left right : RankedCandidate) : Prop :=
  right.score < left.score ∨ left.score = right.score ∧ localeLe left.id right.id = true

instance : DecidableRel RankLe := fun _ _ => inferInstanceAs (Decidable (_ ∨ _))

def rankMediaAgents (candidates : List MediaCandidate) : List RankedCandidate :=
  (candidates.filterMap fun candidate =>
    (mediaAgentScore candidate).map fun score => ⟨candidate, score⟩).insertionSort RankLe

structure MediaAgentPlan where
  primary : Option RankedCandidate
  standbys : List RankedCandidate
  takeover : Option RankedCandidate
  ranked : List RankedCandidate

def planMediaAgents (candidates : List MediaCandidate) (currentPrimaryId : String)
    (maxStandbys : Nat) (failover : Bool) (approvedAgentIds : List String) : MediaAgentPlan :=
  let ranked := rankMediaAgents candidates
  let current := ranked.find? fun candidate => candidate.id = currentPrimaryId
  let best := ranked.head?
  let consented (b : RankedCandidate) : Bool :=
    b.candidate.automaticTakeover || decide (b.id ∈ approvedAgentIds)
  let (primary, takeover) := match current, best with
    | none, some b => if !failover || consented b then (some b, none) else (none, some b)
    | some c, some b =>
        if b.id ≠ c.id ∧ c.score + switchMargin ≤ b.score then
          if consented b then (some b, none) else (some c, some b)
        else (some c, none)
    | c, none => (c, none)
  let primaryId := match primary with
    | some p => p.id
    | none => ""
  { primary := primary
    standbys := (ranked.filter fun candidate => candidate.id ≠ primaryId).take maxStandbys
    takeover := takeover
    ranked := ranked }

/-! ## What a plan says -/

theorem mediaAgentScore_isSome_iff {candidate : MediaCandidate} :
    (mediaAgentScore candidate).isSome = true ↔ candidate.Electable := by
  rw [mediaAgentScore]
  split
  · simp [*]
  · simp [*]

theorem mem_rankMediaAgents {candidates : List MediaCandidate} {ranked : RankedCandidate} :
    ranked ∈ rankMediaAgents candidates
      ↔ ranked.candidate ∈ candidates ∧ mediaAgentScore ranked.candidate = some ranked.score := by
  rw [rankMediaAgents, List.mem_insertionSort, List.mem_filterMap]
  constructor
  · rintro ⟨candidate, hmem, hscore⟩
    obtain ⟨score, hsome, rfl⟩ := Option.map_eq_some_iff.mp hscore
    exact ⟨hmem, hsome⟩
  · rintro ⟨hmem, hscore⟩
    exact ⟨ranked.candidate, hmem, by rw [hscore, Option.map_some]⟩

theorem exists_ranked {candidates : List MediaCandidate} {candidate : MediaCandidate}
    (hmem : candidate ∈ candidates) (h : candidate.Electable) :
    ∃ ranked ∈ rankMediaAgents candidates, ranked.candidate = candidate := by
  obtain ⟨score, hscore⟩ := Option.isSome_iff_exists.mp (mediaAgentScore_isSome_iff.mpr h)
  exact ⟨⟨candidate, score⟩, mem_rankMediaAgents.mpr ⟨hmem, hscore⟩, rfl⟩

end WebrtcMinimize
