import WebrtcMinimize.Hops
import WebrtcMinimize.MediaModel

/-!
# The federation plan

The forwarders of a large room are joined in a star: one link from the
primary to each standby. `buildFederationPlan` lays a route over the links
for every publisher whose media other agents need, and `federationDemands`
collects, for the subscriptions of a room, which publication has to cross
which hop in which layer.

A route is a tree rooted at the publisher's agent (`memberRoute_tree`), and
the path `federationPath` searches for in it is the tree's walk, so the
demands are exactly the hops of those walks (`mem_federationDemands`).
-/

namespace WebrtcMinimize

open Checks
open Keys
open Hops (Walk Tree)
open FederationEdge List MediaLayer KeyedMap Json

/-- `[left, right].sort()` -/
def sortedPair (left right : String) : String × String :=
  if lexLe (utf8 left) (utf8 right) then (left, right) else (right, left)

/-- `sorted(values)`, for identifiers. -/
def sorted (values : List String) : List String :=
  values.insertionSort fun left right => localeLe left right = true

/-- Texts joined with line feeds. -/
def lineJoined (parts : List (List Nat)) : List Nat := intercalate ['\n'.toNat] parts

def federationLinkId (roomId : String) (routeEpoch : Nat) (leftAgentId rightAgentId : String) :
    String :=
  let digest := Sha256.base64 (lineJoined [utf8 "v1", utf8 roomId, digits routeEpoch,
    utf8 leftAgentId, utf8 rightAgentId])
  String.ofList (digest.toList.take 22)

structure FederationPlan where
  links : List FederationLink
  routes : List FederationRoute

/-- The link between the primary and a standby. -/
def standbyLink (roomId : String) (routeEpoch : Nat) (primaryId standbyId : String) :
    FederationLink :=
  let pair := sortedPair primaryId standbyId
  { linkId := federationLinkId roomId routeEpoch pair.1 pair.2
    leftAgentId := pair.1
    rightAgentId := pair.2
    initiatorAgentId := pair.1 }

/-- Both agents are ends of the link. -/
def FederationLink.joins (link : FederationLink) (left right : String) : Bool :=
  (left = link.leftAgentId ∨ left = link.rightAgentId)
    ∧ (right = link.leftAgentId ∨ right = link.rightAgentId)

def linkFor (links : List FederationLink) (left right : String) : Option FederationLink :=
  links.find? fun link => link.joins left right

/-- The edge along the link between two agents, when there is one. -/
def edgeAlong (links : List FederationLink) (fromAgentId toAgentId : String) :
    Option FederationEdge :=
  (linkFor links fromAgentId toAgentId).map fun link => ⟨link.linkId, fromAgentId, toAgentId⟩

/-- The other agents that the other members are assigned to. -/
def routeTargets (subscriberAssignments : KeyedMap String String) (members : List String)
    (memberId sourceAgentId : String) : List String :=
  sorted ((((members.filter (· ≠ memberId)).filterMap (assignedAgent subscriberAssignments)).filter
    (· ≠ sourceAgentId)).eraseDups)

def routeEdges (links : List FederationLink) (primaryId sourceAgentId : String)
    (targets : List String) : List FederationEdge :=
  if sourceAgentId = primaryId then targets.filterMap (edgeAlong links primaryId)
  else if targets = [] then []
  else (edgeAlong links sourceAgentId primaryId).toList
    ++ (targets.filter (· ≠ primaryId)).filterMap (edgeAlong links primaryId)

def memberRoute (links : List FederationLink) (primaryId : String)
    (publisherAssignments subscriberAssignments : KeyedMap String String) (members : List String)
    (memberId : String) : Option FederationRoute :=
  match assignedAgent publisherAssignments memberId with
  | none => none
  | some sourceAgentId =>
      let edges := routeEdges links primaryId sourceAgentId
        (routeTargets subscriberAssignments members memberId sourceAgentId)
      if edges = [] then none else some ⟨memberId, sourceAgentId, 2, edges⟩

def buildFederationPlan (roomId : String) (routeEpoch : Nat) (forwarderIds : List String)
    (publisherAssignments subscriberAssignments : KeyedMap String String)
    (members : List String) : FederationPlan :=
  match forwarderIds with
  | [] => ⟨[], []⟩
  | primaryId :: standbyIds =>
      if primaryId = "" ∨ standbyIds = [] then ⟨[], []⟩
      else
        let links := standbyIds.map (standbyLink roomId routeEpoch primaryId)
        ⟨links, (sorted members).filterMap
          (memberRoute links primaryId publisherAssignments subscriberAssignments members)⟩

/-! ## Demands -/

def federationPath (route : FederationRoute) (targetAgentId : String) :
    Option (List FederationEdge) :=
  Hops.visit fromAgentId toAgentId route.edges targetAgentId
    (route.edges.length + 1) route.sourceAgentId [] [route.sourceAgentId]

/-- The layer a subscription is fed with, when there is one. -/
def selectedFederationLayer (room : MediaRoom) (subscription : SubscriptionPlan) :
    Option MediaLayer :=
  let publication := room.publicationLayers.get
    (publicationKey subscription.publisherPeerId subscription.publicationId)
  let available := match publication with
    | some p => if p.source = subscription.source then p.layers else []
    | none => []
  let preferred := subscription.preferredLayer
  if available = [] then some preferred
  else if preferred = .audio ∨ preferred = .single then
    if preferred ∈ available then some preferred else none
  else if single ∈ available then some .single
  else if preferred ∈ available then some preferred
  else [high, .medium, .low].find? fun layer =>
    layer.le preferred && layer.le subscription.maximumLayer && decide (layer ∈ available)

def demandFor (subscription : SubscriptionPlan) (layer : MediaLayer) (edge : FederationEdge) :
    FederationDemand where
  linkId := edge.linkId
  fromAgentId := edge.fromAgentId
  toAgentId := edge.toAgentId
  publisherPeerId := subscription.publisherPeerId
  publicationId := subscription.publicationId
  layer := layer

def demandKey (demand : FederationDemand) : String :=
  joined [demand.linkId, demand.fromAgentId, demand.toAgentId, demand.publisherPeerId,
    demand.publicationId, demand.layer.text]

def FederationDemand.toJson (demand : FederationDemand) : Json :=
  .obj [("linkId", .str demand.linkId), ("fromAgentId", .str demand.fromAgentId),
    ("toAgentId", .str demand.toAgentId), ("publisherPeerId", .str demand.publisherPeerId),
    ("publicationId", .str demand.publicationId), ("layer", .str demand.layer.text)]

/-- The punctuation of a demand's text, in the order of the root collation,
sorts before the digits and the letters. -/
def demandWeight (b : Nat) : Nat :=
  let punctuation := ['_', '-', ',', ':', '"', '\x7b', '\x7d', '=']
  match punctuation.findIdx? (·.toNat = b) with
  | some n => n
  | none => if upperByte b then b + 32 else b

/-- `JSON.stringify(left).localeCompare(JSON.stringify(right)) <= 0` -/
def demandLe (left right : FederationDemand) : Bool :=
  let l := render left.toJson
  let r := render right.toJson
  if l.map demandWeight = r.map demandWeight then
    lexLe (l.map fun b => if upperByte b then 1 else 0)
      (r.map fun b => if upperByte b then 1 else 0)
  else lexLe (l.map demandWeight) (r.map demandWeight)

/-- The demands one subscription makes. -/
def subscriptionDemands (room : MediaRoom) (subscription : SubscriptionPlan) :
    List FederationDemand :=
  if subscription.enabled = false then []
  else match assignedAgent room.publisherAssignments subscription.publisherPeerId with
  | none => []
  | some sourceAgentId =>
      if sourceAgentId = subscription.agentId then []
      else match room.federationRoutes.find?
        (·.publisherPeerId = subscription.publisherPeerId) with
      | none => []
      | some route =>
          match federationPath route subscription.agentId with
          | none => []
          | some path =>
              match selectedFederationLayer room subscription with
              | none => []
              | some selectedLayer => path.map (demandFor subscription selectedLayer)

def federationDemands (room : MediaRoom) : List FederationDemand :=
  let demands := collect demandKey
    (room.subscriptions.values.flatMap (subscriptionDemands room))
  demands.values.insertionSort fun left right => demandLe left right = true

/-! ## Links -/

theorem mem_sortedPair {left right agentId : String} :
    agentId = (sortedPair left right).1 ∨ agentId = (sortedPair left right).2
      ↔ agentId = left ∨ agentId = right := by
  rw [sortedPair]
  split
  · exact Iff.rfl
  · exact or_comm

theorem mem_sorted {value : String} {values : List String} :
    value ∈ sorted values ↔ value ∈ values :=
  mem_insertionSort _

theorem nodup_sorted {values : List String} : (sorted values).Nodup ↔ values.Nodup :=
  (perm_insertionSort _ values).nodup_iff

section

variable {roomId : String} {routeEpoch : Nat} {primaryId : String} {standbyIds : List String}

@[simp] theorem standbyLink_joins {standbyId left right : String} :
    (standbyLink roomId routeEpoch primaryId standbyId).joins left right = true
      ↔ (left = primaryId ∨ left = standbyId) ∧ (right = primaryId ∨ right = standbyId) := by
  simp only [FederationLink.joins, standbyLink, decide_eq_true_eq, mem_sortedPair]

/-- Between the primary and a standby there is the standby's link. -/
theorem linkFor_standby (hprimary : primaryId ∉ standbyIds) {standbyId : String}
    (hstandby : standbyId ∈ standbyIds) {left right : String}
    (hends : left = primaryId ∧ right = standbyId ∨ left = standbyId ∧ right = primaryId) :
    linkFor (standbyIds.map (standbyLink roomId routeEpoch primaryId)) left right
      = some (standbyLink roomId routeEpoch primaryId standbyId) := by
  have hjoins : (standbyLink roomId routeEpoch primaryId standbyId).joins left right = true := by
    rcases hends with ⟨rfl, rfl⟩ | ⟨rfl, rfl⟩ <;> simp
  have hsome : (linkFor (standbyIds.map (standbyLink roomId routeEpoch primaryId))
      left right).isSome = true :=
    find?_isSome.mpr ⟨_, mem_map_of_mem hstandby, hjoins⟩
  obtain ⟨link, hlink⟩ := Option.isSome_iff_exists.mp hsome
  obtain ⟨agentId, hagent, rfl⟩ := mem_map.mp (mem_of_find?_eq_some hlink)
  have hfound := standbyLink_joins.mp
    (find?_some (p := fun link => FederationLink.joins link left right) hlink)
  have hne' : standbyId ≠ primaryId := fun heq => hprimary (heq ▸ hstandby)
  obtain rfl : agentId = standbyId := by
    rcases hends with ⟨rfl, rfl⟩ | ⟨rfl, rfl⟩
    · exact (hfound.2.resolve_left hne').symm
    · exact (hfound.1.resolve_left hne').symm
  exact hlink

/-! ## Routes as trees -/

/-- The hop from the primary down to a standby. -/
def downEdge (roomId : String) (routeEpoch : Nat) (primaryId standbyId : String) :
    FederationEdge :=
  ⟨(standbyLink roomId routeEpoch primaryId standbyId).linkId, primaryId, standbyId⟩

/-- The hop from a standby up to the primary. -/
def upEdge (roomId : String) (routeEpoch : Nat) (primaryId standbyId : String) :
    FederationEdge :=
  ⟨(standbyLink roomId routeEpoch primaryId standbyId).linkId, standbyId, primaryId⟩

variable {targets : List String}

section

variable (hprimary : primaryId ∉ standbyIds)

include hprimary

theorem filterMap_edgeAlong
    (htargets : ∀ target ∈ targets, target ∈ standbyIds) :
    targets.filterMap
        (edgeAlong (standbyIds.map (standbyLink roomId routeEpoch primaryId)) primaryId)
      = targets.map (downEdge roomId routeEpoch primaryId) := by
  rw [← filterMap_eq_map (f := downEdge roomId routeEpoch primaryId)]
  refine filterMap_congr fun target htarget => ?_
  rw [edgeAlong, linkFor_standby hprimary (htargets target htarget) (.inl ⟨rfl, rfl⟩)]
  rfl

theorem routeEdges_primary
    (htargets : ∀ target ∈ targets, target ∈ standbyIds) :
    routeEdges (standbyIds.map (standbyLink roomId routeEpoch primaryId)) primaryId primaryId targets
      = targets.map (downEdge roomId routeEpoch primaryId) := by
  rw [routeEdges, if_pos rfl, filterMap_edgeAlong hprimary htargets]

theorem routeEdges_standby {sourceAgentId : String}
    (hsource : sourceAgentId ∈ standbyIds) (hne : targets ≠ [])
    (htargets : ∀ target ∈ targets, target = primaryId ∨ target ∈ standbyIds) :
    routeEdges (standbyIds.map (standbyLink roomId routeEpoch primaryId)) primaryId sourceAgentId
        targets
      = upEdge roomId routeEpoch primaryId sourceAgentId
          :: (targets.filter (· ≠ primaryId)).map (downEdge roomId routeEpoch primaryId) := by
  have hother : sourceAgentId ≠ primaryId := fun heq => hprimary (heq ▸ hsource)
  have hdown : ∀ target ∈ targets.filter (· ≠ primaryId), target ∈ standbyIds := by
    intro target htarget
    rw [mem_filter, decide_eq_true_eq] at htarget
    exact (htargets target htarget.1).resolve_left htarget.2
  rw [routeEdges, if_neg hother, if_neg hne, filterMap_edgeAlong hprimary hdown, edgeAlong,
    linkFor_standby hprimary hsource (.inr ⟨rfl, rfl⟩)]
  rfl

end

end

/-- The walks of a route. -/
abbrev RouteWalk (route : FederationRoute) (path : List FederationEdge) (agentId : String) : Prop :=
  Walk fromAgentId toAgentId route.edges route.sourceAgentId path
    agentId

/-- The route is a tree rooted at its source. -/
abbrev FederationRoute.IsTree (route : FederationRoute) : Prop :=
  Tree fromAgentId toAgentId route.edges route.sourceAgentId

section

variable {roomId : String} {routeEpoch : Nat} {primaryId sourceAgentId : String}
  {targets : List String}

theorem tree_down (hnodup : targets.Nodup) (hsource : primaryId ∉ targets) :
    Tree fromAgentId toAgentId (targets.map (downEdge roomId routeEpoch primaryId)) primaryId where
  rooted := by
    intro edge hedge heq
    obtain ⟨target, htarget, rfl⟩ := mem_map.mp hedge
    exact hsource (heq ▸ htarget)
  single := by
    rw [map_map]
    exact (map_id targets).symm ▸ hnodup
  connected := by
    intro edge hedge
    obtain ⟨target, -, rfl⟩ := mem_map.mp hedge
    exact ⟨[], .nil primaryId⟩

/-- One hop up to the primary and the hops down from it are a tree rooted at
the standby, which is not among the targets. -/
theorem tree_up_down (hnodup : targets.Nodup) (hsource : sourceAgentId ∉ targets)
    (hother : sourceAgentId ≠ primaryId) :
    Tree fromAgentId toAgentId (upEdge roomId routeEpoch primaryId sourceAgentId
        :: (targets.filter (· ≠ primaryId)).map (downEdge roomId routeEpoch primaryId))
      sourceAgentId where
  rooted := by
    refine forall_mem_cons.mpr ⟨fun heq => hother heq.symm, ?_⟩
    intro edge hedge heq
    obtain ⟨target, htarget, rfl⟩ := mem_map.mp hedge
    exact hsource (heq ▸ (mem_filter.mp htarget).1)
  single := by
    rw [map_cons, map_map, nodup_cons]
    have hends : (targets.filter (· ≠ primaryId)).map
        (toAgentId ∘ downEdge roomId routeEpoch primaryId)
          = targets.filter (· ≠ primaryId) := map_id _
    rw [hends]
    exact ⟨fun hmem => of_decide_eq_true (mem_filter.mp hmem).2 rfl, hnodup.filter _⟩
  connected := by
    refine forall_mem_cons.mpr ⟨⟨[], .nil sourceAgentId⟩, ?_⟩
    intro edge hedge
    obtain ⟨target, -, rfl⟩ := mem_map.mp hedge
    exact ⟨[upEdge roomId routeEpoch primaryId sourceAgentId], .single mem_cons_self⟩

/-- What a publisher's hops are there for: a tree over declared links that
reaches every target within two hops. -/
structure Delivers (links : List FederationLink) (edges : List FederationEdge)
    (sourceAgentId : String) (targets : List String) : Prop where
  tree : Tree fromAgentId toAgentId edges sourceAgentId
  declared : ∀ edge ∈ edges, ∃ link ∈ links,
    link.linkId = edge.linkId ∧ link.joins edge.fromAgentId edge.toAgentId = true
  reaches : ∀ target ∈ targets, ∃ path,
    Walk fromAgentId toAgentId edges sourceAgentId path target
      ∧ path.length ≤ 2

variable {standbyIds : List String}

theorem declared_down {standbyId : String} (hstandby : standbyId ∈ standbyIds) :
    ∃ link ∈ standbyIds.map (standbyLink roomId routeEpoch primaryId),
      link.linkId = (downEdge roomId routeEpoch primaryId standbyId).linkId
        ∧ link.joins primaryId standbyId = true :=
  ⟨_, mem_map_of_mem hstandby, rfl, by simp⟩

theorem declared_up {standbyId : String} (hstandby : standbyId ∈ standbyIds) :
    ∃ link ∈ standbyIds.map (standbyLink roomId routeEpoch primaryId),
      link.linkId = (upEdge roomId routeEpoch primaryId standbyId).linkId
        ∧ link.joins standbyId primaryId = true :=
  ⟨_, mem_map_of_mem hstandby, rfl, by simp⟩

theorem delivers_down (hnodup : targets.Nodup)
    (hsource : primaryId ∉ targets) (htargets : ∀ target ∈ targets, target ∈ standbyIds) :
    Delivers (standbyIds.map (standbyLink roomId routeEpoch primaryId))
      (targets.map (downEdge roomId routeEpoch primaryId)) primaryId targets where
  tree := tree_down hnodup hsource
  declared := by
    intro edge hedge
    obtain ⟨target, htarget, rfl⟩ := mem_map.mp hedge
    exact declared_down (htargets target htarget)
  reaches := by
    intro target htarget
    have hedge : downEdge roomId routeEpoch primaryId target
        ∈ targets.map (downEdge roomId routeEpoch primaryId) := mem_map_of_mem htarget
    exact ⟨[downEdge roomId routeEpoch primaryId target], .single hedge, by simp⟩

theorem delivers_up_down (hnodup : targets.Nodup)
    (hsource : sourceAgentId ∉ targets) (hother : sourceAgentId ≠ primaryId)
    (hstandby : sourceAgentId ∈ standbyIds)
    (htargets : ∀ target ∈ targets, target = primaryId ∨ target ∈ standbyIds) :
    Delivers (standbyIds.map (standbyLink roomId routeEpoch primaryId))
      (upEdge roomId routeEpoch primaryId sourceAgentId
        :: (targets.filter (· ≠ primaryId)).map (downEdge roomId routeEpoch primaryId))
      sourceAgentId targets where
  tree := tree_up_down hnodup hsource hother
  declared := by
    refine forall_mem_cons.mpr ⟨declared_up hstandby, ?_⟩
    intro edge hedge
    obtain ⟨target, htarget, rfl⟩ := mem_map.mp hedge
    rw [mem_filter, decide_eq_true_eq] at htarget
    exact declared_down ((htargets target htarget.1).resolve_left htarget.2)
  reaches := by
    intro target htarget
    by_cases heq : target = primaryId
    · obtain rfl := heq
      exact ⟨[upEdge roomId routeEpoch target sourceAgentId], .single mem_cons_self, by simp⟩
    · have hdown : downEdge roomId routeEpoch primaryId target
          ∈ (targets.filter (· ≠ primaryId)).map (downEdge roomId routeEpoch primaryId) :=
        mem_map_of_mem (mem_filter.mpr ⟨htarget, decide_eq_true heq⟩)
      refine ⟨[upEdge roomId routeEpoch primaryId sourceAgentId,
        downEdge roomId routeEpoch primaryId target], ?_, by simp⟩
      exact .cons mem_cons_self (.single (mem_cons_of_mem _ hdown))

/-- The hops `routeEdges` lays from a forwarder deliver to every target. -/
theorem delivers_routeEdges (hforwarders : (primaryId :: standbyIds).Nodup) (hnodup : targets.Nodup)
    (hsource : sourceAgentId ∈ primaryId :: standbyIds) (hnot : sourceAgentId ∉ targets)
    (htargets : ∀ target ∈ targets, target ∈ primaryId :: standbyIds) :
    Delivers (standbyIds.map (standbyLink roomId routeEpoch primaryId))
      (routeEdges (standbyIds.map (standbyLink roomId routeEpoch primaryId)) primaryId
        sourceAgentId targets) sourceAgentId targets := by
  have hprimary := (nodup_cons.mp hforwarders).1
  have hends : ∀ target ∈ targets, target = primaryId ∨ target ∈ standbyIds :=
    fun target htarget => mem_cons.mp (htargets target htarget)
  rcases mem_cons.mp hsource with rfl | hstandby
  · have hstandbys : ∀ target ∈ targets, target ∈ standbyIds := fun target htarget =>
      (hends target htarget).resolve_left fun heq => hnot (heq ▸ htarget)
    rw [routeEdges_primary hprimary hstandbys]
    exact delivers_down hnodup hnot hstandbys
  · have hother : sourceAgentId ≠ primaryId := fun heq => hprimary (heq ▸ hstandby)
    by_cases hempty : targets = []
    · rw [hempty, routeEdges, if_neg hother, if_pos rfl]
      exact ⟨⟨by simp, nodup_nil, by simp⟩, by simp, by simp⟩
    · rw [routeEdges_standby hprimary hstandby hempty hends]
      exact delivers_up_down hnodup hnot hother hstandby hends

end

/-! ## Targets -/

theorem nodup_eraseDups : ∀ (n : Nat) (values : List String), values.length ≤ n →
    values.eraseDups.Nodup
  | _, [], _ => by simp
  | 0, _ :: _, h => absurd h (by simp)
  | n + 1, v :: vs, h => by
      have hlen : (vs.filter fun w => !w == v).length ≤ n :=
        Nat.le_trans (length_filter_le _ vs) (Nat.le_of_succ_le_succ h)
      rw [eraseDups_cons, nodup_cons, mem_eraseDups]
      exact ⟨by simp, nodup_eraseDups n _ hlen⟩

section

variable {subscriberAssignments : KeyedMap String String} {members : List String}
  {memberId sourceAgentId : String}

theorem mem_routeTargets {target : String} :
    target ∈ routeTargets subscriberAssignments members memberId sourceAgentId
      ↔ (∃ subscriber ∈ members, subscriber ≠ memberId
          ∧ assignedAgent subscriberAssignments subscriber = some target)
        ∧ target ≠ sourceAgentId := by
  rw [routeTargets, mem_sorted, mem_eraseDups, mem_filter, mem_filterMap]
  simp only [mem_filter, decide_eq_true_eq, and_assoc]

theorem nodup_routeTargets :
    (routeTargets subscriberAssignments members memberId sourceAgentId).Nodup :=
  nodup_sorted.mpr (nodup_eraseDups _ _ (Nat.le_refl _))

end

/-! ## The plan -/

/-- Every assigned agent is one of the forwarders. -/
def AssignsTo (assignments : KeyedMap String String) (forwarderIds : List String) : Prop :=
  ∀ peerId agentId, assignedAgent assignments peerId = some agentId → agentId ∈ forwarderIds

theorem assignsTo_of_values {assignments : KeyedMap String String} {forwarderIds : List String}
    (h : ∀ agentId ∈ assignments.values, agentId ∈ forwarderIds) :
    AssignsTo assignments forwarderIds := by
  intro peerId agentId hassigned
  exact h agentId (mem_values_iff.mpr ⟨peerId, (assignedAgent_eq_some_iff.mp hassigned).1⟩)

theorem memberRoute_eq_some_iff {links : List FederationLink} {primaryId memberId : String}
    {publisherAssignments subscriberAssignments : KeyedMap String String} {members : List String}
    {route : FederationRoute} :
    memberRoute links primaryId publisherAssignments subscriberAssignments members memberId
        = some route
      ↔ ∃ sourceAgentId, assignedAgent publisherAssignments memberId = some sourceAgentId
        ∧ route.edges ≠ []
        ∧ route = ⟨memberId, sourceAgentId, 2, routeEdges links primaryId sourceAgentId
            (routeTargets subscriberAssignments members memberId sourceAgentId)⟩ := by
  rw [memberRoute]
  split
  · simp [*]
  · rename_i sourceAgentId hsource
    simp only [hsource, Option.some.injEq, exists_eq_left']
    split
    · rename_i hempty
      constructor
      · intro h
        cases h
      · rintro ⟨hne, rfl⟩
        exact absurd hempty hne
    · rename_i hne
      constructor
      · intro h
        cases h
        exact ⟨hne, rfl⟩
      · rintro ⟨-, rfl⟩
        rfl

theorem map_filterMap_sublist {α β : Type} {f : α → Option β} {g : β → α}
    (h : ∀ a b, f a = some b → g b = a) : ∀ as : List α, ((as.filterMap f).map g).Sublist as
  | [] => by simp
  | a :: as => by
      rw [filterMap_cons]
      split
      · exact (map_filterMap_sublist h as).cons a
      · rename_i b hb
        rw [map_cons, h a b hb]
        exact (map_filterMap_sublist h as).cons_cons a

/-- The first element with a key is the element with it, where keys do not repeat. -/
theorem find?_of_nodup_map {α : Type} {f : α → String} {a : α} : ∀ {as : List α},
    (as.map f).Nodup → a ∈ as → as.find? (fun b => f b = f a) = some a
  | [], _, h => absurd h not_mem_nil
  | b :: as, hnodup, h => by
      rw [map_cons, nodup_cons] at hnodup
      rcases mem_cons.mp h with rfl | hmem
      · exact find?_cons_of_pos (decide_eq_true rfl)
      · have hne : f b ≠ f a := fun heq => hnodup.1 (heq ▸ mem_map_of_mem hmem)
        rw [find?_cons_of_neg (by simpa using hne)]
        exact find?_of_nodup_map hnodup.2 hmem

section

variable {roomId : String} {routeEpoch : Nat} {forwarderIds members : List String}
  {publisherAssignments subscriberAssignments : KeyedMap String String}

theorem buildFederationPlan_cons {primaryId : String} {standbyIds : List String}
    (hprimary : primaryId ≠ "") (hstandbys : standbyIds ≠ []) :
    buildFederationPlan roomId routeEpoch (primaryId :: standbyIds) publisherAssignments
        subscriberAssignments members
      = ⟨standbyIds.map (standbyLink roomId routeEpoch primaryId), (sorted members).filterMap
            (memberRoute (standbyIds.map (standbyLink roomId routeEpoch primaryId)) primaryId
              publisherAssignments subscriberAssignments members)⟩ := by
  rw [buildFederationPlan, if_neg (not_or.mpr ⟨hprimary, hstandbys⟩)]

variable {memberId sourceAgentId : String}

theorem mem_forwarders_of_mem_routeTargets
    (hsubscribers : AssignsTo subscriberAssignments forwarderIds) :
    ∀ target ∈ routeTargets subscriberAssignments members memberId sourceAgentId,
      target ∈ forwarderIds := by
  intro target htarget
  obtain ⟨⟨subscriber, -, -, hassigned⟩, -⟩ := mem_routeTargets.mp htarget
  exact hsubscribers _ _ hassigned

/-- The hops laid for a member deliver to the agents of the other members. -/
theorem delivers_member {primaryId : String} {standbyIds : List String}
    (hforwarders : (primaryId :: standbyIds).Nodup)
    (hsubscribers : AssignsTo subscriberAssignments (primaryId :: standbyIds))
    (hsource : sourceAgentId ∈ primaryId :: standbyIds) :
    Delivers (standbyIds.map (standbyLink roomId routeEpoch primaryId))
      (routeEdges (standbyIds.map (standbyLink roomId routeEpoch primaryId)) primaryId
        sourceAgentId (routeTargets subscriberAssignments members memberId sourceAgentId))
      sourceAgentId (routeTargets subscriberAssignments members memberId sourceAgentId) :=
  delivers_routeEdges hforwarders nodup_routeTargets hsource
    (fun hmem => (mem_routeTargets.mp hmem).2 rfl) (mem_forwarders_of_mem_routeTargets hsubscribers)

/-- A plan with a route has a primary and at least one standby. -/
theorem forwarders_of_route {route : FederationRoute}
    (h : route ∈ (buildFederationPlan roomId routeEpoch forwarderIds publisherAssignments
      subscriberAssignments members).routes) :
    ∃ primaryId standbyIds, forwarderIds = primaryId :: standbyIds ∧ primaryId ≠ ""
      ∧ standbyIds ≠ [] := by
  cases forwarderIds with
  | nil => exact absurd h not_mem_nil
  | cons primaryId standbyIds =>
      rw [buildFederationPlan] at h
      split at h
      · exact absurd h not_mem_nil
      · rename_i hne
        exact ⟨primaryId, standbyIds, rfl, (not_or.mp hne).1, (not_or.mp hne).2⟩

theorem plan_route (hforwarders : forwarderIds.Nodup)
    (hpublishers : AssignsTo publisherAssignments forwarderIds)
    (hsubscribers : AssignsTo subscriberAssignments forwarderIds) {route : FederationRoute}
    (h : route ∈ (buildFederationPlan roomId routeEpoch forwarderIds publisherAssignments
      subscriberAssignments members).routes) :
    route.publisherPeerId ∈ members
      ∧ assignedAgent publisherAssignments route.publisherPeerId = some route.sourceAgentId
      ∧ Delivers (buildFederationPlan roomId routeEpoch forwarderIds publisherAssignments
            subscriberAssignments members).links route.edges route.sourceAgentId
          (routeTargets subscriberAssignments members route.publisherPeerId
            route.sourceAgentId) := by
  obtain ⟨primaryId, standbyIds, rfl, hprimary, hstandbys⟩ := forwarders_of_route h
  rw [buildFederationPlan_cons hprimary hstandbys] at h ⊢
  obtain ⟨memberId, hmember, hroute⟩ := mem_filterMap.mp h
  obtain ⟨sourceAgentId, hsource, -, rfl⟩ := memberRoute_eq_some_iff.mp hroute
  exact ⟨mem_sorted.mp hmember, hsource,
    delivers_member hforwarders hsubscribers (hpublishers _ _ hsource)⟩

theorem plan_covers (hforwarders : forwarderIds.Nodup) (hids : "" ∉ forwarderIds)
    (hpublishers : AssignsTo publisherAssignments forwarderIds)
    (hsubscribers : AssignsTo subscriberAssignments forwarderIds)
    {target : String} (hmember : memberId ∈ members)
    (hsource : assignedAgent publisherAssignments memberId = some sourceAgentId)
    (htarget : target ∈ routeTargets subscriberAssignments members memberId sourceAgentId) :
    ∃ route ∈ (buildFederationPlan roomId routeEpoch forwarderIds publisherAssignments
        subscriberAssignments members).routes,
      route.publisherPeerId = memberId ∧ route.sourceAgentId = sourceAgentId := by
  obtain ⟨⟨subscriber, -, -, hassigned⟩, hne⟩ := mem_routeTargets.mp htarget
  have hin := hsubscribers _ _ hassigned
  have hsourceIn := hpublishers _ _ hsource
  cases forwarderIds with
  | nil => exact absurd hin not_mem_nil
  | cons primaryId standbyIds =>
      have hprimary : primaryId ≠ "" := fun heq => hids (heq ▸ mem_cons_self)
      have hstandbys : standbyIds ≠ [] := by
        rintro rfl
        exact hne ((mem_singleton.mp hin).trans (mem_singleton.mp hsourceIn).symm)
      rw [buildFederationPlan_cons hprimary hstandbys]
      have hdelivers : Delivers (standbyIds.map (standbyLink roomId routeEpoch primaryId))
          (routeEdges _ primaryId sourceAgentId
            (routeTargets subscriberAssignments members memberId sourceAgentId)) sourceAgentId
          (routeTargets subscriberAssignments members memberId sourceAgentId) :=
        delivers_member hforwarders hsubscribers hsourceIn
      obtain ⟨path, hwalk, -⟩ := hdelivers.reaches target htarget
      refine ⟨⟨memberId, sourceAgentId, 2, _⟩, mem_filterMap.mpr ⟨memberId,
        mem_sorted.mpr hmember, memberRoute_eq_some_iff.mpr ⟨sourceAgentId, hsource, ?_, rfl⟩⟩,
        rfl, rfl⟩
      -- a walk that leads somewhere else takes an edge
      intro hempty
      cases hwalk with
      | nil => exact hne rfl
      | cons hedge _ => exact absurd (eq_nil_iff_forall_not_mem.mp hempty _ hedge) not_false

theorem nodup_routes (hmembers : members.Nodup) :
    ((buildFederationPlan roomId routeEpoch forwarderIds publisherAssignments
      subscriberAssignments members).routes.map FederationRoute.publisherPeerId).Nodup := by
  cases forwarderIds with
  | nil => exact nodup_nil
  | cons primaryId standbyIds =>
      rw [buildFederationPlan]
      split
      · exact nodup_nil
      · refine (nodup_sorted.mpr hmembers).sublist (map_filterMap_sublist ?_ _)
        intro memberId route hroute
        obtain ⟨sourceAgentId, -, -, rfl⟩ := memberRoute_eq_some_iff.mp hroute
        rfl

theorem nulFree_linkId {leftAgentId rightAgentId : String} :
    NulFree (federationLinkId roomId routeEpoch leftAgentId rightAgentId) := by
  intro hmem
  rw [federationLinkId, String.toList_ofList] at hmem
  have hdigit := Sha256.base64_mem (mem_of_mem_take hmem)
  exact absurd hdigit (by decide)

theorem nulFree_edge (hnames : ∀ agentId ∈ forwarderIds, NulFree agentId) {edge : FederationEdge}
    {link : FederationLink}
    (hlink : link ∈ (buildFederationPlan roomId routeEpoch forwarderIds publisherAssignments
      subscriberAssignments members).links)
    (hid : link.linkId = edge.linkId)
    (hjoins : link.joins edge.fromAgentId edge.toAgentId = true) :
    NulFree edge.linkId ∧ NulFree edge.fromAgentId ∧ NulFree edge.toAgentId := by
  cases forwarderIds with
  | nil => exact absurd hlink not_mem_nil
  | cons primaryId standbyIds =>
      rw [buildFederationPlan] at hlink
      split at hlink
      · exact absurd hlink not_mem_nil
      · obtain ⟨standbyId, hstandby, rfl⟩ := mem_map.mp hlink
        have hprimary := hnames primaryId mem_cons_self
        have hend := hnames standbyId (mem_cons_of_mem _ hstandby)
        have hends := standbyLink_joins.mp hjoins
        refine ⟨hid ▸ nulFree_linkId, ?_, ?_⟩
        · rcases hends.1 with heq | heq <;> rw [heq] <;> assumption
        · rcases hends.2 with heq | heq <;> rw [heq] <;> assumption

end

/-! ## Demands of a plan -/

theorem MediaLayer.text_injective {left right : MediaLayer} (h : left.text = right.text) :
    left = right := by
  cases left <;> cases right <;> first | rfl | exact absurd h (by decide)

theorem MediaLayer.nulFree_text (layer : MediaLayer) : NulFree layer.text := by
  cases layer <;> decide

/-- No text the demand's key is joined from contains the separator. -/
def FederationDemand.Separable (d : FederationDemand) : Prop :=
  NulFree d.linkId ∧ NulFree d.fromAgentId ∧ NulFree d.toAgentId ∧ NulFree d.publisherPeerId
    ∧ NulFree d.publicationId

theorem demandKey_injective {left right : FederationDemand} (hl : left.Separable)
    (hr : right.Separable) (h : demandKey left = demandKey right) : left = right := by
  obtain ⟨hl₁, hl₂, hl₃, hl₄, hl₅⟩ := hl
  obtain ⟨hr₁, hr₂, hr₃, hr₄, hr₅⟩ := hr
  have hparts := joined_injective (by simp [*, nulFree_text])
    (by simp [*, nulFree_text]) (by simp) (by simp) h
  obtain ⟨linkId, fromAgentId, toAgentId, publisherPeerId, publicationId, layer⟩ := left
  simp only [cons.injEq, and_true] at hparts
  obtain ⟨rfl, rfl, rfl, rfl, rfl, htext⟩ := hparts
  rw [text_injective htext]

theorem mem_subscriptionDemands {room : MediaRoom} {s : SubscriptionPlan} {d : FederationDemand} :
    d ∈ subscriptionDemands room s ↔ s.enabled = true ∧ ∃ sourceAgentId route path layer,
        assignedAgent room.publisherAssignments s.publisherPeerId = some sourceAgentId
          ∧ sourceAgentId ≠ s.agentId
          ∧ room.federationRoutes.find? (·.publisherPeerId = s.publisherPeerId) = some route
          ∧ federationPath route s.agentId = some path
          ∧ selectedFederationLayer room s = some layer
          ∧ ∃ edge ∈ path, demandFor s layer edge = d := by
  rw [subscriptionDemands]
  by_cases henabled : s.enabled = false
  · simp [henabled]
  · have hon : s.enabled = true := by simpa using henabled
    rw [if_neg henabled]
    split
    · simp [*]
    · rename_i source hsource
      split
      · rename_i hsame
        simp [hsource, hsame]
      · rename_i hother
        split
        · simp [*]
        · rename_i route hroute
          split
          · simp [*]
          · rename_i path hpath
            split
            · simp [*]
            · rename_i layer hlayer
              simp only [mem_map, hon, hsource, hroute, hlayer, Option.some.injEq, true_and]
              constructor
              · rintro ⟨edge, hedge, heq⟩
                exact ⟨source, route, path, layer, rfl, hother, rfl, hpath, rfl, edge, hedge, heq⟩
              · rintro ⟨_, _, _, _, rfl, -, rfl, hpath', rfl, edge, hedge, heq⟩
                cases hpath.symm.trans hpath'
                exact ⟨edge, hedge, heq⟩

/-- The hop lies on the way of the media of an enabled subscription from its
publisher's agent to the subscriber's, which is another one, and the
subscription is fed with the layer. -/
def Demanded (room : MediaRoom) (d : FederationDemand) : Prop :=
  ∃ s ∈ room.subscriptions.values, s.enabled = true
    ∧ s.publisherPeerId = d.publisherPeerId ∧ s.publicationId = d.publicationId
    ∧ selectedFederationLayer room s = some d.layer
    ∧ ∃ route ∈ room.federationRoutes, route.publisherPeerId = s.publisherPeerId
      ∧ route.sourceAgentId ≠ s.agentId
      ∧ ∃ path, RouteWalk route path s.agentId ∧ ⟨d.linkId, d.fromAgentId, d.toAgentId⟩ ∈ path

section

variable {roomId : String} {routeEpoch : Nat} {forwarderIds members : List String}
  {publisherAssignments subscriberAssignments : KeyedMap String String} {room : MediaRoom}

variable {d : FederationDemand}

section

variable (hforwarders : forwarderIds.Nodup)

include hforwarders

/-- A demand of a subscription lies on the walk to the subscriber's agent. -/
theorem demanded_of_mem
    (hpublishers : AssignsTo publisherAssignments forwarderIds)
    (hsubscribers : AssignsTo subscriberAssignments forwarderIds)
    (hassigned : room.publisherAssignments = publisherAssignments)
    (hroutes : room.federationRoutes = (buildFederationPlan roomId routeEpoch forwarderIds
      publisherAssignments subscriberAssignments members).routes)
    {s : SubscriptionPlan} (hs : s ∈ room.subscriptions.values)
    (h : d ∈ subscriptionDemands room s) : Demanded room d := by
  obtain ⟨hon, source, route, path, layer, hsource, hother, hroute, hpath, hlayer, edge, hedge,
    rfl⟩ := mem_subscriptionDemands.mp h
  have hmem := mem_of_find?_eq_some hroute
  have hpublisher : route.publisherPeerId = s.publisherPeerId := by
    simpa using find?_some hroute
  obtain ⟨-, hfrom, hdelivers⟩ := plan_route hforwarders hpublishers hsubscribers (hroutes ▸ hmem)
  have hsame : route.sourceAgentId = source := by
    rw [hassigned, ← hpublisher, hfrom] at hsource
    exact Option.some.inj hsource
  exact ⟨s, hs, hon, rfl, rfl, hlayer, route, hmem, hpublisher, hsame ▸ hother, path,
    hdelivers.tree.visit_eq_some_iff.mp hpath, hedge⟩

theorem mem_of_demanded
    (hpublishers : AssignsTo publisherAssignments forwarderIds)
    (hsubscribers : AssignsTo subscriberAssignments forwarderIds) (hmembers : members.Nodup)
    (hassigned : room.publisherAssignments = publisherAssignments)
    (hroutes : room.federationRoutes = (buildFederationPlan roomId routeEpoch forwarderIds
      publisherAssignments subscriberAssignments members).routes) (h : Demanded room d) :
    ∃ s ∈ room.subscriptions.values, d ∈ subscriptionDemands room s := by
  obtain ⟨s, hs, hon, hpub, hid, hlayer, route, hroute, hpublisher, hother, path, hwalk, hedge⟩ := h
  rw [hroutes] at hroute
  obtain ⟨-, hfrom, hdelivers⟩ := plan_route hforwarders hpublishers hsubscribers hroute
  refine ⟨s, hs, mem_subscriptionDemands.mpr ⟨hon, route.sourceAgentId, route, path, d.layer, ?_,
    hother, ?_, hdelivers.tree.visit_eq_some_iff.mpr hwalk, hlayer, _, hedge, ?_⟩⟩
  · rw [hassigned, ← hpublisher, hfrom]
  · rw [hroutes, ← hpublisher]
    exact find?_of_nodup_map (nodup_routes hmembers) hroute
  · rw [demandFor, hpub, hid]

theorem separable_of_demanded
    (hnames : ∀ agentId ∈ forwarderIds, NulFree agentId)
    (hpublishers : AssignsTo publisherAssignments forwarderIds)
    (hsubscribers : AssignsTo subscriberAssignments forwarderIds)
    (hroutes : room.federationRoutes = (buildFederationPlan roomId routeEpoch forwarderIds
      publisherAssignments subscriberAssignments members).routes)
    (hsubscriptions : ∀ s ∈ room.subscriptions.values,
      NulFree s.publisherPeerId ∧ NulFree s.publicationId) (h : Demanded room d) : d.Separable := by
  obtain ⟨s, hs, -, hpub, hid, -, route, hroute, -, -, path, hwalk, hedge⟩ := h
  obtain ⟨-, -, hdelivers⟩ := plan_route hforwarders hpublishers hsubscribers (hroutes ▸ hroute)
  obtain ⟨link, hlink, hlinkId, hjoins⟩ := hdelivers.declared _ (hwalk.mem _ hedge)
  obtain ⟨h₁, h₂, h₃⟩ := nulFree_edge hnames hlink hlinkId hjoins
  exact ⟨h₁, h₂, h₃, hpub ▸ (hsubscriptions s hs).1, hid ▸ (hsubscriptions s hs).2⟩

/-- **Demands.** The demands of a routed room are exactly the hops its
subscriptions need, each once. -/
theorem mem_federationDemands
    (hnames : ∀ agentId ∈ forwarderIds, NulFree agentId)
    (hpublishers : AssignsTo publisherAssignments forwarderIds)
    (hsubscribers : AssignsTo subscriberAssignments forwarderIds) (hmembers : members.Nodup)
    (hassigned : room.publisherAssignments = publisherAssignments)
    (hroutes : room.federationRoutes = (buildFederationPlan roomId routeEpoch forwarderIds
      publisherAssignments subscriberAssignments members).routes)
    (hsubscriptions : ∀ s ∈ room.subscriptions.values,
      NulFree s.publisherPeerId ∧ NulFree s.publicationId) :
    d ∈ federationDemands room ↔ Demanded room d := by
  have hall : ∀ d ∈ room.subscriptions.values.flatMap (subscriptionDemands room),
      Demanded room d := by
    intro d hd
    obtain ⟨s, hs, hmem⟩ := mem_flatMap.mp hd
    exact demanded_of_mem hforwarders hpublishers hsubscribers hassigned hroutes hs hmem
  have hkeys : ∀ a ∈ room.subscriptions.values.flatMap (subscriptionDemands room),
      ∀ b ∈ room.subscriptions.values.flatMap (subscriptionDemands room),
        demandKey a = demandKey b → a = b := by
    have hseparable := fun d hd => separable_of_demanded hforwarders hnames hpublishers
      hsubscribers hroutes hsubscriptions (hall d hd)
    exact fun a ha b hb => demandKey_injective (hseparable a ha) (hseparable b hb)
  rw [federationDemands, mem_insertionSort, mem_values_collect hkeys]
  refine ⟨hall d, fun h => mem_flatMap.mpr ?_⟩
  exact mem_of_demanded hforwarders hpublishers hsubscribers hmembers hassigned hroutes h

end

theorem nodup_federationDemands : (federationDemands room).Nodup :=
  (perm_insertionSort _ _).nodup_iff.mpr nodup_values_collect

/-- **Federation plans.** Over distinct forwarders with proper identifiers, a
plan's routes are trees over its links, rooted at the publisher's agent, and
reach within two hops every agent another member is assigned to; a publisher
whose media has to cross has a route; and the demands of a room with these
routes are exactly the hops its subscriptions need. -/
theorem federation_plan_correct (hforwarders : forwarderIds.Nodup)
    (hids : ∀ agentId ∈ forwarderIds, agentId ≠ "" ∧ NulFree agentId)
    (hpublishers : AssignsTo publisherAssignments forwarderIds)
    (hsubscribers : AssignsTo subscriberAssignments forwarderIds) (hmembers : members.Nodup) :
    let plan := buildFederationPlan roomId routeEpoch forwarderIds publisherAssignments
      subscriberAssignments members
    (∀ route ∈ plan.routes, route.IsTree
      ∧ (∀ edge ∈ route.edges, ∃ link ∈ plan.links, link.linkId = edge.linkId
        ∧ link.joins edge.fromAgentId edge.toAgentId = true)
      ∧ assignedAgent publisherAssignments route.publisherPeerId = some route.sourceAgentId
      ∧ ∀ subscriber ∈ members, subscriber ≠ route.publisherPeerId → ∀ agentId,
        assignedAgent subscriberAssignments subscriber = some agentId →
          ∃ path, RouteWalk route path agentId ∧ path.length ≤ 2)
    ∧ (∀ publisher ∈ members, ∀ sourceAgentId,
      assignedAgent publisherAssignments publisher = some sourceAgentId →
        ∀ subscriber ∈ members, subscriber ≠ publisher → ∀ agentId,
          assignedAgent subscriberAssignments subscriber = some agentId →
            agentId ≠ sourceAgentId → ∃ route ∈ plan.routes, route.publisherPeerId = publisher)
    ∧ ∀ room : MediaRoom, room.publisherAssignments = publisherAssignments →
      room.federationRoutes = plan.routes →
        (∀ s ∈ room.subscriptions.values, NulFree s.publisherPeerId ∧ NulFree s.publicationId) →
          (federationDemands room).Nodup ∧ ∀ d, d ∈ federationDemands room ↔ Demanded room d := by
  refine ⟨fun route hroute => ?_, ?_, ?_⟩
  · obtain ⟨-, hfrom, hdelivers⟩ := plan_route hforwarders hpublishers hsubscribers hroute
    refine ⟨hdelivers.tree, hdelivers.declared, hfrom, ?_⟩
    intro subscriber hsubscriber hother agentId hagent
    by_cases hsame : agentId = route.sourceAgentId
    · exact ⟨[], hsame ▸ .nil _, by simp⟩
    · exact hdelivers.reaches agentId
        (mem_routeTargets.mpr ⟨⟨subscriber, hsubscriber, hother, hagent⟩, hsame⟩)
  · intro publisher hpublisher source hsource subscriber hsubscriber hother agentId hagent hne
    have htarget := mem_routeTargets.mpr ⟨⟨subscriber, hsubscriber, hother, hagent⟩, hne⟩
    obtain ⟨route, hroute, heq, -⟩ := plan_covers hforwarders (fun hmem => (hids "" hmem).1 rfl)
      hpublishers hsubscribers hpublisher hsource htarget
    exact ⟨route, hroute, heq⟩
  · intro room hassigned hroutes hsubscriptions
    exact ⟨nodup_federationDemands, fun d => mem_federationDemands hforwarders
      (fun agentId hagent => (hids agentId hagent).2) hpublishers hsubscribers hmembers hassigned
      hroutes hsubscriptions⟩

end

/-- Three members, one at the primary and one at each standby. -/
def sampleAssignments : KeyedMap String String :=
  ⟨[("p", "edge-a"), ("q", "edge-b"), ("r", "edge-c")], by decide⟩

theorem federation_plan_correct_sample :
    let plan := buildFederationPlan "room-1" 1 ["edge-a", "edge-b", "edge-c"] sampleAssignments
      sampleAssignments ["p", "q", "r"]
    plan.routes.map (fun route => route.edges.map toAgentId)
        = [["edge-b", "edge-c"], ["edge-a", "edge-c"], ["edge-a", "edge-b"]]
      ∧ ∀ route ∈ plan.routes, route.IsTree := by
  refine ⟨by decide, fun route hroute => ?_⟩
  exact ((federation_plan_correct (by decide) (by decide) (assignsTo_of_values (by decide))
    (assignsTo_of_values (by decide)) (by decide)).1 route hroute).1

end WebrtcMinimize
