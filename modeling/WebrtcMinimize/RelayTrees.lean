import WebrtcMinimize.Layers
import WebrtcMinimize.TopologyContract

/-!
# Relay trees

The builder takes the eligible peers first and hangs each peer from the first parent
with room, so a layer is filled before the next is begun (`Greedy`). Where it gives up,
all parents are full. Then either all layers above the last are of relays, and no tree
has larger ones, or every relay is a parent, and no tree has more: the builder gives up
only where there is no tree.
-/

namespace WebrtcMinimize

open Checks

namespace Topology

open TopologyEdge List Parent

/-- A tree over the members: each but the root is once a child, a layer below its parent. -/
structure SpanningTree (members : List String) (root : String) (eligible : List String)
    (limits : Limits) (edges : List TopologyEdge) : Prop where
  nodup : (edges.map childPeerId).Nodup
  children : ∀ id, id ∈ edges.map childPeerId ↔ id ∈ members ∧ id ≠ root
  above : ∀ e ∈ edges, (e.parentPeerId = root ∧ e.depth = 1)
    ∨ ∃ f ∈ edges, f.childPeerId = e.parentPeerId ∧ e.depth = f.depth + 1
  hops : ∀ e ∈ edges, e.depth ≤ limits.maxHops
  fanout : ∀ id, ((edges.map parentPeerId).count id : Int) ≤ limits.maxChildren
  relays : ∀ e ∈ edges, e.parentPeerId = root ∨ e.parentPeerId ∈ eligible

variable {members : List String} {limits : Limits} {root : String} {edges : List TopologyEdge}
  {t : Tree} {parents : List Parent} {remaining : List String}

/-! ## The layers of a tree -/

theorem card_parent (hnodup : (edges.map childPeerId).Nodup) (id : String) :
    (edges.toFinset.filter fun e => e.parentPeerId = id).card
      = (edges.map parentPeerId).count id := by
  have hfilter : edges.toFinset.filter (fun e => e.parentPeerId = id)
      = (edges.filter fun e => e.parentPeerId == id).toFinset := by
    ext e
    simp
  rw [hfilter, toFinset_card_of_nodup ((hnodup.of_map _).filter _), count_eq_countP,
    countP_map, countP_eq_length_filter]
  rfl

theorem card_edges (hnodup : (edges.map childPeerId).Nodup) :
    edges.toFinset.card = edges.length := toFinset_card_of_nodup (hnodup.of_map _)

theorem SpanningTree.layered {eligible : List String}
    (h : SpanningTree members root eligible limits edges) :
    Layers.Layered root parentPeerId childPeerId depth edges.toFinset where
  inj e he f hf heq := inj_on_of_nodup_map h.nodup (mem_toFinset.mp he) (mem_toFinset.mp hf) heq
  top e he := ((h.children _).mp (mem_map_of_mem (mem_toFinset.mp he))).2
  above e he := by
    simp only [mem_toFinset]
    exact h.above e (mem_toFinset.mp he)

theorem Grown.layered (h : Grown members t edges parents remaining) :
    Layers.Layered t.rootPeerId parentPeerId childPeerId depth edges.toFinset where
  inj e he f hf heq := by
    have hfresh := h.fresh
    rw [nodup_cons, nodup_append] at hfresh
    exact inj_on_of_nodup_map hfresh.2.1 (mem_toFinset.mp he) (mem_toFinset.mp hf) heq
  top e he heq := by
    have hfresh := h.fresh
    rw [nodup_cons, ← heq] at hfresh
    exact hfresh.1 (mem_append_left _ (mem_map_of_mem (mem_toFinset.mp he)))
  above e he := by
    simp only [mem_toFinset]
    obtain ⟨p, hp, hid, hdepth⟩ := h.above e (mem_toFinset.mp he)
    rcases h.placed p hp with ⟨hroot, hzero⟩ | ⟨f, hf, hchild, hsame⟩
    · exact .inl ⟨hid.symm.trans hroot, by rw [hdepth, hzero]; rfl⟩
    · exact .inr ⟨f, hf, hchild.trans hid, by rw [hdepth, hsame]⟩

/-! ## Layer after layer -/

/-- The parents after a child is hung from the first with room. -/
def Tree.next (t : Tree) (parents : List Parent) (p : Parent) (child : String) : List Parent :=
  addChild t.limits parents
    ++ if t.eligible.contains child && decide (p.depth + 1 < t.limits.maxHops) then
        [⟨child, p.depth + 1, 0⟩]
      else []

/-- What holds of the order in which a tree grows. -/
structure Greedy (t : Tree) (edges : List TopologyEdge) (parents : List Parent)
    (remaining : List String) : Prop where
  sorted : parents.Pairwise fun p q => p.depth ≤ q.depth
  inside : ∀ p ∈ parents, p.depth < t.limits.maxHops
  relays : ∀ p ∈ parents, p.peerId = t.rootPeerId ∨ p.peerId ∈ t.eligible
  top : t.rootPeerId ∈ parents.map peerId
  behind : ∀ e ∈ edges, ∀ p ∈ parents, t.limits.room p = true → e.depth ≤ p.depth + 1
  parent : ∀ e ∈ edges, e.childPeerId ∈ t.eligible → e.depth < t.limits.maxHops →
    e.childPeerId ∈ parents.map peerId
  first : remaining.Pairwise fun a b => b ∈ t.eligible → a ∈ t.eligible
  known : ∀ id ∈ t.eligible, id ∈ remaining ∨ id ∈ edges.map childPeerId
  filled : (∀ e ∈ edges, e.depth < t.limits.maxHops → e.childPeerId ∈ t.eligible)
    ∨ ∀ id ∈ t.eligible, id ∈ parents.map peerId

namespace Greedy

theorem mem_next {p q : Parent} {child : String} (hids : (parents.map peerId).Nodup)
    (hfind : parents.find? t.limits.room = some p) : q ∈ t.next parents p child ↔
      (∃ r ∈ parents, q = bump p.peerId r)
        ∨ (child ∈ t.eligible ∧ p.depth + 1 < t.limits.maxHops) ∧ q = ⟨child, p.depth + 1, 0⟩ := by
  rw [Tree.next, mem_append, addChild_eq_map hids hfind, mem_map]
  refine or_congr ⟨fun ⟨r, hr, h⟩ => ⟨r, hr, h.symm⟩, fun ⟨r, hr, h⟩ => ⟨r, hr, h.symm⟩⟩ ?_
  split
  · rename_i hnew
    rw [Bool.and_eq_true, decide_eq_true_iff, contains_iff_mem] at hnew
    rw [mem_singleton, and_iff_right hnew]
  · rename_i hnew
    rw [Bool.and_eq_true, decide_eq_true_iff, contains_iff_mem] at hnew
    exact iff_of_false not_mem_nil fun h => hnew h.1

theorem ids_next {p : Parent} {child : String} (hids : (parents.map peerId).Nodup)
    (hfind : parents.find? t.limits.room = some p) {id : String}
    (h : id ∈ parents.map peerId) : id ∈ (t.next parents p child).map peerId := by
  obtain ⟨r, hr, rfl⟩ := mem_map.mp h
  exact mem_map.mpr ⟨bump p.peerId r, (mem_next hids hfind).mpr (.inl ⟨r, hr, rfl⟩), bump_peerId⟩

theorem init (hhops : 0 < t.limits.maxHops)
    (hfirst : remaining.Pairwise fun a b => b ∈ t.eligible → a ∈ t.eligible)
    (hknown : ∀ id ∈ t.eligible, id ∈ remaining) :
    Greedy t [] [⟨t.rootPeerId, 0, 0⟩] remaining where
  sorted := pairwise_singleton _ _
  inside p hp := by
    rw [mem_singleton.mp hp]
    exact hhops
  relays p hp := by
    rw [mem_singleton.mp hp]
    exact .inl rfl
  top := mem_singleton.mpr rfl
  behind _ he := absurd he not_mem_nil
  parent _ he := absurd he not_mem_nil
  first := hfirst
  known id hid := .inl (hknown id hid)
  filled := .inl fun _ he => absurd he not_mem_nil

/-- The first parent with room is of least depth among those with room. -/
theorem depth_le {p q : Parent} (hsorted : parents.Pairwise fun p q => p.depth ≤ q.depth)
    (hfind : parents.find? limits.room = some p) (hq : q ∈ parents)
    (hroom : limits.room q = true) : p.depth ≤ q.depth := by
  induction parents with
  | nil => cases hq
  | cons r parents ih =>
      rw [pairwise_cons] at hsorted
      by_cases hr : limits.room r = true
      · rw [find?_cons_of_pos hr] at hfind
        cases hfind
        rcases mem_cons.mp hq with rfl | hq
        · exact Int.le_refl _
        · exact hsorted.1 q hq
      · rw [find?_cons_of_neg hr] at hfind
        rcases mem_cons.mp hq with rfl | hq
        · exact absurd hroom hr
        · exact ih hsorted.2 hfind hq

theorem room_of_bump {id : String} {q : Parent} (h : limits.room (bump id q) = true) :
    limits.room q = true := by
  rw [Limits.room, Bool.and_eq_true, decide_eq_true_iff, decide_eq_true_iff, bump_depth,
    bump_children] at h
  rw [Limits.room, Bool.and_eq_true, decide_eq_true_iff, decide_eq_true_iff]
  refine ⟨h.1, ?_⟩
  have hlt := h.2
  split at hlt <;> omega

/-- The tree is flat: no parent is two layers below one with room. -/
theorem flat {p r : Parent} (h : Greedy t edges parents remaining)
    (hg : Grown members t edges parents remaining) (hp : p ∈ parents)
    (hroom : t.limits.room p = true) (hr : r ∈ parents) : r.depth ≤ p.depth + 1 := by
  rcases hg.placed r hr with ⟨-, hzero⟩ | ⟨e, he, -, hdepth⟩
  · have hpos := hg.depth_nonneg hp
    omega
  · rw [← hdepth]
    exact h.behind e he p hp hroom

/-- **Step lemma.** One more peer is placed. -/
theorem step {p : Parent} {child : String} (h : Greedy t edges parents (child :: remaining))
    (hg : Grown members t edges parents (child :: remaining))
    (hfind : parents.find? t.limits.room = some p) :
    Greedy t (edges ++ [t.edge parents p child]) (t.next parents p child) remaining := by
  have hp := mem_of_find?_eq_some hfind
  have hroom := find?_some hfind
  have hfirst := pairwise_cons.mp h.first
  -- no edge is below the one that is added
  have hbelow : ∀ e ∈ edges ++ [t.edge parents p child], e.depth ≤ p.depth + 1 := by
    intro e he
    rcases mem_append.mp he with he | he
    · exact h.behind e he p hp hroom
    · rw [mem_singleton.mp he]
      exact Int.le_refl _
  have hmem {q : Parent} : q ∈ t.next parents p child ↔ _ := mem_next hg.ids hfind
  constructor
  case sorted =>
    rw [Tree.next, addChild_eq_map hg.ids hfind, pairwise_append]
    refine ⟨pairwise_map.mpr (h.sorted.imp fun hle => ?_), ?_, ?_⟩
    · rwa [bump_depth, bump_depth]
    · split
      · exact pairwise_singleton _ _
      · exact List.Pairwise.nil
    · intro q hq r hr
      obtain ⟨q, hold, rfl⟩ := mem_map.mp hq
      split at hr
      · rw [mem_singleton.mp hr, bump_depth]
        exact h.flat hg hp hroom hold
      · cases hr
  case inside =>
    intro q hq
    rcases hmem.mp hq with ⟨r, hr, rfl⟩ | ⟨hnew, rfl⟩
    · rw [bump_depth]
      exact h.inside r hr
    · exact hnew.2
  case relays =>
    intro q hq
    rcases hmem.mp hq with ⟨r, hr, rfl⟩ | ⟨hnew, rfl⟩
    · rw [bump_peerId]
      exact h.relays r hr
    · exact .inr hnew.1
  case top => exact ids_next hg.ids hfind h.top
  case behind =>
    intro e he q hq hfree
    have hle := hbelow e he
    rcases hmem.mp hq with ⟨r, hr, rfl⟩ | ⟨-, rfl⟩
    · have hdepth := depth_le h.sorted hfind hr (room_of_bump hfree)
      rw [bump_depth]
      omega
    · show e.depth ≤ p.depth + 1 + 1
      omega
  case parent =>
    intro e he heligible hdepth
    rcases mem_append.mp he with he | he
    · exact ids_next hg.ids hfind (h.parent e he heligible hdepth)
    · rw [mem_singleton.mp he] at heligible hdepth ⊢
      exact mem_map.mpr ⟨_, hmem.mpr (.inr ⟨⟨heligible, hdepth⟩, rfl⟩), rfl⟩
  case first => exact hfirst.2
  case known =>
    intro id hid
    rw [map_append, mem_append]
    rcases h.known id hid with hleft | hplaced
    · rcases mem_cons.mp hleft with rfl | hleft
      · exact .inr (.inr mem_cons_self)
      · exact .inl hleft
    · exact .inr (.inl hplaced)
  case filled =>
    rcases h.filled with hlayers | hall
    · by_cases hchild : p.depth + 1 < t.limits.maxHops → child ∈ t.eligible
      · refine .inl fun e he hdepth => ?_
        rcases mem_append.mp he with he | he
        · exact hlayers e he hdepth
        · rw [mem_singleton.mp he] at hdepth ⊢
          exact hchild hdepth
      · -- the first that is not eligible comes after all that are
        rw [Classical.not_imp] at hchild
        refine .inr fun id hid => ids_next hg.ids hfind ?_
        rcases h.known id hid with hleft | hplaced
        · rcases mem_cons.mp hleft with rfl | hleft
          · exact absurd hid hchild.2
          · exact absurd (hfirst.1 id hleft hid) hchild.2
        · obtain ⟨e, he, rfl⟩ := mem_map.mp hplaced
          exact h.parent e he hid ((hbelow e (mem_append_left _ he)).trans_lt hchild.1)
    · exact .inr fun id hid => ids_next hg.ids hfind (hall id hid)

end Greedy

/-! ## Where it ends -/

/-- What a tree has grown to when it ends, and what is left then. -/
structure Ended (members : List String) (t : Tree) (parents : List Parent)
    (edges : List TopologyEdge) (remaining : List String) : Prop where
  grown : Grown members t edges parents remaining
  greedy : Greedy t edges parents remaining

/-- **Run lemma.** The loop ends with all peers placed or with no parent that has room. -/
theorem Ended.run : ∀ {remaining : List String} {parents : List Parent} {edges : List TopologyEdge},
    Ended members t parents edges remaining → (∀ es, t.grow remaining parents = some es →
        es.map childPeerId = remaining ∧ ∃ grown, Ended members t grown (edges ++ es) [])
      ∧ (t.grow remaining parents = none → ∃ grown built child later,
        Ended members t grown built (child :: later) ∧ grown.find? t.limits.room = none
          ∧ built.map childPeerId ++ child :: later = edges.map childPeerId ++ remaining)
  | [], parents, edges, h => by
      refine ⟨fun es hes => ?_, fun hnone => by cases hnone⟩
      cases hes
      exact ⟨rfl, parents, by rwa [append_nil]⟩
  | child :: remaining, parents, edges, h => by
      rw [Tree.grow]
      cases hfind : parents.find? t.limits.room with
      | none =>
          exact ⟨fun _ hes => (by cases hes),
            fun _ => ⟨parents, edges, child, remaining, h, hfind, rfl⟩⟩
      | some p =>
          have hnext : Ended members t (t.next parents p child) (edges ++ [t.edge parents p child])
              remaining := ⟨h.grown.step hfind, h.greedy.step h.grown hfind⟩
          obtain ⟨hsome, hnone⟩ := hnext.run
          refine ⟨fun es hes => ?_, fun hstuck => ?_⟩
          · obtain ⟨es', hes', rfl⟩ := Option.map_eq_some_iff.mp hes
            obtain ⟨hchildren, grown, hgrown⟩ := hsome es' hes'
            refine ⟨?_, grown, by rwa [append_assoc] at hgrown⟩
            rw [map_cons, hchildren]
            rfl
          · obtain ⟨grown, built, last, later, hended, hfull, hplaced⟩ :=
              hnone (Option.map_eq_none_iff.mp hstuck)
            refine ⟨grown, built, last, later, hended, hfull, ?_⟩
            rw [hplaced, map_append, append_assoc]
            rfl

/-! ## No tree -/

theorem SpanningTree.card_parent_le {eligible : List String}
    (h : SpanningTree members root eligible limits edges) (id : String) :
    (edges.toFinset.filter fun e => e.parentPeerId = id).card ≤ limits.maxChildren.toNat := by
  have hfanout := h.fanout id
  rw [card_parent h.nodup]
  omega

namespace Ended

variable {built : List TopologyEdge}

section

variable (h : Ended members t parents edges remaining)

include h

theorem nodup : (edges.map childPeerId).Nodup := by
  have hfresh := h.grown.fresh
  rw [nodup_cons, nodup_append] at hfresh
  exact hfresh.2.1

theorem full
    (hfull : parents.find? t.limits.room = none) {id : String}
    (hid : id ∈ parents.map peerId) :
    t.limits.maxChildren.toNat ≤ (edges.toFinset.filter fun e => e.parentPeerId = id).card := by
  obtain ⟨p, hp, rfl⟩ := mem_map.mp hid
  have hroom := find?_eq_none.mp hfull p hp
  have hdepth := h.greedy.inside p hp
  have hcount := h.grown.children p hp
  rw [Limits.room, Bool.and_eq_true, decide_eq_true_iff, decide_eq_true_iff, not_and] at hroom
  rw [card_parent h.nodup]
  omega

/-- No tree has more edges than one whose parents are all full. -/
theorem length_le
    (hfull : parents.find? t.limits.room = none) {peerIds : List String}
    (htree : SpanningTree peerIds t.rootPeerId t.eligible t.limits built) :
    built.length ≤ edges.length := by
  rw [← card_edges htree.nodup, ← card_edges h.nodup]
  rcases h.greedy.filled with hlayers | hall
  · -- all layers above the last are of relays
    have hheight : ∀ e ∈ built.toFinset, e.depth ≤ (t.limits.maxHops.toNat : ℕ) := by
      intro e he
      have hhops := htree.hops e (mem_toFinset.mp he)
      omega
    refine h.grown.layered.card_le_of_full htree.layered hheight htree.card_parent_le
      (h.full hfull h.greedy.top) fun f hf hdepth => ?_
    have hplaced := mem_toFinset.mp hf
    have hpos := (h.grown.edge f hplaced).depth_pos
    exact h.full hfull (h.greedy.parent f hplaced (hlayers f hplaced (by omega)) (by omega))
  · -- every relay is a parent
    have hparents : built.toFinset.image parentPeerId ⊆ (parents.map peerId).toFinset := by
      intro id hid
      obtain ⟨e, he, rfl⟩ := Finset.mem_image.mp hid
      rw [mem_toFinset]
      rcases htree.relays e (mem_toFinset.mp he) with hroot | heligible
      · rw [hroot]
        exact h.greedy.top
      · exact hall _ heligible
    have habove : ∀ e ∈ edges.toFinset, e.parentPeerId ∈ (parents.map peerId).toFinset := by
      intro e he
      obtain ⟨p, hp, hid, -⟩ := h.grown.above e (mem_toFinset.mp he)
      exact mem_toFinset.mpr (mem_map.mpr ⟨p, hp, hid⟩)
    calc built.toFinset.card
        ≤ t.limits.maxChildren.toNat * (built.toFinset.image parentPeerId).card :=
          Finset.card_le_mul_card_image _ _ fun id _ => htree.card_parent_le id
      _ ≤ t.limits.maxChildren.toNat * (parents.map peerId).toFinset.card :=
          Nat.mul_le_mul_left _ (Finset.card_le_card hparents)
      _ ≤ edges.toFinset.card := Finset.mul_card_image_le_card_of_maps_to habove _ fun id hid =>
            h.full hfull (mem_toFinset.mp hid)

end

theorem spanningTree (h : Ended members t parents edges []) {peerIds : List String}
    (hchildren : ∀ id, id ∈ edges.map childPeerId ↔ id ∈ peerIds ∧ id ≠ t.rootPeerId) :
    SpanningTree peerIds t.rootPeerId t.eligible t.limits edges where
  nodup := h.nodup
  children := hchildren
  above := by
    intro e he
    obtain ⟨p, hp, hid, hdepth⟩ := h.grown.above e he
    rcases h.grown.placed p hp with ⟨hroot, hzero⟩ | ⟨f, hf, hchild, hsame⟩
    · exact .inl ⟨hid.symm.trans hroot, by rw [hdepth, hzero]; rfl⟩
    · exact .inr ⟨f, hf, hchild.trans hid, by rw [hdepth, hsame]⟩
  hops e he := (h.grown.edge e he).depth_le
  fanout := by
    intro id
    by_cases hid : id ∈ edges.map parentPeerId
    · obtain ⟨e, he, rfl⟩ := mem_map.mp hid
      obtain ⟨p, hp, hparent, -⟩ := h.grown.above e he
      rw [← hparent, ← h.grown.children p hp]
      exact h.grown.fanout p hp
    · obtain ⟨p, hp, -⟩ := mem_map.mp h.greedy.top
      have hcount := h.grown.children p hp
      have hfanout := h.grown.fanout p hp
      rw [count_eq_zero.mpr hid]
      omega
  relays := by
    intro e he
    obtain ⟨p, hp, hid, -⟩ := h.grown.above e he
    rw [← hid]
    exact h.greedy.relays p hp

end Ended

/-! ## The order of the peers -/

section Order

variable {eligible : List String} {ranks : String → Option Rank}

theorem takenLe_of_eligible {left right : String} (hleft : left ∈ eligible)
    (hright : right ∉ eligible) : takenLe eligible ranks left right = true
      ∧ takenLe eligible ranks right left = false := by
  have hl : eligible.contains left = true := contains_iff_mem.mpr hleft
  have hr : eligible.contains right = false := by
    rw [← Bool.not_eq_true]
    exact fun h => hright (contains_iff_mem.mp h)
  rw [takenLe, takenLe, hl, hr]
  exact ⟨rfl, rfl⟩

theorem pairwise_insert {id : String} : ∀ {ids : List String},
    (ids.Pairwise fun a b => b ∈ eligible → a ∈ eligible) →
      (ids.orderedInsert (fun left right => takenLe eligible ranks left right = true) id).Pairwise
        fun a b => b ∈ eligible → a ∈ eligible
  | [], _ => pairwise_singleton _ _
  | other :: rest, h => by
      rw [pairwise_cons] at h
      rw [orderedInsert_cons]
      split
      · rename_i htaken
        refine pairwise_cons.mpr ⟨fun x hx hxe => ?_, pairwise_cons.mpr h⟩
        have hother : other ∈ eligible := by
          rcases mem_cons.mp hx with rfl | hx
          · exact hxe
          · exact h.1 x hx hxe
        by_contra hid
        rw [(takenLe_of_eligible hother hid).2] at htaken
        cases htaken
      · rename_i htaken
        refine pairwise_cons.mpr ⟨fun x hx hxe => ?_, pairwise_insert h.2⟩
        rcases (mem_orderedInsert _).mp hx with rfl | hx
        · by_contra hother
          exact htaken (takenLe_of_eligible hxe hother).1
        · exact h.1 x hx hxe

theorem pairwise_taken : ∀ ids : List String,
    (ids.insertionSort fun left right => takenLe eligible ranks left right = true).Pairwise
      fun a b => b ∈ eligible → a ∈ eligible
  | [] => List.Pairwise.nil
  | _ :: ids => pairwise_insert (pairwise_taken ids)

end Order

/-! ## What is built -/

section Built

variable {peerIds eligibleRelayIds : List String} {routeEpoch expiresAt : Int}
  {ranks : String → Option Rank}

/-- The relays that are asked about. -/
def relaysOf (peerIds : List String) (root : String) (eligibleRelayIds : List String) :
    List String :=
  eligibleRelayIds.filter fun id => id ∈ sortedIds peerIds ∧ id ≠ root

theorem mem_relaysOf {id : String} : id ∈ relaysOf peerIds root eligibleRelayIds ↔
    id ∈ eligibleRelayIds ∧ id ∈ peerIds ∧ id ≠ root := by
  rw [relaysOf, mem_filter, decide_eq_true_iff, mem_sortedIds]

theorem spanningTree_relaysOf : SpanningTree peerIds root eligibleRelayIds limits edges ↔
    SpanningTree peerIds root (relaysOf peerIds root eligibleRelayIds) limits edges := by
  constructor
  · intro h
    refine { h with relays := fun e he => ?_ }
    rcases h.above e he with ⟨hroot, -⟩ | ⟨f, hf, hchild, -⟩
    · exact .inl hroot
    · have hmember := (h.children f.childPeerId).mp (mem_map_of_mem hf)
      rw [hchild] at hmember
      exact (h.relays e he).imp_right fun hrelay => mem_relaysOf.mpr ⟨hrelay, hmember⟩
  · intro h
    exact { h with relays := fun e he => (h.relays e he).imp_right fun hrelay =>
      (mem_relaysOf.mp hrelay).1 }

/-- The peers in the order in which they are taken. -/
def takenPeers (peerIds : List String) (root : String) (eligibleRelayIds : List String)
    (ranks : String → Option Rank) : List String :=
  ((sortedIds peerIds).filter (· ≠ root)).insertionSort fun left right =>
    takenLe (relaysOf peerIds root eligibleRelayIds) ranks left right = true

theorem mem_takenPeers {id : String} :
    id ∈ takenPeers peerIds root eligibleRelayIds ranks ↔ id ∈ peerIds ∧ id ≠ root := by
  rw [takenPeers, mem_insertionSort, mem_filter, mem_sortedIds, decide_eq_true_iff]

theorem nodup_takenPeers : (takenPeers peerIds root eligibleRelayIds ranks).Nodup :=
  ((perm_insertionSort _ _).nodup_iff).mpr (nodup_sortedIds.filter _)

theorem buildRelayTree_ok {built : Option (List TopologyEdge)}
    (h : buildRelayTree peerIds root eligibleRelayIds limits routeEpoch expiresAt ranks = .ok built) :
    root ∈ peerIds ∧ 2 ≤ limits.maxChildren ∧ 1 ≤ limits.maxHops
      ∧ Tree.grow ⟨root, limits, relaysOf peerIds root eligibleRelayIds, routeEpoch, expiresAt⟩
        (takenPeers peerIds root eligibleRelayIds ranks) [⟨root, 0, 0⟩] = built := by
  simp only [buildRelayTree, bind_ok_iff, failIf_ok_iff, pure_ok_iff] at h
  obtain ⟨_, hroot, _, hmaxChildren, _, hmaxHops, hgrow⟩ := h
  rw [not_not, mem_sortedIds] at hroot
  exact ⟨hroot, by omega, by omega, hgrow⟩

theorem ended_init (eligibleRelayIds : List String) (routeEpoch expiresAt : Int)
    (ranks : String → Option Rank) (hroot : root ∈ peerIds) (hchildren : 2 ≤ limits.maxChildren)
    (hhops : 1 ≤ limits.maxHops) :
    Ended (sortedIds peerIds)
      ⟨root, limits, relaysOf peerIds root eligibleRelayIds, routeEpoch, expiresAt⟩ [⟨root, 0, 0⟩] []
      (takenPeers peerIds root eligibleRelayIds ranks) where
  grown := by
    refine Grown.init (by show 0 ≤ limits.maxChildren; omega) ?_ fun id hid => ?_
    · exact nodup_cons.mpr ⟨fun hmem => (mem_takenPeers.mp hmem).2 rfl, nodup_takenPeers⟩
    · rw [mem_sortedIds]
      rcases mem_cons.mp hid with rfl | hid
      · exact hroot
      · exact (mem_takenPeers.mp hid).1
  greedy := by
    refine Greedy.init (by show 0 < limits.maxHops; omega) (pairwise_taken _) fun id hid => ?_
    exact mem_takenPeers.mpr (mem_relaysOf.mp hid).2

/-- **Relay trees.** For all members, relays and ranks: what the builder returns is a tree,
and it gives up only where there is none; it fails only for a root that is no member or for
limits out of bounds. -/
theorem buildRelayTree_correct (peerIds : List String) (root : String)
    (eligibleRelayIds : List String) (limits : Limits) (routeEpoch expiresAt : Int)
    (ranks : String → Option Rank) :
    (∀ edges, buildRelayTree peerIds root eligibleRelayIds limits routeEpoch expiresAt ranks
        = .ok (some edges) → SpanningTree peerIds root eligibleRelayIds limits edges)
    ∧ (buildRelayTree peerIds root eligibleRelayIds limits routeEpoch expiresAt ranks = .ok none →
        ∀ edges, ¬SpanningTree peerIds root eligibleRelayIds limits edges)
    ∧ ∀ code, buildRelayTree peerIds root eligibleRelayIds limits routeEpoch expiresAt ranks
        = .error code →
        root ∉ peerIds ∨ (limits.maxChildren < 2 ∨ 5 < limits.maxChildren)
          ∨ limits.maxHops < 1 ∨ 4 < limits.maxHops := by
  refine ⟨fun edges h => ?_, fun h edges htree => ?_, fun code h => ?_⟩
  · obtain ⟨hroot, hchildren, hhops, hgrow⟩ := buildRelayTree_ok h
    have hinit := ended_init eligibleRelayIds routeEpoch expiresAt ranks hroot hchildren hhops
    obtain ⟨hplaced, grown, hended⟩ := hinit.run.1 edges hgrow
    rw [nil_append] at hended
    rw [spanningTree_relaysOf]
    refine hended.spanningTree fun id => ?_
    rw [hplaced, mem_takenPeers]
  · obtain ⟨hroot, hchildren, hhops, hgrow⟩ := buildRelayTree_ok h
    have hinit := ended_init eligibleRelayIds routeEpoch expiresAt ranks hroot hchildren hhops
    obtain ⟨grown, built, child, later, hended, hfull, hplaced⟩ := hinit.run.2 hgrow
    have hle := hended.length_le hfull (spanningTree_relaysOf.mp htree)
    have hperm : (edges.map childPeerId).Perm (built.map childPeerId ++ child :: later) := by
      rw [hplaced, map_nil, nil_append, perm_ext_iff_of_nodup htree.nodup nodup_takenPeers]
      intro id
      rw [htree.children, mem_takenPeers]
    have hlength := hperm.length_eq
    rw [length_map, length_append, length_map, length_cons] at hlength
    omega
  · by_contra hok
    simp only [not_or, not_not] at hok
    obtain ⟨hroot, hchildren, hhops⟩ := hok
    rw [buildRelayTree] at h
    rw [failIf_of_not _ (not_not.mpr (mem_sortedIds.mpr hroot)), ok_bind,
      failIf_of_not _ (by omega), ok_bind, failIf_of_not _ (by omega), ok_bind] at h
    cases h

end Built

end Topology

end WebrtcMinimize
