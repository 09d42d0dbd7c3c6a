import WebrtcMinimize.RelayTrees

/-!
# Backup parents

A backup parent is chosen while the tree still grows. It has room then, it is placed
before the peer and so is not below it, and it is at most a layer below the parent. What
is placed later can take its room, and can be as deep below the peer as the limit allows:
the tree after the move has one child and one layer more than it may have, at most.
-/

namespace WebrtcMinimize

open Checks

namespace Topology

open TopologyEdge List Relation.ReflTransGen

variable {members members' eligible : List String} {limits : Limits} {root backup : String}
  {edges moved : List TopologyEdge} {e f : TopologyEdge} {t : Tree} {parents : List Parent}
  {remaining : List String}

/-! ## Moving a peer -/

/-- The child of `e` is hung, with all that is below it, from another parent. -/
structure Moves (edges : List TopologyEdge) (e : TopologyEdge) (backup : String)
    (moved : List TopologyEdge) : Prop where
  children : moved.map childPeerId = edges.map childPeerId
  parents : moved.map parentPeerId
    = edges.map fun f => if f = e then backup else f.parentPeerId

/-- The depth of a peer; the root has no edge. -/
def depthOf (edges : List TopologyEdge) (id : String) : Int :=
  ((edges.find? fun f => f.childPeerId = id).map depth).getD 0

/-- A peer is another or below it. -/
def Below (edges : List TopologyEdge) : String → String → Prop :=
  Relation.ReflTransGen fun a b => ∃ f ∈ edges, f.parentPeerId = a ∧ f.childPeerId = b

open Classical in
/-- An edge after the move: what is below the child keeps its parent and changes its depth. -/
noncomputable def moveEdge (edges : List TopologyEdge) (e : TopologyEdge) (backup : String)
    (f : TopologyEdge) : TopologyEdge :=
  if Below edges e.childPeerId f.childPeerId then
    { f with
      parentPeerId := if f = e then backup else f.parentPeerId
      depth := f.depth + (depthOf edges backup + 1 - e.depth) }
  else f

theorem moveEdge_of_below (h : Below edges e.childPeerId f.childPeerId) :
    moveEdge edges e backup f = { f with
      parentPeerId := if f = e then backup else f.parentPeerId
      depth := f.depth + (depthOf edges backup + 1 - e.depth) } := if_pos h

theorem moveEdge_of_not_below (h : ¬Below edges e.childPeerId f.childPeerId) :
    moveEdge edges e backup f = f := if_neg h

@[simp]
theorem moveEdge_childPeerId : (moveEdge edges e backup f).childPeerId = f.childPeerId := by
  unfold moveEdge
  split <;> rfl

theorem moveEdge_parentPeerId :
    (moveEdge edges e backup f).parentPeerId = if f = e then backup else f.parentPeerId := by
  by_cases hbelow : Below edges e.childPeerId f.childPeerId
  · rw [moveEdge_of_below hbelow]
  · have hne : f ≠ e := by
      rintro rfl
      exact hbelow .refl
    rw [moveEdge_of_not_below hbelow, if_neg hne]

theorem moveEdge_depth_le : (moveEdge edges e backup f).depth
    ≤ max f.depth (f.depth + (depthOf edges backup + 1 - e.depth)) := by
  unfold moveEdge
  split
  · exact le_max_right _ _
  · exact le_max_left _ _

theorem moves_map : Moves edges e backup (edges.map (moveEdge edges e backup)) where
  children := by
    rw [map_map]
    exact map_congr_left fun f _ => moveEdge_childPeerId
  parents := by
    rw [map_map]
    exact map_congr_left fun f _ => moveEdge_parentPeerId

/-! ## A tree after a move -/

theorem depthOf_child (hnodup : (edges.map childPeerId).Nodup) (hf : f ∈ edges) :
    depthOf edges f.childPeerId = f.depth := by
  rw [depthOf, find_child hf hnodup]
  rfl

theorem depthOf_of_not_mem {id : String} (h : id ∉ edges.map childPeerId) :
    depthOf edges id = 0 := by
  have hnone : (edges.find? fun g => g.childPeerId = id) = none :=
    find?_eq_none.mpr fun g hg hchild =>
      h (mem_map.mpr ⟨g, hg, of_decide_eq_true hchild⟩)
  rw [depthOf, hnone]
  rfl

theorem count_moved (backup : String) (hnodup : edges.Nodup) (he : e ∈ edges) (id : String) :
    (edges.map fun f => if f = e then backup else f.parentPeerId).count id
      ≤ (edges.map parentPeerId).count id + if backup = id then 1 else 0 := by
  obtain ⟨before, after, rfl⟩ := append_of_mem he
  have hsame {fs : List TopologyEdge} (hfs : e ∉ fs) :
      (fs.map fun f => if f = e then backup else f.parentPeerId) = fs.map parentPeerId :=
    map_congr_left fun f hf => if_neg (ne_of_mem_of_not_mem hf hfs)
  rw [nodup_append, nodup_cons] at hnodup
  have hbefore : e ∉ before := fun hmem => hnodup.2.2 e hmem e mem_cons_self rfl
  simp only [map_append, map_cons, count_append, count_cons, hsame hbefore,
    hsame hnodup.2.1.1, if_true, beq_iff_eq]
  omega

namespace SpanningTree

section

variable (h : SpanningTree members root eligible limits edges)

include h

theorem root_not_child :
    root ∉ edges.map childPeerId := fun hmem => ((h.children root).mp hmem).2 rfl

theorem depthOf_root :
    depthOf edges root = 0 := depthOf_of_not_mem h.root_not_child

theorem below_parent (he : e ∈ edges)
    (hf : f ∈ edges) (hne : f ≠ e) (hbelow : Below edges e.childPeerId f.childPeerId) :
    Below edges e.childPeerId f.parentPeerId := by
  rcases cases_tail hbelow with heq | ⟨id, hid, g, hg, rfl, hchild⟩
  · exact absurd (inj_on_of_nodup_map h.nodup hf he heq) hne
  · rwa [inj_on_of_nodup_map h.nodup hg hf hchild] at hid

end

theorem below_child (hf : f ∈ edges) {id : String} (hbelow : Below edges id f.parentPeerId) :
    Below edges id f.childPeerId := hbelow.tail ⟨f, hf, rfl, rfl⟩

theorem not_below_root (h : SpanningTree members root eligible limits edges) (he : e ∈ edges) :
    ¬Below edges e.childPeerId root := by
  intro hbelow
  rcases cases_tail hbelow with heq | ⟨_, -, g, hg, -, hchild⟩
  · exact h.root_not_child (heq ▸ mem_map_of_mem he)
  · exact h.root_not_child (hchild ▸ mem_map_of_mem hg)

/-- **A move keeps the tree.** A peer is hung from the root or from a relay that is not
below it. -/
theorem move (h : SpanningTree members root eligible limits edges) (he : e ∈ edges)
    (hplaced : backup = root ∨ backup ∈ edges.map childPeerId)
    (hrelay : backup = root ∨ backup ∈ eligible) (hbelow : ¬Below edges e.childPeerId backup)
    (hshift : depthOf edges backup ≤ e.depth) :
    SpanningTree members root eligible ⟨limits.maxChildren + 1, limits.maxHops + 1⟩
      (edges.map (moveEdge edges e backup)) := by
  have hmoves : Moves edges e backup (edges.map (moveEdge edges e backup)) := moves_map
  constructor
  case nodup => exact hmoves.children ▸ h.nodup
  case children => exact fun id => hmoves.children ▸ h.children id
  case above =>
    intro f' hf'
    obtain ⟨f, hf, rfl⟩ := mem_map.mp hf'
    by_cases hunder : Below edges e.childPeerId f.childPeerId
    · by_cases heq : f = e
      · subst heq
        rw [moveEdge_of_below hunder, if_pos rfl]
        rcases hplaced with rfl | hplaced
        · exact .inl ⟨rfl, by show f.depth + _ = 1; rw [h.depthOf_root]; omega⟩
        · obtain ⟨g, hg, rfl⟩ := mem_map.mp hplaced
          refine .inr ⟨g, mem_map.mpr ⟨g, hg, moveEdge_of_not_below hbelow⟩, rfl, ?_⟩
          show f.depth + (depthOf edges g.childPeerId + 1 - f.depth) = g.depth + 1
          rw [depthOf_child h.nodup hg]
          omega
      · have hparent := h.below_parent he hf heq hunder
        rw [moveEdge_of_below hunder, if_neg heq]
        rcases h.above f hf with ⟨hroot, -⟩ | ⟨g, hg, hchild, hdepth⟩
        · exact absurd (hroot ▸ hparent) (h.not_below_root he)
        · rw [← hchild] at hparent
          refine .inr ⟨_, mem_map_of_mem hg, moveEdge_childPeerId.trans hchild, ?_⟩
          rw [moveEdge_of_below hparent]
          show f.depth + _ = g.depth + _ + 1
          omega
    · rw [moveEdge_of_not_below hunder]
      rcases h.above f hf with hroot | ⟨g, hg, hchild, hdepth⟩
      · exact .inl hroot
      · have hsame : ¬Below edges e.childPeerId g.childPeerId :=
          fun hg' => hunder (below_child hf (hchild ▸ hg'))
        exact .inr ⟨g, mem_map.mpr ⟨g, hg, moveEdge_of_not_below hsame⟩, hchild, hdepth⟩
  case hops =>
    intro f' hf'
    obtain ⟨f, hf, rfl⟩ := mem_map.mp hf'
    have hle := h.hops f hf
    have hmove : (moveEdge edges e backup f).depth ≤ _ := moveEdge_depth_le
    show _ ≤ limits.maxHops + 1
    omega
  case fanout =>
    intro id
    have hcount := count_moved backup (h.nodup.of_map _) he id
    have hle := h.fanout id
    rw [hmoves.parents]
    show _ ≤ limits.maxChildren + 1
    split at hcount <;> omega
  case relays =>
    intro f' hf'
    obtain ⟨f, hf, rfl⟩ := mem_map.mp hf'
    rw [moveEdge_parentPeerId]
    split
    · exact hrelay
    · exact h.relays f hf

end SpanningTree

/-! ## The tree when a peer is placed -/

namespace Ended

theorem at_edge {after : List TopologyEdge} : ∀ {remaining : List String} {parents : List Parent}
    {edges before : List TopologyEdge}, Ended members t parents edges remaining →
      t.grow remaining parents = some (before ++ e :: after) →
        ∃ parents p rest, Ended members t parents (edges ++ before) (e.childPeerId :: rest)
          ∧ parents.find? t.limits.room = some p ∧ e = t.edge parents p e.childPeerId
  | [], _, _, before, _, hgrow => by
      exact absurd (Option.some.inj hgrow).symm (by simp)
  | child :: remaining, parents, edges, before, h, hgrow => by
      rw [Tree.grow] at hgrow
      cases hfind : parents.find? t.limits.room with
      | none =>
          rw [hfind] at hgrow
          cases hgrow
      | some p =>
          rw [hfind] at hgrow
          obtain ⟨es, hes, hsplit⟩ := Option.map_eq_some_iff.mp hgrow
          cases before with
          | nil =>
              obtain ⟨rfl, rfl⟩ := cons.inj hsplit
              rw [append_nil]
              exact ⟨parents, p, remaining, h, hfind, rfl⟩
          | cons first before =>
              obtain ⟨rfl, rfl⟩ := cons.inj hsplit
              have hnext : Ended members t (t.next parents p child)
                  (edges ++ [t.edge parents p child]) remaining :=
                ⟨h.grown.step hfind, h.greedy.step h.grown hfind⟩
              obtain ⟨grown, q, rest, hended, hq, he⟩ := hnext.at_edge hes
              rw [append_assoc] at hended
              exact ⟨grown, q, rest, hended, hq, he⟩

theorem backup_chosen {p : Parent} {child : String}
    (hbackup : backup ∈ (t.edge parents p child).backupParentPeerId) :
    ∃ q ∈ parents, q.peerId = backup ∧ t.limits.room q = true := by
  obtain ⟨hmap, -⟩ := Option.filter_eq_some_iff.mp hbackup
  obtain ⟨q, hq, rfl⟩ := Option.map_eq_some_iff.mp hmap
  have hchosen := find?_some hq
  simp only [Bool.and_eq_true] at hchosen
  exact ⟨q, mem_of_find?_eq_some hq, rfl, hchosen.1.2⟩

theorem parent_early {p : Parent} (h : Ended members t parents edges remaining) (hp : p ∈ parents) :
    p.peerId ∈ t.rootPeerId :: edges.map childPeerId := by
  rcases h.grown.placed p hp with ⟨hroot, -⟩ | ⟨f, hf, hchild, -⟩
  · exact hroot ▸ mem_cons_self
  · exact hchild ▸ mem_cons_of_mem _ (mem_map_of_mem hf)

theorem not_early {child : String} {rest : List String}
    (h : Ended members t parents edges (child :: rest)) :
    child ∉ t.rootPeerId :: edges.map childPeerId := by
  have hfresh := h.grown.fresh
  rw [nodup_cons, nodup_append] at hfresh
  intro hmem
  rcases mem_cons.mp hmem with rfl | hmem
  · exact hfresh.1 (mem_append_right _ mem_cons_self)
  · exact hfresh.2.2.2 child hmem child mem_cons_self rfl

theorem not_below {rest : List String} {before after : List TopologyEdge} {id : String}
    (h : Ended members t parents before (e.childPeerId :: rest))
    (htree : SpanningTree members' t.rootPeerId eligible limits (before ++ e :: after))
    (hid : id ∈ t.rootPeerId :: before.map childPeerId) :
    ¬Below (before ++ e :: after) e.childPeerId id := by
  have hearly : ∀ above, Below (before ++ e :: after) above id →
      above ∈ t.rootPeerId :: before.map childPeerId := by
    intro above hbelow
    induction hbelow using head_induction_on with
    | refl => exact hid
    | head hstep _ hearly =>
        obtain ⟨f, hf, rfl, rfl⟩ := hstep
        rcases mem_cons.mp hearly with hroot | hearly
        · exact absurd (hroot ▸ mem_map_of_mem hf) htree.root_not_child
        · obtain ⟨g, hg, hchild⟩ := mem_map.mp hearly
          obtain rfl := inj_on_of_nodup_map htree.nodup (mem_append_left _ hg) hf hchild
          obtain ⟨p, hp, hparent, -⟩ := h.grown.above g hg
          exact hparent ▸ h.parent_early hp
  exact fun hbelow => h.not_early (hearly _ hbelow)

theorem parent_depth {rest : List String} {before after : List TopologyEdge} {p : Parent}
    (h : Ended members t parents before rest)
    (htree : SpanningTree members' t.rootPeerId eligible limits (before ++ after))
    (hp : p ∈ parents) : depthOf (before ++ after) p.peerId = p.depth := by
  rcases h.grown.placed p hp with ⟨hroot, hzero⟩ | ⟨f, hf, hchild, hdepth⟩
  · rw [hroot, htree.depthOf_root, hzero]
  · rw [← hchild, depthOf_child htree.nodup (mem_append_left _ hf), hdepth]

end Ended

/-! ## Backup parents -/

section Built

variable {peerIds eligibleRelayIds : List String} {routeEpoch expiresAt : Int}
  {ranks : String → Option Rank}

/-- A peer can be moved to a backup parent within the limits. -/
def Usable (members : List String) (root : String) (eligible : List String) (limits : Limits)
    (edges : List TopologyEdge) (e : TopologyEdge) (backup : String) : Prop :=
  ∃ moved, Moves edges e backup moved ∧ SpanningTree members root eligible limits moved

/-- **Backup parents.** A backup parent has room when the peer is placed; a move to it gives a
tree with at most a child more at the backup parent and at most a layer more, where the peer
itself is within the limit. It is within both limits where the backup parent still has room
and is no deeper than the parent. -/
theorem backup_parent_spare (peerIds : List String) (root : String)
    (eligibleRelayIds : List String) (limits : Limits) (routeEpoch expiresAt : Int)
    (ranks : String → Option Rank) (before after : List TopologyEdge) (e : TopologyEdge)
    (backup : String)
    (hbuilt : buildRelayTree peerIds root eligibleRelayIds limits routeEpoch expiresAt ranks
      = .ok (some (before ++ e :: after))) (hbackup : backup ∈ e.backupParentPeerId) :
    ((before.map parentPeerId).count backup : Int) < limits.maxChildren
    ∧ ∃ moved, Moves (before ++ e :: after) e backup moved
      ∧ SpanningTree peerIds root eligibleRelayIds ⟨limits.maxChildren + 1, limits.maxHops + 1⟩ moved
      ∧ (∀ f ∈ moved, f.childPeerId = e.childPeerId → f.depth ≤ limits.maxHops)
      ∧ (∀ id, id ≠ backup → ((moved.map parentPeerId).count id : Int) ≤ limits.maxChildren)
      ∧ ((((before ++ e :: after).map parentPeerId).count backup : Int) < limits.maxChildren →
        ((moved.map parentPeerId).count backup : Int) ≤ limits.maxChildren)
      ∧ (depthOf (before ++ e :: after) backup < e.depth → ∀ f ∈ moved, f.depth ≤ limits.maxHops) := by
  have htree := (buildRelayTree_correct peerIds root eligibleRelayIds limits routeEpoch expiresAt
    ranks).1 _ hbuilt
  obtain ⟨hroot, hchildren, hhops, hgrow⟩ := buildRelayTree_ok hbuilt
  obtain ⟨parents, p, rest, hended, hfind, hedge⟩ :=
    (ended_init eligibleRelayIds routeEpoch expiresAt ranks hroot hchildren hhops).at_edge hgrow
  rw [nil_append] at hended
  rw [hedge] at hbackup
  obtain ⟨q, hq, rfl, hroom⟩ := Ended.backup_chosen hbackup
  have hp := mem_of_find?_eq_some hfind
  have he : e ∈ before ++ e :: after := mem_append_right _ mem_cons_self
  have hdepth : e.depth = p.depth + 1 := by rw [hedge]; rfl
  have hflat := hended.greedy.flat hended.grown hp (find?_some hfind) hq
  have hqdepth := hended.parent_depth htree hq
  have hearly := hended.parent_early hq
  have hcount := hended.grown.children q hq
  obtain ⟨hlow, hfew⟩ : q.depth < limits.maxHops ∧ q.children < limits.maxChildren := by
    rwa [Limits.room, Bool.and_eq_true, decide_eq_true_iff, decide_eq_true_iff] at hroom
  refine ⟨hcount ▸ hfew, _, moves_map, ?_, ?_, ?_, ?_, ?_⟩
  · refine htree.move he ?_ ?_ (hended.not_below htree hearly) (by omega)
    · exact (mem_cons.mp hearly).imp_right fun hmem => by
        rw [map_append]
        exact mem_append_left _ hmem
    · exact (hended.greedy.relays q hq).imp_right fun hrelay => (mem_relaysOf.mp hrelay).1
  · intro f' hf' hchild
    obtain ⟨f, hf, rfl⟩ := mem_map.mp hf'
    rw [moveEdge_childPeerId] at hchild
    obtain rfl := inj_on_of_nodup_map htree.nodup hf he hchild
    rw [moveEdge_of_below .refl, hqdepth]
    show f.depth + (q.depth + 1 - f.depth) ≤ limits.maxHops
    omega
  · intro id hne
    have hmoved := count_moved q.peerId (htree.nodup.of_map _) he id
    rw [← moves_map.parents, if_neg hne.symm] at hmoved
    have hle := htree.fanout id
    omega
  · intro hspare
    have hmoved := count_moved q.peerId (htree.nodup.of_map _) he q.peerId
    rw [← moves_map.parents, if_pos rfl] at hmoved
    omega
  · intro hnearer f' hf'
    obtain ⟨f, hf, rfl⟩ := mem_map.mp hf'
    have hmove : (moveEdge (before ++ e :: after) e q.peerId f).depth ≤ _ := moveEdge_depth_le
    have hle := htree.hops f hf
    omega

/-! ## A backup parent that fills up -/

def hop (parentPeerId childPeerId : String) (depth : Int) (backup : Option String) : TopologyEdge where
  leaseId := makeLeaseId "r" parentPeerId childPeerId 1
  parentPeerId := parentPeerId
  backupParentPeerId := backup
  childPeerId := childPeerId
  depth := depth
  expiresAt := 60000

/-- Two relays under the root: the first has two children, who have the second as backup
parent, and then the second has two. -/
def twoRelays : List TopologyEdge :=
  [hop "r" "a" 1 none, hop "r" "b" 1 (some "a"), hop "a" "c" 2 (some "b"), hop "a" "d" 2 (some "b"),
    hop "b" "e" 2 none, hop "b" "f" 2 none]

theorem built_twoRelays : buildRelayTree ["r", "a", "b", "c", "d", "e", "f"] "r" ["a", "b"] ⟨2, 2⟩
    1 60000 (fun _ => none) = .ok (some twoRelays) := rfl

theorem backup_parent_spare_relays :
    ∃ moved, Moves twoRelays (hop "a" "c" 2 (some "b")) "b" moved
      ∧ SpanningTree ["r", "a", "b", "c", "d", "e", "f"] "r" ["a", "b"] ⟨3, 3⟩ moved :=
  (backup_parent_spare ["r", "a", "b", "c", "d", "e", "f"] "r" ["a", "b"] ⟨2, 2⟩ 1 60000
    (fun _ => none) [hop "r" "a" 1 none, hop "r" "b" 1 (some "a")]
    [hop "a" "d" 2 (some "b"), hop "b" "e" 2 none, hop "b" "f" 2 none] (hop "a" "c" 2 (some "b")) "b"
    built_twoRelays rfl).2.imp fun _ h => ⟨h.1, h.2.1⟩

/-- A child of the first relay cannot be moved to the second. -/
theorem filled_backup_not_usable : ¬∀ (peerIds : List String) (root : String)
    (eligibleRelayIds : List String) (limits : Limits) (routeEpoch expiresAt : Int)
    (ranks : String → Option Rank) (edges : List TopologyEdge),
    buildRelayTree peerIds root eligibleRelayIds limits routeEpoch expiresAt ranks
      = .ok (some edges) → ∀ e ∈ edges, ∀ backup ∈ e.backupParentPeerId,
        Usable peerIds root eligibleRelayIds limits edges e backup := by
  intro h
  obtain ⟨moved, hmoves, htree⟩ := h _ _ _ _ _ _ _ twoRelays built_twoRelays
    (hop "a" "c" 2 (some "b")) (by simp [twoRelays]) "b" rfl
  have hfanout := htree.fanout "b"
  rw [hmoves.parents] at hfanout
  simp [twoRelays, hop] at hfanout

end Built

end Topology

end WebrtcMinimize
