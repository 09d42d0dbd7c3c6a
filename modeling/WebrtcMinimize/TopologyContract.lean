import Mathlib.Data.List.Dedup
import WebrtcMinimize.TopologyModel

/-!
# The topology contract

What the builder makes, the validator accepts (`accepted_built_iff`): the tree
grows one edge at a time under a parent that has room, so depths are true,
no peer has two parents and no parent too many children (`Grown`).

What the validator accepts reaches the source of every relay route by a
climb that passes no peer twice. It is no longer than the limit exactly
where the edges can be graded within it: the validator looks at the depths
the edges declare and not at whether they are those of the tree.
-/

namespace WebrtcMinimize

open Checks Climbing

namespace Topology

open TopologyEdge Option TopologyRoute
open List hiding beq_eq_decide
open Parent Sha256
open Bool hiding not_or not_and not_not or_false

variable {members : List String} {limits : Limits} {lease : Int} {root : String}
  {edges : List TopologyEdge}

/-! ## Edges -/

/-- What an edge has to be by itself. -/
structure EdgeOK (members : List String) (limits : Limits) (lease : Int) (e : TopologyEdge) :
    Prop where
  parent : e.parentPeerId ∈ members
  child : e.childPeerId ∈ members
  distinct : e.parentPeerId ≠ e.childPeerId
  depth_pos : 1 ≤ e.depth
  depth_le : e.depth ≤ limits.maxHops
  leaseId : leaseIdOK e.leaseId = true
  expires : e.expiresAt = lease
  backup : ∀ backup ∈ e.backupParentPeerId, backup ∈ members ∧ backup ≠ e.parentPeerId
    ∧ backup ≠ e.childPeerId

/-- What edges have to be together. -/
structure EdgesOK (members : List String) (limits : Limits) (lease : Int)
    (edges : List TopologyEdge) : Prop where
  each : ∀ e ∈ edges, EdgeOK members limits lease e
  children : (edges.map childPeerId).Nodup
  fanout : ∀ e ∈ edges,
    ((edges.map parentPeerId).count e.parentPeerId : Int) ≤ limits.maxChildren

/-- An edge as it is sent. -/
def wireEdge (e : TopologyEdge) : Option RawEdge := some {
  known := true
  leaseId := e.leaseId
  parentPeerId := e.parentPeerId
  backupParentPeerId := e.backupParentPeerId
  childPeerId := e.childPeerId
  depth := some e.depth
  expiresAt := some e.expiresAt
}

variable {e : TopologyEdge}

theorem validateEdge_some {raw : Option RawEdge}
    (h : validateEdge members limits lease edges raw = some e) :
    EdgeOK members limits lease e ∧ e.childPeerId ∉ edges.map childPeerId
      ∧ ((edges.map parentPeerId).count e.parentPeerId : Int) + 1
        ≤ limits.maxChildren := by
  cases raw with
  | none => cases h
  | some edge =>
      simp only [validateEdge] at h
      split at h
      · split at h
        · cases h
        · rename_i hok
          split at h
          · cases h
          · rename_i hcount
            cases h
            simp only [not_or, not_exists, not_and, not_not, not_eq_false, not_lt] at hok
            obtain ⟨-, hparent, hchild, hne, hpos, hle, hfresh, hid, hexpires, hbackup⟩ := hok
            exact ⟨⟨hparent, hchild, hne, hpos, hle, hid, hexpires, hbackup⟩, hfresh,
              not_lt.mp hcount⟩
      · cases h

theorem validateEdge_wire (h : EdgeOK members limits lease e)
    (hfresh : e.childPeerId ∉ edges.map childPeerId)
    (hcount : ((edges.map parentPeerId).count e.parentPeerId : Int) + 1
      ≤ limits.maxChildren) :
    validateEdge members limits lease edges (wireEdge e) = some e := by
  simp only [validateEdge, wireEdge]
  rw [if_neg, if_neg (not_lt.mpr hcount)]
  simp only [not_or, not_exists, not_and, not_not, not_eq_false, not_lt]
  exact ⟨by decide, h.parent, h.child, h.distinct, h.depth_pos, h.depth_le, hfresh, h.leaseId,
    h.expires, h.backup⟩

theorem EdgesOK.snoc (h : EdgesOK members limits lease edges) (he : EdgeOK members limits lease e)
    (hfresh : e.childPeerId ∉ edges.map childPeerId)
    (hcount : ((edges.map parentPeerId).count e.parentPeerId : Int) + 1
      ≤ limits.maxChildren) : EdgesOK members limits lease (edges ++ [e]) where
  each := by
    intro f hf
    rcases mem_append.mp hf with hf | hf
    · exact h.each f hf
    · rw [mem_singleton.mp hf]
      exact he
  children := by
    rw [map_append, nodup_append]
    refine ⟨h.children, nodup_singleton _, ?_⟩
    rintro a ha b hb rfl
    rw [map_singleton, mem_singleton] at hb
    exact hfresh (hb ▸ ha)
  fanout := by
    intro f hf
    rw [map_append, count_append, map_singleton, count_singleton]
    by_cases heq : e.parentPeerId = f.parentPeerId
    · rw [heq, beq_self_eq_true, if_pos rfl]
      rw [heq] at hcount
      exact_mod_cast hcount
    · rw [if_neg (by simpa using heq), Nat.add_zero]
      rcases mem_append.mp hf with hf | hf
      · exact h.fanout f hf
      · exact absurd (congrArg parentPeerId (mem_singleton.mp hf)).symm heq

theorem edgesOK_of_validateEdges {raws : List (Option RawEdge)} : ∀ {edges es : List TopologyEdge},
    EdgesOK members limits lease edges →
      validateEdges members limits lease raws edges = some es → EdgesOK members limits lease es := by
  induction raws with
  | nil =>
      intro edges es hedges h
      cases h
      exact hedges
  | cons raw raws ih =>
      intro edges es hedges h
      rw [validateEdges] at h
      split at h
      · cases h
      · rename_i e he
        obtain ⟨hok, hfresh, hcount⟩ := validateEdge_some he
        exact ih (hedges.snoc hok hfresh hcount) h

theorem edgesOK_nil : EdgesOK members limits lease [] where
  each _ he := absurd he not_mem_nil
  children := nodup_nil
  fanout _ he := absurd he not_mem_nil

variable {es : List TopologyEdge}

theorem validateEdges_wire : ∀ {edges : List TopologyEdge},
    EdgesOK members limits lease (edges ++ es) →
      validateEdges members limits lease (es.map wireEdge) edges = some (edges ++ es) := by
  induction es with
  | nil =>
      intro edges h
      rw [map_nil, validateEdges, append_nil]
  | cons e es ih =>
      intro edges h
      have he : e ∈ edges ++ e :: es := mem_append_right _ mem_cons_self
      have hfresh : e.childPeerId ∉ edges.map childPeerId := by
        have hnodup := h.children
        rw [map_append, map_cons, nodup_append] at hnodup
        exact fun hmem => hnodup.2.2 _ hmem _ mem_cons_self rfl
      have hcount : ((edges.map parentPeerId).count e.parentPeerId : Int) + 1
          ≤ limits.maxChildren := by
        have hle := h.fanout e he
        rw [map_append, count_append, map_cons, count_cons_self] at hle
        push_cast at hle
        omega
      rw [map_cons, validateEdges, validateEdge_wire (h.each e he) hfresh hcount]
      simp only
      rw [ih (by rwa [append_assoc]), append_assoc]
      rfl

/-! ## Parents -/

theorem parentOf_some {x y : String} (h : parentOf edges x = some y) :
    ∃ e ∈ edges, e.childPeerId = x ∧ e.parentPeerId = y := by
  rw [parentOf] at h
  split at h
  · cases h
  · cases h
  · rename_i parent hparent
    cases h
    obtain ⟨e, he, rfl⟩ := map_eq_some_iff.mp hparent
    exact ⟨e, mem_of_find?_eq_some he, by simpa using find?_some he, rfl⟩

/-- Where no child has two edges, an edge is the one of its child. -/
theorem find_child (he : e ∈ edges) (hnodup : (edges.map childPeerId).Nodup) :
    edges.find? (fun edge => edge.childPeerId = e.childPeerId) = some e := by
  induction edges with
  | nil => cases he
  | cons f fs ih =>
      rw [map_cons, nodup_cons] at hnodup
      rcases mem_cons.mp he with rfl | he
      · rw [find?_cons_of_pos (by simp)]
      · have hne : f.childPeerId ≠ e.childPeerId := fun heq =>
          hnodup.1 (mem_map.mpr ⟨e, he, heq.symm⟩)
        rw [find?_cons_of_neg (by simpa using hne)]
        exact ih he hnodup.2

/-- Where no child has two edges and no parent the empty name, an edge is its
child's parent. -/
theorem parentOf_edge (he : e ∈ edges)
    (hnodup : (edges.map childPeerId).Nodup) (hname : e.parentPeerId ≠ "") :
    parentOf edges e.childPeerId = some e.parentPeerId := by
  rw [parentOf, find_child he hnodup, map_some]
  split
  · rename_i heq
    cases heq
  · rename_i heq
    exact absurd (some.inj heq) hname
  · rename_i heq
    exact heq.symm

theorem parentOf_ne_empty {x y : String} (h : parentOf edges x = some y) : y ≠ "" := by
  rw [parentOf] at h
  split at h
  · cases h
  · cases h
  · rename_i parent hne hparent
    cases h
    exact hne

theorem parentOf_mem {x : String} (h : parentOf edges x ≠ none) :
    x ∈ edges.map childPeerId := by
  obtain ⟨y, hy⟩ := ne_none_iff_exists'.mp h
  obtain ⟨e, he, hchild, -⟩ := parentOf_some hy
  exact mem_map.mpr ⟨e, he, hchild⟩

theorem parentOf_root (h : root ∉ edges.map childPeerId) :
    parentOf edges root = none := by
  by_contra hne
  exact h (parentOf_mem hne)

theorem relayOK_iff (hlength : (edges.length : Int) = (members.length : Int) - 1)
    (hroot : root ∉ edges.map childPeerId) :
    relayOK members root edges = true ↔
      ∀ member ∈ members, ∃ n, up (parentOf edges) n member = some root := by
  have hparent := parentOf_root hroot
  have hfuel : (edges.map childPeerId).length < edges.length + 1 := by
    rw [List.length_map]
    exact Nat.lt_succ_self _
  rw [relayOK, decide_eq_true hlength, decide_eq_true hroot, Bool.true_and, Bool.true_and,
    List.all_eq_true]
  refine forall₂_congr fun member _ => ?_
  rw [Bool.or_eq_true, decide_eq_true_iff, climbs_iff hparent (fun x => parentOf_mem) hfuel]
  constructor
  · rintro (rfl | h)
    · exact ⟨0, rfl⟩
    · exact h
  · exact fun h => .inr h

/-! ## Routes -/

/-- What a relay route is: every other member has one edge, and climbs to
the root. -/
structure Relayed (members : List String) (root : String) (edges : List TopologyEdge) : Prop where
  length : (edges.length : Int) = (members.length : Int) - 1
  unparented : root ∉ edges.map childPeerId
  reaches : ∀ member ∈ members, ∃ n, up (parentOf edges) n member = some root

theorem relayOK_iff_relayed : relayOK members root edges = true ↔ Relayed members root edges := by
  constructor
  · intro h
    have hparts := h
    rw [relayOK, and_eq_true, and_eq_true, decide_eq_true_iff, decide_eq_true_iff] at hparts
    obtain ⟨⟨hlength, hroot⟩, -⟩ := hparts
    exact ⟨hlength, hroot, (relayOK_iff hlength hroot).mp h⟩
  · exact fun h => (relayOK_iff h.length h.unparented).mpr h.reaches

structure RouteOK (members : List String) (limits : Limits) (lease : Int) (r : TopologyRoute) :
    Prop where
  root : r.rootPeerId ∈ members
  scope : r.scopeId = "video:" ++ r.rootPeerId
  edges : EdgesOK members limits lease r.edges
  mode : (r.mode = "adaptive_mesh" ∧ r.edges = []) ∨
    (r.mode = "trusted_peer_relay" ∧ Relayed members r.rootPeerId r.edges)

/-- A route as it is sent. -/
def wireRoute (r : TopologyRoute) : Option RawRoute := some {
  known := true
  rootPeerId := r.rootPeerId
  scopeId := r.scopeId
  mode := r.mode
  edges := some (r.edges.map wireEdge)
}

variable {r : TopologyRoute} {roots : List String}

theorem validateRoute_some {raw : Option RawRoute}
    (h : validateRoute members limits lease roots raw = some r) :
    RouteOK members limits lease r ∧ r.rootPeerId ∉ roots := by
  cases raw with
  | none => cases h
  | some value =>
      simp only [validateRoute] at h
      split at h
      · cases h
      · rename_i hok
        simp only [not_or, not_and, not_not] at hok
        obtain ⟨-, hroot, hfresh, hscope, hmode⟩ := hok
        split at h
        · cases h
        · split at h
          · cases h
          · split at h
            · cases h
            · rename_i edges hedges
              split at h
              · cases h
              · rename_i hbad
                cases h
                simp only [not_or, not_and, not_not, not_eq_false] at hbad
                refine ⟨⟨hroot, hscope, edgesOK_of_validateEdges edgesOK_nil hedges, ?_⟩, hfresh⟩
                by_cases hmesh : value.mode = "adaptive_mesh"
                · exact .inl ⟨hmesh, hbad.1 hmesh⟩
                · exact .inr ⟨hmode hmesh, relayOK_iff_relayed.mp (hbad.2 (hmode hmesh))⟩

theorem validateRoute_wire (h : RouteOK members limits lease r) (hfresh : r.rootPeerId ∉ roots) :
    validateRoute members limits lease roots (wireRoute r) = some r := by
  have hedges : validateEdges members limits lease (r.edges.map wireEdge) [] = some r.edges :=
    validateEdges_wire h.edges
  have hlength : ¬max 0 ((members.length : Int) - 1) < (r.edges.map wireEdge).length := by
    rw [length_map, not_lt]
    rcases h.mode with ⟨-, hnil⟩ | ⟨-, hrelay⟩
    · rw [hnil]
      exact le_max_left _ _
    · rw [hrelay.length]
      exact le_max_right _ _
  simp only [validateRoute, wireRoute]
  rw [if_neg, if_neg hlength, hedges]
  · simp only
    rw [if_neg]
    rcases h.mode with ⟨hmode, hnil⟩ | ⟨hmode, hrelay⟩
    · rw [hmode, hnil]
      rintro (⟨-, hne⟩ | ⟨heq, -⟩)
      · exact hne rfl
      · exact absurd heq (by decide)
    · rw [hmode]
      rintro (⟨heq, -⟩ | ⟨-, hbad⟩)
      · exact absurd heq (by decide)
      · rw [relayOK_iff_relayed.mpr hrelay] at hbad
        cases hbad
  · simp only [not_or, not_and, not_not]
    refine ⟨by decide, h.root, hfresh, h.scope, fun hne => ?_⟩
    rcases h.mode with ⟨hmode, -⟩ | ⟨hmode, -⟩
    · exact absurd hmode hne
    · exact hmode

theorem routesOK_of_validateRoutes {raws : List (Option RawRoute)} :
    ∀ {routes rs : List TopologyRoute}, (∀ r ∈ routes, RouteOK members limits lease r) →
      validateRoutes members limits lease raws routes = some rs →
        ∀ r ∈ rs, RouteOK members limits lease r := by
  induction raws with
  | nil =>
      intro routes rs hroutes h
      cases h
      exact hroutes
  | cons raw raws ih =>
      intro routes rs hroutes h
      rw [validateRoutes] at h
      split at h
      · cases h
      · rename_i r hr
        refine ih (fun q hq => ?_) h
        rcases mem_append.mp hq with hq | hq
        · exact hroutes q hq
        · rw [mem_singleton.mp hq]
          exact (validateRoute_some hr).1

theorem validateRoutes_wire {rs : List TopologyRoute} : ∀ {routes : List TopologyRoute},
    (∀ r ∈ rs, RouteOK members limits lease r) →
      ((routes ++ rs).map rootPeerId).Nodup →
        validateRoutes members limits lease (rs.map wireRoute) routes = some (routes ++ rs) := by
  induction rs with
  | nil =>
      intro routes _ _
      rw [map_nil, validateRoutes, append_nil]
  | cons r rs ih =>
      intro routes hok hnodup
      have hfresh : r.rootPeerId ∉ routes.map rootPeerId := by
        rw [map_append, map_cons, nodup_append] at hnodup
        exact fun hmem => hnodup.2.2 _ hmem _ mem_cons_self rfl
      rw [map_cons, validateRoutes, validateRoute_wire (hok r mem_cons_self) hfresh]
      simp only
      rw [ih (fun q hq => hok q (mem_cons_of_mem r hq)) (by rwa [append_assoc]),
        append_assoc]
      rfl

/-! ## States -/

/-- A state as it is sent, with the version. -/
def wire (state : TopologyState) : RawState where
  known := true
  version := some 1
  type := some "topology-state"
  membershipEpoch := some state.membershipEpoch
  routeEpoch := some state.routeEpoch
  topologyEpoch := some state.topologyEpoch
  leaseExpiresAt := some state.leaseExpiresAt
  peers := some (state.peers.map some)
  routes := some (state.routes.map wireRoute)

variable {peerIds : List String} {state : TopologyState}

theorem routes_of_validate {raw : RawState} {seen : Seen} {now : Int}
    (h : validateTopologyState raw peerIds seen limits now = some state) :
    ∃ raws, raw.routes = some raws
      ∧ validateRoutes peerIds.dedup limits state.leaseExpiresAt raws [] = some state.routes := by
  rw [validateTopologyState] at h
  split at h
  · cases h
  · split at h
    · simp only at h
      split at h
      · cases h
      · split at h
        · rename_i raws _ hraws
          split at h
          · cases h
          · split at h
            · cases h
            · rename_i routes hroutes
              split at h
              · cases h
              · cases h
                exact ⟨raws, hraws, hroutes⟩
        · cases h
    · cases h

theorem routesOK_of_validate {raw : RawState} {seen : Seen} {now : Int}
    (h : validateTopologyState raw peerIds seen limits now = some state) :
    ∀ r ∈ state.routes, RouteOK peerIds.dedup limits state.leaseExpiresAt r := by
  obtain ⟨raws, -, hroutes⟩ := routes_of_validate h
  exact routesOK_of_validateRoutes (fun r hr => absurd hr not_mem_nil) hroutes

theorem RouteOK.relayed (h : RouteOK members limits lease r)
    (hmode : r.mode = "trusted_peer_relay") : Relayed members r.rootPeerId r.edges := by
  rcases h.mode with ⟨hmesh, -⟩ | ⟨-, hrelay⟩
  · rw [hmode] at hmesh
    exact absurd hmesh (by decide)
  · exact hrelay

/-- **Climbs in an accepted state.** They are within the limit exactly where
the edges of the route can be graded within it. -/
theorem climbs_within_iff (h : RouteOK members limits lease r)
    (hmode : r.mode = "trusted_peer_relay") :
    (∀ member ∈ members, member ≠ r.rootPeerId →
      ReachesWithin (parentOf r.edges) r.rootPeerId limits.maxHops member) ↔
        Graded (parentOf r.edges) r.rootPeerId limits.maxHops := by
  have hrelay := h.relayed hmode
  have hroot := parentOf_root hrelay.unparented
  have hmember : ∀ {x}, parentOf r.edges x ≠ none → x ∈ members := by
    intro x hx
    obtain ⟨e, he, rfl⟩ := mem_map.mp (parentOf_mem hx)
    exact (h.edges.each e he).child
  rw [← reachesWithin_iff_graded hroot fun x hx => hrelay.reaches x (hmember hx)]
  constructor
  · intro hall x hx
    refine hall x (hmember hx) ?_
    rintro rfl
    exact hx hroot
  · intro hall x hx hne
    refine hall x fun hnone => ?_
    obtain ⟨n, hup⟩ := hrelay.reaches x hx
    cases n with
    | zero => exact hne (some.inj hup)
    | succ n =>
        rw [up, hnone] at hup
        cases hup

/-! ## The tree that grows -/

variable {t : Tree} {parents : List Parent} {remaining : List String}

/-- One child more at one peer. -/
def bump (id : String) (p : Parent) : Parent :=
  if p.peerId = id then { p with children := p.children + 1 } else p

variable {id : String} {p : Parent}

@[simp] theorem bump_peerId : (bump id p).peerId = p.peerId := by
  rw [bump]
  split <;> rfl

@[simp] theorem bump_depth : (bump id p).depth = p.depth := by
  rw [bump]
  split <;> rfl

theorem bump_children :
    (bump id p).children = p.children + if p.peerId = id then 1 else 0 := by
  rw [bump]
  split
  · rfl
  · rw [Int.add_zero]

theorem addChild_eq_map (hids : (parents.map peerId).Nodup)
    (h : parents.find? limits.room = some p) :
    addChild limits parents = parents.map (bump p.peerId) := by
  induction parents with
  | nil => cases h
  | cons q qs ih =>
      rw [map_cons, nodup_cons] at hids
      by_cases hroom : limits.room q = true
      · rw [find?_cons_of_pos hroom] at h
        obtain rfl : q = p := some.inj h
        have hrest : qs.map (bump q.peerId) = qs := by
          refine map_congr_left (fun r hr => ?_) |>.trans (map_id qs)
          rw [bump, if_neg fun heq => hids.1 (mem_map.mpr ⟨r, hr, heq⟩)]
          rfl
        rw [addChild, if_pos hroom, map_cons, hrest, bump, if_pos rfl]
      · rw [find?_cons_of_neg hroom] at h
        have hne : q.peerId ≠ p.peerId := fun heq =>
          hids.1 (mem_map.mpr ⟨p, mem_of_find?_eq_some h, heq.symm⟩)
        rw [addChild, if_neg hroom, map_cons, ih hids.2 h, bump, if_neg hne]

theorem leaseIdOK_makeLeaseId {rootPeerId parentPeerId childPeerId : String} {routeEpoch : Int} :
    leaseIdOK (makeLeaseId rootPeerId parentPeerId childPeerId routeEpoch) = true := by
  have hdigit : ∀ {bytes : List Nat} {c : Char}, c ∈ (base64 bytes).toList.take 22 →
      c.toNat < 128 ∧ refByte c.toNat = true := fun hc =>
    base64Alphabet_ok (base64_mem (List.mem_of_mem_take hc))
  rw [leaseIdOK, makeLeaseId, utf8_ofList fun c hc => (hdigit hc).1, spanOK, List.length_map,
    List.length_take, length_base64, and_eq_true, and_eq_true, List.all_eq_true]
  refine ⟨⟨fun b hb => ?_, by decide⟩, by decide⟩
  obtain ⟨c, hc, rfl⟩ := List.mem_map.mp hb
  exact (hdigit hc).2

/-- What holds while a tree grows, of the edges so far, of the peers that
can take children and of those that are still to be placed. -/
structure Grown (members : List String) (t : Tree) (edges : List TopologyEdge)
    (parents : List Parent) (remaining : List String) : Prop where
  edge : ∀ e ∈ edges, EdgeOK members t.limits t.expiresAt e
  above : ∀ e ∈ edges, ∃ p ∈ parents, p.peerId = e.parentPeerId ∧ e.depth = p.depth + 1
  ids : (parents.map peerId).Nodup
  placed : ∀ p ∈ parents, (p.peerId = t.rootPeerId ∧ p.depth = 0) ∨
    ∃ e ∈ edges, e.childPeerId = p.peerId ∧ e.depth = p.depth
  children : ∀ p ∈ parents,
    p.children = ((edges.map parentPeerId).count p.peerId : Int)
  fanout : ∀ p ∈ parents, p.children ≤ t.limits.maxChildren
  fresh : (t.rootPeerId :: (edges.map childPeerId ++ remaining)).Nodup
  members : ∀ id ∈ t.rootPeerId :: remaining, id ∈ members

namespace Grown

variable {p : Parent}

section

variable (h : Grown members t edges parents remaining) (hp : p ∈ parents)

include h hp

theorem mem_of_parent
    : p.peerId ∈ members := by
  rcases h.placed p hp with ⟨hroot, -⟩ | ⟨e, he, hchild, -⟩
  · rw [hroot]
    exact h.members _ mem_cons_self
  · rw [← hchild]
    exact (h.edge e he).child

theorem parent_not_remaining
    : p.peerId ∉ remaining := by
  have hfresh := h.fresh
  rw [nodup_cons, nodup_append] at hfresh
  rcases h.placed p hp with ⟨hroot, -⟩ | ⟨e, he, hchild, -⟩
  · rw [hroot]
    exact fun hmem => hfresh.1 (mem_append_right _ hmem)
  · rw [← hchild]
    exact fun hmem => hfresh.2.2.2 _ (mem_map_of_mem he) _ hmem rfl

theorem depth_nonneg
    : 0 ≤ p.depth := by
  rcases h.placed p hp with ⟨-, hdepth⟩ | ⟨e, he, -, hdepth⟩
  · exact hdepth.ge
  · have hpos := (h.edge e he).depth_pos
    omega

end

theorem edgeOK {child : String} (h : Grown members t edges parents (child :: remaining))
    (hp : p ∈ parents) (hroom : t.limits.room p = true) :
    EdgeOK members t.limits t.expiresAt (t.edge parents p child) where
  parent := h.mem_of_parent hp
  child := h.members child (mem_cons_of_mem _ mem_cons_self)
  distinct := by
    intro heq
    have hid : p.peerId = child := heq
    exact h.parent_not_remaining hp (hid ▸ mem_cons_self)
  depth_pos := by
    have hdepth := h.depth_nonneg hp
    show 1 ≤ p.depth + 1
    omega
  depth_le := by
    rw [Limits.room, and_eq_true, decide_eq_true_iff] at hroom
    show p.depth + 1 ≤ t.limits.maxHops
    omega
  leaseId := leaseIdOK_makeLeaseId
  expires := rfl
  backup := by
    intro backup hbackup
    simp only [Tree.edge, mem_def, filter_eq_some_iff, map_eq_some_iff]
      at hbackup
    obtain ⟨⟨candidate, hfind, rfl⟩, -⟩ := hbackup
    have hok := find?_some hfind
    rw [and_eq_true, and_eq_true, bne_iff_ne, bne_iff_ne] at hok
    exact ⟨h.mem_of_parent (mem_of_find?_eq_some hfind), hok.1.1, hok.2⟩

theorem step {p : Parent} {child : String} (h : Grown members t edges parents (child :: remaining))
    (hfind : parents.find? t.limits.room = some p) :
    Grown members t (edges ++ [t.edge parents p child])
      (addChild t.limits parents ++ if t.eligible.contains child
        && decide (p.depth + 1 < t.limits.maxHops) then [⟨child, p.depth + 1, 0⟩] else [])
      remaining := by
  have hp := mem_of_find?_eq_some hfind
  have hroom := find?_some hfind
  have hnew : t.edge parents p child ∈ edges ++ [t.edge parents p child] :=
    mem_append_right _ mem_cons_self
  have hchild : child ∉ parents.map peerId := by
    intro hmem
    obtain ⟨q, hq, hid⟩ := mem_map.mp hmem
    exact h.parent_not_remaining hq (hid ▸ mem_cons_self)
  have hcount : ∀ id, ((edges ++ [t.edge parents p child]).map parentPeerId).count id
      = (edges.map parentPeerId).count id + if p.peerId = id then 1 else 0 := by
    intro id
    rw [map_append, count_append, map_singleton, count_singleton]
    simp only [Tree.edge, beq_iff_eq]
  -- a parent after the step is one from before, bumped or not, or the child that was placed
  have hparents : ∀ q ∈ addChild t.limits parents ++ (if t.eligible.contains child
      && decide (p.depth + 1 < t.limits.maxHops) then [(⟨child, p.depth + 1, 0⟩ : Parent)] else []),
      (∃ r ∈ parents, q = bump p.peerId r) ∨ q = ⟨child, p.depth + 1, 0⟩ := by
    intro q hq
    rw [addChild_eq_map h.ids hfind] at hq
    rcases mem_append.mp hq with hq | hq
    · obtain ⟨r, hr, rfl⟩ := mem_map.mp hq
      exact .inl ⟨r, hr, rfl⟩
    · split at hq
      · exact .inr (mem_singleton.mp hq)
      · cases hq
  have hkept : ∀ r ∈ parents, bump p.peerId r ∈ addChild t.limits parents
      ++ (if t.eligible.contains child && decide (p.depth + 1 < t.limits.maxHops) then
        [(⟨child, p.depth + 1, 0⟩ : Parent)] else []) := by
    intro r hr
    rw [addChild_eq_map h.ids hfind]
    exact mem_append_left _ (mem_map_of_mem hr)
  constructor
  case edge =>
    intro e he
    rcases mem_append.mp he with he | he
    · exact h.edge e he
    · rw [mem_singleton.mp he]
      exact h.edgeOK hp hroom
  case above =>
    intro e he
    rcases mem_append.mp he with he | he
    · obtain ⟨r, hr, hid, hdepth⟩ := h.above e he
      exact ⟨bump p.peerId r, hkept r hr, by rw [bump_peerId, hid], by rw [bump_depth, hdepth]⟩
    · rw [mem_singleton.mp he]
      exact ⟨bump p.peerId p, hkept p hp, bump_peerId, by rw [bump_depth]; rfl⟩
  case ids =>
    rw [addChild_eq_map h.ids hfind, List.map_append, List.map_map,
      show peerId ∘ bump p.peerId = peerId from funext fun _ => bump_peerId]
    split
    · rw [nodup_append]
      refine ⟨h.ids, nodup_singleton _, ?_⟩
      rintro a ha b hb rfl
      have hid : a = child := mem_singleton.mp hb
      exact hchild (hid ▸ ha)
    · rw [map_nil, append_nil]
      exact h.ids
  case placed =>
    intro q hq
    rcases hparents q hq with ⟨r, hr, rfl⟩ | rfl
    · rw [bump_peerId, bump_depth]
      rcases h.placed r hr with hroot | ⟨e, he, hplaced⟩
      · exact .inl hroot
      · exact .inr ⟨e, mem_append_left _ he, hplaced⟩
    · exact .inr ⟨_, hnew, rfl, rfl⟩
  case children =>
    intro q hq
    rw [hcount]
    rcases hparents q hq with ⟨r, hr, rfl⟩ | rfl
    · rw [bump_peerId, bump_children, h.children r hr]
      push_cast
      simp only [eq_comm]
    · -- nothing is below a peer that was not placed before
      have hzero : (edges.map parentPeerId).count child = 0 := by
        rw [count_eq_zero]
        intro hmem
        obtain ⟨e, he, hid⟩ := mem_map.mp hmem
        obtain ⟨r, hr, habove, -⟩ := h.above e he
        exact hchild (mem_map.mpr ⟨r, hr, by rw [habove, hid]⟩)
      have hne : p.peerId ≠ child := fun heq => hchild (heq ▸ mem_map_of_mem hp)
      rw [hzero, if_neg hne]
      rfl
  case fanout =>
    intro q hq
    rcases hparents q hq with ⟨r, hr, rfl⟩ | rfl
    · rw [bump_children]
      split
      · rename_i heq
        have hrp : r = p := inj_on_of_nodup_map h.ids hr hp heq
        rw [hrp]
        rw [Limits.room, and_eq_true, decide_eq_true_iff, decide_eq_true_iff] at hroom
        omega
      · have hle := h.fanout r hr
        omega
    · have hle := h.fanout p hp
      have hcountp := h.children p hp
      show (0 : Int) ≤ t.limits.maxChildren
      omega
  case fresh =>
    rw [map_append, append_assoc]
    exact h.fresh
  case members =>
    intro id hid
    refine h.members id ?_
    rcases mem_cons.mp hid with rfl | hid
    · exact mem_cons_self
    · exact mem_cons_of_mem _ (mem_cons_of_mem _ hid)

end Grown

theorem Grown.grow {es : List TopologyEdge} :
    ∀ {remaining : List String} {parents : List Parent} {edges : List TopologyEdge},
      Grown members t edges parents remaining → t.grow remaining parents = some es →
        (∃ grown, Grown members t (edges ++ es) grown [])
          ∧ es.map childPeerId = remaining := by
  intro remaining
  induction remaining generalizing es with
  | nil =>
      intro parents edges h hgrow
      cases hgrow
      exact ⟨⟨parents, by rwa [append_nil]⟩, rfl⟩
  | cons child remaining ih =>
      intro parents edges h hgrow
      rw [Tree.grow] at hgrow
      split at hgrow
      · cases hgrow
      · rename_i p hfind
        obtain ⟨es', hes', rfl⟩ := map_eq_some_iff.mp hgrow
        obtain ⟨⟨grown, hgrown⟩, hchildren⟩ := ih (h.step hfind) hes'
        refine ⟨⟨grown, ?_⟩, ?_⟩
        · rwa [append_assoc] at hgrown
        · rw [map_cons, hchildren]
          rfl

theorem Grown.init (hfanout : 0 ≤ t.limits.maxChildren) (hfresh : (t.rootPeerId :: remaining).Nodup)
    (hmembers : ∀ id ∈ t.rootPeerId :: remaining, id ∈ members) :
    Grown members t [] [⟨t.rootPeerId, 0, 0⟩] remaining where
  edge _ he := absurd he not_mem_nil
  above _ he := absurd he not_mem_nil
  ids := nodup_singleton _
  placed := by
    intro p hp
    rw [mem_singleton.mp hp]
    exact .inl ⟨rfl, rfl⟩
  children := by
    intro p hp
    rw [mem_singleton.mp hp]
    rfl
  fanout := by
    intro p hp
    rw [mem_singleton.mp hp]
    exact hfanout
  fresh := hfresh
  members := hmembers

section

variable (h : Grown members t edges parents [])

include h

theorem Grown.edgesOK :
    EdgesOK members t.limits t.expiresAt edges where
  each := h.edge
  children := by
    have hfresh := h.fresh
    rw [append_nil, nodup_cons] at hfresh
    exact hfresh.2
  fanout := by
    intro e he
    obtain ⟨p, hp, hid, -⟩ := h.above e he
    rw [← hid, ← h.children p hp]
    exact h.fanout p hp

/-- **The declared depths of a tree that has grown are its depths.** -/
theorem Grown.up_depth
    (hnames : ∀ id ∈ members, id ≠ "") {n : Nat} (he : e ∈ edges)
    (hdepth : e.depth = n) : up (parentOf edges) n e.childPeerId = some t.rootPeerId := by
  induction n generalizing e with
  | zero =>
      have hpos := (h.edge e he).depth_pos
      omega
  | succ n ih =>
      rw [up_succ (parentOf_edge he h.edgesOK.children (hnames _ (h.edge e he).parent))]
      obtain ⟨p, hp, hid, habove⟩ := h.above e he
      rcases h.placed p hp with ⟨hroot, hzero⟩ | ⟨f, hf, hchild, hsame⟩
      · obtain rfl : n = 0 := by omega
        rw [up, ← hid, hroot]
      · rw [← hid, ← hchild]
        exact ih hf (by omega)

theorem Grown.relayed (hnames : ∀ id ∈ members, id ≠ "")
    (hall : ∀ id ∈ members, id ≠ t.rootPeerId → id ∈ edges.map childPeerId)
    (hlength : (edges.length : Int) = (members.length : Int) - 1) :
    Relayed members t.rootPeerId edges where
  length := hlength
  unparented := by
    have hfresh := h.fresh
    rw [append_nil, nodup_cons] at hfresh
    exact hfresh.1
  reaches := by
    intro id hid
    by_cases hroot : id = t.rootPeerId
    · exact ⟨0, by rw [hroot, up]⟩
    · obtain ⟨e, he, rfl⟩ := mem_map.mp (hall id hid hroot)
      have hpos := (h.edge e he).depth_pos
      exact ⟨e.depth.toNat, h.up_depth hnames he (by omega)⟩

end

theorem grow_some (hperm : (t.rootPeerId :: remaining).Perm members)
    (hnodup : members.Nodup) (hnames : ∀ id ∈ members, id ≠ "") (hfanout : 0 ≤ t.limits.maxChildren)
    (h : t.grow remaining [⟨t.rootPeerId, 0, 0⟩] = some es) :
    EdgesOK members t.limits t.expiresAt es ∧ Relayed members t.rootPeerId es := by
  have hinit : Grown members t [] [⟨t.rootPeerId, 0, 0⟩] remaining :=
    Grown.init hfanout (hperm.nodup_iff.mpr hnodup) fun id hid => hperm.mem_iff.mp hid
  obtain ⟨⟨grown, hgrown⟩, hchildren⟩ := hinit.grow h
  rw [nil_append] at hgrown
  refine ⟨hgrown.edgesOK, hgrown.relayed hnames (fun id hid hne => ?_) ?_⟩
  · rw [hchildren]
    rcases mem_cons.mp (hperm.mem_iff.mpr hid) with rfl | hmem
    · exact absurd rfl hne
    · exact hmem
  · rw [← hperm.length_eq, length_cons, ← hchildren, length_map]
    push_cast
    omega

/-! ## What is built -/

theorem mem_sortedIds {ids : List String} : id ∈ sortedIds ids ↔ id ∈ ids := by
  rw [sortedIds, mem_insertionSort, mem_dedup]

theorem nodup_sortedIds {ids : List String} : (sortedIds ids).Nodup :=
  (perm_insertionSort _ _).nodup_iff.mpr (nodup_dedup ids)

theorem buildRelayTree_some {eligible : List String} {routeEpoch expiresAt : Int}
    {ranks : String → Option Rank}
    (hperm : (sortedIds peerIds).Perm members) (hnames : ∀ id ∈ members, id ≠ "")
    (h : buildRelayTree peerIds root eligible limits routeEpoch expiresAt ranks = .ok (some es)) :
    EdgesOK members limits expiresAt es ∧ Relayed members root es := by
  simp only [buildRelayTree, bind_ok_iff, failIf_ok_iff, pure_ok_iff] at h
  obtain ⟨_, hroot, _, hmaxChildren, _, -, hgrow⟩ := h
  rw [not_not] at hroot
  refine grow_some ?_ (hperm.nodup_iff.mp nodup_sortedIds) hnames ?_ hgrow
  · refine ((perm_insertionSort _ _).cons root).trans (List.Perm.trans ?_ hperm)
    have hfilter : (sortedIds peerIds).filter (· ≠ root) = (sortedIds peerIds).erase root := by
      rw [nodup_sortedIds.erase_eq_filter]
      exact filter_congr fun id _ => by rw [bne, decide_not, beq_eq_decide]
    rw [hfilter]
    exact (perm_cons_erase hroot).symm
  · show 0 ≤ limits.maxChildren
    omega

variable {epochs : Epochs} {options : Options} {peers : List Peer}

theorem buildRoute_ok (hperm : (sortedIds peerIds).Perm members)
    (hnames : ∀ id ∈ members, id ≠ "") (hroot : root ∈ members)
    (h : buildRoute peers peerIds epochs options root = .ok r) :
    r.rootPeerId = root ∧ RouteOK members options.limits (options.now + options.leaseMs) r := by
  simp only [buildRoute, bind_ok_iff, pure_ok_iff] at h
  obtain ⟨edges, hedges, rfl⟩ := h
  refine ⟨rfl, ?_⟩
  cases edges with
  | none => exact ⟨hroot, rfl, edgesOK_nil, .inl ⟨rfl, rfl⟩⟩
  | some es =>
      rw [relayTree] at hedges
      split at hedges
      · obtain ⟨hgood, hrelay⟩ := buildRelayTree_some hperm hnames hedges
        exact ⟨hroot, rfl, hgood, .inr ⟨rfl, hrelay⟩⟩
      · cases hedges

theorem buildRoomTopology_ok (hperm : (sortedIds (peers.map Peer.id)).Perm members)
    (hnames : ∀ id ∈ members, id ≠ "") (h : buildRoomTopology peers epochs options = .ok state) :
    state.membershipEpoch = epochs.membership ∧ state.routeEpoch = epochs.route
      ∧ state.topologyEpoch = epochs.topology
      ∧ state.leaseExpiresAt = options.now + options.leaseMs
      ∧ state.peers = sortedIds (peers.map Peer.id)
      ∧ state.routes.map rootPeerId = sortedIds (peers.map Peer.id)
      ∧ ∀ r ∈ state.routes, RouteOK members options.limits state.leaseExpiresAt r := by
  simp only [buildRoomTopology, bind_ok_iff, pure_ok_iff] at h
  obtain ⟨routes, hroutes, rfl⟩ := h
  have hpermAgain : (sortedIds (sortedIds (peers.map Peer.id))).Perm members := by
    refine List.Perm.trans ?_ hperm
    rw [perm_ext_iff_of_nodup nodup_sortedIds nodup_sortedIds]
    exact fun id => mem_sortedIds
  have hall : ∀ {ids : List String} {routes : List TopologyRoute}, (∀ id ∈ ids, id ∈ members) →
      ids.mapM (buildRoute peers (sortedIds (peers.map Peer.id)) epochs options) = .ok routes →
        routes.map rootPeerId = ids
          ∧ ∀ r ∈ routes, RouteOK members options.limits (options.now + options.leaseMs) r := by
    intro ids
    induction ids with
    | nil =>
        intro routes _ hmap
        rw [mapM_nil, pure_ok_iff] at hmap
        subst hmap
        exact ⟨rfl, fun r hr => absurd hr not_mem_nil⟩
    | cons id ids ih =>
        intro routes hids hmap
        simp only [mapM_cons, bind_ok_iff, pure_ok_iff] at hmap
        obtain ⟨r, hr, rs, hrs, rfl⟩ := hmap
        obtain ⟨hid, hok⟩ := buildRoute_ok hpermAgain hnames (hids id mem_cons_self) hr
        obtain ⟨hroots, hoks⟩ := ih (fun x hx => hids x (mem_cons_of_mem id hx)) hrs
        rw [map_cons, hid, hroots]
        exact ⟨rfl, forall_mem_cons.mpr ⟨hok, hoks⟩⟩
  obtain ⟨hroots, hoks⟩ := hall (fun id hid => hperm.mem_iff.mp hid) hroutes
  exact ⟨rfl, rfl, rfl, rfl, rfl, hroots, hoks⟩

/-- **A built state is accepted** by a browser that knows the same members and
limits, exactly while its epochs are new and its lease is live. -/
theorem accepted_built_iff {seen : Seen} {now : Int}
    (hsame : ∀ id, id ∈ peerIds ↔ id ∈ peers.map Peer.id) (hnames : ∀ peer ∈ peers, peer.id ≠ "")
    (h : buildRoomTopology peers epochs options = .ok state) :
    (validateTopologyState (wire state) peerIds seen options.limits now).isSome = true ↔
      epochsOK seen epochs.membership epochs.route epochs.topology
        ∧ now < options.now + options.leaseMs
        ∧ options.now + options.leaseMs ≤ now + 300000 := by
  have hperm : (sortedIds (peers.map Peer.id)).Perm peerIds.dedup := by
    rw [perm_ext_iff_of_nodup nodup_sortedIds (nodup_dedup peerIds)]
    intro id
    rw [mem_sortedIds, mem_dedup, hsame]
  have hmembers : ∀ id ∈ peerIds.dedup, id ≠ "" := by
    intro id hid
    rw [mem_dedup, hsame] at hid
    obtain ⟨peer, hpeer, rfl⟩ := mem_map.mp hid
    exact hnames peer hpeer
  obtain ⟨hmembership, hroute, htopology, hlease, hpeers, hroots, hoks⟩ :=
    buildRoomTopology_ok hperm hmembers h
  have hlength : state.routes.length = peerIds.dedup.length := by
    have hmapped : (state.routes.map rootPeerId).length = state.routes.length :=
      length_map _
    rw [← hmapped, hroots, hperm.length_eq]
  have hvalid : validateRoutes peerIds.dedup options.limits state.leaseExpiresAt
      (state.routes.map wireRoute) [] = some state.routes := by
    refine validateRoutes_wire hoks ?_
    rw [nil_append, hroots]
    exact nodup_sortedIds
  rw [validateTopologyState, wire]
  simp only
  rw [if_neg (by decide), hmembership, hroute, htopology]
  rw [← hlease]
  split
  · rename_i hbad
    refine iff_of_false (by decide) ?_
    rintro ⟨hepochs, hlive, hbound⟩
    rcases hbad with hbad | hbad | hbad
    · exact hbad hepochs
    · omega
    · omega
  · rename_i hgood
    simp only [not_or, not_not, not_le, not_lt] at hgood
    refine iff_of_true ?_ hgood
    rw [if_neg, hvalid]
    · simp only
      rw [if_neg (not_not.mpr hlength)]
      rfl
    · simp only [not_or, not_exists, not_and, not_not, length_map]
      refine ⟨?_, ?_, hlength⟩
      · rw [hpeers, hperm.length_eq]
      · intro peer hpeer hout
        rw [hpeers] at hpeer
        obtain ⟨id, hid, rfl⟩ := mem_map.mp hpeer
        exact hout id rfl (hperm.mem_iff.mp hid)

/-! ## The contract -/

theorem wire_of_validateEdge {raw : Option RawEdge}
    (h : validateEdge members limits lease edges raw = some e) : raw = wireEdge e := by
  cases raw with
  | none => cases h
  | some edge =>
      simp only [validateEdge] at h
      split at h
      · rename_i depth expiresAt hdepth hexpires
        split at h
        · cases h
        · rename_i hok
          split at h
          · cases h
          · cases h
            rw [not_or, not_eq_false] at hok
            rw [wireEdge, ← hok.1, ← hdepth, ← hexpires]
      · cases h

theorem wire_of_validateEdges {raws : List (Option RawEdge)} : ∀ {edges es : List TopologyEdge},
    validateEdges members limits lease raws edges = some es →
      edges.map wireEdge ++ raws = es.map wireEdge := by
  induction raws with
  | nil =>
      intro edges es h
      cases h
      exact append_nil _
  | cons raw raws ih =>
      intro edges es h
      rw [validateEdges] at h
      split at h
      · cases h
      · rename_i e he
        rw [← ih h, wire_of_validateEdge he, map_append, append_assoc]
        rfl

theorem wire_of_validateRoute {raw : Option RawRoute}
    (h : validateRoute members limits lease roots raw = some r) : raw = wireRoute r := by
  cases raw with
  | none => cases h
  | some value =>
      simp only [validateRoute] at h
      split at h
      · cases h
      · rename_i hok
        split at h
        · cases h
        · rename_i raws hraws
          split at h
          · cases h
          · split at h
            · cases h
            · rename_i edges hedges
              split at h
              · cases h
              · cases h
                rw [not_or, not_eq_false] at hok
                rw [wireRoute, ← hok.1, ← wire_of_validateEdges hedges, map_nil,
                  nil_append, ← hraws]

theorem wire_of_validateRoutes {raws : List (Option RawRoute)} : ∀ {routes rs : List TopologyRoute},
    validateRoutes members limits lease raws routes = some rs →
      routes.map wireRoute ++ raws = rs.map wireRoute := by
  induction raws with
  | nil =>
      intro routes rs h
      cases h
      exact append_nil _
  | cons raw raws ih =>
      intro routes rs h
      rw [validateRoutes] at h
      split at h
      · cases h
      · rename_i r hr
        rw [← ih h, wire_of_validateRoute hr, map_append, append_assoc]
        rfl

/-- The edges could have declared the depths of their tree and passed the
check of the depth. -/
def Fits (limits : Limits) (r : TopologyRoute) : Prop :=
  ∃ depth : String → Nat, depth r.rootPeerId = 0 ∧ ∀ e ∈ r.edges,
    depth e.childPeerId = depth e.parentPeerId + 1 ∧ (depth e.childPeerId : Int) ≤ limits.maxHops

theorem graded_iff_fits (hedges : EdgesOK members limits lease r.edges)
    (hrelay : Relayed members r.rootPeerId r.edges) :
    Graded (parentOf r.edges) r.rootPeerId limits.maxHops ↔ Fits limits r := by
  constructor
  · rintro ⟨depth, hzero, hdepth⟩
    refine ⟨depth, hzero, fun e he => hdepth _ _ ?_⟩
    refine parentOf_edge he hedges.children fun hname => ?_
    -- a child below the empty name would have no parent, and not reach the root
    obtain ⟨n, hup⟩ := hrelay.reaches _ (hedges.each e he).child
    cases n with
    | zero => exact hrelay.unparented (mem_map.mpr ⟨e, he, some.inj hup⟩)
    | succ n =>
        obtain ⟨y, hparent, -⟩ := up_succ_eq_some_iff.mp hup
        obtain ⟨f, hf, hchild, hy⟩ := parentOf_some hparent
        have hsame : f = e := inj_on_of_nodup_map hedges.children hf he hchild
        rw [← hy, hsame, hname] at hparent
        exact parentOf_ne_empty hparent rfl
  · rintro ⟨depth, hzero, hdepth⟩
    refine ⟨depth, hzero, fun x y hparent => ?_⟩
    obtain ⟨e, he, rfl, rfl⟩ := parentOf_some hparent
    exact hdepth e he

/-- Three members in a chain; both edges say that they are below the source. -/
def chain : TopologyState where
  membershipEpoch := 1
  routeEpoch := 1
  topologyEpoch := 1
  leaseExpiresAt := 60000
  peers := ["0000000000000001", "0000000000000002", "0000000000000003"]
  routes := [
    { rootPeerId := "0000000000000001", scopeId := "video:0000000000000001",
      mode := "trusted_peer_relay"
      edges := [
        { leaseId := "AAAAAAAAAAAAAAAAAAAAAA", parentPeerId := "0000000000000001",
          backupParentPeerId := none, childPeerId := "0000000000000002", depth := 1,
          expiresAt := 60000 },
        { leaseId := "BBBBBBBBBBBBBBBBBBBBBB", parentPeerId := "0000000000000002",
          backupParentPeerId := none, childPeerId := "0000000000000003", depth := 1,
          expiresAt := 60000 }] },
    { rootPeerId := "0000000000000002", scopeId := "video:0000000000000002",
      mode := "adaptive_mesh", edges := [] },
    { rootPeerId := "0000000000000003", scopeId := "video:0000000000000003",
      mode := "adaptive_mesh", edges := [] }]

theorem chain_validated :
    validateTopologyState (wire chain) chain.peers ⟨0, 0, 0⟩ ⟨2, 1⟩ 0 = some chain := by
  decide

theorem chain_long : ∀ r ∈ chain.routes, r.mode = "trusted_peer_relay" →
    ¬ReachesWithin (parentOf r.edges) r.rootPeerId 1 "0000000000000003" := by
  intro r hr hmode
  obtain rfl : r = chain.routes.head (by decide) := by
    simp only [chain, mem_cons, not_mem_nil, or_false] at hr
    rcases hr with rfl | rfl | rfl
    · rfl
    · exact absurd hmode (by decide)
    · exact absurd hmode (by decide)
  rintro ⟨n, hn, hup, -⟩
  match n, hn with
  | 0, _ => exact absurd hup (by decide)
  | 1, _ => exact absurd hup (by decide)

def sharers : List Peer :=
  ["0000000000000001", "0000000000000002", "0000000000000003", "0000000000000004"].map
    fun id => ⟨id, true, none⟩

end Topology

end WebrtcMinimize
