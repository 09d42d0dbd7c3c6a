import WebrtcMinimize.BreakoutGrants
import WebrtcMinimize.Runs

/-!
# Assignments that fail

What an assignment does before its last check stays where the check fails: the
assigned person's live grants are dropped before the child is found to be full,
and those of all candidates before the life of a grant is looked at. The
assignment to the best child looks at the places first and loses nothing.
-/

namespace WebrtcMinimize

open Checks Runs

namespace Breakout

open BreakoutRegistry Option BreakoutSet
open List hiding set
open Regranted
open Bool hiding not_not

/-! ## Calls and runs -/

/-- A call that assigns. -/
inductive Assigning
  | assign (parentRoomId : String) (ownerRole : Role) (targetPeer : Option TargetPeer)
      (childRoomId : String) (ttlMs : Option Int) (now occupied : Nat) (grantId : String)
  | assignVoluntary (parentRoomId : String) (targetPeer : Option TargetPeer)
      (childRoomId : String) (ttlMs : Option Int) (now occupied : Nat) (grantId : String)
  | assignBalanced (parentRoomId : String) (ownerRole : Role) (candidatePeers : List TargetPeer)
      (ttlMs : Option Int) (now : Nat) (occupiedByChild : KeyedMap String Nat)
      (grantIds : Nat → String)
  | resolveAssignment (parentRoomId : String) (targetPeer : Option TargetPeer)
      (preferredChildRoomId : String) (ttlMs : Option Int) (now : Nat)
      (occupiedByChild : KeyedMap String Nat) (grantId : String)

namespace Assigning

def now : Assigning → Nat
  | assign _ _ _ _ _ now _ _ => now
  | assignVoluntary _ _ _ _ now _ _ => now
  | assignBalanced _ _ _ _ now _ _ => now
  | resolveAssignment _ _ _ _ now _ _ => now

/-- The registry after the call, and the error, if there is one. -/
def run (b : BreakoutRegistry) : Assigning → BreakoutRegistry × Except String Unit
  | assign parentRoomId ownerRole targetPeer childRoomId ttlMs now occupied grantId =>
      (b.assign parentRoomId ownerRole targetPeer childRoomId ttlMs now occupied grantId).map id
        (Except.map fun _ => ())
  | assignVoluntary parentRoomId targetPeer childRoomId ttlMs now occupied grantId =>
      (b.assignVoluntary parentRoomId targetPeer childRoomId ttlMs now occupied grantId).map id
        (Except.map fun _ => ())
  | assignBalanced parentRoomId ownerRole candidatePeers ttlMs now occupiedByChild grantIds =>
      (b.assignBalanced parentRoomId ownerRole candidatePeers ttlMs now occupiedByChild
        grantIds).map id (Except.map fun _ => ())
  | resolveAssignment parentRoomId targetPeer preferredChildRoomId ttlMs now occupiedByChild
      grantId =>
      (b.resolveAssignment parentRoomId targetPeer preferredChildRoomId ttlMs now occupiedByChild
        grantId).map id (Except.map fun _ => ())

end Assigning

/-- A call to the registry. -/
inductive RegistryCall
  | openSet (request : OpenRequest) (draws : Draws) (now : Nat)
  | assigning (call : Assigning)
  | revoke (parentRoomId : String) (ownerRole : Role) (grantId : String) (now : Nat)
  | consume (roomId setId principal deviceFingerprint : String) (now : Nat)
  | closeSet (parentRoomId : String)

def BreakoutRegistry.after (b : BreakoutRegistry) : RegistryCall → BreakoutRegistry
  | .openSet request draws now => (b.openSet request draws now).1
  | .assigning call => (call.run b).1
  | .revoke parentRoomId ownerRole grantId now => (b.revoke parentRoomId ownerRole grantId now).1
  | .consume roomId setId principal deviceFingerprint now =>
      (b.consume roomId setId principal deviceFingerprint now).1
  | .closeSet parentRoomId => (b.closeSet parentRoomId).1

/-- The registry after some calls. -/
def reached (calls : List RegistryCall) : BreakoutRegistry :=
  calls.foldl after empty

/-! ## Children in order -/

/-- The children of a set are told apart by their rooms, and are of a capacity that is
allowed. -/
structure ChildrenOK (children : List Child) : Prop where
  nodup : (children.map Child.roomId).Nodup
  capacity : ∀ child ∈ children,
    minRoomParticipants ≤ child.capacity ∧ child.capacity ≤ maxRoomParticipants

def Orderly (b : BreakoutRegistry) : Prop :=
  ∀ (parentRoomId : String) (set : BreakoutSet), b.sets.get parentRoomId = some set →
    ChildrenOK set.children

variable {b b' : BreakoutRegistry} {set : BreakoutSet} {parentRoomId childRoomId roomId : String}
  {now occupied : Nat} {ttlMs : Option Int} {targetPeer : Option TargetPeer}

theorem Orderly.sameFrame (h : Orderly b) (hsame : SameFrame b b') : Orderly b' := by
  intro parent set' hset
  obtain ⟨set, hget, hframe⟩ := hsame.old hset
  rw [children_of_frame hframe]
  exact h parent set hget

theorem placeChildren_ok {request : OpenRequest} {draws : Draws} :
    ∀ {count index : Nat} {occupiedIds : List String} {byChild : KeyedMap String String}
      {children : List Child},
      (placeChildren request now draws index count occupiedIds byChild).2 = .ok children →
        (children.map Child.roomId).Nodup ∧ ∀ child ∈ children, child.roomId ∉ occupiedIds
            ∧ child.capacity = request.capacity.toNat
  | 0, _, _, _, _, h => by
      cases h
      exact ⟨nodup_nil, fun _ hchild => absurd hchild not_mem_nil⟩
  | count + 1, index, occupiedIds, byChild, children, h => by
      rw [placeChildren] at h
      split at h
      · cases h
      · rename_i room hroom
        obtain ⟨rest, hrest, rfl⟩ := map_ok h
        obtain ⟨hnodup, hnew⟩ := placeChildren_ok hrest
        rw [allocateChildRoomId, found_ok_iff] at hroom
        have hfree := find?_some hroom
        rw [and_eq_true, decide_eq_true_eq] at hfree
        constructor
        · rw [map_cons, nodup_cons]
          refine ⟨fun hmem => ?_, hnodup⟩
          obtain ⟨child, hchild, heq⟩ := mem_map.mp hmem
          exact (hnew child hchild).1 (heq ▸ mem_cons_self)
        · intro child hchild
          rcases mem_cons.mp hchild with rfl | hchild
          · exact ⟨hfree.2, rfl⟩
          · exact ⟨fun hmem => (hnew child hchild).1 (mem_cons_of_mem _ hmem),
              (hnew child hchild).2⟩

theorem Orderly.openSet (h : Orderly b) {request : OpenRequest} {draws : Draws} :
    Orderly (b.openSet request draws now).1 := by
  rw [BreakoutRegistry.openSet]
  split
  · exact h
  · rename_i hcheck
    dsimp only
    split
    · exact h
    · rename_i children hchildren
      obtain ⟨hnodup, hnew⟩ := placeChildren_ok hchildren
      simp only [checkOpen, bind_ok_iff, failIf_ok_iff, not_not] at hcheck
      obtain ⟨-, -, -, -, -, -, -, -, -, -, -, -, -, hcapacity, -⟩ := hcheck
      intro parent set hset
      rcases KeyedMap.get_set_some hset with ⟨-, rfl⟩ | ⟨-, hset⟩
      · refine ⟨hnodup, fun child hchild => ?_⟩
        rw [(hnew child hchild).2]
        obtain ⟨hlow, hhigh⟩ := hcapacity
        omega
      · exact h parent set hset

/-- Nobody is in any room: what assignments keep does not depend on it. -/
def nobody (_ : String) : Nat := 0

theorem nobody_le {n : Nat} : nobody roomId ≤ n := Nat.zero_le n

theorem Assigning.sameFrame (call : Assigning) : SameFrame b (call.run b).1 := by
  cases call with
  | assign =>
      exact toSameFrame (assign_regranted nobody_le)
  | assignVoluntary =>
      exact toSameFrame (place_regranted nobody_le)
  | assignBalanced =>
      exact toSameFrame (assignBalanced_regranted fun _ _ => nobody_le)
  | resolveAssignment =>
      exact toSameFrame (resolveAssignment_regranted fun _ _ => nobody_le)

theorem BreakoutRegistry.consume_error {setId principal deviceFingerprint code : String}
    (h : (b.consume roomId setId principal deviceFingerprint now).2 = .error code) :
    (b.consume roomId setId principal deviceFingerprint now).1 = b := by
  rw [consume] at h ⊢
  split
  · rfl
  · rename_i hcheck
    rw [hcheck] at h
    cases h

/-- **Step lemma.** -/
theorem Orderly.after (h : Orderly b) (call : RegistryCall) : Orderly (b.after call) := by
  cases call with
  | openSet request draws now => exact h.openSet
  | assigning call => exact h.sameFrame call.sameFrame
  | revoke parentRoomId ownerRole grantId now =>
      have hrevoke : Regranted nobody now b (b.revoke parentRoomId ownerRole grantId now).1 :=
        revoke_regranted
      exact h.sameFrame hrevoke.toSameFrame
  | consume roomId setId principal deviceFingerprint now =>
      cases hresult : (b.consume roomId setId principal deviceFingerprint now).2 with
      | error code =>
          rw [BreakoutRegistry.after, BreakoutRegistry.consume_error hresult]
          exact h
      | ok reserved => exact h.sameFrame (consume_ok hresult).sameFrame
  | closeSet parentRoomId =>
      intro other set hset
      rw [BreakoutRegistry.after, BreakoutRegistry.closeSet] at hset
      split at hset
      · exact h other set hset
      · split at hset
        · exact h other set hset
        · rw [KeyedMap.get_erase] at hset
          split at hset
          · cases hset
          · exact h other set hset

/-- **Run lemma.** -/
theorem Orderly.run (h : Orderly b) (calls : List RegistryCall) :
    Orderly (calls.foldl BreakoutRegistry.after b) := by
  refine (Path.foldl BreakoutRegistry.after calls b).inv ?_ h
  rintro b call _ rfl h
  exact h.after call

theorem orderly_empty : Orderly empty := fun _ _ hset => by cases hset

theorem orderly_reached (calls : List RegistryCall) : Orderly (reached calls) :=
  orderly_empty.run calls

/-! ## What is looked at -/

/-- The children of a set, and its live grants. -/
def BreakoutRegistry.shown (b : BreakoutRegistry) (now : Nat) (parentRoomId : String) :
    Option (List Child × List Grant) :=
  (b.sets.get parentRoomId).map fun set => (set.children, set.grants.filter (Grant.live now))

/-- A result that is an error leaves the live grants and the children as they were. -/
def Keeps {α : Type} (now : Nat) (b : BreakoutRegistry)
    (result : BreakoutRegistry × Except String α) : Prop :=
  ∀ code, result.2 = .error code → result.1.shown now = b.shown now

/-- A call that fails leaves the live grants and the children as they were. -/
def Atomic (b : BreakoutRegistry) (call : Assigning) : Prop := Keeps call.now b (call.run b)

/-- A live grant with a property. -/
def BreakoutSet.holds (set : BreakoutSet) (p : Grant → Bool) (now : Nat) : Bool :=
  set.grants.any fun grant => grant.live now && p grant

/-- An assignment that finds the child full, and the target with a live grant. -/
def FullFor (b : BreakoutRegistry) (parentRoomId : String) (targetPeer : Option TargetPeer)
    (childRoomId : String) (ttlMs : Option Int) (now occupied : Nat) : Prop :=
  ∃ a, b.checkAssignment parentRoomId targetPeer childRoomId ttlMs now occupied = .ok a
    ∧ a.child.capacity ≤ a.set.waitingOthers childRoomId a.target.principal
        a.target.deviceFingerprint now + occupied
    ∧ a.set.holds (Grant.heldBy a.target.principal a.target.deviceFingerprint) now = true

/-- The candidates that are assigned, in their order. -/
def eligiblePeers (parentRoomId : String) (candidatePeers : List TargetPeer) : List TargetPeer :=
  (candidatePeers.filter fun peer => decide (Eligible parentRoomId peer)).insertionSort
    fun p q => idLe p.id q.id = true

/-- The open children, in their order. -/
def BreakoutSet.sortedChildren (set : BreakoutSet) : List Child :=
  set.openChildren.insertionSort fun c d => idLe c.roomId d.roomId = true

/-- A balanced assignment of grants that are too short or too long, in which somebody
is assigned and a candidate has a live grant. -/
def Misdated (b : BreakoutRegistry) (parentRoomId : String) (ownerRole : Role)
    (candidatePeers : List TargetPeer) (ttlMs : Option Int) (now : Nat)
    (occupiedByChild : KeyedMap String Nat) : Prop :=
  let peers := eligiblePeers parentRoomId candidatePeers
  ¬Within minBreakoutGrantMs maxBreakoutGrantMs (lasting ttlMs)
    ∧ ∃ set, b.checkBalanced parentRoomId ownerRole now = .ok set
      ∧ set.holds (candidateKey peers) now = true
      ∧ ∃ peer ∈ peers.head?, (nextChild (set.release (candidateKey peers) now) set.sortedChildren 0
          peer occupiedByChild now).isSome = true

/-- The call loses a grant. -/
def Assigning.Loses (b : BreakoutRegistry) : Assigning → Prop
  | assign parentRoomId ownerRole targetPeer childRoomId ttlMs now occupied _ =>
      ownerRole = .owner ∧ FullFor b parentRoomId targetPeer childRoomId ttlMs now occupied
  | assignVoluntary parentRoomId targetPeer childRoomId ttlMs now occupied _ =>
      FullFor b parentRoomId targetPeer childRoomId ttlMs now occupied
  | assignBalanced parentRoomId ownerRole candidatePeers ttlMs now occupiedByChild _ =>
      Misdated b parentRoomId ownerRole candidatePeers ttlMs now occupiedByChild
  | resolveAssignment _ _ _ _ _ _ _ => False

/-! ## Grants that are released -/

section Release

variable {p : Grant → Bool}

theorem release_of_not_holds (h : set.holds p now = false) : set.release p now = set := by
  have hgrants : set.grants.filter (fun grant => !(grant.live now && p grant)) = set.grants := by
    rw [filter_eq_self]
    intro grant hgrant
    rw [holds, List.any_eq_false] at h
    rw [not_eq_true']
    exact not_eq_true _ ▸ h grant hgrant
  rw [release, hgrants]

theorem live_release_ne (h : set.holds p now = true) :
    (set.release p now).grants.filter (Grant.live now) ≠ set.grants.filter (Grant.live now) := by
  obtain ⟨grant, hgrant, hlive⟩ := any_eq_true.mp h
  rw [and_eq_true] at hlive
  intro heq
  have hmem : grant ∈ (set.release p now).grants.filter (Grant.live now) := by
    rw [heq]
    exact mem_filter.mpr ⟨hgrant, hlive.1⟩
  have hkept := (mem_filter.mp (mem_filter.mp hmem).1).2
  rw [hlive.1, hlive.2] at hkept
  cases hkept

theorem waiting_release {principal deviceFingerprint : String} :
    (set.release (Grant.heldBy principal deviceFingerprint) now).waiting childRoomId now
      = set.waitingOthers childRoomId principal deviceFingerprint now := by
  rw [waiting, release, countP_filter, waitingOthers]
  refine countP_congr fun grant _ => ?_
  cases grant.live now <;> cases grant.heldBy principal deviceFingerprint <;> simp

theorem shown_set (hset : b.sets.get parentRoomId = some set) {set' : BreakoutSet}
    (hchildren : set'.children = set.children) :
    shown { b with sets := b.sets.set parentRoomId set' } now = b.shown now
      ↔ set'.grants.filter (Grant.live now) = set.grants.filter (Grant.live now) := by
  constructor
  · intro h
    have hone := congrFun h parentRoomId
    rw [shown, shown, KeyedMap.get_set, if_pos rfl, hset] at hone
    exact (Prod.mk.inj (some.inj hone)).2
  · intro h
    funext other
    rw [shown, shown, KeyedMap.get_set]
    split
    · rename_i heq
      rw [heq, hset, map_some, map_some, hchildren, h]
    · rfl

theorem shown_release_iff (hset : b.sets.get parentRoomId = some set) :
    shown { b with sets := b.sets.set parentRoomId (set.release p now) } now
      = b.shown now ↔ set.holds p now = false := by
  rw [shown_set hset (show (set.release p now).children = set.children from rfl)]
  constructor
  · intro heq
    rw [← not_eq_true]
    exact fun h => live_release_ne h heq
  · intro h
    rw [release_of_not_holds h]

end Release

section Keeps

variable {α : Type} {result : BreakoutRegistry × Except String α}

theorem keeps_map {β : Type} (f : α → β) :
    Keeps now b (result.map id (Except.map f)) ↔ Keeps now b result := by
  obtain ⟨b', a | a⟩ := result
  · exact forall_congr' fun code => by simp [Except.map]
  · exact iff_of_true (fun _ h => by cases h) fun _ h => by cases h

theorem keeps_self {r : Except String α} : Keeps now b (b, r) := fun _ _ => rfl

theorem keeps_ok {a : α} : Keeps now b (b', .ok a) := fun _ h => by cases h

theorem keeps_error_iff {code : String} :
    Keeps now b (b', (.error code : Except String α)) ↔ b'.shown now = b.shown now :=
  ⟨fun h => h code rfl, fun h _ _ => h⟩

end Keeps

/-! ## One place -/

variable {a : Assignment} {grantId : String}

theorem place_full
    (hcheck : b.checkAssignment parentRoomId targetPeer childRoomId ttlMs now occupied = .ok a)
    (hfull : a.child.capacity ≤ a.set.waitingOthers childRoomId a.target.principal
      a.target.deviceFingerprint now + occupied) :
    b.place parentRoomId targetPeer childRoomId ttlMs now occupied grantId
      = ({ b with sets := b.sets.set parentRoomId (a.released now) },
        .error "breakout_child_full") := by
  rw [place, hcheck]
  exact if_pos (waiting_release ▸ hfull)

theorem place_roomy
    (hcheck : b.checkAssignment parentRoomId targetPeer childRoomId ttlMs now occupied = .ok a)
    (hroom : ¬a.child.capacity ≤ a.set.waitingOthers childRoomId a.target.principal
      a.target.deviceFingerprint now + occupied) :
    b.place parentRoomId targetPeer childRoomId ttlMs now occupied grantId
      = ({ b with sets := b.sets.set parentRoomId ((a.released now).push
                            (a.grant grantId parentRoomId childRoomId)) },
        .ok (a.grant grantId parentRoomId childRoomId)) := by
  rw [place, hcheck]
  exact if_neg (waiting_release ▸ hroom)

theorem place_error {code : String}
    (hcheck : b.checkAssignment parentRoomId targetPeer childRoomId ttlMs now occupied
      = .error code) :
    b.place parentRoomId targetPeer childRoomId ttlMs now occupied grantId = (b, .error code) := by
  rw [place, hcheck]

/-- The grants that are there survive a place that is refused, unless it is refused for
want of places. -/
theorem place_keeps_iff :
    Keeps now b (b.place parentRoomId targetPeer childRoomId ttlMs now occupied grantId)
      ↔ ¬FullFor b parentRoomId targetPeer childRoomId ttlMs now occupied := by
  cases hcheck : b.checkAssignment parentRoomId targetPeer childRoomId ttlMs now occupied with
  | error code =>
      rw [place_error hcheck]
      refine iff_of_true keeps_self ?_
      rintro ⟨a, ha, -⟩
      rw [hcheck] at ha
      cases ha
  | ok a =>
      have hset := (checkAssignment_ok hcheck).1
      have hfull_iff : FullFor b parentRoomId targetPeer childRoomId ttlMs now occupied
          ↔ a.child.capacity ≤ a.set.waitingOthers childRoomId a.target.principal
              a.target.deviceFingerprint now + occupied
            ∧ a.set.holds (Grant.heldBy a.target.principal a.target.deviceFingerprint) now
              = true := by
        constructor
        · rintro ⟨a', ha', h⟩
          rw [hcheck] at ha'
          cases ha'
          exact h
        · exact fun h => ⟨a, hcheck, h⟩
      rw [hfull_iff]
      by_cases hfull : a.child.capacity ≤ a.set.waitingOthers childRoomId a.target.principal
          a.target.deviceFingerprint now + occupied
      · rw [place_full hcheck hfull, and_iff_right hfull, not_eq_true, ← shown_release_iff hset]
        exact keeps_error_iff
      · rw [place_roomy hcheck hfull]
        exact iff_of_true keeps_ok fun h => hfull h.1

/-! ## The best child -/

theorem checkAssignment_parts
    (h : b.checkAssignment parentRoomId targetPeer childRoomId ttlMs now occupied = .ok a) :
    b.sets.get parentRoomId = some a.set ∧ targetPeer = some a.target
      ∧ a.set.openChild childRoomId = some a.child := by
  simp only [checkAssignment, checkPrincipal, bind_ok_iff, failIf_ok_iff, found_ok_iff] at h
  obtain ⟨set, hset, -, -, target, htarget, -, -, child, hchild, -, -, -, -, -, -, hok⟩ := h
  cases hok
  exact ⟨(opened_get hset).1, (filter_eq_some_iff.mp htarget).1, hchild⟩

variable {child : Child}

theorem openChild_eq (h : ChildrenOK set.children) {other : Child}
    (hother : set.openChild childRoomId = some other) (hchild : child ∈ set.openChildren)
    (hroom : child.roomId = childRoomId) : other = child := by
  have hfound := find?_some hother
  rw [decide_eq_true_eq] at hfound
  exact inj_on_of_nodup_map h.nodup (mem_of_find?_eq_some hother)
    (mem_of_mem_filter hchild) (hfound.1.trans hroom.symm)

variable {occupiedByChild : KeyedMap String Nat} {preferredChildRoomId : String}

theorem chooseChild_roomy {item : Scored}
    (h : chooseChild set targetPeer preferredChildRoomId occupiedByChild now = some item) :
    0 < item.remaining ∧ ∃ child ∈ set.openChildren,
      item = score set targetPeer occupiedByChild now child := by
  rw [chooseChild] at h
  split at h
  · rename_i hpreferred
    have hroomy := hpreferred.2
    rw [h, any_some, decide_eq_true_eq] at hroomy
    obtain ⟨child, hchild, rfl⟩ := map_eq_some_iff.mp h
    exact ⟨hroomy, child, mem_of_find?_eq_some hchild, rfl⟩
  · have hmem := mem_of_mem_head? h
    rw [mem_insertionSort, mem_filter, decide_eq_true_eq] at hmem
    obtain ⟨child, hchild, rfl⟩ := mem_map.mp hmem.1
    exact ⟨hmem.2, child, hchild, rfl⟩

/-- The child that is chosen is not full for the person it is chosen for. -/
theorem not_fullFor_chosen
    {item : Scored} (h : Orderly b) (hset : b.sets.get parentRoomId = some set)
    (hitem : chooseChild set targetPeer preferredChildRoomId occupiedByChild now = some item) :
    ¬FullFor b parentRoomId targetPeer item.child.roomId ttlMs now item.occupied := by
  obtain ⟨hroomy, child, hchild, rfl⟩ := chooseChild_roomy hitem
  rintro ⟨a, hcheck, hfull, -⟩
  obtain ⟨hget, rfl, hopen⟩ := checkAssignment_parts hcheck
  cases hset.symm.trans hget
  have heq : a.child = child := openChild_eq (h _ _ hset) hopen hchild rfl
  rw [heq] at hfull
  simp only [score, elim_some] at hroomy hfull
  omega

theorem resolveAssignment_keeps (h : Orderly b) :
    Keeps now b (b.resolveAssignment parentRoomId targetPeer preferredChildRoomId ttlMs now
      occupiedByChild grantId) := by
  rw [resolveAssignment]
  split
  · exact keeps_self
  · rename_i set hcheck
    simp only [checkResolve, bind_ok_iff, failIf_ok_iff, found_ok_iff] at hcheck
    obtain ⟨set', hset, -, -, -, -, hok⟩ := hcheck
    cases hok
    split
    · exact keeps_self
    · rename_i item hitem
      exact place_keeps_iff.mpr (not_fullFor_chosen h (opened_get hset).1 hitem)

/-! ## The turn of the children -/

variable {peer : TargetPeer}

theorem nextChild_some {openChildren : List Child} {childIndex attempt : Nat}
    (h : nextChild set openChildren childIndex peer occupiedByChild now = some (attempt, child)) :
    child ∈ openChildren ∧ set.waitingOthers child.roomId peer.principal peer.deviceFingerprint now
      + occupancy occupiedByChild child.roomId < child.capacity := by
  refine ⟨nextChild_mem h, ?_⟩
  obtain ⟨i, -, hi⟩ := exists_of_findSome?_eq_some h
  obtain ⟨c, -, hi⟩ := bind_eq_some_iff.mp hi
  split at hi
  · rename_i hroom
    cases hi
    exact hroom
  · cases hi

/-- A set that can be assigned from at a time. -/
structure Assignable (set : BreakoutSet) (now : Nat) : Prop where
  opened : set.state = .opened
  running : now < set.expiresAt
  children : ChildrenOK set.children

theorem openChild_mem (h : ChildrenOK set.children)
    (hchild : child ∈ set.openChildren) : set.openChild child.roomId = some child := by
  have hstate := (mem_filter.mp hchild).2
  have hsome : (set.openChild child.roomId).isSome = true := by
    refine find?_isSome.mpr ⟨child, mem_of_mem_filter hchild, ?_⟩
    exact decide_eq_true ⟨rfl, of_decide_eq_true hstate⟩
  obtain ⟨other, hother⟩ := isSome_iff_exists.mp hsome
  rw [hother, openChild_eq h hother hchild rfl]

theorem found_filter {α : Type} {o : Option α} {p : α → Bool} {a : α} {code : String}
    (h : o = some a) (hp : p a = true) : found (o.filter p) code = .ok a :=
  found_ok_iff.mpr (filter_eq_some_iff.mpr ⟨h, hp⟩)

theorem checkPrincipal_eligible (h : Eligible parentRoomId peer) :
    checkPrincipal peer = .ok () := by
  obtain ⟨-, hmachine, hprincipal, hdevice⟩ := h
  rw [checkPrincipal, failIf_of_not _ (by rw [hmachine]; exact false_ne_true), ok_bind,
    failIf_of_not _ (by omega), ok_bind, failIf_of_not _ (by omega)]

/-- What an assignment to an open child of an eligible peer is checked for comes to the
life of the grant. -/
theorem checkAssignment_eligible
    (hset : b.sets.get parentRoomId = some set) (ha : Assignable set now)
    (hpeer : Eligible parentRoomId peer) (hchild : child ∈ set.openChildren)
    (hoccupied : occupied < child.capacity) :
    b.checkAssignment parentRoomId (some peer) child.roomId ttlMs now occupied
      = if Within minBreakoutGrantMs maxBreakoutGrantMs (lasting ttlMs) then
          .ok ⟨set, peer, child, min (now + (lasting ttlMs).toNat) set.expiresAt⟩
        else .error "invalid_breakout_grant" := by
  have hcapacity : child.capacity ≤ 20 :=
    (ha.children.capacity child (mem_of_mem_filter hchild)).2
  have hrunning := ha.running
  rw [checkAssignment, found_filter hset (decide_eq_true ha.opened), ok_bind,
    failIf_of_not _ (by omega), ok_bind, found_filter (p := fun target => decide (TargetPeer.roomId target = parentRoomId)) rfl
      (decide_eq_true hpeer.1), ok_bind,
    checkPrincipal_eligible hpeer, ok_bind, openChild_mem ha.children hchild]
  rw [found, ok_bind]
  split
  · rename_i hwithin
    have hlasting : 15000 ≤ lasting ttlMs := hwithin.1
    rw [failIf_of_not _ (not_not.mpr hwithin), ok_bind,
      failIf_of_not _ (by rw [maxSafeInteger]; omega), ok_bind]
    dsimp only
    rw [failIf_of_not _ (by omega), ok_bind]
  · rename_i hwithin
    rw [failIf_of _ hwithin, error_bind]

/-- The assignment of the peer whose turn it is goes through, unless the life of the
grant is no good. -/
theorem assign_next {openChildren : List Child} {childIndex attempt : Nat}
    (hset : b.sets.get parentRoomId = some set) (ha : Assignable set now)
    (hpeer : Eligible parentRoomId peer) (hopen : ∀ child ∈ openChildren, child ∈ set.openChildren)
    (hnext : nextChild set openChildren childIndex peer occupiedByChild now = some (attempt, child)) :
    b.assign parentRoomId .owner (some peer) child.roomId ttlMs now
        (occupancy occupiedByChild child.roomId) grantId
      = if Within minBreakoutGrantMs maxBreakoutGrantMs (lasting ttlMs) then
          let a : Assignment := ⟨set, peer, child, min (now + (lasting ttlMs).toNat) set.expiresAt⟩
          let grant := a.grant grantId parentRoomId child.roomId
          ({ b with sets := b.sets.set parentRoomId ((a.released now).push grant) }, .ok grant)
        else (b, .error "invalid_breakout_grant") := by
  obtain ⟨hmem, hroom⟩ := nextChild_some hnext
  have hoccupied : occupancy occupiedByChild child.roomId < child.capacity := by omega
  split
  · rename_i hwithin
    refine place_roomy ((checkAssignment_eligible hset ha hpeer (hopen child hmem) hoccupied).trans
      (if_pos hwithin)) (Nat.not_le.mpr hroom)
  · rename_i hwithin
    exact place_error ((checkAssignment_eligible hset ha hpeer (hopen child hmem) hoccupied).trans
      (if_neg hwithin))

/-! ## The balanced assignment -/

section Balanced

variable {peers : List TargetPeer} {openChildren : List Child} {childIndex : Nat}
  {occupiedByChild : KeyedMap String Nat} {grantIds : Nat → String} {grants : List Grant}

theorem Assignable.sameFrame {set' : BreakoutSet} (h : Assignable set now)
    (hframe : set'.frame = set.frame) : Assignable set' now where
  opened := by
    have hstate : set'.frame.state = set.frame.state := by rw [hframe]
    exact hstate.trans h.opened
  running := by
    have hexpires : set'.frame.expiresAt = set.frame.expiresAt := by rw [hframe]
    exact h.running.trans_eq hexpires.symm
  children := by
    rw [children_of_frame hframe]
    exact h.children

/-- With grants of a proper life the loop ends well, by induction on the peers. -/
theorem balance_ok (hwithin : Within minBreakoutGrantMs maxBreakoutGrantMs (lasting ttlMs)) :
    ∀ {peers : List TargetPeer} {childIndex : Nat} {b : BreakoutRegistry} {set : BreakoutSet}
      {grants : List Grant}, b.sets.get parentRoomId = some set → Assignable set now →
      (∀ child ∈ openChildren, child ∈ set.openChildren) →
      (∀ peer ∈ peers, Eligible parentRoomId peer) →
      ∃ gs, (balance parentRoomId .owner openChildren occupiedByChild ttlMs now
        grantIds peers childIndex b grants).2 = .ok gs
  | [], _, _, _, grants, _, _, _, _ => ⟨grants, rfl⟩
  | peer :: peers, childIndex, b, set, grants, hset, ha, hopen, hpeers => by
      rw [balance, hset, bind_some]
      split
      · exact ⟨grants, rfl⟩
      · rename_i attempt child hnext
        rw [assign_next hset ha (hpeers peer mem_cons_self) hopen hnext, if_pos hwithin]
        exact balance_ok hwithin ((KeyedMap.get_set _ _ _ _).trans (if_pos rfl))
          (ha.sameFrame rfl) hopen fun p hp => hpeers p (mem_cons_of_mem _ hp)

theorem balance_misdated (hwithin : ¬Within minBreakoutGrantMs maxBreakoutGrantMs (lasting ttlMs))
    (hset : b.sets.get parentRoomId = some set) (ha : Assignable set now)
    (hopen : ∀ child ∈ openChildren, child ∈ set.openChildren)
    (hpeers : ∀ peer ∈ peers, Eligible parentRoomId peer) :
    balance parentRoomId .owner openChildren occupiedByChild ttlMs now grantIds
        peers childIndex b grants
      = (b, if ∃ peer ∈ peers.head?, (nextChild set openChildren childIndex peer occupiedByChild
          now).isSome = true then .error "invalid_breakout_grant" else .ok grants) := by
  cases peers with
  | nil =>
      rfl
  | cons peer peers =>
      rw [balance, hset, bind_some]
      split
      · rename_i hnext
        rw [if_neg]
        rintro ⟨p, hp, hsome⟩
        cases hp
        rw [hnext] at hsome
        cases hsome
      · rename_i attempt child hnext
        rw [assign_next hset ha (hpeers peer mem_cons_self) hopen hnext, if_neg hwithin, if_pos ⟨peer, rfl, by rw [hnext]; rfl⟩]

theorem keeps_of_ok {α : Type} {result : BreakoutRegistry × Except String α}
    (h : ∃ a, result.2 = .ok a) : Keeps now b result := by
  obtain ⟨a, ha⟩ := h
  intro code hcode
  cases ha.symm.trans hcode

variable {candidatePeers : List TargetPeer}

theorem mem_eligiblePeers {peer : TargetPeer}
    (h : peer ∈ eligiblePeers parentRoomId candidatePeers) : Eligible parentRoomId peer := by
  rw [eligiblePeers, mem_insertionSort, mem_filter] at h
  exact of_decide_eq_true h.2

theorem mem_sortedChildren {child : Child} (h : child ∈ set.sortedChildren) :
    child ∈ set.openChildren := (mem_insertionSort _).mp h

variable {ownerRole : Role}

theorem checkBalanced_ok (h : Orderly b)
    (hcheck : b.checkBalanced parentRoomId ownerRole now = .ok set) :
    ownerRole = .owner ∧ b.sets.get parentRoomId = some set ∧ Assignable set now := by
  simp only [checkBalanced, bind_ok_iff, failIf_ok_iff, found_ok_iff, not_not] at hcheck
  obtain ⟨-, howner, set', hset, -, hrunning, -, -, hok⟩ := hcheck
  cases hok
  obtain ⟨hget, hopened⟩ := opened_get hset
  exact ⟨howner, hget, hopened, Nat.not_le.mp hrunning, h _ _ hget⟩

/-- The registry in which the candidates' live grants are dropped. -/
def BreakoutRegistry.released (b : BreakoutRegistry) (parentRoomId : String) (set : BreakoutSet)
    (peers : List TargetPeer) (now : Nat) : BreakoutRegistry :=
  { b with sets := b.sets.set parentRoomId (set.release (candidateKey peers) now) }

theorem released_get : (b.released parentRoomId set peers now).sets.get parentRoomId
    = some (set.release (candidateKey peers) now) :=
  (KeyedMap.get_set _ _ _ _).trans (if_pos rfl)

theorem assignBalanced_run (hcheck : b.checkBalanced parentRoomId ownerRole now = .ok set) :
    b.assignBalanced parentRoomId ownerRole candidatePeers ttlMs now occupiedByChild grantIds
      = balance parentRoomId ownerRole set.sortedChildren occupiedByChild ttlMs now
        grantIds (eligiblePeers parentRoomId candidatePeers) 0
        (b.released parentRoomId set (eligiblePeers parentRoomId candidatePeers) now) [] := by
  rw [assignBalanced, hcheck]
  rfl

theorem assignBalanced_keeps_iff (h : Orderly b) :
    Keeps now b (b.assignBalanced parentRoomId ownerRole candidatePeers ttlMs now occupiedByChild
        grantIds)
      ↔ ¬Misdated b parentRoomId ownerRole candidatePeers ttlMs now occupiedByChild := by
  cases hcheck : b.checkBalanced parentRoomId ownerRole now with
  | error code =>
      rw [assignBalanced, hcheck]
      refine iff_of_true keeps_self ?_
      rintro ⟨-, set, hset, -⟩
      rw [hcheck] at hset
      cases hset
  | ok set =>
      obtain ⟨rfl, hset, ha⟩ := checkBalanced_ok h hcheck
      have hsorted : ∀ child ∈ set.sortedChildren, child ∈ (set.release
          (candidateKey (eligiblePeers parentRoomId candidatePeers)) now).openChildren :=
        fun _ hchild => mem_sortedChildren hchild
      have heligible : ∀ peer ∈ eligiblePeers parentRoomId candidatePeers,
          Eligible parentRoomId peer := fun _ hpeer => mem_eligiblePeers hpeer
      rw [assignBalanced_run hcheck]
      by_cases hwithin : Within minBreakoutGrantMs maxBreakoutGrantMs (lasting ttlMs)
      · refine iff_of_true (keeps_of_ok ?_) fun hmisdated => hmisdated.1 hwithin
        exact balance_ok hwithin released_get (ha.sameFrame rfl) hsorted heligible
      · rw [balance_misdated hwithin released_get (ha.sameFrame rfl) hsorted heligible]
        have hmisdated : Misdated b parentRoomId .owner candidatePeers ttlMs now occupiedByChild
            ↔ set.holds (candidateKey (eligiblePeers parentRoomId candidatePeers)) now = true
              ∧ ∃ peer ∈ (eligiblePeers parentRoomId candidatePeers).head?,
                (nextChild (set.release (candidateKey
                  (eligiblePeers parentRoomId candidatePeers)) now) set.sortedChildren 0
                  peer occupiedByChild now).isSome = true := by
          constructor
          · rintro ⟨-, set', hset', hrest⟩
            cases hcheck.symm.trans hset'
            exact hrest
          · exact fun hrest => ⟨hwithin, set, hcheck, hrest⟩
        rw [hmisdated]
        split
        · rename_i hfirst
          rw [and_iff_left hfirst, keeps_error_iff, not_eq_true]
          exact shown_release_iff hset
        · rename_i hfirst
          exact iff_of_true keeps_ok fun h => hfirst h.2

end Balanced

/-! ## All calls -/

theorem atomic_iff (h : Orderly b) (call : Assigning) : Atomic b call ↔ ¬call.Loses b := by
  cases call with
  | assign parentRoomId ownerRole targetPeer childRoomId ttlMs now occupied grantId =>
      refine (keeps_map fun _ => ()).trans ?_
      show Keeps now b (b.assign parentRoomId ownerRole targetPeer childRoomId ttlMs now occupied
        grantId) ↔ _
      rw [assign, Assigning.Loses]
      split
      · rename_i howner
        exact iff_of_true keeps_self fun hloses => howner hloses.1
      · rename_i howner
        rw [and_iff_right (not_not.mp howner)]
        exact place_keeps_iff
  | assignVoluntary => exact (keeps_map _).trans place_keeps_iff
  | assignBalanced => exact (keeps_map _).trans (assignBalanced_keeps_iff h)
  | resolveAssignment =>
      exact (keeps_map _).trans (iff_of_true (resolveAssignment_keeps h) not_false)

/-- **Assignments that fail.** In every registry that is reached, a call that assigns
leaves the live grants and the children as they were where it fails, exactly when it does
not meet a full child with the target holding a live grant, or the wrong life with a
candidate holding one. -/
theorem assigning_atomic_iff (calls : List RegistryCall) (call : Assigning) :
    Atomic (reached calls) call ↔ ¬call.Loses (reached calls) :=
  atomic_iff (orderly_reached calls) call

/-! ## A grant that is lost -/

/-- The owner of a room opens two child rooms for two each. -/
def pairOpened : RegistryCall :=
  .openSet ⟨"room-one", "room", .room, .owner, 2, 2, none, []⟩
    ⟨"e0", fun index => toString index, fun index => ["child-" ++ toString index]⟩ 1

def guest : TargetPeer := ⟨"c3", "room-one", "carol", "device-carol", false⟩

/-- The guest gets a grant for a room. -/
def guestAssigned (childRoomId : String) (occupied now : Nat) : Assigning :=
  .assign "room-one" .owner (some guest) childRoomId none now occupied "a4"

/-- The second room is full: the guest is refused it and loses the grant for the first. -/
theorem refused_assignment_loses_grant :
    ¬Atomic (reached [pairOpened, .assigning (guestAssigned "brk-child-0" 0 2)])
      (guestAssigned "brk-child-1" 2 3) := by
  intro h
  have hshown := congrFun (h "breakout_child_full" (by decide)) "room-one"
  exact absurd hshown (by decide)

end Breakout

end WebrtcMinimize
