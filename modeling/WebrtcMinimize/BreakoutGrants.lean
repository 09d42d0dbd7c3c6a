import WebrtcMinimize.BreakoutModel

/-!
# Grants as reservations

A set is booked for an occupancy when every child has a place for each of
its occupants and for each live grant. What the operations on grants have in
common is `Regranted`: they leave children and sets as they are, and booked
sets stay booked. Only a join counts on both sides: the grant it uses up is
the place it takes.
-/

namespace WebrtcMinimize

open Checks

namespace Breakout

open KeyedMap List Option BreakoutRegistry BreakoutSet Nat

variable {set set' : BreakoutSet} {b b' : BreakoutRegistry} {occupied occupied' : String → Nat}
  {now now' : Nat} {parentRoomId roomId : String}

/-! ## Booked sets -/

/-- The set without its grants. -/
def BreakoutSet.frame (set : BreakoutSet) : BreakoutSet := { set with grants := [] }

structure Booked (occupied : String → Nat) (now : Nat) (set : BreakoutSet) : Prop where
  nodup : (set.children.map Child.roomId).Nodup
  fits : ∀ child ∈ set.children,
    occupied child.roomId + set.waiting child.roomId now ≤ child.capacity
  named : ∀ grant ∈ set.grants, grant.principal ≠ "" ∧ grant.deviceFingerprint ≠ ""

theorem children_of_frame (h : set'.frame = set.frame) : set'.children = set.children := by
  have hchildren : set'.frame.children = set.frame.children := by rw [h]
  exact hchildren

theorem Booked.of_sublist (h : Booked occupied now set) (hframe : set'.frame = set.frame)
    (hgrants : set'.grants.Sublist set.grants) : Booked occupied now set' where
  nodup := children_of_frame hframe ▸ h.nodup
  fits := by
    intro child hchild
    rw [children_of_frame hframe] at hchild
    exact (Nat.add_le_add_left (hgrants.countP_le) _).trans (h.fits child hchild)
  named := fun grant hgrant => h.named grant (hgrants.subset hgrant)

theorem live_of_later {grant : Grant} (hle : now ≤ now') (h : grant.live now' = true) :
    grant.live now = true := by
  rw [Grant.live, decide_eq_true_eq] at h ⊢
  exact ⟨h.1, lt_of_le_of_lt hle h.2⟩

theorem waiting_later (hle : now ≤ now') : set.waiting roomId now' ≤ set.waiting roomId now := by
  refine countP_mono_left fun grant _ h => ?_
  rw [Bool.and_eq_true] at h ⊢
  exact ⟨live_of_later hle h.1, h.2⟩

theorem Booked.mono (h : Booked occupied now set)
    (hocc : ∀ child ∈ set.children, occupied' child.roomId ≤ occupied child.roomId)
    (hle : now ≤ now') : Booked occupied' now' set where
  __ := h
  fits := by
    intro child hchild
    have hfits := h.fits child hchild
    have hocc := hocc child hchild
    have hwait : set.waiting child.roomId now' ≤ set.waiting child.roomId now := waiting_later hle
    omega

def AllBooked (occupied : String → Nat) (now : Nat) (b : BreakoutRegistry) : Prop :=
  ∀ {parentRoomId : String} {set : BreakoutSet}, b.sets.get parentRoomId = some set →
    Booked occupied now set

/-! ## Operations on grants -/

/-- Children and sets are as before. -/
structure SameFrame (b b' : BreakoutRegistry) : Prop where
  byChild : b'.byChild = b.byChild
  sets : ∀ parentRoomId, (b'.sets.get parentRoomId).map frame
    = (b.sets.get parentRoomId).map frame

/-- Children and sets are as before, and booked sets are still booked. -/
structure Regranted (occupied : String → Nat) (now : Nat) (b b' : BreakoutRegistry) : Prop
    extends SameFrame b b' where
  booked : AllBooked occupied now b → AllBooked occupied now b'

theorem Regranted.refl (b : BreakoutRegistry) : Regranted occupied now b b where
  byChild := rfl
  sets := fun _ => rfl
  booked := id

theorem Regranted.trans {b'' : BreakoutRegistry} (h : Regranted occupied now b b')
    (h' : Regranted occupied now b' b'') : Regranted occupied now b b'' where
  byChild := h'.byChild.trans h.byChild
  sets := fun parentRoomId => (h'.sets parentRoomId).trans (h.sets parentRoomId)
  booked := h'.booked ∘ h.booked

theorem Regranted.of_set (hset : b.sets.get parentRoomId = some set)
    (hframe : set'.frame = set.frame) (hbooked : Booked occupied now set → Booked occupied now set') :
    Regranted occupied now b { b with sets := b.sets.set parentRoomId set' } where
  byChild := rfl
  sets := by
    intro other
    rw [get_set]
    split
    · rename_i hother
      rw [hother, hset, map_some, map_some, hframe]
    · rfl
  booked := by
    intro hall other set'' hget
    rcases get_set_some hget with ⟨-, rfl⟩ | ⟨-, hget⟩
    · exact hbooked (hall hset)
    · exact hall hget

theorem booked_release {p : Grant → Bool} {time : Nat} (h : Booked occupied now set) :
    Booked occupied now (set.release p time) :=
  h.of_sublist rfl filter_sublist

theorem booked_push {grant : Grant} {child : Child} (h : Booked occupied now set)
    (hchild : child ∈ set.children) (hroom : child.roomId = grant.childRoomId)
    (hplace : set.waiting grant.childRoomId now + occupied grant.childRoomId < child.capacity)
    (hnamed : grant.principal ≠ "" ∧ grant.deviceFingerprint ≠ "") :
    Booked occupied now (set.push grant) where
  nodup := h.nodup
  fits := by
    intro other hother
    have hfits := h.fits other hother
    rw [waiting, push, countP_append, countP_singleton]
    rw [waiting] at hfits hplace
    split
    · rename_i hlive
      rw [Bool.and_eq_true, decide_eq_true_eq] at hlive
      -- the children are told apart by their rooms
      obtain rfl : other = child :=
        inj_on_of_nodup_map h.nodup hother hchild (hlive.2.symm.trans hroom.symm)
      rw [hlive.2] at hplace
      omega
    · omega
  named := by
    intro grant' hgrant
    rcases mem_append.mp hgrant with hold | hnew
    · exact h.named grant' hold
    · obtain rfl := mem_singleton.mp hnew
      exact hnamed

theorem opened_get {o : Option BreakoutSet}
    (h : (o.filter fun set => decide (set.state = .opened)) = some set) :
    o = some set ∧ set.state = .opened := by
  obtain ⟨ho, hstate⟩ := filter_eq_some_iff.mp h
  exact ⟨ho, of_decide_eq_true hstate⟩

theorem ne_empty_of_textLength {s : String} {n : Nat} (hn : 0 < n) (h : ¬textLength s < n) :
    s ≠ "" := by
  rintro rfl
  exact h hn

namespace BreakoutRegistry

variable {targetPeer : Option TargetPeer} {childRoomId : String} {ttlMs : Option Int}
  {places : Nat} {a : Assignment}

theorem checkAssignment_ok
    (h : b.checkAssignment parentRoomId targetPeer childRoomId ttlMs now places = .ok a) :
    b.sets.get parentRoomId = some a.set ∧ a.child ∈ a.set.children
      ∧ a.child.roomId = childRoomId ∧ a.target.principal ≠ ""
      ∧ a.target.deviceFingerprint ≠ "" := by
  simp only [checkAssignment, checkPrincipal, bind_ok_iff, failIf_ok_iff, found_ok_iff] at h
  obtain ⟨set, hset, -, -, target, -, -, ⟨-, -, -, hprincipal, hdevice⟩, child, hchild, -, -, -, -,
    -, -, hok⟩ := h
  cases hok
  have hfound := find?_some hchild
  rw [decide_eq_true_eq] at hfound
  exact ⟨(opened_get hset).1, mem_of_find?_eq_some hchild, hfound.1,
    ne_empty_of_textLength one_pos hprincipal,
    ne_empty_of_textLength (by decide) hdevice⟩

variable {grantId : String}

theorem place_regranted (hocc : occupied childRoomId ≤ places) : Regranted occupied now b
      (b.place parentRoomId targetPeer childRoomId ttlMs now places grantId).1 := by
  rw [place]
  split
  · exact .refl b
  · rename_i a hcheck
    obtain ⟨hset, hchild, hroom, hprincipal, hdevice⟩ := checkAssignment_ok hcheck
    split
    · exact .of_set hset rfl booked_release
    · rename_i hplace
      refine .of_set hset rfl fun hbooked => ?_
      refine booked_push (booked_release hbooked) hchild hroom ?_ ⟨hprincipal, hdevice⟩
      exact Nat.lt_of_le_of_lt (Nat.add_le_add_left hocc _) (Nat.not_le.mp hplace)

variable {ownerRole : Role}

theorem assign_regranted (hocc : occupied childRoomId ≤ places) : Regranted occupied now b
      (b.assign parentRoomId ownerRole targetPeer childRoomId ttlMs now places grantId).1 := by
  rw [assign]
  split
  · exact .refl b
  · exact place_regranted hocc

variable {occupiedByChild : KeyedMap String Nat}

theorem nextChild_mem {openChildren : List Child} {childIndex attempt : Nat} {peer : TargetPeer}
    {child : Child}
    (h : nextChild set openChildren childIndex peer occupiedByChild now = some (attempt, child)) :
    child ∈ openChildren := by
  obtain ⟨i, -, hi⟩ := exists_of_findSome?_eq_some h
  obtain ⟨c, hc, hi⟩ := bind_eq_some_iff.mp hi
  split at hi
  · cases hi
    exact mem_of_getElem? hc
  · cases hi

/-- The loop of a balanced assignment, by induction on the peers. -/
theorem balance_regranted {ownerRole : Role} {openChildren : List Child}
    {occupiedByChild : KeyedMap String Nat} {grantIds : Nat → String}
    (hocc : ∀ child ∈ openChildren,
      occupied child.roomId ≤ occupancy occupiedByChild child.roomId) :
    ∀ (peers : List TargetPeer) (childIndex : Nat) (b : BreakoutRegistry) (grants : List Grant),
      Regranted occupied now b (balance parentRoomId ownerRole openChildren occupiedByChild ttlMs
        now grantIds peers childIndex b grants).1
  | [], _, b, _ => .refl b
  | peer :: peers, childIndex, b, grants => by
      rw [balance]
      split
      · exact .refl b
      · rename_i attempt child hnext
        obtain ⟨set, -, hchild⟩ := bind_eq_some_iff.mp hnext
        have hassign : Regranted occupied now b (b.assign parentRoomId ownerRole (some peer)
            child.roomId ttlMs now (occupancy occupiedByChild child.roomId)
            (grantIds grants.length)).1 :=
          assign_regranted (hocc child (nextChild_mem hchild))
        split
        · rename_i b' code hresult
          rwa [hresult] at hassign
        · rename_i b' grant hresult
          rw [hresult] at hassign
          exact hassign.trans (balance_regranted hocc peers _ b' _)

theorem assignBalanced_regranted {candidatePeers : List TargetPeer} {grantIds : Nat → String}
    (hocc : ∀ {set child}, b.sets.get parentRoomId = some set → child ∈ set.children →
      occupied child.roomId ≤ occupancy occupiedByChild child.roomId) :
    Regranted occupied now b (b.assignBalanced parentRoomId ownerRole candidatePeers ttlMs now
      occupiedByChild grantIds).1 := by
  rw [assignBalanced]
  split
  · exact .refl b
  · rename_i set hcheck
    simp only [checkBalanced, bind_ok_iff, failIf_ok_iff, found_ok_iff] at hcheck
    obtain ⟨-, -, set', hset, -, -, -, -, hok⟩ := hcheck
    cases hok
    have hget := (opened_get hset).1
    have hreleased : ∀ p, Regranted occupied now b
        { b with sets := b.sets.set parentRoomId (set.release p now) } := fun _ =>
      .of_set hget rfl booked_release
    refine (hreleased _).trans (balance_regranted (fun child hchild => ?_) _ _ _ _)
    rw [mem_insertionSort] at hchild
    exact hocc hget (mem_of_mem_filter hchild)

theorem chooseChild_mem {preferredChildRoomId : String} {item : Scored}
    (h : chooseChild set targetPeer preferredChildRoomId occupiedByChild now = some item) :
    ∃ child ∈ set.children, item = score set targetPeer occupiedByChild now child := by
  rw [chooseChild] at h
  split at h
  · obtain ⟨child, hchild, rfl⟩ := map_eq_some_iff.mp h
    exact ⟨child, mem_of_mem_filter (mem_of_find?_eq_some hchild), rfl⟩
  · have hmem := mem_of_mem_head? h
    rw [mem_insertionSort] at hmem
    obtain ⟨child, hchild, rfl⟩ := mem_map.mp (mem_of_mem_filter hmem)
    exact ⟨child, mem_of_mem_filter hchild, rfl⟩

theorem resolveAssignment_regranted {preferredChildRoomId : String}
    (hocc : ∀ {set child}, b.sets.get parentRoomId = some set → child ∈ set.children →
      occupied child.roomId ≤ occupancy occupiedByChild child.roomId) :
    Regranted occupied now b (b.resolveAssignment parentRoomId targetPeer preferredChildRoomId
      ttlMs now occupiedByChild grantId).1 := by
  rw [resolveAssignment]
  split
  · exact .refl b
  · rename_i set hcheck
    simp only [checkResolve, bind_ok_iff, failIf_ok_iff, found_ok_iff] at hcheck
    obtain ⟨set', hset, -, -, -, -, hok⟩ := hcheck
    cases hok
    split
    · exact .refl b
    · rename_i item hitem
      obtain ⟨child, hchild, rfl⟩ := chooseChild_mem hitem
      exact place_regranted (hocc (opened_get hset).1 hchild)

theorem revoke_regranted :
    Regranted occupied now b (b.revoke parentRoomId ownerRole grantId now).1 := by
  rw [revoke]
  split
  · exact .refl b
  · rename_i set grant hcheck
    simp only [checkRevoke, bind_ok_iff, failIf_ok_iff, found_ok_iff] at hcheck
    obtain ⟨-, -, set', hset, grant', -, -, -, hok⟩ := hcheck
    cases hok
    exact .of_set (opened_get hset).1 rfl fun hbooked =>
      hbooked.of_sublist rfl eraseP_sublist

end BreakoutRegistry

/-! ## The index of the children -/

/-- Every child is entered under its parent, which is nobody's child. -/
structure Registered (b : BreakoutRegistry) : Prop where
  parents : ∀ {parentRoomId : String} {set : BreakoutSet} {child : Child},
    b.sets.get parentRoomId = some set → child ∈ set.children →
    b.byChild.get child.roomId = some parentRoomId
  known : ∀ {roomId parentRoomId : String}, b.byChild.get roomId = some parentRoomId →
    ∃ set, b.sets.get parentRoomId = some set ∧ roomId ∈ set.children.map Child.roomId
  opened : ∀ {parentRoomId : String} {set : BreakoutSet}, b.sets.get parentRoomId = some set →
    set.state = .opened ∧ ∀ child ∈ set.children, child.state = .opened
  top : ∀ {parentRoomId : String} {set : BreakoutSet}, b.sets.get parentRoomId = some set →
    parentRoomId ≠ "" ∧ b.byChild.get parentRoomId = none

theorem registered_empty : Registered empty where
  parents := fun hset => by cases hset
  known := fun hchild => by cases hchild
  opened := fun hset => by cases hset
  top := fun hset => by cases hset

theorem SameFrame.old (h : SameFrame b b') (hset : b'.sets.get parentRoomId = some set') :
    ∃ set, b.sets.get parentRoomId = some set ∧ set'.frame = set.frame := by
  have hframe := h.sets parentRoomId
  rw [hset, map_some, eq_comm, map_eq_some_iff] at hframe
  obtain ⟨set, hget, heq⟩ := hframe
  exact ⟨set, hget, heq.symm⟩

theorem SameFrame.new (h : SameFrame b b') (hset : b.sets.get parentRoomId = some set) :
    ∃ set', b'.sets.get parentRoomId = some set' ∧ set'.frame = set.frame := by
  have hframe := h.sets parentRoomId
  rw [hset, map_some, map_eq_some_iff] at hframe
  exact hframe

theorem Registered.sameFrame (h : Registered b) (hr : SameFrame b b') : Registered b' where
  parents := by
    intro parent set' child hset hchild
    obtain ⟨set, hget, hframe⟩ := hr.old hset
    rw [children_of_frame hframe] at hchild
    rw [hr.byChild]
    exact h.parents hget hchild
  known := by
    intro roomId parent hget
    rw [hr.byChild] at hget
    obtain ⟨set, hset, hmem⟩ := h.known hget
    obtain ⟨set', hset', hframe⟩ := hr.new hset
    exact ⟨set', hset', children_of_frame hframe ▸ hmem⟩
  opened := by
    intro parent set' hset
    obtain ⟨set, hget, hframe⟩ := hr.old hset
    have hstate : set'.frame.state = set.frame.state := by rw [hframe]
    rw [children_of_frame hframe]
    exact ⟨hstate.trans (h.opened hget).1, (h.opened hget).2⟩
  top := by
    intro parent set' hset
    obtain ⟨set, hget, -⟩ := hr.old hset
    rw [hr.byChild]
    exact h.top hget

namespace BreakoutRegistry

theorem reserved_some {reserved : Reserved} (h : b.reserved roomId = some reserved) :
    b.byChild.get roomId = some reserved.parentRoomId
      ∧ ∃ set, b.sets.get reserved.parentRoomId = some set ∧ reserved.child ∈ set.children
        ∧ reserved.child.roomId = roomId ∧ reserved.setId = set.setId := by
  simp only [BreakoutRegistry.reserved, bind_eq_bind, bind_eq_some_iff] at h
  obtain ⟨parent, hparent, set, hset, child, hchild, h⟩ := h
  split at h
  · cases h
    have hroom := find?_some hchild
    rw [decide_eq_true_eq] at hroom
    exact ⟨hparent, set, hset, mem_of_find?_eq_some hchild, hroom, rfl⟩
  · cases h

theorem reserved_of_child (h : Registered b) (hchild : b.byChild.get roomId = some parentRoomId) :
    (b.reserved roomId).isSome = true := by
  obtain ⟨set, hset, hmem⟩ := h.known hchild
  obtain ⟨c, hc, hroom⟩ := mem_map.mp hmem
  have hfound : (set.children.find? fun child => decide (child.roomId = roomId)).isSome = true :=
    find?_isSome.mpr ⟨c, hc, decide_eq_true hroom⟩
  obtain ⟨child, hfind⟩ := isSome_iff_exists.mp hfound
  have hopen := h.opened hset
  have hclosed : set.state ≠ .closed := by
    rw [hopen.1]
    decide
  simp only [reserved, hchild, hset, hfind, bind_eq_bind, bind_some]
  rw [if_pos ⟨(h.top hset).1, hclosed, hopen.2 _ (mem_of_find?_eq_some hfind)⟩]
  rfl

end BreakoutRegistry

/-! ## Using a grant up -/

section UseFirst

variable {p q : Grant → Bool} {grants : List Grant}

theorem countP_useFirst_le (hq : ∀ grant : Grant, q { grant with consumedAt := now } = false) :
    (useFirst p now grants).countP q ≤ grants.countP q := by
  induction grants with
  | nil => exact le_refl _
  | cons grant grants ih =>
      rw [useFirst]
      split
      · rw [countP_cons_of_neg (by simpa using hq grant), countP_cons]
        exact le_add_right _ _
      · rw [countP_cons, countP_cons]
        exact Nat.add_le_add_right ih _

/-- One fewer of those that count, where what is used up counts. -/
theorem countP_useFirst (hpq : ∀ grant, p grant = true → q grant = true)
    (hq : ∀ grant : Grant, q { grant with consumedAt := now } = false)
    (hany : grants.any p = true) :
    (useFirst p now grants).countP q + 1 = grants.countP q := by
  induction grants with
  | nil => cases hany
  | cons grant grants ih =>
      rw [useFirst]
      split
      · rename_i hp
        rw [countP_cons_of_neg (by simpa using hq grant), countP_cons_of_pos (hpq _ hp)]
      · rename_i hp
        have hrest : grants.any p = true := by
          rw [any_cons, Bool.or_eq_true] at hany
          exact hany.resolve_left hp
        rw [countP_cons, countP_cons, ← ih hrest]
        omega

theorem mem_useFirst {grant : Grant} (h : grant ∈ useFirst p now grants) : ∃ old ∈ grants,
    grant.principal = old.principal ∧ grant.deviceFingerprint = old.deviceFingerprint := by
  induction grants with
  | nil => cases h
  | cons first grants ih =>
      rw [useFirst] at h
      split at h
      · rcases mem_cons.mp h with rfl | hold
        · exact ⟨first, mem_cons_self, rfl, rfl⟩
        · exact ⟨grant, mem_cons_of_mem _ hold, rfl, rfl⟩
      · rcases mem_cons.mp h with rfl | hold
        · exact ⟨_, mem_cons_self, rfl, rfl⟩
        · obtain ⟨old, hmem, hsame⟩ := ih hold
          exact ⟨old, mem_cons_of_mem _ hmem, hsame⟩

end UseFirst

/-- One more occupant of a room. -/
def oneMore (occupied : String → Nat) (roomId : String) (x : String) : Nat :=
  occupied x + if x = roomId then 1 else 0

/-- The set with the first grant with a property used up. -/
def BreakoutSet.used (set : BreakoutSet) (p : Grant → Bool) (now : Nat) : BreakoutSet :=
  { set with grants := useFirst p now set.grants }

theorem booked_useFirst {p : Grant → Bool} (h : Booked occupied now set) (hnow : 0 < now)
    (hp : ∀ grant, p grant = true → grant.live now = true ∧ grant.childRoomId = roomId)
    (hany : set.grants.any p = true) :
    Booked (oneMore occupied roomId) now (set.used p now) where
  nodup := h.nodup
  fits := by
    intro child hchild
    have hfits := h.fits child hchild
    have hused : ∀ (x : String) (grant : Grant),
        ({ grant with consumedAt := now }.live now && decide (grant.childRoomId = x)) = false := by
      intro x grant
      rw [Grant.live, Bool.and_eq_false_iff]
      exact .inl (decide_eq_false fun hlive => hnow.ne' hlive.1)
    have hgrants : (set.used p now).grants = useFirst p now set.grants := rfl
    rw [waiting] at hfits ⊢
    rw [hgrants]
    rw [oneMore]
    split
    · rename_i hroom
      have hcount := countP_useFirst (q := fun grant => grant.live now
        && decide (grant.childRoomId = child.roomId)) (fun grant hgrant => by
          rw [Bool.and_eq_true, decide_eq_true_eq, hroom]
          exact hp grant hgrant) (hused child.roomId) hany
      omega
    · have hcount : (useFirst p now set.grants).countP (fun grant => grant.live now
          && decide (grant.childRoomId = child.roomId)) ≤ _ :=
        countP_useFirst_le (hused child.roomId)
      omega
  named := by
    intro grant hgrant
    obtain ⟨old, hold, hprincipal, hdevice⟩ := mem_useFirst hgrant
    rw [hprincipal, hdevice]
    exact h.named old hold

theorem admitting_iff {principal deviceFingerprint : String} {parentRevision : Nat}
    {grant : Grant} :
    admitting roomId principal deviceFingerprint parentRevision now grant = true ↔
      grant.live now = true ∧ grant.childRoomId = roomId ∧ grant.principal = principal
        ∧ grant.deviceFingerprint = deviceFingerprint ∧ grant.parentRevision = parentRevision := by
  rw [admitting, Grant.heldBy]
  simp only [Bool.and_eq_true, decide_eq_true_eq, and_assoc]

namespace BreakoutRegistry

/-- What a join does with the grants. -/
structure Consumed (b b' : BreakoutRegistry) (roomId principal deviceFingerprint : String)
    (now : Nat) (reserved : Reserved) : Prop where
  hreserved : b.reserved roomId = some reserved
  used : ∃ set p, b.sets.get reserved.parentRoomId = some set ∧ set.grants.any p = true
    ∧ (∀ grant, p grant = true → grant.live now = true ∧ grant.childRoomId = roomId
      ∧ grant.principal = principal ∧ grant.deviceFingerprint = deviceFingerprint)
    ∧ b' = { b with sets := b.sets.set reserved.parentRoomId (set.used p now) }

theorem consume_ok {setId principal deviceFingerprint : String} {reserved : Reserved}
    (h : (b.consume roomId setId principal deviceFingerprint now).2 = .ok reserved) :
    Consumed b (b.consume roomId setId principal deviceFingerprint now).1 roomId principal
      deviceFingerprint now reserved := by
  rw [consume] at h ⊢
  split
  · rename_i code hcheck
    rw [hcheck] at h
    cases h
  · rename_i res set hcheck
    rw [hcheck] at h
    cases h
    simp only [checkConsume, bind_ok_iff, failIf_ok_iff, found_ok_iff] at hcheck
    obtain ⟨res', hres, -, -, set', hset, hok⟩ := hcheck
    cases hok
    obtain ⟨hget, hany⟩ := filter_eq_some_iff.mp hset
    refine ⟨(filter_eq_some_iff.mp hres).1, set, _, hget, hany, fun grant hgrant => ?_, rfl⟩
    rw [Bool.and_eq_true, admitting_iff] at hgrant
    exact ⟨hgrant.1.1, hgrant.1.2.1, hgrant.1.2.2.1, hgrant.1.2.2.2.1⟩

variable {principal deviceFingerprint : String} {reserved : Reserved}

section

variable (h : Consumed b b' roomId principal deviceFingerprint now reserved)

include h

/-- After the grant is used up, there is a place for one more in the room. -/
theorem Consumed.booked
    (hreg : Registered b) (hall : AllBooked occupied now b) (hnow : 0 < now) :
    AllBooked (oneMore occupied roomId) now b' := by
  obtain ⟨set, p, hset, hany, hp, rfl⟩ := h.used
  intro parent set' hget
  rcases get_set_some hget with ⟨-, rfl⟩ | ⟨hother, hget⟩
  · exact booked_useFirst (hall hset) hnow (fun grant hgrant =>
      ⟨(hp grant hgrant).1, (hp grant hgrant).2.1⟩) hany
  · refine (hall hget).mono (fun child hchild => ?_) (le_refl _)
    rw [oneMore, if_neg, add_zero]
    intro hroom
    have hparent := hreg.parents hget hchild
    rw [hroom, (reserved_some h.hreserved).1] at hparent
    exact hother (some.inj hparent).symm

theorem Consumed.sameFrame
    : SameFrame b b' := by
  obtain ⟨set, p, hset, -, -, rfl⟩ := h.used
  refine ⟨rfl, fun parent => ?_⟩
  rw [get_set]
  split
  · rename_i hparent
    rw [hparent, hset]
    rfl
  · rfl

theorem Consumed.named
    (hall : AllBooked occupied now b) : principal ≠ "" ∧ deviceFingerprint ≠ "" := by
  obtain ⟨set, p, hset, hany, hp, -⟩ := h.used
  obtain ⟨grant, hgrant, hpg⟩ := any_eq_true.mp hany
  obtain ⟨-, -, rfl, rfl⟩ := hp grant hpg
  exact (hall hset).named grant hgrant

end

end BreakoutRegistry

/-! ## Opening -/

/-- What is drawn for the rooms of a set is new: a room identifier that is
not in use, and no text is drawn for two of the children there can be. -/
structure DrawnRooms (used : List String) (draws : Draws) : Prop where
  some : ∀ index < maxBreakoutChildren, draws.room index ≠ []
  named : ∀ index < maxBreakoutChildren, ∀ hex ∈ draws.room index, roomIdOK ("brk-" ++ hex) = true
  unused : ∀ index < maxBreakoutChildren, ∀ hex ∈ draws.room index, "brk-" ++ hex ∉ used
  apart : ∀ i < maxBreakoutChildren, ∀ j < maxBreakoutChildren, ∀ hex ∈ draws.room i,
    hex ∈ draws.room j → i = j

theorem prefix_inj {s t : String} (h : "brk-" ++ s = "brk-" ++ t) : s = t := by
  have hlists := congrArg String.toList h
  rw [String.toList_append, String.toList_append] at hlists
  exact String.toList_inj.mp (append_cancel_left hlists)

theorem allocateChildRoomId_ok {used occupiedIds : List String} {draws : Draws} {index : Nat}
    (h : DrawnRooms used draws) (hindex : index < maxBreakoutChildren)
    (hocc : ∀ hex ∈ draws.room index, "brk-" ++ hex ∉ occupiedIds) :
    ∃ hex ∈ draws.room index,
      allocateChildRoomId occupiedIds (draws.room index) = .ok ("brk-" ++ hex) := by
  obtain ⟨first, rest, hroom⟩ := exists_cons_of_ne_nil (h.some index hindex)
  have hfirst : first ∈ draws.room index := hroom ▸ mem_cons_self
  refine ⟨first, hfirst, ?_⟩
  rw [allocateChildRoomId, found_ok_iff, hroom, take_succ_cons, map_cons]
  refine find?_cons_of_pos ?_
  rw [Bool.and_eq_true, decide_eq_true_eq]
  exact ⟨h.named index hindex first hfirst, hocc first hfirst⟩

/-- The children that are placed from an index on: open, of the capacity
that is asked for, and entered under rooms that are new. -/
structure Placed (request : OpenRequest) (draws : Draws) (index : Nat)
    (byChild byChild' : KeyedMap String String) (children : List Child) : Prop where
  opened : ∀ child ∈ children, child.state = .opened
  drawn : ∀ child ∈ children,
    ∃ i, index ≤ i ∧ i < maxBreakoutChildren ∧ ∃ hex ∈ draws.room i, child.roomId = "brk-" ++ hex
  nodup : (children.map Child.roomId).Nodup
  entered : ∀ roomId, byChild'.get roomId
    = if roomId ∈ children.map Child.roomId then some request.parentRoomId else byChild.get roomId

theorem placeChildren_placed {used : List String} {draws : Draws} (request : OpenRequest)
    (now : Nat) (h : DrawnRooms used draws) : ∀ (count index : Nat) (occupiedIds : List String)
      (byChild : KeyedMap String String), index + count ≤ maxBreakoutChildren →
      (∀ i, index ≤ i → i < maxBreakoutChildren → ∀ hex ∈ draws.room i,
        "brk-" ++ hex ∉ occupiedIds) →
      ∃ children, (placeChildren request now draws index count occupiedIds byChild).2 = .ok children
        ∧ Placed request draws index byChild
          (placeChildren request now draws index count occupiedIds byChild).1 children
  | 0, _, _, _, _, _ => ⟨[], rfl, {
      opened := fun _ hchild => by cases hchild
      drawn := fun _ hchild => by cases hchild
      nodup := nodup_nil
      entered := fun _ => rfl }⟩
  | n + 1, index, occupiedIds, byChild, hcount, hocc => by
      have hindex : index < maxBreakoutChildren := by omega
      obtain ⟨hex, hhex, hroom⟩ := allocateChildRoomId_ok h hindex (hocc index (le_refl _) hindex)
      -- the later texts are not the one that was just taken
      have hlater : ∀ i, index + 1 ≤ i → i < maxBreakoutChildren → ∀ hex' ∈ draws.room i,
          "brk-" ++ hex' ∉ ("brk-" ++ hex) :: occupiedIds := by
        intro i hi hlt hex' hhex' hmem
        rcases mem_cons.mp hmem with heq | hmem
        · have hsame := h.apart i hlt index hindex hex' hhex' (prefix_inj heq ▸ hhex)
          omega
        · exact hocc i (by omega) hlt hex' hhex' hmem
      obtain ⟨children, hok, hplaced⟩ := placeChildren_placed request now h n (index + 1) _
        (byChild.set ("brk-" ++ hex) request.parentRoomId) (by omega) hlater
      simp only [placeChildren, hroom]
      refine ⟨_, by rw [hok]; rfl, ?_⟩
      have hnew : ("brk-" ++ hex) ∉ children.map Child.roomId := by
        intro hmem
        obtain ⟨child, hchild, heq⟩ := mem_map.mp hmem
        obtain ⟨i, hi, hlt, hex', hhex', hdrawn⟩ := hplaced.drawn child hchild
        have hsame := h.apart i hlt index hindex hex' hhex'
          (prefix_inj (hdrawn.symm.trans heq) ▸ hhex)
        omega
      constructor
      case opened =>
        intro child hchild
        rcases mem_cons.mp hchild with rfl | hchild
        · rfl
        · exact hplaced.opened child hchild
      case drawn =>
        intro child hchild
        rcases mem_cons.mp hchild with rfl | hchild
        · exact ⟨index, le_refl _, hindex, hex, hhex, rfl⟩
        · obtain ⟨i, hi, hdrawn⟩ := hplaced.drawn child hchild
          exact ⟨i, by omega, hdrawn⟩
      case nodup => exact nodup_cons.mpr ⟨hnew, hplaced.nodup⟩
      case entered =>
        intro roomId
        rw [hplaced.entered roomId, get_set, map_cons]
        by_cases hmem : roomId ∈ children.map Child.roomId
        · rw [if_pos hmem, if_pos (mem_cons_of_mem _ hmem)]
        · rw [if_neg hmem]
          by_cases heq : roomId = "brk-" ++ hex
          · rw [if_pos heq, if_pos (heq ▸ mem_cons_self)]
          · rw [if_neg heq, if_neg]
            intro hcons
            rcases mem_cons.mp hcons with hhead | htail
            · exact heq hhead
            · exact hmem htail

theorem checkOpen_ok {request : OpenRequest} (h : b.checkOpen request now = .ok ()) :
    request.parentKind ≠ .breakout ∧ request.parentRoomId ≠ ""
      ∧ b.sets.get request.parentRoomId = none
      ∧ request.childCount.toNat ≤ maxBreakoutChildren := by
  simp only [checkOpen, bind_ok_iff, failIf_ok_iff, not_not] at h
  obtain ⟨-, -, -, hkind, -, -, -, hroom, -, hset, -, hcount, -⟩ := h
  refine ⟨hkind, ?_, ?_, ?_⟩
  · intro hempty
    rw [hempty] at hroom
    exact absurd hroom (by decide)
  · exact not_isSome_iff_eq_none.mp hset
  · have hle := hcount.2
    omega

/-- A set that is opened: its children are new rooms. -/
structure Opened (b b' : BreakoutRegistry) (request : OpenRequest) (set : BreakoutSet)
    (used : List String) : Prop where
  kind : request.parentKind ≠ .breakout
  parent : request.parentRoomId ≠ ""
  absent : b.sets.get request.parentRoomId = none
  opened : set.state = .opened ∧ ∀ child ∈ set.children, child.state = .opened
  nodup : (set.children.map Child.roomId).Nodup
  grants : set.grants = []
  fresh : ∀ child ∈ set.children, child.roomId ∉ used
  sets : b'.sets = b.sets.set request.parentRoomId set
  entered : ∀ roomId, b'.byChild.get roomId
    = if roomId ∈ set.children.map Child.roomId then some request.parentRoomId
      else b.byChild.get roomId

theorem openSet_cases {used : List String} {draws : Draws} (b : BreakoutRegistry)
    (request : OpenRequest) (now : Nat) (h : DrawnRooms used draws)
    (hused : request.parentRoomId :: request.occupiedRoomIds ++ b.byChild.keys ⊆ used) :
    (b.openSet request draws now).1 = b
      ∨ ∃ set, Opened b (b.openSet request draws now).1 request set used := by
  rw [openSet]
  split
  · exact .inl rfl
  · rename_i hcheck
    obtain ⟨hkind, hparent, habsent, hcount⟩ := checkOpen_ok hcheck
    obtain ⟨children, hok, hplaced⟩ := placeChildren_placed request now h
      request.childCount.toNat 0 (request.parentRoomId :: request.occupiedRoomIds ++ b.byChild.keys)
      b.byChild (by rwa [zero_add]) fun i _ hlt hex hhex hmem =>
        h.unused i hlt hex hhex (hused hmem)
    simp only [hok]
    refine .inr ⟨newSet request now draws children, {
      kind := hkind
      parent := hparent
      absent := habsent
      opened := ⟨rfl, hplaced.opened⟩
      nodup := hplaced.nodup
      grants := rfl
      fresh := fun child hchild => ?_
      sets := rfl
      entered := hplaced.entered }⟩
    obtain ⟨i, -, hlt, hex, hhex, hdrawn⟩ := hplaced.drawn child hchild
    rw [hdrawn]
    exact h.unused i hlt hex hhex

variable {request : OpenRequest} {used : List String}

theorem Opened.get_set (h : Opened b b' request set used) {parent : String} {s : BreakoutSet}
    (hget : b'.sets.get parent = some s) :
    parent = request.parentRoomId ∧ s = set
      ∨ parent ≠ request.parentRoomId ∧ b.sets.get parent = some s := by
  rw [h.sets, KeyedMap.get_set] at hget
  split at hget
  · rename_i hparent
    exact .inl ⟨hparent, (some.inj hget).symm⟩
  · rename_i hparent
    exact .inr ⟨hparent, hget⟩

theorem Registered.openSet (h : Registered b) (ho : Opened b b' request set used)
    (hold : ∀ roomId ∈ b.byChild.keys, roomId ∈ used) (hsets : ∀ parent ∈ b.sets.keys, parent ∈ used)
    (hparent : request.parentRoomId ∈ used)
    (hfree : b.byChild.get request.parentRoomId = none) : Registered b' where
  parents := by
    intro parent s child hget hchild
    rw [ho.entered]
    rcases ho.get_set hget with ⟨rfl, rfl⟩ | ⟨hne, hget⟩
    · rw [if_pos (mem_map_of_mem hchild)]
    · have hchildren := h.parents hget hchild
      rw [if_neg, hchildren]
      intro hmem
      obtain ⟨c, hc, heq⟩ := mem_map.mp hmem
      exact ho.fresh c hc (hold _ (mem_keys_iff.mpr ⟨parent, heq ▸ hchildren⟩))
  known := by
    intro roomId parent hget
    rw [ho.entered] at hget
    split at hget
    · rename_i hmem
      cases hget
      exact ⟨set, by rw [ho.sets, get_set_self], hmem⟩
    · obtain ⟨s, hs, hmem⟩ := h.known hget
      refine ⟨s, ?_, hmem⟩
      rw [ho.sets, get_set_of_ne _ _ (fun heq => ?_), hs]
      rw [heq, ho.absent] at hs
      cases hs
  opened := by
    intro parent s hget
    rcases ho.get_set hget with ⟨-, rfl⟩ | ⟨-, hget⟩
    · exact ho.opened
    · exact h.opened hget
  top := by
    intro parent s hget
    rw [ho.entered]
    rcases ho.get_set hget with ⟨rfl, rfl⟩ | ⟨-, hget⟩
    · refine ⟨ho.parent, ?_⟩
      rw [if_neg, hfree]
      intro hmem
      obtain ⟨c, hc, heq⟩ := mem_map.mp hmem
      exact ho.fresh c hc (heq ▸ hparent)
    · refine ⟨(h.top hget).1, ?_⟩
      rw [if_neg, (h.top hget).2]
      intro hmem
      obtain ⟨c, hc, heq⟩ := mem_map.mp hmem
      exact ho.fresh c hc (hsets _ (mem_keys_iff.mpr ⟨s, heq ▸ hget⟩))

/-! ## Closing -/

theorem closeSet_cases (b : BreakoutRegistry) (parentRoomId : String) :
    b.closeSet parentRoomId = (b, none)
      ∨ ∃ set, b.sets.get parentRoomId = some set ∧ b.closeSet parentRoomId
        = (⟨b.sets.erase parentRoomId, b.byChild.keep fun roomId _ =>
            decide (roomId ∉ set.children.map Child.roomId)⟩,
          some (set.children.map Child.roomId)) := by
  rw [closeSet]
  split
  · exact .inl rfl
  · rename_i set hset
    split
    · exact .inl rfl
    · exact .inr ⟨set, hset, rfl⟩

theorem Registered.closed (h : Registered b) (hset : b.sets.get parentRoomId = some set) :
    Registered ⟨b.sets.erase parentRoomId, b.byChild.keep fun roomId _ =>
      decide (roomId ∉ set.children.map Child.roomId)⟩ where
  parents := by
    intro parent s child hget hchild
    obtain ⟨hs, hne⟩ := get_keep_eq_some_iff.mp hget
    have hparent := h.parents hs hchild
    refine get_keep_eq_some_iff.mpr ⟨hparent, decide_eq_true fun hmem => ?_⟩
    -- a child of the set that is closed has that set's parent
    obtain ⟨c, hc, heq⟩ := mem_map.mp hmem
    have hclosed := h.parents hset hc
    rw [heq, hparent] at hclosed
    exact of_decide_eq_true hne (some.inj hclosed)
  known := by
    intro roomId parent hget
    obtain ⟨hget, hkept⟩ := get_keep_eq_some_iff.mp hget
    obtain ⟨s, hs, hmem⟩ := h.known hget
    refine ⟨s, get_keep_eq_some_iff.mpr ⟨hs, decide_eq_true fun heq => ?_⟩, hmem⟩
    rw [heq, hset] at hs
    cases hs
    exact of_decide_eq_true hkept hmem
  opened := fun hget => h.opened (get_keep_eq_some_iff.mp hget).1
  top := by
    intro parent s hget
    obtain ⟨hne, hnone⟩ := h.top (get_keep_eq_some_iff.mp hget).1
    refine ⟨hne, eq_none_iff_forall_not_mem.mpr fun p hp => ?_⟩
    rw [(get_keep_eq_some_iff.mp hp).1] at hnone
    cases hnone

end Breakout

end WebrtcMinimize
