import WebrtcMinimize.BreakoutAtomicity

/-!
# The balanced assignment

The places are dealt out in turn: every candidate goes to the next open child that
has a place for him. So nobody is left without a grant while there is a place, and
no child gets more than its places; the rooms that are filled before are not
levelled, but no child with a place left is passed over.
-/

namespace WebrtcMinimize

open Checks

namespace Breakout

open BreakoutSet
open List hiding set
open Nat Child Option
open Bool hiding not_and

variable {set set' : BreakoutSet} {parentRoomId : String} {now : Nat} {ttlMs : Option Int}
  {openChildren : List Child} {childIndex : Nat} {occupiedByChild : KeyedMap String Nat}
  {grantIds : Nat → String} {peer : TargetPeer} {candidatePeers : List TargetPeer}

/-! ## Dealing -/

/-- The live grants of one person on one device. -/
def BreakoutSet.held (set : BreakoutSet) (principal deviceFingerprint : String) (now : Nat) : Nat :=
  set.grants.countP fun grant => grant.live now && grant.heldBy principal deviceFingerprint

/-- The grant for a peer. -/
def dealtGrant (set : BreakoutSet) (parentRoomId : String) (ttlMs : Option Int) (now : Nat)
    (peer : TargetPeer) (child : Child) (grantId : String) : Grant :=
  Assignment.grant ⟨set, peer, child, min (now + (lasting ttlMs).toNat) set.expiresAt⟩ grantId
    parentRoomId child.roomId

/-- The set after a peer got a grant. -/
def BreakoutSet.dealTo (set : BreakoutSet) (peer : TargetPeer) (grant : Grant) (now : Nat) :
    BreakoutSet :=
  (set.release (Grant.heldBy peer.principal peer.deviceFingerprint) now).push grant

theorem Assignable.dealTo (h : Assignable set now) {grant : Grant} :
    Assignable (set.dealTo peer grant now) now := h.sameFrame rfl

/-- The loop of the balanced assignment on its set. -/
def deal (parentRoomId : String) (openChildren : List Child) (occupiedByChild : KeyedMap String Nat)
    (ttlMs : Option Int) (now : Nat) (grantIds : Nat → String) :
    List TargetPeer → Nat → BreakoutSet → List Grant → BreakoutSet × List Grant
  | [], _, set, grants => (set, grants)
  | peer :: peers, childIndex, set, grants =>
      match nextChild set openChildren childIndex peer occupiedByChild now with
      | none => (set, grants)
      | some (attempt, child) =>
          let grant := dealtGrant set parentRoomId ttlMs now peer child (grantIds grants.length)
          deal parentRoomId openChildren occupiedByChild ttlMs now grantIds peers
            ((childIndex + attempt + 1) % openChildren.length) (set.dealTo peer grant now)
            (grants ++ [grant])

/-- The registry's loop deals, by induction on the peers. -/
theorem balance_deal (hwithin : Within minBreakoutGrantMs maxBreakoutGrantMs (lasting ttlMs)) :
    ∀ {peers : List TargetPeer} {childIndex : Nat} {b : BreakoutRegistry} {set : BreakoutSet}
      {grants : List Grant}, b.sets.get parentRoomId = some set → Assignable set now →
      (∀ child ∈ openChildren, child ∈ set.openChildren) →
      (∀ peer ∈ peers, Eligible parentRoomId peer) →
      ∃ b', BreakoutRegistry.balance parentRoomId .owner openChildren occupiedByChild ttlMs now
          grantIds peers childIndex b grants
            = (b', .ok (deal parentRoomId openChildren occupiedByChild ttlMs now grantIds peers
              childIndex set grants).2)
        ∧ b'.sets.get parentRoomId = some (deal parentRoomId openChildren occupiedByChild ttlMs now
          grantIds peers childIndex set grants).1
  | [], _, b, _, _, hset, _, _, _ => ⟨b, rfl, hset⟩
  | peer :: peers, childIndex, b, set, grants, hset, ha, hopen, hpeers => by
      rw [BreakoutRegistry.balance, hset, bind_some, deal]
      cases hnext : nextChild set openChildren childIndex peer occupiedByChild now with
      | none => exact ⟨b, rfl, hset⟩
      | some next =>
          dsimp only
          rw [assign_next hset ha (hpeers peer mem_cons_self) hopen hnext, if_pos hwithin]
          exact balance_deal hwithin ((KeyedMap.get_set _ _ _ _).trans (if_pos rfl))
            ha.dealTo hopen fun p hp => hpeers p (mem_cons_of_mem _ hp)

/-! ## Whose turn it is -/

/-- The places of a child, taken and reserved. -/
def BreakoutSet.load (set : BreakoutSet) (occupiedByChild : KeyedMap String Nat) (now : Nat)
    (child : Child) : Nat :=
  set.waiting child.roomId now + occupancy occupiedByChild child.roomId

/-- The child has a place for the peer. -/
def Roomy (set : BreakoutSet) (occupiedByChild : KeyedMap String Nat) (now : Nat)
    (peer : TargetPeer) (child : Child) : Prop :=
  set.waitingOthers child.roomId peer.principal peer.deviceFingerprint now
    + occupancy occupiedByChild child.roomId < child.capacity

/-- The first of some numbers with a property is before all others with it. -/
theorem findSome?_range {α : Type} {f : Nat → Option α} {n : Nat} {a : α}
    (h : (range n).findSome? f = some a) :
    ∃ i < n, f i = some a ∧ ∀ j < i, f j = none := by
  obtain ⟨before, i, later, hrange, hi, hnone⟩ := findSome?_eq_some_iff.mp h
  have hat : (range n)[before.length]? = some i := by
    rw [hrange, getElem?_append_right (Nat.le_refl _), Nat.sub_self]
    rfl
  obtain ⟨hlt, heq⟩ := List.getElem?_eq_some_iff.mp hat
  rw [getElem_range] at heq
  rw [length_range] at hlt
  refine ⟨i, heq ▸ hlt, hi, fun j hj => hnone j ?_⟩
  have hmem : (range n)[j]? = before[j]? := by
    rw [hrange, getElem?_append_left (by omega)]
  rw [getElem?_range (by omega)] at hmem
  exact mem_of_getElem? hmem.symm

theorem tried_eq {i : Nat} {child : Child} (hchild : openChildren[i]? = some child) {attempt : Nat} :
    (openChildren[i]?.bind fun child =>
        if set.waitingOthers child.roomId peer.principal peer.deviceFingerprint now
            + occupancy occupiedByChild child.roomId < child.capacity then
          some (attempt, child)
        else none) = none ↔ ¬Roomy set occupiedByChild now peer child := by
  rw [hchild, bind_some, Roomy]
  split
  · rename_i hroom
    exact iff_of_false (some_ne_none _) (not_not.mpr hroom)
  · rename_i hroom
    exact iff_of_true rfl hroom

/-- The children before the one whose turn it is have no place. -/
theorem nextChild_turn {attempt : Nat} {child : Child}
    (h : nextChild set openChildren childIndex peer occupiedByChild now = some (attempt, child)) :
    attempt < openChildren.length
      ∧ openChildren[(childIndex + attempt) % openChildren.length]? = some child
      ∧ Roomy set occupiedByChild now peer child
      ∧ ∀ before < attempt, ∀ other ∈ openChildren[(childIndex + before) % openChildren.length]?,
          ¬Roomy set occupiedByChild now peer other := by
  obtain ⟨i, hlt, hi, hbefore⟩ := findSome?_range h
  obtain ⟨c, hc, hi⟩ := bind_eq_some_iff.mp hi
  split at hi
  · rename_i hroom
    cases hi
    refine ⟨hlt, hc, hroom, fun before hlt other hother => ?_⟩
    exact (tried_eq hother).mp (hbefore before hlt)
  · cases hi

theorem turn_of {n i k : Nat} (hi : i < n) (hk : k < n) : ∃ attempt < n, (i + attempt) % n = k := by
  by_cases h : i ≤ k
  · exact ⟨k - i, by omega, by rw [Nat.add_sub_cancel' h, Nat.mod_eq_of_lt hk]⟩
  · refine ⟨k + n - i, by omega, ?_⟩
    rw [Nat.add_sub_cancel' (by omega), Nat.add_mod_right, Nat.mod_eq_of_lt hk]

theorem nextChild_none (hindex : childIndex < openChildren.length)
    (h : nextChild set openChildren childIndex peer occupiedByChild now = none) :
    ∀ child ∈ openChildren, ¬Roomy set occupiedByChild now peer child := by
  intro child hchild
  obtain ⟨k, hk⟩ := List.mem_iff_getElem?.mp hchild
  obtain ⟨attempt, hlt, hturn⟩ := turn_of hindex (List.getElem?_eq_some_iff.mp hk).1
  rw [← hturn] at hk
  exact (tried_eq hk).mp (List.findSome?_eq_none_iff.mp h attempt (List.mem_range.mpr hlt))

/-! ## One grant for each -/

section Held

variable {grant : Grant} {principal deviceFingerprint : String}

/-- A grant that is live and a peer's. -/
structure Dealt (peer : TargetPeer) (now : Nat) (grant : Grant) : Prop where
  live : grant.live now = true
  held : ∀ principal deviceFingerprint, grant.heldBy principal deviceFingerprint = true
    ↔ peer.principal = principal ∧ peer.deviceFingerprint = deviceFingerprint

theorem dealtGrant_dealt {child : Child} {grantId : String}
    (hwithin : Within minBreakoutGrantMs maxBreakoutGrantMs (lasting ttlMs))
    (ha : Assignable set now) :
    Dealt peer now (dealtGrant set parentRoomId ttlMs now peer child grantId) where
  live := by
    have hlasting : 15000 ≤ lasting ttlMs := hwithin.1
    have hrunning := ha.running
    refine decide_eq_true ⟨rfl, ?_⟩
    show now < min (now + (lasting ttlMs).toNat) set.expiresAt
    omega
  held _ _ := decide_eq_true_iff

theorem held_dealTo (h : Dealt peer now grant) :
    (set.dealTo peer grant now).held principal deviceFingerprint now
      = if peer.principal = principal ∧ peer.deviceFingerprint = deviceFingerprint then 1
        else set.held principal deviceFingerprint now := by
  rw [held, dealTo, push, release,
    countP_append, countP_filter, countP_singleton, h.live, Bool.true_and]
  by_cases hsame : peer.principal = principal ∧ peer.deviceFingerprint = deviceFingerprint
  · rw [if_pos hsame, if_pos ((h.held _ _).mpr hsame), countP_eq_zero.mpr]
    intro other _
    rw [hsame.1, hsame.2]
    cases other.live now <;> cases other.heldBy principal deviceFingerprint <;> simp
  · rw [if_neg hsame, if_neg fun hheld => hsame ((h.held _ _).mp hheld), add_zero, held]
    refine countP_congr fun other _ => ?_
    -- nobody else's grant is released
    by_cases hheld : other.heldBy principal deviceFingerprint = true
    · have hpeer : other.heldBy peer.principal peer.deviceFingerprint = false := by
        rw [Grant.heldBy, decide_eq_true_eq] at hheld
        rw [Grant.heldBy, decide_eq_false_iff_not, hheld.1, hheld.2]
        exact fun heq => hsame ⟨heq.1.symm, heq.2.symm⟩
      rw [hheld, hpeer]
      simp
    · rw [Bool.not_eq_true] at hheld
      rw [hheld]
      simp

theorem waiting_dealTo (h : grant.live now = true) {roomId : String} :
    (set.dealTo peer grant now).waiting roomId now
      = set.waitingOthers roomId peer.principal peer.deviceFingerprint now
        + if grant.childRoomId = roomId then 1 else 0 := by
  rw [← waiting_release, waiting, waiting, dealTo,
    push, countP_append, countP_singleton, h, Bool.true_and]
  by_cases hroom : grant.childRoomId = roomId
  · rw [if_pos hroom, if_pos (decide_eq_true hroom)]
  · rw [if_neg hroom, if_neg (by simpa using hroom)]

theorem waitingOthers_le {roomId : String} :
    set.waitingOthers roomId principal deviceFingerprint now ≤ set.waiting roomId now := by
  refine countP_mono_left fun grant _ h => ?_
  rw [and_eq_true] at h
  exact h.1

end Held

/-- All children are full. -/
def AllFull (set : BreakoutSet) (openChildren : List Child) (occupiedByChild : KeyedMap String Nat)
    (now : Nat) : Prop :=
  ∀ child ∈ openChildren, child.capacity ≤ set.load occupiedByChild now child

theorem deal_frame : ∀ {peers : List TargetPeer} {childIndex : Nat} {set : BreakoutSet}
    {grants : List Grant}, (deal parentRoomId openChildren occupiedByChild ttlMs now grantIds peers
      childIndex set grants).1.frame = set.frame
  | [], _, _, _ => rfl
  | peer :: peers, childIndex, set, grants => by
      rw [deal]
      split
      · rfl
      · exact deal_frame

theorem deal_others (hwithin : Within minBreakoutGrantMs maxBreakoutGrantMs (lasting ttlMs))
    {principal deviceFingerprint : String} :
    ∀ {peers : List TargetPeer} {childIndex : Nat} {set : BreakoutSet} {grants : List Grant},
      Assignable set now →
      (∀ peer ∈ peers, ¬(peer.principal = principal ∧ peer.deviceFingerprint = deviceFingerprint)) →
      (deal parentRoomId openChildren occupiedByChild ttlMs now grantIds peers childIndex set
        grants).1.held principal deviceFingerprint now = set.held principal deviceFingerprint now
  | [], _, _, _, _, _ => rfl
  | peer :: peers, childIndex, set, grants, ha, hothers => by
      rw [deal]
      split
      · rfl
      · rw [deal_others hwithin ha.dealTo fun p hp => hothers p (mem_cons_of_mem _ hp),
          held_dealTo (dealtGrant_dealt hwithin ha), if_neg (hothers peer mem_cons_self)]

/-- Everyone who is dealt to holds one grant in the end, unless all children are full. -/
theorem deal_held (hwithin : Within minBreakoutGrantMs maxBreakoutGrantMs (lasting ttlMs)) :
    ∀ {peers : List TargetPeer} {childIndex : Nat} {set : BreakoutSet} {grants : List Grant},
      childIndex < openChildren.length → Assignable set now →
      (∀ peer ∈ peers, (deal parentRoomId openChildren occupiedByChild ttlMs now grantIds peers
          childIndex set grants).1.held peer.principal peer.deviceFingerprint now = 1)
        ∨ AllFull (deal parentRoomId openChildren occupiedByChild ttlMs now grantIds peers childIndex
          set grants).1 openChildren occupiedByChild now
  | [], _, _, _, _, _ => .inl fun _ hpeer => absurd hpeer not_mem_nil
  | peer :: peers, childIndex, set, grants, hindex, ha => by
      rw [deal]
      split
      · rename_i hnext
        refine .inr fun child hchild => ?_
        have hfull := not_lt.mp (nextChild_none hindex hnext child hchild)
        exact hfull.trans (Nat.add_le_add_right waitingOthers_le _)
      · rename_i attempt child hnext
        have hturn : (childIndex + attempt + 1) % openChildren.length < openChildren.length :=
          mod_lt _ (by omega)
        refine (deal_held hwithin hturn ha.dealTo).imp_left fun hlater p hp => ?_
        rcases mem_cons.mp hp with rfl | hp
        · by_cases hagain : ∃ q ∈ peers, q.principal = p.principal
            ∧ q.deviceFingerprint = p.deviceFingerprint
          · obtain ⟨q, hq, hprincipal, hdevice⟩ := hagain
            rw [← hprincipal, ← hdevice]
            exact hlater q hq
          · rw [deal_others hwithin ha.dealTo fun q hq heq => hagain ⟨q, hq, heq⟩,
              held_dealTo (dealtGrant_dealt hwithin ha), if_pos ⟨rfl, rfl⟩]
        · exact hlater p hp

/-! ## No child over its capacity -/

theorem deal_fits (hwithin : Within minBreakoutGrantMs maxBreakoutGrantMs (lasting ttlMs))
    {child : Child} :
    ∀ {peers : List TargetPeer} {childIndex : Nat} {set : BreakoutSet} {grants : List Grant},
      Assignable set now → (∀ c ∈ openChildren, c ∈ set.openChildren) → child ∈ set.children →
      set.load occupiedByChild now child ≤ child.capacity →
      (deal parentRoomId openChildren occupiedByChild ttlMs now grantIds peers childIndex set
        grants).1.load occupiedByChild now child ≤ child.capacity
  | [], _, _, _, _, _, _, hfits => hfits
  | peer :: peers, childIndex, set, grants, ha, hopen, hchild, hfits => by
      rw [deal]
      split
      · exact hfits
      · rename_i attempt next hnext
        refine deal_fits hwithin ha.dealTo hopen hchild ?_
        obtain ⟨-, hmem, hroom, -⟩ := nextChild_turn hnext
        rw [load] at hfits ⊢
        rw [waiting_dealTo (dealtGrant_dealt hwithin ha).live]
        have hothers : set.waitingOthers child.roomId peer.principal peer.deviceFingerprint now
            ≤ set.waiting child.roomId now := waitingOthers_le
        split
        · rename_i heq
          -- the children are told apart by their rooms
          obtain rfl : next = child := inj_on_of_nodup_map ha.children.nodup
            (mem_of_mem_filter (hopen next (mem_of_getElem? hmem))) hchild heq
          rw [Roomy] at hroom
          omega
        · omega

/-! ## In turn -/

def identity (peer : TargetPeer) : String × String := (peer.principal, peer.deviceFingerprint)

/-- The grants for a child. -/
def dealtTo (grants : List Grant) (child : Child) : Nat :=
  grants.countP fun grant => decide (grant.childRoomId = child.roomId)

theorem dealtTo_snoc {grants : List Grant} {grant : Grant} {child : Child} :
    dealtTo (grants ++ [grant]) child
      = dealtTo grants child + if grant.childRoomId = child.roomId then 1 else 0 := by
  rw [dealtTo, countP_append, countP_singleton]
  by_cases hroom : grant.childRoomId = child.roomId
  · rw [if_pos hroom, if_pos (decide_eq_true hroom)]
    rfl
  · rw [if_neg hroom, if_neg (by simpa using hroom)]
    rfl

theorem waitingOthers_of_not_held {principal deviceFingerprint roomId : String}
    (h : set.held principal deviceFingerprint now = 0) :
    set.waitingOthers roomId principal deviceFingerprint now = set.waiting roomId now := by
  refine countP_congr fun grant hgrant => ?_
  have hnot := countP_eq_zero.mp h grant hgrant
  rw [and_eq_true, not_and] at hnot
  rw [and_eq_true, not_eq_true']
  refine and_iff_left_of_imp fun hwaiting => ?_
  rw [and_eq_true] at hwaiting
  exact not_eq_true _ ▸ hnot hwaiting.1

/-- Nobody is listed twice or holds a grant before it is his turn. -/
structure Fresh (set : BreakoutSet) (peers : List TargetPeer) (now : Nat) : Prop where
  nodup : (peers.map identity).Nodup
  none : ∀ peer ∈ peers, set.held peer.principal peer.deviceFingerprint now = 0

theorem Fresh.dealTo {peers : List TargetPeer} {grant : Grant} (h : Fresh set (peer :: peers) now)
    (hdealt : Dealt peer now grant) : Fresh (set.dealTo peer grant now) peers now where
  nodup := (nodup_cons.mp h.nodup).2
  none := by
    intro q hq
    rw [held_dealTo hdealt, if_neg, h.none q (mem_cons_of_mem _ hq)]
    rintro ⟨hprincipal, hdevice⟩
    exact (nodup_cons.mp h.nodup).1
      (mem_map.mpr ⟨q, hq, (Prod.ext hprincipal hdevice).symm⟩)

theorem load_le_deal (hwithin : Within minBreakoutGrantMs maxBreakoutGrantMs (lasting ttlMs))
    {child : Child} :
    ∀ {peers : List TargetPeer} {childIndex : Nat} {set : BreakoutSet} {grants : List Grant},
      Assignable set now → Fresh set peers now →
      set.load occupiedByChild now child ≤ (deal parentRoomId openChildren occupiedByChild ttlMs now
        grantIds peers childIndex set grants).1.load occupiedByChild now child
  | [], _, _, _, _, _ => le_refl _
  | peer :: peers, childIndex, set, grants, ha, hfresh => by
      rw [deal]
      split
      · exact le_refl _
      · have hdealt {room grantId : String} {child : Child} :
            Dealt peer now (dealtGrant set room ttlMs now peer child grantId) :=
          dealtGrant_dealt hwithin ha
        refine le_trans ?_ (load_le_deal hwithin ha.dealTo (hfresh.dealTo hdealt))
        rw [load, load, waiting_dealTo hdealt.live,
          waitingOthers_of_not_held (hfresh.none peer mem_cons_self)]
        omega

/-- A place in the order is before the one whose turn it is. -/
def served (childIndex place : Nat) : Nat := if place < childIndex then 1 else 0

theorem served_le {i c d gc gd : Nat} (h : gd + served i c ≤ gc + served i d) : gd ≤ gc + 1 := by
  simp only [served] at h
  split_ifs at h <;> omega

theorem mod_of_wrapped {n m : Nat} (hle : n ≤ m) (hlt : m < 2 * n) : m % n = m - n := by
  rw [mod_eq_sub_mod hle, mod_eq_of_lt (by omega)]

theorem served_turn {n i attempt c d gc gd : Nat} (hi : i < n) (hattempt : attempt < n)
    (hc : c < n) (hd : d < n) (hkept : ∀ before < attempt, (i + before) % n ≠ c)
    (h : gd + served i c ≤ gc + served i d) :
    gd + (if (i + attempt) % n = d then 1 else 0) + served ((i + attempt + 1) % n) c
      ≤ gc + (if (i + attempt) % n = c then 1 else 0) + served ((i + attempt + 1) % n) d := by
  obtain ⟨j, hj⟩ : ∃ j, j = (i + attempt) % n := ⟨_, rfl⟩
  have hnext : (i + attempt + 1) % n = if j + 1 = n then 0 else j + 1 := by
    rw [← mod_add_mod, ← hj]
    split
    · rename_i heq
      rw [heq, mod_self]
    · have hlt : j < n := hj ▸ mod_lt _ (by omega)
      exact mod_eq_of_lt (by omega)
  -- the place `c` is not among those that were tried before
  have hplace : (j = i + attempt ∧ (c < i ∨ j ≤ c)) ∨ (j + n = i + attempt ∧ j ≤ c ∧ c < i) := by
    have hlater : i ≤ c → attempt ≤ c - i := fun hle => by
      by_contra hlt
      exact hkept (c - i) (by omega) (by rw [Nat.add_sub_cancel' hle, Nat.mod_eq_of_lt hc])
    by_cases hwrap : i + attempt < n
    · rw [mod_eq_of_lt hwrap] at hj
      exact .inl ⟨hj, by omega⟩
    · rw [mod_of_wrapped (by omega) (by omega)] at hj
      refine .inr ⟨by omega, ?_, by omega⟩
      by_contra hlt
      refine hkept (c + n - i) (by omega) ?_
      rw [Nat.add_sub_cancel' (by omega), Nat.add_mod_right, Nat.mod_eq_of_lt hc]
  rw [← hj, hnext]
  simp only [served] at h ⊢
  split_ifs at h ⊢ <;> omega

theorem roomId_eq_iff (hnodup : (openChildren.map roomId).Nodup) {i j : Nat} {c d : Child}
    (hc : openChildren[i]? = some c) (hd : openChildren[j]? = some d) :
    c.roomId = d.roomId ↔ i = j := by
  obtain ⟨hi, rfl⟩ := List.getElem?_eq_some_iff.mp hc
  obtain ⟨hj, rfl⟩ := List.getElem?_eq_some_iff.mp hd
  rw [← getElem_map roomId, ← getElem_map roomId]
  · exact hnodup.getElem_inj_iff
  · rwa [length_map]
  · rwa [length_map]

/-- Where nobody is listed twice, a child that has a place left in the end got no more than
one grant less than any other, by induction on the peers. -/
theorem deal_turns (hwithin : Within minBreakoutGrantMs maxBreakoutGrantMs (lasting ttlMs))
    (hnodup : (openChildren.map roomId).Nodup) {i j : Nat} {c d : Child}
    (hc : openChildren[i]? = some c) (hd : openChildren[j]? = some d) :
    ∀ {peers : List TargetPeer} {childIndex : Nat} {set : BreakoutSet} {grants : List Grant},
      childIndex < openChildren.length → Assignable set now → Fresh set peers now →
      (deal parentRoomId openChildren occupiedByChild ttlMs now grantIds peers childIndex set
        grants).1.load occupiedByChild now c < c.capacity →
      dealtTo grants d + served childIndex i ≤ dealtTo grants c + served childIndex j →
      dealtTo (deal parentRoomId openChildren occupiedByChild ttlMs now grantIds peers childIndex
          set grants).2 d
        ≤ dealtTo (deal parentRoomId openChildren occupiedByChild ttlMs now grantIds peers childIndex
          set grants).2 c + 1
  | [], _, _, _, _, _, _, _, h => served_le h
  | peer :: peers, childIndex, set, grants, hindex, ha, hfresh, hroom, h => by
      have hnow := (load_le_deal hwithin ha hfresh).trans_lt hroom
      rw [deal] at hroom ⊢
      split
      · exact served_le h
      · rename_i attempt child hnext
        rw [hnext] at hroom
        have hdealt : Dealt peer now (dealtGrant set parentRoomId ttlMs now peer child
            (grantIds grants.length)) := dealtGrant_dealt hwithin ha
        obtain ⟨hattempt, hchild, -, hbefore⟩ := nextChild_turn hnext
        -- the child `c` had a place for the peer, so its turn was not passed over
        have hroomy : Roomy set occupiedByChild now peer c := by
          rw [Roomy, waitingOthers_of_not_held (hfresh.none peer mem_cons_self)]
          exact hnow
        have hkept : ∀ before < attempt, (childIndex + before) % openChildren.length ≠ i := by
          rintro before hlt rfl
          exact hbefore before hlt c hc hroomy
        have hturn := served_turn hindex hattempt (List.getElem?_eq_some_iff.mp hc).1
          (List.getElem?_eq_some_iff.mp hd).1 hkept h
        refine deal_turns hwithin hnodup hc hd (mod_lt _ (by omega)) ha.dealTo
          (hfresh.dealTo hdealt) hroom ?_
        rw [dealtTo_snoc, dealtTo_snoc]
        rwa [← if_congr (roomId_eq_iff hnodup hchild hc) rfl rfl,
          ← if_congr (roomId_eq_iff hnodup hchild hd) rfl rfl] at hturn

/-! ## The whole assignment -/

/-- What a balanced assignment comes to. -/
structure DealtOut (parentRoomId : String) (candidatePeers : List TargetPeer)
    (occupiedByChild : KeyedMap String Nat) (now : Nat) (set set' : BreakoutSet)
    (grants : List Grant) : Prop where
  children : set'.children = set.children
  complete : (∀ peer ∈ candidatePeers, Eligible parentRoomId peer →
      set'.held peer.principal peer.deviceFingerprint now = 1)
    ∨ AllFull set' set'.openChildren occupiedByChild now
  fits : ∀ child ∈ set'.children, set.load occupiedByChild now child ≤ child.capacity →
    set'.load occupiedByChild now child ≤ child.capacity
  turns : (((candidatePeers.filter fun peer => decide (Eligible parentRoomId peer)).map
      identity).Nodup) → ∀ c ∈ set'.openChildren, ∀ d ∈ set'.openChildren,
    set'.load occupiedByChild now c < c.capacity → dealtTo grants d ≤ dealtTo grants c + 1

theorem held_release (hpeer : peer ∈ eligiblePeers parentRoomId candidatePeers) :
    (set.release (candidateKey (eligiblePeers parentRoomId candidatePeers)) now).held peer.principal
      peer.deviceFingerprint now = 0 := by
  refine countP_eq_zero.mpr fun grant hgrant => ?_
  have hkept := (mem_filter.mp hgrant).2
  rw [not_eq_true', and_eq_false_iff] at hkept
  rw [and_eq_true, not_and]
  intro hlive hheld
  rw [Grant.heldBy, decide_eq_true_eq] at hheld
  rcases hkept with hdead | hkey
  · rw [hlive] at hdead
    cases hdead
  · rw [candidateKey, decide_eq_false_iff_not] at hkey
    exact hkey (mem_map.mpr ⟨peer, hpeer, by rw [hheld.1, hheld.2]⟩)

theorem load_release_le {p : Grant → Bool} {child : Child} :
    (set.release p now).load occupiedByChild now child ≤ set.load occupiedByChild now child :=
  Nat.add_le_add_right filter_sublist.countP_le _

theorem fresh_released
    (h : ((candidatePeers.filter fun peer => decide (Eligible parentRoomId peer)).map identity).Nodup) :
    Fresh (set.release (candidateKey (eligiblePeers parentRoomId candidatePeers)) now)
      (eligiblePeers parentRoomId candidatePeers) now where
  nodup := (((perm_insertionSort _ _).map identity).nodup_iff).mpr h
  none _ hpeer := held_release hpeer

theorem sortedChildren_pos {b : BreakoutRegistry} {ownerRole : Role}
    (hcheck : b.checkBalanced parentRoomId ownerRole now = .ok set) :
    0 < set.sortedChildren.length := by
  simp only [BreakoutRegistry.checkBalanced, bind_ok_iff, failIf_ok_iff, found_ok_iff] at hcheck
  obtain ⟨-, -, set', -, -, -, -, hsome, hok⟩ := hcheck
  cases hok
  rw [sortedChildren, length_insertionSort]
  exact length_pos_of_ne_nil hsome

theorem nodup_sortedChildren (ha : Assignable set now) :
    (set.sortedChildren.map roomId).Nodup := by
  rw [sortedChildren, ((perm_insertionSort _ _).map roomId).nodup_iff]
  exact (filter_sublist.map roomId).nodup ha.children.nodup

/-- What is dealt from a set without live grants of the candidates. -/
theorem deal_dealtOut (hwithin : Within minBreakoutGrantMs maxBreakoutGrantMs (lasting ttlMs))
    (ha : Assignable set now) (hpos : 0 < set.sortedChildren.length) {peers : List TargetPeer}
    (hpeers : peers = eligiblePeers parentRoomId candidatePeers) {released : BreakoutSet}
    (hreleased : released = set.release (candidateKey peers) now) {result : BreakoutSet × List Grant}
    (hresult : result = deal parentRoomId set.sortedChildren occupiedByChild ttlMs now grantIds peers
      0 released []) :
    DealtOut parentRoomId candidatePeers occupiedByChild now set result.1 result.2 := by
  have har : Assignable released now := by
    rw [hreleased]
    exact ha.sameFrame rfl
  have hframe : result.1.frame = set.frame := by
    rw [hresult, deal_frame, hreleased]
    rfl
  have hchildren := children_of_frame hframe
  have hopen : result.1.openChildren = set.openChildren := by
    rw [openChildren, hchildren]
    rfl
  have hsorted {child : Child} : child ∈ result.1.openChildren ↔ child ∈ set.sortedChildren := by
    rw [hopen, sortedChildren, mem_insertionSort]
  constructor
  case children => exact hchildren
  case complete =>
    rw [hresult]
    rcases deal_held hwithin hpos har with hheld | hfull
    · refine .inl fun peer hpeer he => hheld peer ?_
      rw [hpeers, eligiblePeers, mem_insertionSort, mem_filter]
      exact ⟨hpeer, decide_eq_true he⟩
    · refine .inr fun child hchild => hfull child ?_
      rwa [← hresult, hsorted] at hchild
  case fits =>
    intro child hchild hfits
    rw [hchildren] at hchild
    rw [hresult]
    refine deal_fits hwithin har ?_ ?_ ?_
    · intro c hc
      rw [hreleased]
      exact mem_sortedChildren hc
    · rw [hreleased]
      exact hchild
    · rw [hreleased]
      exact load_release_le.trans hfits
  case turns =>
    intro hnodup c hc d hd hroom
    rw [hsorted] at hc hd
    obtain ⟨i, hi⟩ := mem_iff_getElem?.mp hc
    obtain ⟨j, hj⟩ := mem_iff_getElem?.mp hd
    have hfresh : Fresh released peers now := by
      rw [hreleased, hpeers]
      exact fresh_released hnodup
    rw [hresult] at hroom ⊢
    exact deal_turns hwithin (nodup_sortedChildren ha) hi hj hpos har hfresh hroom (le_refl _)

/-- **Balanced assignments.** In every registry that is reached, a balanced assignment that
passes its checks returns, with grants of a proper life. -/
theorem assignBalanced_deals (calls : List RegistryCall)
    (hcheck : (reached calls).checkBalanced parentRoomId .owner now = .ok set)
    (hwithin : Within minBreakoutGrantMs maxBreakoutGrantMs (lasting ttlMs)) :
    ∃ b' grants set', (reached calls).assignBalanced parentRoomId .owner candidatePeers ttlMs now
        occupiedByChild grantIds = (b', .ok grants)
      ∧ b'.sets.get parentRoomId = some set'
      ∧ DealtOut parentRoomId candidatePeers occupiedByChild now set set' grants := by
  obtain ⟨-, hset, ha⟩ := checkBalanced_ok (orderly_reached calls) hcheck
  have hpos := sortedChildren_pos hcheck
  rw [assignBalanced_run hcheck]
  have hsorted : ∀ child ∈ set.sortedChildren, child ∈ (set.release
      (candidateKey (eligiblePeers parentRoomId candidatePeers)) now).openChildren :=
    fun _ hchild => mem_sortedChildren hchild
  obtain ⟨b', hrun, hget⟩ := balance_deal hwithin released_get (ha.sameFrame rfl) hsorted
    fun _ hpeer => mem_eligiblePeers hpeer
  exact ⟨b', _, _, hrun, hget, deal_dealtOut hwithin ha hpos rfl rfl rfl⟩

/-! ## Two rooms, one of them filled before -/

/-- The owner of a room opens two child rooms for five each. -/
def fiveOpened : RegistryCall :=
  .openSet ⟨"room-one", "room", .room, .owner, 2, 5, none, []⟩
    ⟨"e0", fun index => toString index, fun index => ["child-" ++ toString index]⟩ 1

/-- Three people without a grant. -/
def threePeers : List TargetPeer :=
  ["ann", "ben", "cid"].map fun name => ⟨name, "room-one", name, "device-" ++ name, false⟩

/-- Two are in the first child room. -/
def twoInside : KeyedMap String Nat := KeyedMap.empty.set "brk-child-0" 2

def threeAssigned : BreakoutRegistry × Except String (List Grant) :=
  (reached [fiveOpened]).assignBalanced "room-one" .owner threePeers none 2 twoInside
    fun index => toString index

/-- The set of the room, and the one after the assignment. -/
def fiveSet : BreakoutSet := ((reached [fiveOpened]).sets.get "room-one").getD
  ⟨"", "", 0, .closed, 0, 0, [], []⟩

def threeSet : BreakoutSet := (threeAssigned.1.sets.get "room-one").getD
  ⟨"", "", 0, .closed, 0, 0, [], []⟩

def threeGrants : List Grant := threeAssigned.2.toOption.getD []

theorem assignBalanced_deals_three :
    ∃ b' grants set', threeAssigned = (b', .ok grants) ∧ b'.sets.get "room-one" = some set'
      ∧ DealtOut "room-one" threePeers twoInside 2 fiveSet set' grants :=
  assignBalanced_deals [fiveOpened] (by decide) (by decide)

/-- The children that got grants are as level as they can be with as many grants, each
getting one at least. -/
def Levelled (occupiedByChild : KeyedMap String Nat) (now : Nat) (low set' : BreakoutSet)
    (grants : List Grant) : Prop :=
  let children := set'.openChildren.filter fun child => decide (0 < dealtTo grants child)
  ∀ other : Child → Nat,
    (∀ c ∈ children, low.load occupiedByChild now c < other c ∧ other c ≤ c.capacity) →
    (children.map other).sum = (children.map (set'.load occupiedByChild now)).sum →
    ∀ gap, (∀ c ∈ children, ∀ d ∈ children, other c ≤ other d + gap) →
      ∀ c ∈ children, ∀ d ∈ children,
        set'.load occupiedByChild now c ≤ set'.load occupiedByChild now d + gap

/-- The room that was ahead gets two of the three: four are in it then and one in the other,
where it could be three and two. -/
theorem filled_room_not_levelled :
    ¬∀ b' grants set', threeAssigned = (b', .ok grants) → b'.sets.get "room-one" = some set' →
      Levelled twoInside 2 fiveSet set' grants := by
  intro h
  have hrun : threeAssigned = (threeAssigned.1, .ok threeGrants) := Prod.ext rfl (by decide)
  have hset : threeAssigned.1.sets.get "room-one" = some threeSet := by decide
  have hlevel := h _ _ _ hrun hset
    (fun child => if child.roomId = "brk-child-0" then 3 else 2) (by decide)
    (by decide) 1 (by decide)
  exact absurd hlevel (by decide)

end Breakout

end WebrtcMinimize
