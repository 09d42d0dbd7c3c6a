import WebrtcMinimize.BreakoutGrants
import WebrtcMinimize.RoomMembers

/-!
# A breakout assignment is a reservation

The rooms and the sets of a registry move together: a join takes the place
of the grant it uses up, an assignment counts who is there, closing a set
empties its rooms. `Reserves` is what every call keeps: the sets are booked
for those present, and nobody is in two rooms of a family.
-/

namespace WebrtcMinimize

open Checks Runs

namespace Rooms

open Breakout

namespace RoomRegistry

open FailsWith BreakoutRegistry KeyedMap List Option Nat

variable {r r' : RoomRegistry} {now now' : Nat} {roomId parentRoomId : String}

/-- Who is in a room: a principal on a device for each place. -/
def identities (r : RoomRegistry) (roomId : String) : List (String × String) :=
  (r.occupants roomId).map fun peer => (peer.principal, peer.deviceFingerprint)

theorem length_identities : (r.identities roomId).length = r.present roomId := length_map _

theorem identities_of_none (h : r.rooms.get roomId = none) : r.identities roomId = [] := by
  rw [identities, occupants, h]
  rfl

variable {room : Room}

theorem identities_of_some (h : r.rooms.get roomId = some room) : r.identities roomId
      = room.peers.values.map fun peer => (peer.principal, peer.deviceFingerprint) := by
  rw [identities, occupants, h]
  rfl

/-- A set's parent and the rooms of its children. -/
def family (parentRoomId : String) (set : BreakoutSet) : List String :=
  parentRoomId :: set.children.map Child.roomId

structure Reserves (r : RoomRegistry) (now : Nat) : Prop where
  registered : Registered r.breakouts
  booked : AllBooked r.present now r.breakouts
  kinds : ∀ {roomId parentRoomId : String} {room : Room},
    r.breakouts.byChild.get roomId = some parentRoomId → r.rooms.get roomId = some room →
    room.kind = .breakout
  known : ∀ {roomId parentRoomId : String}, r.breakouts.byChild.get roomId = some parentRoomId →
    ∀ i ∈ r.identities roomId, i.2 ≠ ""
  single : ∀ {parentRoomId : String} {set : BreakoutSet},
    r.breakouts.sets.get parentRoomId = some set → ∀ a ∈ family parentRoomId set,
    ∀ b ∈ family parentRoomId set, a ≠ b → ∀ i ∈ r.identities a, i ∉ r.identities b

theorem Reserves.later (h : Reserves r now) (hle : now ≤ now') : Reserves r now' where
  __ := h
  booked := fun hset => (h.booked hset).mono (fun _ _ => le_refl _) hle

theorem reserves_start {limits : Limits} {attached : Bool} : Reserves (start limits attached) now where
  registered := registered_empty
  booked := fun hset => by cases hset
  kinds := fun hchild => by cases hchild
  known := fun hchild => by cases hchild
  single := fun hset => by cases hset

variable {set : BreakoutSet}

theorem family_of_frame {set' : BreakoutSet} (h : set'.frame = set.frame) :
    family parentRoomId set' = family parentRoomId set := by
  rw [family, family, children_of_frame h]

/-! ## Calls that let nobody in -/

/-- The rooms are as full as before, or less. -/
structure Thinned (r r' : RoomRegistry) : Prop where
  identities : ∀ roomId, (r'.identities roomId).Sublist (r.identities roomId)
  kinds : ∀ {roomId : String} {room' : Room}, r'.rooms.get roomId = some room' →
    ∃ room, r.rooms.get roomId = some room ∧ room'.kind = room.kind

theorem Thinned.present_le (h : Thinned r r') (roomId : String) :
    r'.present roomId ≤ r.present roomId := by
  rw [← length_identities, ← length_identities]
  exact (h.identities roomId).length_le

theorem thinned_of_rooms (h : r'.rooms = r.rooms) : Thinned r r' where
  identities := by
    intro roomId
    rw [identities, identities, occupants, occupants, h]
  kinds := fun hroom => ⟨_, h ▸ hroom, rfl⟩

theorem Reserves.shrink (h : Reserves r now) (hthin : Thinned r r')
    (hregistered : Registered r'.breakouts) (hbooked : AllBooked r.present now r'.breakouts)
    (hchild : ∀ {roomId parent}, r'.breakouts.byChild.get roomId = some parent →
      r.breakouts.byChild.get roomId = some parent)
    (hold : ∀ {parent set'}, r'.breakouts.sets.get parent = some set' →
      ∃ set, r.breakouts.sets.get parent = some set ∧ set'.frame = set.frame) :
    Reserves r' now where
  registered := hregistered
  booked := fun hset => (hbooked hset).mono (fun child _ => hthin.present_le child.roomId)
    (le_refl _)
  kinds := by
    intro roomId parent room' hget hroom
    obtain ⟨room, hroom, hkind⟩ := hthin.kinds hroom
    exact hkind.trans (h.kinds (hchild hget) hroom)
  known := fun hget i hi => h.known (hchild hget) i ((hthin.identities _).subset hi)
  single := by
    intro parent set' hset a ha b hb hab i hi hi'
    obtain ⟨set, hget, hframe⟩ := hold hset
    rw [family_of_frame hframe] at ha hb
    exact h.single hget a ha b hb hab i ((hthin.identities a).subset hi)
      ((hthin.identities b).subset hi')

theorem Reserves.regrant (h : Reserves r now) {b : BreakoutRegistry}
    (hb : Regranted r.present now r.breakouts b) : Reserves (r.withBreakouts b) now :=
  h.shrink (thinned_of_rooms rfl) (h.registered.sameFrame hb.toSameFrame) (hb.booked h.booked)
    (fun hget => hb.byChild ▸ hget) hb.old

theorem thinned_of_set {room' : Room} (hroom : r.rooms.get roomId = some room)
    (hsub : (room'.peers.values.map fun peer => (peer.principal, peer.deviceFingerprint)).Sublist
      (room.peers.values.map fun peer => (peer.principal, peer.deviceFingerprint)))
    (hkind : room'.kind = room.kind) :
    Thinned r { r with rooms := r.rooms.set roomId room' } where
  identities := by
    intro other
    by_cases hother : other = roomId
    · subst hother
      rw [identities_of_some hroom, identities_of_some (get_set_self _ _ _)]
      exact hsub
    · rw [identities, identities, occupants, occupants, get_set_of_ne _ _ hother]
  kinds := by
    intro other room'' hget
    rcases get_set_some hget with ⟨hother, rfl⟩ | ⟨-, hget⟩
    · exact ⟨room, hother ▸ hroom, hkind⟩
    · exact ⟨room'', hget, rfl⟩

theorem thinned_of_keep (p : String → Room → Bool) (h : r'.rooms = r.rooms.keep p) :
    Thinned r r' where
  identities := by
    intro other
    cases hget : r'.rooms.get other with
    | none =>
        rw [identities_of_none hget]
        exact nil_sublist _
    | some room =>
        rw [identities_of_some hget]
        rw [h] at hget
        rw [identities_of_some (get_keep_eq_some_iff.mp hget).1]
  kinds := by
    intro other room hget
    rw [h] at hget
    exact ⟨_, (get_keep_eq_some_iff.mp hget).1, rfl⟩

theorem thinned_leave (handle : Handle) : Thinned r (r.leave handle now).1 := by
  rw [leave]
  split
  · exact thinned_of_rooms rfl
  · rename_i room hroom
    split
    · exact thinned_of_rooms rfl
    · simp only
      split
      · exact thinned_of_keep (fun other _ => decide (other ≠ handle.roomId)) rfl
      · exact thinned_of_set hroom ((values_keep_sublist _ _).map _) rfl

@[simp] theorem applyMedia_principal {peer : Peer} {media : Media} :
    (applyMedia peer media).principal = peer.principal := by
  rw [applyMedia, publish]
  split <;> split <;> rfl

theorem thinned_setMediaState (handle : Handle) (media : Media) :
    Thinned r (r.setMediaState handle media now).1 := by
  rw [setMediaState]
  split
  · exact thinned_of_rooms rfl
  · rename_i room hroom
    split
    · exact thinned_of_rooms rfl
    · rename_i peer hpeer
      split
      · exact thinned_of_rooms rfl
      · have hsame : ((room.peers.set handle.id (applyMedia peer media)).values.map
              fun peer => (peer.principal, peer.deviceFingerprint))
            = room.peers.values.map fun peer => (peer.principal, peer.deviceFingerprint) :=
          map_values_set hpeer (by
            rw [applyMedia_principal, applyMedia_deviceFingerprint])
        exact thinned_of_set hroom (hsame ▸ List.Sublist.refl _) rfl

theorem leave_breakouts (handle : Handle) : (r.leave handle now).1.breakouts = r.breakouts := by
  rw [leave]
  split
  · rfl
  · split
    · rfl
    · simp only
      split <;> rfl

theorem setMediaState_breakouts (handle : Handle) (media : Media) :
    (r.setMediaState handle media now).1.breakouts = r.breakouts := by
  rw [setMediaState]
  split
  · rfl
  · split
    · rfl
    · split <;> rfl

theorem Reserves.thin (h : Reserves r now) (hthin : Thinned r r')
    (hb : r'.breakouts = r.breakouts) : Reserves r' now :=
  h.shrink hthin (hb ▸ h.registered) (hb ▸ h.booked) (fun hget => hb ▸ hget)
    fun hset => ⟨_, hb ▸ hset, rfl⟩

/-! ## Closing -/

theorem Reserves.closeBreakouts (h : Reserves r now) :
    Reserves (r.closeBreakouts parentRoomId).1 now := by
  rw [RoomRegistry.closeBreakouts]
  rcases closeSet_cases r.breakouts parentRoomId with heq | ⟨set, hset, heq⟩
  · rw [heq]
    exact h
  · rw [heq]
    refine h.shrink (thinned_of_keep (fun roomId _ =>
      decide (roomId ∉ set.children.map Child.roomId)) rfl) (h.registered.closed hset) ?_ ?_ ?_
    · exact fun hget => h.booked (get_keep_eq_some_iff.mp hget).1
    · exact fun hget => (get_keep_eq_some_iff.mp hget).1
    · exact fun hget => ⟨_, (get_keep_eq_some_iff.mp hget).1, rfl⟩

theorem Reserves.prune (h : Reserves r now) : Reserves (r.prune now) now := by
  have hclosed : ∀ (parents : List String) (r : RoomRegistry), Reserves r now →
      Reserves (parents.foldl (fun r parentRoomId => (r.closeBreakouts parentRoomId).1) r) now := by
    intro parents
    induction parents with
    | nil => exact fun _ h => h
    | cons parent parents ih => exact fun r h => ih _ h.closeBreakouts
  exact (hclosed _ r h).thin (thinned_of_keep (fun _ room =>
    decide (¬(room.peers.size = 0 ∧ r.limits.idleTtlMs + room.updatedAt ≤ now))) rfl) rfl

/-! ## Joining -/

theorem snapshot_children (now : Nat) (h : Registered r.breakouts)
    (hset : r.breakouts.sets.get parentRoomId = some set) : ∃ snapshot,
      r.breakouts.snapshot parentRoomId now = some snapshot ∧ snapshot.children = set.children := by
  obtain ⟨hstate, hchildren⟩ := h.opened hset
  have hclosed : ¬set.state = .closed := by
    rw [hstate]
    decide
  have hkept : set.children.filter (fun child => decide (child.state ≠ .closed)) = set.children := by
    refine filter_eq_self.mpr fun child hchild => decide_eq_true ?_
    rw [hchildren child hchild]
    decide
  simp only [snapshot, hset, bind_eq_bind, bind_some]
  rw [if_neg hclosed]
  exact ⟨_, rfl, hkept⟩

theorem breakoutFamily_eq (h : Registered r.breakouts)
    (hset : r.breakouts.sets.get parentRoomId = some set) (hroom : roomId ∈ family parentRoomId set) :
    r.breakoutFamily roomId now = family parentRoomId set := by
  obtain ⟨hne, htop⟩ := h.top hset
  obtain ⟨snapshot, hsnapshot, hchildren⟩ := snapshot_children now h hset
  have hparent : orElse (r.breakouts.parentOf roomId)
      (if (r.breakouts.snapshot roomId now).isSome then roomId else "") = parentRoomId := by
    rcases mem_cons.mp hroom with rfl | hmem
    · rw [parentOf, htop, getD_none, orElse, if_pos rfl, hsnapshot]
      rfl
    · obtain ⟨child, hchild, rfl⟩ := mem_map.mp hmem
      rw [parentOf, h.parents hset hchild, getD_some, orElse, if_neg hne]
  rw [breakoutFamily, hparent, if_neg hne, hsnapshot, elim_some, hchildren]
  rfl

/-- What the first part of a join leaves for the rest. -/
structure Taken (r : RoomRegistry) (roomId : String) (admission : Admission) (now : Nat)
    (b : BreakoutRegistry) (reserved : Option Reserved) : Prop where
  frame : SameFrame r.breakouts b
  booked : AllBooked (oneMore r.present roomId) now b
  single : r.checkSingleMembership roomId admission now = .ok ()
  child : ∀ {parent}, r.breakouts.byChild.get roomId = some parent →
    reserved.isSome = true ∧ admission.deviceFingerprint ≠ ""

variable {admission : Admission} {b : BreakoutRegistry} {reserved : Option Reserved}

theorem takeGrant_ok (h : r.takeGrant roomId admission now = .ok (b, reserved)) :
    r.checkSingleMembership roomId admission now = .ok () ∧
      ((∃ res, reserved = some res ∧ BreakoutRegistry.Consumed r.breakouts b roomId
          admission.principal admission.deviceFingerprint now res)
        ∨ r.breakouts.reserved roomId = none ∧ b = r.breakouts) := by
  rw [takeGrant] at h
  cases hreserved : r.breakouts.reserved roomId with
  | some res =>
      rw [hreserved] at h
      simp only [bind_ok_iff, failIf_ok_iff] at h
      obtain ⟨-, -, _, hsingle, res', hconsume, hok⟩ := h
      cases hok
      exact ⟨hsingle, .inl ⟨res', rfl, consume_ok hconsume⟩⟩
  | none =>
      rw [hreserved] at h
      simp only [bind_ok_iff, failIf_ok_iff] at h
      obtain ⟨-, -, _, hsingle, hok⟩ := h
      cases hok
      exact ⟨hsingle, .inr ⟨rfl, rfl⟩⟩

theorem Reserves.taken (h : Reserves r now) (hnow : 0 < now)
    (hgrant : r.takeGrant roomId admission now = .ok (b, reserved)) :
    Taken r roomId admission now b reserved := by
  obtain ⟨hapart, ⟨res, rfl, hused⟩ | ⟨hnone, rfl⟩⟩ := takeGrant_ok hgrant
  · exact {
      frame := hused.sameFrame
      booked := hused.booked h.registered h.booked hnow
      single := hapart
      child := fun _ => ⟨rfl, (hused.named h.booked).2⟩ }
  · -- a room that is not reserved is no child, so its occupants do not count
    have hchild : r.breakouts.byChild.get roomId = none := by
      by_contra hne
      obtain ⟨parent, hparent⟩ := ne_none_iff_exists'.mp hne
      have hsome := reserved_of_child h.registered hparent
      rw [hnone] at hsome
      cases hsome
    refine {
      frame := ⟨rfl, fun _ => rfl⟩
      booked := fun {parent set} hset => (h.booked hset).mono (fun child hmem => ?_) (le_refl _)
      single := hapart
      child := fun hparent => by rw [hchild] at hparent; cases hparent }
    rw [oneMore, if_neg, add_zero]
    intro hroom
    have hparent := h.registered.parents hset hmem
    rw [hroom, hchild] at hparent
    cases hparent

theorem Reserves.apart (h : Reserves r now) (ht : Taken r roomId admission now b reserved)
    (hprincipal : admission.principal ≠ "")
    (hset : r.breakouts.sets.get parentRoomId = some set) (hroom : roomId ∈ family parentRoomId set)
    {other : String} (hother : other ∈ family parentRoomId set) (hne : other ≠ roomId) :
    (admission.principal, admission.deviceFingerprint) ∉ r.identities other := by
  intro hmem
  by_cases hdevice : admission.deviceFingerprint = ""
  · -- without a device only the parent can be joined, and a child's members have one
    rcases mem_cons.mp hroom with rfl | hchild
    · obtain ⟨child, hc, rfl⟩ := mem_map.mp ((mem_cons.mp hother).resolve_left hne)
      exact h.known (h.registered.parents hset hc) _ hmem hdevice
    · obtain ⟨child, hc, rfl⟩ := mem_map.mp hchild
      exact (ht.child (h.registered.parents hset hc)).2 hdevice
  · have hsingle := ht.single
    rw [checkSingleMembership, if_neg (not_or.mpr ⟨hprincipal, hdevice⟩), failIf_ok_iff,
      breakoutFamily_eq h.registered hset hroom] at hsingle
    obtain ⟨peer, hpeer, hsame⟩ := mem_map.mp hmem
    obtain ⟨hp, hd⟩ := Prod.mk.injEq .. ▸ hsame
    refine hsingle (any_eq_true.mpr ⟨other, hother, ?_⟩)
    rw [Bool.and_eq_true, decide_eq_true_eq]
    exact ⟨hne, any_eq_true.mpr ⟨peer, hpeer, decide_eq_true ⟨hp, hd⟩⟩⟩

theorem identities_openRoom (admission : Admission) (reserved : Option Reserved) (now : Nat) :
    r.identities roomId
    = (r.openRoom roomId admission reserved now).peers.values.map
      fun peer => (peer.principal, peer.deviceFingerprint) := by
  rw [openRoom]
  cases hroom : r.rooms.get roomId with
  | none =>
      rw [identities_of_none hroom]
      rfl
  | some room =>
      rw [identities_of_some hroom]
      rfl

/-- The room that is joined, with at most the joining member more. -/
theorem Reserves.enter (h : Reserves r now) (ht : Taken r roomId admission now b reserved)
    (hprincipal : admission.principal ≠ "") {room' : Room}
    (hkind : room'.kind = (r.openRoom roomId admission reserved now).kind)
    {extra : List (String × String)}
    (hextra : extra.Sublist [(admission.principal, admission.deviceFingerprint)])
    (hpeers : (room'.peers.values.map fun peer => (peer.principal, peer.deviceFingerprint))
      = r.identities roomId ++ extra) :
    Reserves { r with breakouts := b, rooms := r.rooms.set roomId room' } now := by
  have hids : ∀ other, other ≠ roomId →
      identities { r with breakouts := b, rooms := r.rooms.set roomId room' } other
        = r.identities other := by
    intro other hne
    rw [identities, identities, occupants, occupants, get_set_of_ne _ _ hne]
  have hself : identities { r with breakouts := b, rooms := r.rooms.set roomId room' } roomId
      = r.identities roomId ++ extra := by
    rw [identities_of_some (get_set_self _ _ _), hpeers]
  have hmem : ∀ i ∈ extra, i = (admission.principal, admission.deviceFingerprint) :=
    fun i hi => mem_singleton.mp (hextra.subset hi)
  constructor
  case registered => exact h.registered.sameFrame ht.frame
  case booked =>
    intro parent set hset
    refine (ht.booked hset).mono (fun child _ => ?_) (le_refl _)
    rw [oneMore, ← length_identities, ← length_identities]
    by_cases hroom : child.roomId = roomId
    · rw [hroom, hself, length_append, if_pos rfl]
      exact Nat.add_le_add_left hextra.length_le _
    · rw [hids _ hroom, if_neg hroom]
      exact le_refl _
  case kinds =>
    intro other parent room hget hroom
    have hold : r.breakouts.byChild.get other = some parent := ht.frame.byChild ▸ hget
    rw [get_set] at hroom
    split at hroom
    · rename_i hother
      subst hother
      cases hroom
      rw [hkind, openRoom]
      cases hexists : r.rooms.get other with
      | none => exact if_pos (ht.child hold).1
      | some room => exact h.kinds hold hexists
    · exact h.kinds hold hroom
  case known =>
    intro other parent hget i hi
    have hold : r.breakouts.byChild.get other = some parent := ht.frame.byChild ▸ hget
    by_cases hother : other = roomId
    · subst hother
      rw [hself] at hi
      rcases mem_append.mp hi with hi | hi
      · exact h.known hold i hi
      · rw [hmem i hi]
        exact (ht.child hold).2
    · rw [hids _ hother] at hi
      exact h.known hold i hi
  case single =>
    intro parent set' hset a ha c hc hac i hi hi'
    obtain ⟨set, hget, hframe⟩ := ht.frame.old hset
    rw [family_of_frame hframe] at ha hc
    by_cases har : a = roomId
    · subst har
      rw [hids _ (Ne.symm hac)] at hi'
      rw [hself] at hi
      rcases mem_append.mp hi with hi | hi
      · exact h.single hget _ ha _ hc hac i hi hi'
      · exact h.apart ht hprincipal hget ha hc (Ne.symm hac) (hmem i hi ▸ hi')
    · rw [hids _ har] at hi
      by_cases hcr : c = roomId
      · subst hcr
        rw [hself] at hi'
        rcases mem_append.mp hi' with hi' | hi'
        · exact h.single hget _ ha _ hc hac i hi hi'
        · exact h.apart ht hprincipal hget hc ha hac (hmem i hi' ▸ hi)
      · rw [hids _ hcr] at hi'
        exact h.single hget _ ha _ hc hac i hi hi'

theorem Reserves.join (h : Reserves r now) (hnow : 0 < now) {name peerId : String}
    (hprincipal : admission.principal ≠ "") (hdrawn : r.member ⟨roomId, peerId⟩ = none) :
    Reserves (r.join roomId name now admission peerId).1 now := by
  rw [RoomRegistry.join]
  cases hgrant : r.takeGrant roomId admission now with
  | error code => exact h
  | ok taken =>
      obtain ⟨b, reserved⟩ := taken
      have ht := h.taken hnow hgrant
      cases hmode : checkMode admission with
      | error code =>
          refine h.shrink (thinned_of_rooms rfl) (h.registered.sameFrame ht.frame) ?_
            (fun hget => ht.frame.byChild ▸ hget) ht.frame.old
          exact fun hset => (ht.booked hset).mono (fun _ _ => le_add_right _ _) (le_refl _)
      | ok done =>
          cases hcheck : r.checkRoom (r.openRoom roomId admission reserved now) admission
              reserved with
          | error code =>
              simp only [hcheck]
              refine h.enter ht hprincipal rfl (nil_sublist _) ?_
              rw [append_nil, identities_openRoom]
          | ok done =>
              simp only [hcheck]
              refine h.enter ht hprincipal rfl (List.Sublist.refl _) ?_
              have hfree : (r.openRoom roomId admission reserved now).peers.get peerId = none := by
                rw [openRoom]
                rw [member] at hdrawn
                cases hroom : r.rooms.get roomId with
                | none => rfl
                | some room =>
                    rw [hroom] at hdrawn
                    exact hdrawn
              rw [values_set_of_none hfree, map_append, identities_openRoom admission reserved now]
              simp only [map_singleton, newPeer, orElse, if_neg hprincipal]

/-! ## Opening -/

/-- The identifiers that are in use. -/
def usedIds (r : RoomRegistry) : List String :=
  r.rooms.keys ++ r.breakouts.byChild.keys ++ r.breakouts.sets.keys

theorem actorRoom_ok {actor : Handle} {peer : Peer}
    (h : r.actorRoom actor = .ok (room, peer)) : r.rooms.get actor.roomId = some room := by
  simp only [actorRoom, bind_ok_iff, found_ok_iff] at h
  obtain ⟨room', hroom, peer', -, -, -, hok⟩ := h
  cases hok
  exact hroom

theorem Reserves.opened (h : Reserves r now) {actor : Handle}
    (hroom : r.rooms.get actor.roomId = some room) {b : BreakoutRegistry}
    {request : OpenRequest} (hparent : request.parentRoomId = actor.roomId)
    (hkind : request.parentKind = room.kind)
    (ho : Opened r.breakouts b request set r.usedIds) : Reserves (r.withBreakouts b) now := by
  have hrooms : ∀ {x}, x ∈ r.rooms.keys → x ∈ r.usedIds := fun hx =>
    mem_append_left _ (mem_append_left _ hx)
  have hempty : ∀ child ∈ set.children, r.rooms.get child.roomId = none := by
    intro child hchild
    by_contra hne
    obtain ⟨room', hget⟩ := ne_none_iff_exists'.mp hne
    exact ho.fresh child hchild (hrooms (mem_keys_iff.mpr ⟨room', hget⟩))
  have hfree : r.breakouts.byChild.get request.parentRoomId = none := by
    by_contra hne
    obtain ⟨parent, hget⟩ := ne_none_iff_exists'.mp hne
    exact ho.kind (hkind.trans (h.kinds hget (hparent ▸ hroom)))
  constructor
  case registered =>
    refine h.registered.openSet ho (fun x hx => ?_) (fun x hx => ?_) ?_ hfree
    · exact mem_append_left _ (mem_append_right _ hx)
    · exact mem_append_right _ hx
    · exact hrooms (mem_keys_iff.mpr ⟨room, hparent ▸ hroom⟩)
  case booked =>
    intro parent s hget
    rcases ho.get_set hget with ⟨-, rfl⟩ | ⟨-, hget⟩
    · refine ⟨ho.nodup, fun child hchild => ?_, fun grant hgrant => ?_⟩
      · have hpresent : r.present child.roomId = 0 := by
          rw [← length_identities, identities_of_none (hempty child hchild), length_nil]
        have hwaiting : s.waiting child.roomId now = 0 := by
          rw [BreakoutSet.waiting, ho.grants, countP_nil]
        have hgoal : r.present child.roomId + s.waiting child.roomId now ≤ child.capacity := by
          omega
        exact hgoal
      · rw [ho.grants] at hgrant
        cases hgrant
    · exact h.booked hget
  case kinds =>
    intro x parent room' hget hroom'
    have hentered := ho.entered x
    rw [show (r.withBreakouts b).breakouts = b from rfl, hentered] at hget
    split at hget
    · rename_i hmem
      obtain ⟨child, hchild, rfl⟩ := mem_map.mp hmem
      have hnone := hempty child hchild
      rw [show (r.withBreakouts b).rooms = r.rooms from rfl, hnone] at hroom'
      cases hroom'
    · exact h.kinds hget hroom'
  case known =>
    intro x parent hget i hi
    rw [show (r.withBreakouts b).breakouts = b from rfl, ho.entered x] at hget
    split at hget
    · rename_i hmem
      obtain ⟨child, hchild, rfl⟩ := mem_map.mp hmem
      have hnone : (r.withBreakouts b).identities child.roomId = [] :=
        identities_of_none (hempty child hchild)
      rw [hnone] at hi
      cases hi
    · exact h.known hget i hi
  case single =>
    intro parent s hget a ha c hc hac i hi hi'
    rcases ho.get_set hget with ⟨rfl, rfl⟩ | ⟨-, hget⟩
    · -- one of the two rooms is a child, and nobody is in it
      have hnone : ∀ {x}, x ∈ s.children.map Child.roomId → r.identities x = [] := by
        intro x hx
        obtain ⟨child, hchild, rfl⟩ := mem_map.mp hx
        exact identities_of_none (hempty child hchild)
      have hi₁ : i ∈ r.identities a := hi
      have hi₂ : i ∈ r.identities c := hi'
      rcases mem_cons.mp ha with rfl | ha
      · rcases mem_cons.mp hc with rfl | hc
        · exact hac rfl
        · rw [hnone hc] at hi₂
          cases hi₂
      · rw [hnone ha] at hi₁
        cases hi₁
    · exact h.single hget a ha c hc hac i hi hi'

theorem Reserves.openBreakouts (h : Reserves r now) {actor : Handle} {childCount capacity : Int}
    {lifetimeMs : Option Int} {draws : Draws} (hdrawn : DrawnRooms r.usedIds draws) :
    Reserves (r.openBreakouts actor childCount capacity lifetimeMs draws now).1 now := by
  rw [RoomRegistry.openBreakouts, onBreakouts]
  cases hactor : r.actorRoom actor with
  | error code => exact h
  | ok found =>
      obtain ⟨room, peer⟩ := found
      have hroom := actorRoom_ok hactor
      have hused : actor.roomId :: r.rooms.keys ++ r.breakouts.byChild.keys ⊆ r.usedIds := by
        intro x hx
        rcases mem_append.mp hx with hx | hx
        · rcases mem_cons.mp hx with rfl | hx
          · exact mem_append_left _ (mem_append_left _ (mem_keys_iff.mpr ⟨room, hroom⟩))
          · exact mem_append_left _ (mem_append_left _ hx)
        · exact mem_append_left _ (mem_append_right _ hx)
      have hopen : ∀ request : OpenRequest, request.parentRoomId = actor.roomId →
          request.parentKind = room.kind → request.occupiedRoomIds = r.rooms.keys →
          Reserves (r.withBreakouts (r.breakouts.openSet request draws now).1) now := by
        intro request hparent hkind hoccupied
        rw [← hparent, ← hoccupied] at hused
        rcases openSet_cases r.breakouts request now hdrawn hused with heq | ⟨set, hopened⟩
        · rw [heq]
          exact h
        · exact h.opened hroom hparent hkind hopened
      exact hopen _ rfl rfl rfl

/-! ## Runs -/

theorem occupancy_occupiedByChild {x parent : String}
    (h : r.breakouts.byChild.get x = some parent) :
    occupancy r.occupiedByChild x = r.present x := by
  rw [occupancy, occupiedByChild, get_mapValues, h]
  rfl

theorem Reserves.onBreakouts (h : Reserves r now) {α : Type} {actor : Handle}
    {call : Room → Peer → BreakoutRegistry × Except String α}
    (hcall : ∀ room peer, Regranted r.present now r.breakouts (call room peer).1) :
    Reserves (r.onBreakouts actor call).1 now := by
  rw [RoomRegistry.onBreakouts]
  split
  · exact h
  · exact h.regrant (hcall _ _)

/-- What the callers and the random source promise: a join names its
principal, and what is drawn for the rooms of a set is new. -/
def Promised (r : RoomRegistry) (e : Event) : Prop :=
  match e.call with
  | .join _ _ admission _ => admission.principal ≠ ""
  | .openBreakouts _ _ _ _ draws => DrawnRooms r.usedIds draws
  | _ => True

/-- **Step lemma.** Every call keeps the reservations. -/
theorem Reserves.step {e : Event} (h : Reserves r e.now) (hnow : 0 < e.now)
    (hstep : Step r e r') (hpromise : r.Promised e) : Reserves r' e.now := by
  obtain ⟨rfl, hdrawn⟩ := hstep
  obtain ⟨call, now⟩ := e
  have hocc : ∀ {parent set child}, r.breakouts.sets.get parent = some set →
      child ∈ set.children → r.present child.roomId ≤ occupancy r.occupiedByChild child.roomId := by
    intro parent set child hset hchild
    rw [occupancy_occupiedByChild (h.registered.parents hset hchild)]
  cases call with
  | join roomId name admission peerId => exact h.join hnow hpromise hdrawn
  | leave handle => exact h.thin (thinned_leave handle) (leave_breakouts handle)
  | setMediaState handle media =>
      exact h.thin (thinned_setMediaState handle media) (setMediaState_breakouts handle media)
  | openBreakouts actor childCount capacity lifetimeMs draws => exact h.openBreakouts hpromise
  | assignBreakout actor targetPeerId childRoomId ttlMs grantId =>
      exact h.onBreakouts fun _ _ => assign_regranted (le_refl _)
  | revokeBreakout actor grantId =>
      exact h.onBreakouts fun _ _ => revoke_regranted
  | assignBreakoutsBalanced actor ttlMs grantIds =>
      exact h.onBreakouts fun _ _ => assignBalanced_regranted hocc
  | chooseBreakout actor childRoomId ttlMs grantId =>
      exact h.onBreakouts fun _ _ => place_regranted (le_refl _)
  | resolveBreakoutJoin actor preferredChildRoomId ttlMs grantId =>
      exact h.onBreakouts fun _ _ => resolveAssignment_regranted hocc
  | closeBreakouts parentRoomId => exact h.closeBreakouts
  | prune => exact h.prune

/-- **Run lemma.** Along a run with a clock the reservations hold at the time
of the last call. -/
theorem Reserves.run {limits : Limits} {attached : Bool} {clock : Nat} {es : List Event}
    (hclock : 0 < clock)
    (h : Path (Clocked (Guarded Step Promised) Event.now) (start limits attached, clock) es
      (r, now)) : 0 < now ∧ Reserves r now := by
  have hinv := h.inv (I := fun s => 0 < s.2 ∧ Reserves s.1 s.2) ?_ ⟨hclock, reserves_start⟩
  · exact hinv
  · rintro ⟨s, t⟩ e ⟨s', t'⟩ ⟨⟨hstep, hpromise⟩, hle, rfl⟩ ⟨hpos, hs⟩
    have hnow : 0 < e.now := lt_of_lt_of_le hpos hle
    exact ⟨hnow, (hs.later hle).step hnow hstep hpromise⟩

/-! ## No holder of a grant finds the room full -/

theorem failsWith_found {α : Type} {codes : List String} {o : Option α} {code : String}
    (h : code ∈ codes) : FailsWith codes (found o code) := by
  cases o with
  | some a => exact ok a
  | none => exact error h

/-- The codes of the first part of a join. -/
def takeCodes : List String :=
  ["breakout_pair_denied", "breakout_parallel_membership", "breakout_assignment_required",
    "breakout_expired"]

theorem failsWith_checkSingleMembership :
    FailsWith takeCodes (r.checkSingleMembership roomId admission now) := by
  rw [checkSingleMembership]
  split
  · exact ok ()
  · exact failIf (by decide)

theorem failsWith_consume {b : BreakoutRegistry} {setId principal deviceFingerprint : String} :
    FailsWith takeCodes (b.consume roomId setId principal deviceFingerprint now).2 := by
  have hcheck : FailsWith takeCodes (b.checkConsume roomId setId principal deviceFingerprint now) := by
    refine bind (failsWith_found (by decide)) fun reserved => ?_
    refine bind (failIf (by decide)) fun _ => ?_
    exact bind (failsWith_found (by decide)) fun set => ok _
  rw [consume]
  split
  · rename_i code herror
    exact error (hcheck code herror)
  · exact ok _

theorem failsWith_takeGrant : FailsWith takeCodes (r.takeGrant roomId admission now) := by
  rw [takeGrant]
  split
  · refine bind (failIf (by decide)) fun _ => ?_
    refine bind failsWith_checkSingleMembership fun _ => ?_
    exact bind failsWith_consume fun _ => ok _
  · refine bind (failIf (by decide)) fun _ => ?_
    exact bind failsWith_checkSingleMembership fun _ => ok _

theorem failsWith_checkMode : FailsWith ["invalid_room_mode", "machine_pair_denied",
    "machine_client_upgrade_required"] (checkMode admission) := by
  refine bind (failIf (by decide)) fun _ => ?_
  refine bind (failIf (by decide)) fun _ => ?_
  exact failIf (by decide)

/-- The room is found to be full only at the capacity that was reserved. -/
theorem checkRoom_full (h : r.checkRoom room admission reserved = .error "room_full") :
    room.capacity = r.capacityFor admission reserved ∧ room.capacity ≤ room.peers.size := by
  simp only [checkRoom, bind_error_iff, failIf_error_iff, failIf_ok_iff] at h
  rcases h with ⟨-, h⟩ | ⟨-, hmode, h⟩
  · exact absurd h (by decide)
  rcases h with ⟨-, h⟩ | ⟨-, -, h⟩
  · exact absurd h (by decide)
  rcases h with ⟨-, h⟩ | ⟨-, -, h⟩
  · exact absurd h (by decide)
  rcases h with ⟨-, h⟩ | ⟨-, -, hfull, -⟩
  · exact absurd h (by decide)
  push Not at hmode
  exact ⟨hmode.2, hfull⟩

theorem Reserves.not_full (h : Reserves r now) (hnow : 0 < now) {name peerId : String}
    (hreserved : (r.breakouts.reserved roomId).isSome = true) :
    (r.join roomId name now admission peerId).2 ≠ .error "room_full" := by
  intro hfull
  rw [RoomRegistry.join] at hfull
  cases hgrant : r.takeGrant roomId admission now with
  | error code =>
      rw [hgrant] at hfull
      have hcode := failsWith_takeGrant code hgrant
      obtain rfl := Except.error.inj hfull
      exact absurd hcode (by decide)
  | ok taken =>
      obtain ⟨b, reserved⟩ := taken
      rw [hgrant] at hfull
      cases hmode : checkMode admission with
      | error code =>
          rw [hmode] at hfull
          have hcode := failsWith_checkMode code hmode
          obtain rfl := Except.error.inj hfull
          exact absurd hcode (by decide)
      | ok done =>
          cases hcheck : r.checkRoom (r.openRoom roomId admission reserved now) admission
              reserved with
          | ok done =>
              simp only [hmode, hcheck] at hfull
              cases hfull
          | error code =>
              simp only [hmode, hcheck] at hfull
              obtain rfl := Except.error.inj hfull
              obtain ⟨hcapacity, hsize⟩ := checkRoom_full hcheck
              have ht := h.taken hnow hgrant
              obtain ⟨-, ⟨res, rfl, hused⟩ | ⟨hnone, -⟩⟩ := takeGrant_ok hgrant
              · obtain ⟨-, set, hset, hchild, hroom, -⟩ := reserved_some hused.hreserved
                obtain ⟨set', hset', hframe⟩ := ht.frame.new hset
                have hfits := (ht.booked hset').fits res.child (children_of_frame hframe ▸ hchild)
                have hsame : r.present roomId
                    = (r.openRoom roomId admission (some res) now).peers.size := by
                  rw [← length_identities, identities_openRoom admission (some res) now, length_map]
                  rfl
                have hcap : r.capacityFor admission (some res) = res.child.capacity := rfl
                rw [hroom, oneMore, if_pos rfl] at hfits
                omega
              · rw [hnone] at hreserved
                cases hreserved

/-! ## The reservation -/

/-- The live grants for a child whose holders are not in it. -/
def reservations (r : RoomRegistry) (set : BreakoutSet) (childRoomId : String) (now : Nat) : Nat :=
  set.grants.countP fun grant =>
    grant.live now && decide (grant.childRoomId = childRoomId)
      && decide ((grant.principal, grant.deviceFingerprint) ∉ r.identities childRoomId)

theorem reservations_le : r.reservations set roomId now ≤ set.waiting roomId now := by
  refine countP_mono_left fun grant _ h => ?_
  rw [Bool.and_eq_true] at h
  exact h.1

/-- **A breakout assignment is a reservation.** In every reachable registry,
from the time of the last call on, the peers in an open child and the live
grants of those who are not in it have a place there; who holds a live grant
and joins is not told that the room is full; and nobody is in two rooms of a
family on one device. -/
theorem assignment_reserves {limits : Limits} {attached : Bool} {clock : Nat} {es : List Event}
    (hclock : 0 < clock)
    (h : Path (Clocked (Guarded Step Promised) Event.now) (start limits attached, clock) es
      (r, now)) :
    (∀ parentRoomId set child time, now ≤ time →
      r.breakouts.sets.get parentRoomId = some set → child ∈ set.children →
      child.state = .opened →
        r.present child.roomId + r.reservations set child.roomId time ≤ child.capacity)
    ∧ (∀ roomId name admission peerId time, now ≤ time →
      r.hasLiveBreakoutGrant roomId admission.principal admission.deviceFingerprint time = true →
        (r.join roomId name time admission peerId).2 ≠ .error "room_full")
    ∧ ∀ parentRoomId set, r.breakouts.sets.get parentRoomId = some set →
      ∀ a ∈ family parentRoomId set, ∀ b ∈ family parentRoomId set, a ≠ b →
        ∀ p ∈ r.occupants a, ∀ q ∈ r.occupants b,
          ¬(p.principal = q.principal ∧ p.deviceFingerprint = q.deviceFingerprint) := by
  obtain ⟨hnow, hr⟩ := Reserves.run hclock h
  refine ⟨?_, ?_, ?_⟩
  · intro parent set child time hle hset hchild _
    have hfits := ((hr.later hle).booked hset).fits child hchild
    exact (Nat.add_le_add_left reservations_le _).trans hfits
  · intro roomId name admission peerId time hle hgrant
    refine (hr.later hle).not_full (lt_of_lt_of_le hnow hle) ?_
    rw [hasLiveBreakoutGrant, hasLiveGrant] at hgrant
    split at hgrant
    · cases hgrant
    · rename_i hreserved
      rw [hreserved, isSome_some]
  · intro parent set hset a ha b hb hab p hp q hq hsame
    refine hr.single hset a ha b hb hab _ (mem_map_of_mem hp) ?_
    rw [hsame.1, hsame.2]
    exact mem_map_of_mem hq

/-! ### One assignment -/

/-- The admission of somebody to a room, on a device named after them. -/
def roomAdmission (principal : String) : Admission :=
  ⟨"room", principal, "device-" ++ principal, false, 0, "", "", ""⟩

/-- Texts of one digit, one digit for each child. -/
def digitDraws : Draws where
  setId := "set-one"
  childId := fun index => String.ofList [digitChar index]
  room := fun index => [String.ofList (replicate 24 (digitChar index))]

def annJoins : Event := ⟨.join "room-one" "Ann" (roomAdmission "ann") "a0", 1⟩

def benJoins : Event := ⟨.join "room-one" "Ben" (roomAdmission "ben") "b0", 2⟩

def annOpens : Event := ⟨.openBreakouts ⟨"room-one", "a0"⟩ 1 2 none digitDraws, 3⟩

def annAssigns : Event :=
  ⟨.assignBreakout ⟨"room-one", "a0"⟩ "b0" "brk-000000000000000000000000" none "grant-one", 4⟩

def benLeaves : Event := ⟨.leave ⟨"room-one", "b0"⟩, 5⟩

def joinedBoth : RoomRegistry := ((start pairLimits true).next annJoins).next benJoins

def assigned : RoomRegistry := ((joinedBoth.next annOpens).next annAssigns).next benLeaves

theorem digitDraws_drawn : DrawnRooms joinedBoth.usedIds digitDraws where
  some := by decide
  named := by decide
  unused := by decide
  apart := by decide

theorem assigned_run : Path (Clocked (Guarded Step Promised) Event.now) (start pairLimits true, 1)
    [annJoins, benJoins, annOpens, annAssigns, benLeaves] (assigned, 5) := by
  have hann : "ann" ≠ "" := by decide
  have hben : "ben" ≠ "" := by decide
  refine .cons (t := (_, 1)) ⟨⟨⟨rfl, rfl⟩, hann⟩, by decide, rfl⟩ ?_
  refine .cons (t := (joinedBoth, 2)) ⟨⟨⟨rfl, rfl⟩, hben⟩, by decide, rfl⟩ ?_
  refine .cons (t := (_, 3)) ⟨⟨⟨rfl, trivial⟩, digitDraws_drawn⟩, by decide, rfl⟩ ?_
  refine .cons (t := (_, 4)) ⟨⟨⟨rfl, trivial⟩, trivial⟩, by decide, rfl⟩ ?_
  exact .cons (t := (assigned, 5)) ⟨⟨⟨rfl, trivial⟩, trivial⟩, by decide, rfl⟩ (.nil _)

/-- The assigned member finds a place. -/
theorem assignment_reserves_sample :
    (assigned.join "brk-000000000000000000000000" "Ben" 6
      { roomAdmission "ben" with breakoutSetId := "set-one" } "b1").2 ≠ .error "room_full" :=
  (assignment_reserves (by decide) assigned_run).2.1 _ _ _ _ _ (by decide) (by decide)

end RoomRegistry

end Rooms

end WebrtcMinimize
