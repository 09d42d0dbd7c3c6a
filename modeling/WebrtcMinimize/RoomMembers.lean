import WebrtcMinimize.RoomModel

/-!
# What a room admits

`RoomMove` says once what a call can do to one room: it may be made, joined,
left, or hold a member that publishes. The invariant of a room follows from
its cases, and with it what a run does to the counters of a member.
-/

namespace WebrtcMinimize

open Checks Runs

namespace Rooms

open Breakout (BreakoutRegistry Reserved)

namespace RoomRegistry

open KeyedMap Option Bool Nat

variable {r r' : RoomRegistry} {e : Event} {roomId : String} {room : Room}

/-! ## One step, one room -/

/-- What a call can do to a room. -/
inductive RoomMove (r : RoomRegistry) (roomId : String) (now : Nat) : Room → Prop
  | kept {room : Room} (hroom : r.rooms.get roomId = some room) : RoomMove r roomId now room
  | made {admission : Admission} {reserved : Option Reserved} {room : Room}
      (hpair : reserved.isSome → admission.roomMode ≠ "pair")
      (hmode : checkMode admission = .ok ())
      (hroom : room = r.openRoom roomId admission reserved now) : RoomMove r roomId now room
  | joined {admission : Admission} {reserved : Option Reserved} {room : Room}
      {name peerId : String} (hpair : reserved.isSome → admission.roomMode ≠ "pair")
      (hmode : checkMode admission = .ok ())
      (hroom : room = r.openRoom roomId admission reserved now)
      (hcheck : r.checkRoom room admission reserved = .ok ())
      (hdrawn : room.peers.get peerId = none) :
      RoomMove r roomId now { room with
        peers := room.peers.set peerId (newPeer roomId peerId name admission), updatedAt := now }
  | left {room : Room} {id : String} (hroom : r.rooms.get roomId = some room) :
      RoomMove r roomId now { room with peers := room.peers.erase id, updatedAt := now }
  | media {room : Room} {id : String} {peer : Peer} {media : Media}
      (hroom : r.rooms.get roomId = some room) (hpeer : room.peers.get id = some peer)
      (hcheck : checkCounters peer media = .ok ()) :
      RoomMove r roomId now { room with
        peers := room.peers.set id (applyMedia peer media), updatedAt := now }

variable {admission : Admission} {now : Nat} {reserved : Option Reserved}

theorem takeGrant_pair {b : BreakoutRegistry}
    (h : r.takeGrant roomId admission now = .ok (b, reserved)) :
    reserved.isSome → admission.roomMode ≠ "pair" := by
  intro hsome
  rw [takeGrant] at h
  cases hreserved : r.breakouts.reserved roomId with
  | some res =>
      rw [hreserved] at h
      simp only [bind_ok_iff, failIf_ok_iff] at h
      obtain ⟨-, hpair, -⟩ := h
      exact hpair
  | none =>
      rw [hreserved] at h
      simp only [bind_ok_iff, failIf_ok_iff] at h
      obtain ⟨-, -, -, -, hok⟩ := h
      cases hok
      cases hsome

variable {other peerId : String}

theorem join_rooms {name : String} (hdrawn : r.member ⟨roomId, peerId⟩ = none) {room : Room}
    (h : (r.join roomId name now admission peerId).1.rooms.get other = some room) :
    r.rooms.get other = some room ∨ other = roomId ∧ RoomMove r roomId now room := by
  rw [join] at h
  cases hgrant : r.takeGrant roomId admission now with
  | error code =>
      rw [hgrant] at h
      exact .inl h
  | ok taken =>
      obtain ⟨b, reserved⟩ := taken
      rw [hgrant] at h
      cases hmode : checkMode admission with
      | error code =>
          rw [hmode] at h
          exact .inl h
      | ok done =>
          rw [hmode] at h
          cases hcheck : r.checkRoom (r.openRoom roomId admission reserved now) admission
              reserved with
          | error code =>
              simp only [hcheck] at h
              rw [get_set] at h
              split at h
              · obtain rfl := some.inj h
                rename_i hother
                exact .inr ⟨hother, .made (takeGrant_pair hgrant) hmode rfl⟩
              · exact .inl h
          | ok done =>
              simp only [hcheck] at h
              rw [get_set] at h
              split at h
              · obtain rfl := some.inj h
                rename_i hother
                refine .inr ⟨hother, .joined (takeGrant_pair hgrant) hmode rfl hcheck ?_⟩
                rw [member] at hdrawn
                rw [openRoom]
                cases hroom : r.rooms.get roomId with
                | none => rfl
                | some room =>
                    rw [hroom] at hdrawn
                    exact hdrawn
              · exact .inl h

variable {handle : Handle}

theorem leave_rooms {room : Room} (h : (r.leave handle now).1.rooms.get other = some room) :
    r.rooms.get other = some room ∨ other = handle.roomId ∧ RoomMove r handle.roomId now room := by
  rw [leave] at h
  cases hroom : r.rooms.get handle.roomId with
  | none =>
      rw [hroom] at h
      exact .inl h
  | some old =>
      simp only [hroom] at h
      split at h
      · exact .inl h
      · split at h
        · rw [get_erase] at h
          split at h
          · cases h
          · exact .inl h
        · rw [get_set] at h
          split at h
          · obtain rfl := some.inj h
            rename_i hother
            exact .inr ⟨hother, .left hroom⟩
          · exact .inl h

theorem setMediaState_rooms {media : Media}
    {room : Room} (h : (r.setMediaState handle media now).1.rooms.get other = some room) :
    r.rooms.get other = some room ∨ other = handle.roomId ∧ RoomMove r handle.roomId now room := by
  rw [setMediaState] at h
  cases hroom : r.rooms.get handle.roomId with
  | none =>
      rw [hroom] at h
      exact .inl h
  | some old =>
      cases hpeer : old.peers.get handle.id with
      | none =>
          simp only [hroom, hpeer] at h
          exact .inl h
      | some peer =>
          cases hcheck : checkCounters peer media with
          | error code =>
              simp only [hroom, hpeer, hcheck] at h
              exact .inl h
          | ok done =>
              simp only [hroom, hpeer, hcheck] at h
              rw [putMember, get_set] at h
              split at h
              · cases h
                rename_i hother
                exact .inr ⟨hother, .media hroom hpeer hcheck⟩
              · exact .inl h

theorem onBreakouts_rooms {α : Type} {actor : Handle}
    {call : Room → Peer → BreakoutRegistry × Except String α} :
    (r.onBreakouts actor call).1.rooms = r.rooms := by
  rw [onBreakouts]
  split <;> rfl

theorem closeBreakouts_rooms {parentRoomId : String} {room : Room}
    (h : (r.closeBreakouts parentRoomId).1.rooms.get other = some room) :
    r.rooms.get other = some room := by
  rw [closeBreakouts] at h
  split at h
  · exact h
  · exact (get_keep_eq_some_iff.mp h).1

theorem foldl_closeBreakouts_rooms {other : String} {room : Room} :
    ∀ (parents : List String) (r : RoomRegistry),
      (parents.foldl (fun r parentRoomId => (r.closeBreakouts parentRoomId).1) r).rooms.get other
        = some room → r.rooms.get other = some room
  | [], _, h => h
  | _ :: parents, _, h => closeBreakouts_rooms (foldl_closeBreakouts_rooms parents _ h)

theorem Step.moves (h : Step r e r') {roomId : String} {room : Room}
    (hroom : r'.rooms.get roomId = some room) : RoomMove r roomId e.now room := by
  obtain ⟨rfl, hdrawn⟩ := h
  obtain ⟨call, now⟩ := e
  have hmove : ∀ {other : String},
      r.rooms.get roomId = some room ∨ roomId = other ∧ RoomMove r other now room →
        RoomMove r roomId now room := by
    rintro other (hkept | ⟨rfl, hmove⟩)
    · exact .kept hkept
    · exact hmove
  cases call with
  | join other name admission peerId => exact hmove (join_rooms hdrawn hroom)
  | leave handle => exact hmove (leave_rooms hroom)
  | setMediaState handle media => exact hmove (setMediaState_rooms hroom)
  | closeBreakouts parentRoomId => exact .kept (closeBreakouts_rooms hroom)
  | prune =>
      have hkept := (get_keep_eq_some_iff.mp hroom).1
      exact .kept (foldl_closeBreakouts_rooms _ _ hkept)
  | openBreakouts | assignBreakout | revokeBreakout | assignBreakoutsBalanced | chooseBreakout
  | resolveBreakoutJoin => exact .kept (onBreakouts_rooms ▸ hroom)

/-! ## A member's publications -/

/-- A member publishes each source once, and knows its highest epoch. -/
structure PeerOK (peer : Peer) : Prop where
  bySource : ∀ {k l : String} {P Q : Publication}, peer.publications.get k = some P →
    peer.publications.get l = some Q → P.source = Q.source → k = l
  bounded : ∀ {k : String} {P : Publication}, peer.publications.get k = some P →
    P.publicationEpoch ≤ peer.publicationEpoch

/-- What a member publishes next to what it published before: where that is
not the same the revision has grown, and what is new is of a later epoch. -/
structure Ahead (p q : Peer) : Prop where
  revision_le : p.publicationRevision ≤ q.publicationRevision
  epoch_le : p.publicationEpoch ≤ q.publicationEpoch
  unchanged : p.publicationRevision = q.publicationRevision → q.publications = p.publications
  later : ∀ {k : String} {P : Publication}, q.publications.get k = some P →
    p.publications.get k = some P ∨ p.publicationEpoch < P.publicationEpoch

theorem Ahead.refl (p : Peer) : Ahead p p where
  revision_le := le_refl _
  epoch_le := le_refl _
  unchanged := fun _ => rfl
  later := fun h => .inl h

theorem Ahead.trans {p q s : Peer} (hpq : Ahead p q) (hqs : Ahead q s) : Ahead p s where
  revision_le := hpq.revision_le.trans hqs.revision_le
  epoch_le := hpq.epoch_le.trans hqs.epoch_le
  unchanged := by
    intro heq
    have hle := hpq.revision_le
    have hle' := hqs.revision_le
    rw [hqs.unchanged (by omega), hpq.unchanged (by omega)]
  later := by
    intro k P hP
    rcases hqs.later hP with hold | hnew
    · exact hpq.later hold
    · exact .inr (lt_of_le_of_lt hpq.epoch_le hnew)

theorem keep_eq_self {ν : Type} {m : KeyedMap String ν} {p : String → ν → Bool}
    (h : ∀ e ∈ m.entries, p e.1 e.2 = true) : m.keep p = m := by
  exact KeyedMap.mk.injEq .. ▸ List.filter_eq_self.mpr h

variable {peer : Peer} {media : Media}

theorem applyMedia_of_not_changes (h : changes peer media = false) : applyMedia peer media = peer := by
  rw [changes, or_eq_false_iff] at h
  obtain ⟨hends, hstarts⟩ := h
  have hkeep : (peer.publications.keep fun publicationId publication =>
      !ends media publicationId publication) = peer.publications := by
    refine keep_eq_self fun e he => ?_
    rw [List.any_eq_false] at hends
    rw [not_eq_true']
    exact eq_false_iff.mpr (hends e he)
  have hpublish : publish peer media peer.publications = peer := by
    rw [publish, if_neg]
    rintro ⟨hactive, hsource⟩
    rw [starts, hactive, Bool.true_and, decide_eq_false_iff_not] at hstarts
    exact hstarts hsource
  have hchanges : changes peer media = false := by
    rw [changes, hends, hstarts, Bool.false_or]
  rw [applyMedia, hkeep, hpublish, hchanges]
  rfl

theorem publish_get {rest : KeyedMap String Publication} {k : String} {P : Publication}
    (h : (publish peer media rest).publications.get k = some P) :
    rest.get k = some P ∨ (media.active = true ∧ k = media.trackId ∧ P.source = media.source
      ∧ P.publicationEpoch = peer.publicationEpoch + 1
      ∧ (publish peer media rest).publicationEpoch = peer.publicationEpoch + 1) := by
  rw [publish] at h ⊢
  split at h
  · rename_i hnew
    rw [if_pos hnew]
    rcases get_set_some h with ⟨hk, rfl⟩ | ⟨-, h⟩
    · exact .inr ⟨hnew.1, hk, rfl, rfl, rfl⟩
    · exact .inl h
  · exact .inl h

theorem publish_epoch_le {rest : KeyedMap String Publication} :
    peer.publicationEpoch ≤ (publish peer media rest).publicationEpoch := by
  rw [publish]
  split
  · exact le_succ _
  · exact le_refl _

/-- A publication after a message was there before, of another source or of
the same track, or is the one the message starts. -/
theorem applyMedia_get {k : String} {P : Publication}
    (h : (applyMedia peer media).publications.get k = some P) :
    (peer.publications.get k = some P ∧ (P.source = media.source → k = media.trackId)) ∨
      (k = media.trackId ∧ P.source = media.source ∧ P.publicationEpoch = peer.publicationEpoch + 1
        ∧ (applyMedia peer media).publicationEpoch = peer.publicationEpoch + 1) := by
  have hpublished : (applyMedia peer media).publications = (publish peer media
      (peer.publications.keep fun publicationId publication =>
        !ends media publicationId publication)).publications := by
    rw [applyMedia]
    split <;> rfl
  have hepoch : (applyMedia peer media).publicationEpoch = (publish peer media
      (peer.publications.keep fun publicationId publication =>
        !ends media publicationId publication)).publicationEpoch := by
    rw [applyMedia]
    split <;> rfl
  rw [hpublished] at h
  rw [hepoch]
  rcases publish_get h with hold | ⟨hactive, hk, hsource, hnew, hgrown⟩
  · obtain ⟨hget, hkept⟩ := get_keep_eq_some_iff.mp hold
    refine .inl ⟨hget, fun hsource => ?_⟩
    rw [ends, not_eq_true', decide_eq_false_iff_not] at hkept
    by_contra hk
    exact hkept ⟨hsource, .inr hk⟩
  · exact .inr ⟨hk, hsource, hnew, hgrown⟩

theorem applyMedia_epoch_le : peer.publicationEpoch ≤ (applyMedia peer media).publicationEpoch := by
  rw [applyMedia]
  split
  · exact publish_epoch_le
  · exact publish_epoch_le

theorem PeerOK.applyMedia (h : PeerOK peer) : PeerOK (applyMedia peer media) where
  bySource := by
    intro k l P Q hP hQ hsource
    rcases applyMedia_get hP with ⟨hP, hPk⟩ | ⟨hk, hPs, -, -⟩
    · rcases applyMedia_get hQ with ⟨hQ, -⟩ | ⟨hl, hQs, -, -⟩
      · exact h.bySource hP hQ hsource
      · rw [hl, hPk (hsource.trans hQs)]
    · rcases applyMedia_get hQ with ⟨hQ, hQl⟩ | ⟨hl, -, -, -⟩
      · rw [hk, hQl (hsource.symm.trans hPs)]
      · rw [hk, hl]
  bounded := by
    intro k P hP
    rcases applyMedia_get hP with ⟨hP, -⟩ | ⟨-, -, hnew, hgrown⟩
    · exact (h.bounded hP).trans applyMedia_epoch_le
    · exact le_of_eq (hnew.trans hgrown.symm)

theorem ahead_applyMedia : Ahead peer (applyMedia peer media) := by
  cases hchanges : changes peer media with
  | false =>
      rw [applyMedia_of_not_changes hchanges]
      exact .refl peer
  | true =>
      have hrevision : (applyMedia peer media).publicationRevision
          = peer.publicationRevision + 1 := by
        rw [applyMedia, if_pos hchanges]
      refine ⟨by omega, applyMedia_epoch_le, fun heq => by omega, fun hP => ?_⟩
      rcases applyMedia_get hP with ⟨hP, -⟩ | ⟨-, -, hnew, -⟩
      · exact .inl hP
      · exact .inr (by omega)

/-! ## The invariant of a room -/

structure RoomOK (room : Room) : Prop where
  fits : room.peers.size ≤ room.capacity
  pair : room.mode = "pair" → room.capacity = 2
  devices : room.mode = "pair" → ∀ {i j : String} {p q : Peer}, room.peers.get i = some p →
    room.peers.get j = some q → p.deviceFingerprint = q.deviceFingerprint →
    p.deviceFingerprint ≠ "" → i = j
  machine : ∀ {i j : String} {p q : Peer}, room.peers.get i = some p →
    room.peers.get j = some q → p.machine = true → q.machineReceiveVersion = 1
  peers : ∀ {i : String} {p : Peer}, room.peers.get i = some p → PeerOK p

theorem peerOK_newPeer {name : String} : PeerOK (newPeer roomId peerId name admission) where
  bySource := by
    intro k l P Q hP
    cases hP
  bounded := by
    intro k P hP
    cases hP

theorem roomOK_newRoom (hpair : reserved.isSome → admission.roomMode ≠ "pair") :
    RoomOK (r.newRoom admission reserved now) where
  fits := zero_le _
  pair := by
    intro hmode
    cases reserved with
    | some reserved => exact absurd hmode (hpair rfl)
    | none => exact if_pos hmode
  devices := by
    intro _ i j p q hp
    cases hp
  machine := by
    intro i j p q hp
    cases hp
  peers := by
    intro i p hp
    cases hp

theorem RoomOK.openRoom (h : ∀ {room}, r.rooms.get roomId = some room → RoomOK room)
    {admission : Admission} {reserved : Option Reserved} {now : Nat}
    (hpair : reserved.isSome → admission.roomMode ≠ "pair") :
    RoomOK (r.openRoom roomId admission reserved now) := by
  rw [RoomRegistry.openRoom]
  cases hroom : r.rooms.get roomId with
  | none => exact roomOK_newRoom hpair
  | some room => exact h hroom

/-- What a join has checked of the room. -/
structure Admits (room : Room) (admission : Admission) : Prop where
  mode : room.mode = admission.roomMode
  machine : admission.machine = true → admission.machineReceiveVersion = 1 ∧
    ∀ peer ∈ room.peers.values, peer.machineReceiveVersion = 1
  receives : admission.machineReceiveVersion = 1 ∨ ∀ peer ∈ room.peers.values, peer.machine = false
  device : admission.roomMode = "pair" → admission.deviceFingerprint ≠ "" →
    ∀ peer ∈ room.peers.values, peer.deviceFingerprint ≠ admission.deviceFingerprint
  fits : room.peers.size < room.capacity

theorem checkRoom_admits
    (h : r.checkRoom room admission reserved = .ok ()) : Admits room admission := by
  simp only [checkRoom, bind_ok_iff, failIf_ok_iff] at h
  obtain ⟨-, hmode, -, -, -, hmachine, -, hdevice, hfits⟩ := h
  push Not at hmode hmachine hdevice hfits
  refine {
    mode := hmode.1
    machine := fun hm => ?_
    receives := ?_
    device := fun hpair hne peer hpeer heq => ?_
    fits := hfits }
  · obtain ⟨hversion, hall⟩ := hmachine.1 hm
    refine ⟨hversion, fun peer hpeer => ?_⟩
    by_contra hne
    exact hall (List.any_eq_true.mpr ⟨peer, hpeer, decide_eq_true hne⟩)
  · by_cases hversion : admission.machineReceiveVersion = 1
    · exact .inl hversion
    · refine .inr fun peer hpeer => ?_
      by_contra hm
      exact hmachine.2 hversion (List.any_eq_true.mpr ⟨peer, hpeer, by simpa using hm⟩)
  · exact hdevice hpair hne (List.any_eq_true.mpr ⟨peer, hpeer, decide_eq_true heq⟩)

theorem RoomOK.join (h : RoomOK room) {name : String}
    (hadmits : Admits room admission) (hdrawn : room.peers.get peerId = none) :
    RoomOK { room with
      peers := room.peers.set peerId (newPeer roomId peerId name admission), updatedAt := now } := by
  have hvalues : ∀ {i p}, room.peers.get i = some p → p ∈ room.peers.values := fun hp =>
    mem_values_iff.mpr ⟨_, hp⟩
  constructor
  case fits =>
    rw [size_set_of_none hdrawn]
    exact hadmits.fits
  case pair => exact h.pair
  case devices =>
    intro hpair i j p q hp hq heq hne
    rw [get_set] at hp hq
    have hjoined : admission.roomMode = "pair" := hadmits.mode.symm.trans hpair
    split at hp
    · cases hp
      split at hq
      · rename_i hi hj
        rw [hi, hj]
      · exact absurd heq.symm (hadmits.device hjoined hne q (hvalues hq))
    · split at hq
      · cases hq
        have hgiven : admission.deviceFingerprint ≠ "" := fun hempty => hne (heq.trans hempty)
        exact absurd heq (hadmits.device hjoined hgiven p (hvalues hp))
      · exact h.devices hpair hp hq heq hne
  case machine =>
    intro i j p q hp hq hm
    rw [get_set] at hp hq
    split at hp
    · cases hp
      obtain ⟨hversion, hall⟩ := hadmits.machine hm
      split at hq
      · cases hq
        exact if_pos hversion
      · exact hall q (hvalues hq)
    · split at hq
      · cases hq
        rcases hadmits.receives with hversion | hnone
        · exact if_pos hversion
        · rw [hnone p (hvalues hp)] at hm
          cases hm
      · exact h.machine hp hq hm
  case peers =>
    intro i p hp
    rcases get_set_some hp with ⟨-, rfl⟩ | ⟨-, hp⟩
    · exact peerOK_newPeer
    · exact h.peers hp

theorem RoomOK.leave (h : RoomOK room) {id : String} :
    RoomOK { room with peers := room.peers.erase id, updatedAt := now } := by
  have hold : ∀ {i p}, (room.peers.erase id).get i = some p → room.peers.get i = some p :=
    fun hp => (get_keep_eq_some_iff.mp hp).1
  exact {
    fits := (size_keep_le _ _).trans h.fits
    pair := h.pair
    devices := fun hpair _ _ _ _ hp hq => h.devices hpair (hold hp) (hold hq)
    machine := fun hp hq => h.machine (hold hp) (hold hq)
    peers := fun hp => h.peers (hold hp) }

@[simp] theorem applyMedia_deviceFingerprint :
    (applyMedia peer media).deviceFingerprint = peer.deviceFingerprint := by
  rw [applyMedia, publish]
  split <;> split <;> rfl

@[simp] theorem applyMedia_machine : (applyMedia peer media).machine = peer.machine := by
  rw [applyMedia, publish]
  split <;> split <;> rfl

@[simp] theorem applyMedia_machineReceiveVersion :
    (applyMedia peer media).machineReceiveVersion = peer.machineReceiveVersion := by
  rw [applyMedia, publish]
  split <;> split <;> rfl

theorem RoomOK.publishing (h : RoomOK room) {id : String} (hpeer : room.peers.get id = some peer) :
    RoomOK { room with peers := room.peers.set id (applyMedia peer media), updatedAt := now } := by
  have hold : ∀ {i p}, (room.peers.set id (applyMedia peer media)).get i = some p →
      ∃ q, room.peers.get i = some q ∧ p.deviceFingerprint = q.deviceFingerprint
        ∧ p.machine = q.machine ∧ p.machineReceiveVersion = q.machineReceiveVersion := by
    intro i p hp
    rcases get_set_some hp with ⟨hi, rfl⟩ | ⟨-, hp⟩
    · exact ⟨peer, hi ▸ hpeer, applyMedia_deviceFingerprint, applyMedia_machine,
        applyMedia_machineReceiveVersion⟩
    · exact ⟨p, hp, rfl, rfl, rfl⟩
  constructor
  case fits =>
    rw [size_set_of_some hpeer]
    exact h.fits
  case pair => exact h.pair
  case devices =>
    intro hpair i j p q hp hq heq hne
    obtain ⟨p', hp', hpd, -⟩ := hold hp
    obtain ⟨q', hq', hqd, -⟩ := hold hq
    rw [hpd] at heq hne
    exact h.devices hpair hp' hq' (heq.trans hqd) hne
  case machine =>
    intro i j p q hp hq hm
    obtain ⟨p', hp', -, hpm, -⟩ := hold hp
    obtain ⟨q', hq', -, -, hqv⟩ := hold hq
    exact hqv.trans (h.machine hp' hq' (hpm.symm.trans hm))
  case peers =>
    intro i p hp
    rcases get_set_some hp with ⟨-, rfl⟩ | ⟨-, hp⟩
    · exact (h.peers hpeer).applyMedia
    · exact h.peers hp

/-- The invariant of the registry's rooms. -/
def RoomsOK (r : RoomRegistry) : Prop :=
  ∀ {roomId : String} {room : Room}, r.rooms.get roomId = some room → RoomOK room

/-- **Step lemma.** Whatever the call does to a room, it stays in order. -/
theorem RoomMove.ok (h : RoomMove r roomId now room) (hr : r.RoomsOK) : RoomOK room := by
  cases h with
  | kept hroom => exact hr hroom
  | made hpair hmode hroom =>
      subst hroom
      exact RoomOK.openRoom hr hpair
  | joined hpair hmode hroom hcheck hdrawn =>
      subst hroom
      exact (RoomOK.openRoom hr hpair).join (checkRoom_admits hcheck) hdrawn
  | left hroom => exact (hr hroom).leave
  | media hroom hpeer hcheck => exact (hr hroom).publishing hpeer

/-- **Run lemma.** The rooms of every reachable registry are in order. -/
theorem RoomsOK.run {limits : Limits} {attached : Bool} {es : List Event}
    (h : Path Step (start limits attached) es r) : r.RoomsOK := by
  refine h.inv (I := RoomsOK) (fun hstep hr => ?_) ?_
  · intro roomId room hroom
    exact (hstep.moves hroom).ok hr
  · intro roomId room hroom
    cases hroom

/-! ## The counters of a member -/

theorem RoomMove.stays {old : Room} {id : String} {p q : Peer}
    (h : RoomMove r roomId now room) (hold : r.rooms.get roomId = some old)
    (hp : old.peers.get id = some p) (hq : room.peers.get id = some q) : Ahead p q := by
  have hsame : ∀ {q}, old.peers.get id = some q → Ahead p q := by
    intro q hq
    cases hp.symm.trans hq
    exact .refl p
  cases h with
  | kept hroom =>
      cases hold.symm.trans hroom
      exact hsame hq
  | made hpair hmode hroom =>
      rw [hroom, RoomRegistry.openRoom, hold] at hq
      exact hsame hq
  | joined hpair hmode hroom hcheck hdrawn =>
      rw [RoomRegistry.openRoom, hold, getD_some] at hroom
      subst hroom
      rw [get_set] at hq
      split at hq
      · rename_i hid
        rw [hid, hdrawn] at hp
        cases hp
      · exact hsame hq
  | left hroom =>
      cases hold.symm.trans hroom
      exact hsame (get_keep_eq_some_iff.mp hq).1
  | media hroom hpeer hcheck =>
      cases hold.symm.trans hroom
      rcases get_set_some hq with ⟨hid, rfl⟩ | ⟨-, hq⟩
      · rw [hid, hpeer] at hp
        cases hp
        exact ahead_applyMedia
      · exact hsame hq

theorem member_eq_some {p : Peer} : r.member handle = some p ↔
    ∃ room, r.rooms.get handle.roomId = some room ∧ room.peers.get handle.id = some p :=
  bind_eq_some_iff

theorem Step.ahead (h : Step r e r') {p q : Peer}
    (hp : r.member handle = some p) (hq : r'.member handle = some q) : Ahead p q := by
  obtain ⟨old, hold, hp⟩ := member_eq_some.mp hp
  obtain ⟨room, hroom, hq⟩ := member_eq_some.mp hq
  exact (h.moves hroom).stays hold hp hq

theorem Path.ahead {handle : Handle} {es : List Event}
    (h : Path (Guarded Step fun r _ => (r.member handle).isSome) r es r') {p q : Peer}
    (hp : r.member handle = some p) (hq : r'.member handle = some q) : Ahead p q := by
  induction h generalizing p with
  | nil r =>
      obtain rfl := some.inj (hp.symm.trans hq)
      exact .refl p
  | @cons r s r' e es hstep hrest ih =>
      have hsome : (s.member handle).isSome := by
        cases hrest with
        | nil => rw [hq, isSome_some]
        | cons hnext _ => exact hnext.2
      obtain ⟨m, hm⟩ := isSome_iff_exists.mp hsome
      exact (hstep.1.ahead hp hm).trans (ih hm hq)

def pairLimits : Limits := ⟨20, 3600000, by decide⟩

/-- The admission of somebody to a pair, on a device that is not known. -/
def pairAdmission (principal : String) : Admission :=
  ⟨"pair", principal, "", false, 0, "", "", ""⟩

def pairJoined : RoomRegistry :=
  ((start pairLimits true).next ⟨.join "room-one" "Ann" (pairAdmission "ann") "a0", 1⟩).next
    ⟨.join "room-one" "Ben" (pairAdmission "ben") "b0", 2⟩

def annPublishes : Event := ⟨.setMediaState ⟨"room-one", "a0"⟩ ⟨"cam-a", "camera", true⟩, 3⟩

def benPublishes : Event := ⟨.setMediaState ⟨"room-one", "b0"⟩ ⟨"cam-b", "camera", true⟩, 4⟩

theorem pairJoined_run : Path Step (start pairLimits true)
    [⟨.join "room-one" "Ann" (pairAdmission "ann") "a0", 1⟩,
      ⟨.join "room-one" "Ben" (pairAdmission "ben") "b0", 2⟩] pairJoined :=
  .cons ⟨rfl, rfl⟩ (.cons ⟨rfl, rfl⟩ (.nil _))

theorem annPublishes_run : Path Step (start pairLimits true)
    [⟨.join "room-one" "Ann" (pairAdmission "ann") "a0", 1⟩,
      ⟨.join "room-one" "Ben" (pairAdmission "ben") "b0", 2⟩, annPublishes]
    (pairJoined.next annPublishes) :=
  pairJoined_run.append (.cons (e := annPublishes) ⟨rfl, trivial⟩ (.nil _))

end RoomRegistry

end Rooms

end WebrtcMinimize
