import WebrtcMinimize.BreakoutModel
import WebrtcMinimize.Runs

/-!
# The room registry

Who is in which room, what each member publishes, and the breakout sets of
the rooms. A caller names a member by its room and its id, where the source
compares the object; the ids are drawn at random.

Hands, presenter, policies and the audit of the moderation are left out:
nothing here reads them.
-/

namespace WebrtcMinimize

open Checks

namespace Rooms

open Breakout (BreakoutRegistry Reserved Role Kind Draws Grant Snapshot TargetPeer)
open Breakout

structure Publication where
  publicationId : String
  source : String
  publicationEpoch : Nat
  deriving DecidableEq

structure Peer extends TargetPeer where
  name : String
  machineReceiveVersion : Nat
  publications : KeyedMap String Publication
  publicationEpoch : Nat
  publicationRevision : Nat

structure Room where
  peers : KeyedMap String Peer
  updatedAt : Nat
  mode : String
  kind : Kind
  parentRoomId : String
  capacity : Nat
  creatorPrincipal : String

/-- What the constructor accepts. -/
structure Limits where
  maxParticipants : Nat
  idleTtlMs : Nat
  bounded : minRoomParticipants ≤ maxParticipants
    ∧ maxParticipants ≤ maxRoomParticipants

/-- A registry made without breakouts has an empty one that is not attached. -/
structure RoomRegistry where
  limits : Limits
  rooms : KeyedMap String Room
  attached : Bool
  breakouts : BreakoutRegistry

/-- A member, as a caller holds it. -/
structure Handle where
  roomId : String
  id : String
  deriving DecidableEq

/-- Texts that are left out are empty. -/
structure Admission where
  mode : String
  principal : String
  deviceFingerprint : String
  machine : Bool
  machineReceiveVersion : Nat
  creatorPrincipal : String
  breakoutSetId : String
  breakoutChildRoomId : String
  deriving DecidableEq

structure Media where
  trackId : String
  source : String
  active : Bool
  deriving DecidableEq

def peerRole (peer : Peer) (creatorPrincipal : String) : Role :=
  if peer.principal ≠ "" ∧ peer.principal = creatorPrincipal then .owner else .participant

/-- `left || right` on texts -/
def orElse (left right : String) : String := if left = "" then right else left

def Admission.roomMode (admission : Admission) : String := orElse admission.mode "room"

namespace RoomRegistry

def start (limits : Limits) (attached : Bool) : RoomRegistry :=
  ⟨limits, KeyedMap.empty, attached, BreakoutRegistry.empty⟩

def member (r : RoomRegistry) (handle : Handle) : Option Peer :=
  (r.rooms.get handle.roomId).bind fun room => room.peers.get handle.id

/-- The peers of a room, none where there is no room. -/
def occupants (r : RoomRegistry) (roomId : String) : List Peer :=
  (r.rooms.get roomId).elim [] fun room => room.peers.values

/-- `this.#rooms.get(roomId)?.peers.size || 0` -/
def present (r : RoomRegistry) (roomId : String) : Nat := (r.occupants roomId).length

def withBreakouts (r : RoomRegistry) (b : BreakoutRegistry) : RoomRegistry :=
  { r with breakouts := b }

/-! ## Joining and leaving -/

def breakoutFamily (r : RoomRegistry) (roomId : String) (now : Nat) : List String :=
  let parentRoomId := orElse (r.breakouts.parentOf roomId)
    (if (r.breakouts.snapshot roomId now).isSome then roomId else "")
  if parentRoomId = "" then
    [roomId]
  else
    parentRoomId :: ((r.breakouts.snapshot parentRoomId now).elim [] fun snapshot =>
      snapshot.children.map Breakout.Child.roomId)

def sameIdentity (principal deviceFingerprint : String) (peer : Peer) : Bool :=
  decide (peer.principal = principal ∧ peer.deviceFingerprint = deviceFingerprint)

/-- `#assertSingleMembership` -/
def checkSingleMembership (r : RoomRegistry) (roomId : String) (admission : Admission)
    (now : Nat) : Except String Unit :=
  if admission.principal = "" ∨ admission.deviceFingerprint = "" then
    .ok ()
  else
    failIf ((r.breakoutFamily roomId now).any fun memberRoomId =>
      decide (memberRoomId ≠ roomId)
        && (r.occupants memberRoomId).any
          (sameIdentity admission.principal admission.deviceFingerprint))
      "breakout_parallel_membership"

/-- The first part of `join`: a child room takes the grant, which is used up
from here on. -/
def takeGrant (r : RoomRegistry) (roomId : String) (admission : Admission) (now : Nat) :
    Except String (BreakoutRegistry × Option Reserved) :=
  match r.breakouts.reserved roomId with
  | some _ => do
      failIf (admission.roomMode = "pair") "breakout_pair_denied"
      r.checkSingleMembership roomId admission now
      let consumed := r.breakouts.consume roomId admission.breakoutSetId admission.principal
        admission.deviceFingerprint now
      let reserved ← consumed.2
      .ok (consumed.1, some reserved)
  | none => do
      failIf (admission.breakoutSetId ≠ "" ∨ admission.breakoutChildRoomId ≠ "")
        "breakout_assignment_required"
      r.checkSingleMembership roomId admission now
      .ok (r.breakouts, none)

def capacityFor (r : RoomRegistry) (admission : Admission) (reserved : Option Reserved) : Nat :=
  match reserved with
  | some reserved => reserved.child.capacity
  | none => if admission.roomMode = "pair" then 2 else r.limits.maxParticipants

def checkMode (admission : Admission) : Except String Unit := do
  failIf (admission.roomMode ≠ "room" ∧ admission.roomMode ≠ "pair")
    "invalid_room_mode"
  failIf (admission.roomMode = "pair" ∧ admission.machine = true) "machine_pair_denied"
  failIf (admission.machine = true ∧ admission.machineReceiveVersion ≠ 1)
    "machine_client_upgrade_required"

def newRoom (r : RoomRegistry) (admission : Admission) (reserved : Option Reserved) (now : Nat) :
    Room where
  peers := KeyedMap.empty
  updatedAt := now
  mode := admission.roomMode
  kind := if reserved.isSome then .breakout else .room
  parentRoomId := reserved.elim "" Reserved.parentRoomId
  capacity := r.capacityFor admission reserved
  creatorPrincipal :=
    match reserved with
    | some reserved =>
        orElse ((r.rooms.get reserved.parentRoomId).elim "" Room.creatorPrincipal) "owner"
    | none => orElse admission.creatorPrincipal (orElse admission.principal "anonymous")

/-- The room that is joined, made where it is not there. -/
def openRoom (r : RoomRegistry) (roomId : String) (admission : Admission)
    (reserved : Option Reserved) (now : Nat) : Room :=
  (r.rooms.get roomId).getD (r.newRoom admission reserved now)

def checkRoom (r : RoomRegistry) (room : Room) (admission : Admission)
    (reserved : Option Reserved) : Except String Unit := do
  failIf (room.mode ≠ admission.roomMode ∨ room.capacity ≠ r.capacityFor admission reserved)
    "room_mode_mismatch"
  failIf (reserved.any fun reserved =>
    decide (room.kind ≠ .breakout ∨ room.parentRoomId ≠ reserved.parentRoomId))
    "room_mode_mismatch"
  failIf (admission.machine = true ∧ (admission.machineReceiveVersion ≠ 1
      ∨ room.peers.values.any fun peer => decide (peer.machineReceiveVersion ≠ 1))
    ∨ admission.machineReceiveVersion ≠ 1 ∧ room.peers.values.any fun peer => peer.machine)
    "machine_client_upgrade_required"
  failIf (admission.roomMode = "pair" ∧ admission.deviceFingerprint ≠ ""
    ∧ room.peers.values.any fun peer =>
      decide (peer.deviceFingerprint = admission.deviceFingerprint)) "duplicate_pair_device"
  failIf (room.capacity ≤ room.peers.size) "room_full"

def newPeer (roomId peerId name : String) (admission : Admission) : Peer where
  id := peerId
  roomId := roomId
  name := name
  principal := orElse admission.principal "anonymous"
  deviceFingerprint := admission.deviceFingerprint
  machine := admission.machine
  machineReceiveVersion := if admission.machineReceiveVersion = 1 then 1 else 0
  publications := KeyedMap.empty
  publicationEpoch := 0
  publicationRevision := 0

/-- `join`; `peerId` is the identifier its loop ends with. A check that fails
keeps what was done before it: a grant used up, a room made. -/
def join (r : RoomRegistry) (roomId name : String) (now : Nat) (admission : Admission)
    (peerId : String) : RoomRegistry × Except String (Peer × List Peer) :=
  match r.takeGrant roomId admission now with
  | .error code => (r, .error code)
  | .ok (b, reserved) =>
      match checkMode admission with
      | .error code => (r.withBreakouts b, .error code)
      | .ok () =>
          let room := r.openRoom roomId admission reserved now
          match r.checkRoom room admission reserved with
          | .error code =>
              ({ r with breakouts := b, rooms := r.rooms.set roomId room }, .error code)
          | .ok () =>
              let peer := newPeer roomId peerId name admission
              let joined := { room with peers := room.peers.set peerId peer, updatedAt := now }
              ({ r with breakouts := b, rooms := r.rooms.set roomId joined },
                .ok (peer, room.peers.values))

/-- The room without a member, dropped where it was the last. -/
def leave (r : RoomRegistry) (handle : Handle) (now : Nat) : RoomRegistry × List Peer :=
  match r.rooms.get handle.roomId with
  | none => (r, [])
  | some room =>
      if (room.peers.get handle.id).isNone then
        (r, [])
      else
        let peers := room.peers.erase handle.id
        if peers.size = 0 then
          ({ r with rooms := r.rooms.erase handle.roomId }, [])
        else
          ({ r with rooms := r.rooms.set handle.roomId { room with peers, updatedAt := now } },
            peers.values)

/-! ## Publications -/

/-- Store a member that is changed. -/
def putMember (r : RoomRegistry) (handle : Handle) (room : Room) (peer : Peer) (now : Nat) :
    RoomRegistry :=
  { r with
    rooms := r.rooms.set handle.roomId
      { room with peers := room.peers.set handle.id peer, updatedAt := now } }

/-- The publications that the message ends. -/
def ends (media : Media) (publicationId : String) (publication : Publication) : Bool :=
  decide (publication.source = media.source ∧ (media.active = false ∨ publicationId ≠ media.trackId))

/-- The message starts a publication. -/
def starts (peer : Peer) (media : Media) : Bool :=
  media.active
    && decide ((peer.publications.get media.trackId).map Publication.source ≠ some media.source)

def changes (peer : Peer) (media : Media) : Bool :=
  (peer.publications.entries.any fun e => ends media e.1 e.2) || starts peer media

def checkCounters (peer : Peer) (media : Media) : Except String Unit := do
  failIf (changes peer media = true ∧ Breakout.maxSafeInteger ≤ peer.publicationRevision)
    "publication_revision_exhausted"
  failIf (starts peer media = true ∧ Breakout.maxSafeInteger ≤ peer.publicationEpoch)
    "publication_epoch_exhausted"

/-- The publication that the message starts, where it does. -/
def publish (peer : Peer) (media : Media) (rest : KeyedMap String Publication) : Peer :=
  if media.active ∧ (rest.get media.trackId).map Publication.source ≠ some media.source then
    { peer with
      publications := rest.set media.trackId
        ⟨media.trackId, media.source, peer.publicationEpoch + 1⟩
      publicationEpoch := peer.publicationEpoch + 1 }
  else
    { peer with publications := rest }

def applyMedia (peer : Peer) (media : Media) : Peer :=
  let published := publish peer media
    (peer.publications.keep fun publicationId publication => !ends media publicationId publication)
  if changes peer media then
    { published with publicationRevision := peer.publicationRevision + 1 }
  else
    published

def setMediaState (r : RoomRegistry) (handle : Handle) (media : Media) (now : Nat) :
    RoomRegistry × Except String Unit :=
  match r.rooms.get handle.roomId with
  | none => (r, .error "peer_not_joined")
  | some room =>
      match room.peers.get handle.id with
      | none => (r, .error "peer_not_joined")
      | some peer =>
          match checkCounters peer media with
          | .error code => (r, .error code)
          | .ok () => (r.putMember handle room (applyMedia peer media) now, .ok ())

/-! ## Breakouts -/

/-- What every breakout call of a member starts with. -/
def actorRoom (r : RoomRegistry) (actor : Handle) : Except String (Room × Peer) := do
  let room ← found (r.rooms.get actor.roomId) "peer_not_joined"
  let peer ← found (room.peers.get actor.id) "peer_not_joined"
  failIf (r.attached = false) "breakout_unavailable"
  .ok (room, peer)

/-- A call on the breakout registry, for a member. -/
def onBreakouts {α : Type} (r : RoomRegistry) (actor : Handle)
    (call : Room → Peer → BreakoutRegistry × Except String α) : RoomRegistry × Except String α :=
  match r.actorRoom actor with
  | .error code => (r, .error code)
  | .ok (room, peer) => (r.withBreakouts (call room peer).1, (call room peer).2)

def openBreakouts (r : RoomRegistry) (actor : Handle) (childCount capacity : Int)
    (lifetimeMs : Option Int) (draws : Draws) (now : Nat) :
    RoomRegistry × Except String (Option Snapshot) :=
  r.onBreakouts actor fun room peer => r.breakouts.openSet {
    parentRoomId := actor.roomId
    parentMode := room.mode
    parentKind := room.kind
    ownerRole := peerRole peer room.creatorPrincipal
    childCount, capacity, lifetimeMs
    occupiedRoomIds := r.rooms.keys } draws now

def assignBreakout (r : RoomRegistry) (actor : Handle) (targetPeerId childRoomId : String)
    (ttlMs : Option Int) (grantId : String) (now : Nat) : RoomRegistry × Except String Grant :=
  r.onBreakouts actor fun room peer =>
    r.breakouts.assign actor.roomId (peerRole peer room.creatorPrincipal)
      ((room.peers.get targetPeerId).map Peer.toTargetPeer) childRoomId ttlMs now
      (r.present childRoomId) grantId

def revokeBreakout (r : RoomRegistry) (actor : Handle) (grantId : String) (now : Nat) :
    RoomRegistry × Except String Grant :=
  r.onBreakouts actor fun room peer =>
    r.breakouts.revoke actor.roomId (peerRole peer room.creatorPrincipal) grantId now

/-- How many are in every child room. -/
def occupiedByChild (r : RoomRegistry) : KeyedMap String Nat :=
  r.breakouts.byChild.mapValues fun childId _ => r.present childId

def assignBreakoutsBalanced (r : RoomRegistry) (actor : Handle) (ttlMs : Option Int)
    (grantIds : Nat → String) (now : Nat) : RoomRegistry × Except String (List Grant) :=
  r.onBreakouts actor fun room peer =>
    r.breakouts.assignBalanced actor.roomId (peerRole peer room.creatorPrincipal)
      ((room.peers.values.filter fun candidate =>
        decide (candidate.id ≠ actor.id ∧ candidate.machine = false)).map Peer.toTargetPeer)
      ttlMs now r.occupiedByChild grantIds

def chooseBreakout (r : RoomRegistry) (actor : Handle) (childRoomId : String)
    (ttlMs : Option Int) (grantId : String) (now : Nat) : RoomRegistry × Except String Grant :=
  r.onBreakouts actor fun _ peer =>
    r.breakouts.assignVoluntary actor.roomId (some peer.toTargetPeer) childRoomId ttlMs now
      (r.present childRoomId) grantId

def resolveBreakoutJoin (r : RoomRegistry) (actor : Handle) (preferredChildRoomId : String)
    (ttlMs : Option Int) (grantId : String) (now : Nat) : RoomRegistry × Except String Grant :=
  r.onBreakouts actor fun _ peer =>
    r.breakouts.resolveAssignment actor.roomId (some peer.toTargetPeer) preferredChildRoomId ttlMs
      now r.occupiedByChild grantId

/-- Close a set; those in its rooms are put out. -/
def closeBreakouts (r : RoomRegistry) (parentRoomId : String) : RoomRegistry × List Peer :=
  match r.breakouts.closeSet parentRoomId with
  | (b, none) => (r.withBreakouts b, [])
  | (b, some childRoomIds) =>
      ({ r with
          breakouts := b
          rooms := r.rooms.keep fun roomId _ => decide (roomId ∉ childRoomIds) },
        (childRoomIds.map r.occupants).flatten)

/-- Close the sets that have ended, and forget the rooms that stood empty. -/
def prune (r : RoomRegistry) (now : Nat) : RoomRegistry :=
  let closed := (r.breakouts.due now).foldl (fun r parentRoomId =>
    (r.closeBreakouts parentRoomId).1) r
  { closed with
    rooms := closed.rooms.keep fun _ room =>
      decide (¬(room.peers.size = 0 ∧ r.limits.idleTtlMs + room.updatedAt ≤ now)) }

/-- The live grant a joining member would use. -/
def hasLiveBreakoutGrant (r : RoomRegistry) (roomId principal deviceFingerprint : String)
    (now : Nat) : Bool :=
  r.breakouts.hasLiveGrant roomId principal deviceFingerprint now

/-! ## Runs -/

/-- A call to the registry, with what the random source drew for it. -/
inductive Call
  | join (roomId name : String) (admission : Admission) (peerId : String)
  | leave (handle : Handle)
  | setMediaState (handle : Handle) (media : Media)
  | openBreakouts (actor : Handle) (childCount capacity : Int) (lifetimeMs : Option Int)
      (draws : Draws)
  | assignBreakout (actor : Handle) (targetPeerId childRoomId : String) (ttlMs : Option Int)
      (grantId : String)
  | revokeBreakout (actor : Handle) (grantId : String)
  | assignBreakoutsBalanced (actor : Handle) (ttlMs : Option Int) (grantIds : Nat → String)
  | chooseBreakout (actor : Handle) (childRoomId : String) (ttlMs : Option Int) (grantId : String)
  | resolveBreakoutJoin (actor : Handle) (preferredChildRoomId : String) (ttlMs : Option Int)
      (grantId : String)
  | closeBreakouts (parentRoomId : String)
  | prune

/-- A call and the time it is made. -/
structure Event where
  call : Call
  now : Nat

def next (r : RoomRegistry) (e : Event) : RoomRegistry :=
  match e.call with
  | .join roomId name admission peerId => (r.join roomId name e.now admission peerId).1
  | .leave handle => (r.leave handle e.now).1
  | .setMediaState handle media => (r.setMediaState handle media e.now).1
  | .openBreakouts actor childCount capacity lifetimeMs draws =>
      (r.openBreakouts actor childCount capacity lifetimeMs draws e.now).1
  | .assignBreakout actor targetPeerId childRoomId ttlMs grantId =>
      (r.assignBreakout actor targetPeerId childRoomId ttlMs grantId e.now).1
  | .revokeBreakout actor grantId => (r.revokeBreakout actor grantId e.now).1
  | .assignBreakoutsBalanced actor ttlMs grantIds =>
      (r.assignBreakoutsBalanced actor ttlMs grantIds e.now).1
  | .chooseBreakout actor childRoomId ttlMs grantId =>
      (r.chooseBreakout actor childRoomId ttlMs grantId e.now).1
  | .resolveBreakoutJoin actor preferredChildRoomId ttlMs grantId =>
      (r.resolveBreakoutJoin actor preferredChildRoomId ttlMs grantId e.now).1
  | .closeBreakouts parentRoomId => (r.closeBreakouts parentRoomId).1
  | .prune => r.prune e.now

/-- The loop that draws a peer's identifier ends with one its room does not
have. -/
def DrawnPeer (r : RoomRegistry) (e : Event) : Prop :=
  match e.call with
  | .join roomId _ _ peerId => r.member ⟨roomId, peerId⟩ = none
  | _ => True

/-- A step of the registry. -/
def Step (r : RoomRegistry) (e : Event) (r' : RoomRegistry) : Prop :=
  r' = r.next e ∧ r.DrawnPeer e

end RoomRegistry

end Rooms

end WebrtcMinimize
