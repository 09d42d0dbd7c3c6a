import Mathlib.Algebra.Ring.Nat
import WebrtcMinimize.Json
import WebrtcMinimize.Maps

/-!
# Breakout sets

The owner of a room may open a set of child rooms for it. Nobody enters a
child room without a grant: a reservation of one place for one principal on
one device, with an end. A grant is drawn up by an assignment, and used up
by the join it admits.

Every identifier comes from `crypto.randomBytes`; what it drew is an
argument here. The operations change the registry also where they fail, so
they return the new registry next to their result.
-/

namespace WebrtcMinimize

open Checks

namespace Breakout

/-- `ROOM_ID_PATTERN` -/
def roomIdOK (s : String) : Bool :=
  match utf8 s with
  | [] => false
  | b :: bs =>
      (digitByte b || lowerByte b)
        && spanOK (fun b => digitByte b || lowerByte b || b == 45) 5 47 bs

/-- The length of a text in UTF-16 units. -/
def textLength (s : String) : Nat :=
  (s.toList.map fun c => if c.toNat < 65536 then 1 else 2).sum

/-- `localeCompare`, on the hexadecimal identifiers the registry draws -/
def idLe (left right : String) : Bool := Json.lexLe (utf8 left) (utf8 right)

def maxSafeInteger : Nat := 9007199254740991

def minRoomParticipants : Nat := 2
def maxRoomParticipants : Nat := 20
def maxBreakoutChildren : Nat := 10
def minBreakoutChildren : Nat := 1
def minBreakoutLifetimeMs : Nat := 60000
def maxBreakoutLifetimeMs : Nat := 14400000
def defaultBreakoutLifetimeMs : Nat := 1200000
def minBreakoutGrantMs : Nat := 15000
def maxBreakoutGrantMs : Nat := 900000
def defaultBreakoutGrantMs : Nat := 120000

/-- An integer between two bounds; a number that is no safe integer is not. -/
def Within (lo hi : Nat) (n : Int) : Prop := lo ≤ n ∧ n ≤ hi

instance (lo hi : Nat) (n : Int) : Decidable (Within lo hi n) :=
  inferInstanceAs (Decidable (_ ∧ _))

/-- A value that has to be there. -/
def found {α : Type} (o : Option α) (code : String) : Except String α :=
  match o with
  | some a => .ok a
  | none => .error code

theorem found_ok_iff {α : Type} {o : Option α} {code : String} {a : α} :
    found o code = .ok a ↔ o = some a := by
  cases o with
  | none => simp [found]
  | some b => simp [found]

/-! ## The registry's data -/

inductive Stage
  | opened
  | closed
  deriving DecidableEq

inductive Role
  | owner
  | participant
  deriving DecidableEq

inductive Kind
  | room
  | breakout
  deriving DecidableEq

structure Child where
  childId : String
  roomId : String
  state : Stage
  capacity : Nat
  membershipEpoch : Nat
  topologyEpoch : Nat
  routeEpoch : Nat
  securityEpoch : Nat
  createdAt : Nat
  expiresAt : Nat
  deriving DecidableEq

structure Grant where
  grantId : String
  setId : String
  parentRoomId : String
  parentRevision : Nat
  childRoomId : String
  principal : String
  deviceFingerprint : String
  targetPeerId : String
  expiresAt : Nat
  consumedAt : Nat
  deriving DecidableEq

structure BreakoutSet where
  setId : String
  parentRoomId : String
  parentRevision : Nat
  state : Stage
  createdAt : Nat
  expiresAt : Nat
  children : List Child
  grants : List Grant
  deriving DecidableEq

/-- What the registry reads of a peer. -/
structure TargetPeer where
  id : String
  roomId : String
  principal : String
  deviceFingerprint : String
  machine : Bool
  deriving DecidableEq

structure BreakoutRegistry where
  sets : KeyedMap String BreakoutSet
  byChild : KeyedMap String String

/-- `liveGrant` -/
def Grant.live (now : Nat) (grant : Grant) : Bool :=
  decide (grant.consumedAt = 0 ∧ now < grant.expiresAt)

/-- The grant is for the principal on the device. -/
def Grant.heldBy (principal deviceFingerprint : String) (grant : Grant) : Bool :=
  decide (grant.principal = principal ∧ grant.deviceFingerprint = deviceFingerprint)

namespace BreakoutSet

/-- The live grants for a child room. -/
def waiting (set : BreakoutSet) (childRoomId : String) (now : Nat) : Nat :=
  set.grants.countP fun grant => grant.live now && decide (grant.childRoomId = childRoomId)

/-- The live grants for a child room that others hold. -/
def waitingOthers (set : BreakoutSet) (childRoomId principal deviceFingerprint : String)
    (now : Nat) : Nat :=
  set.grants.countP fun grant =>
    grant.live now && decide (grant.childRoomId = childRoomId)
      && !grant.heldBy principal deviceFingerprint

/-- Drop the live grants with a property. -/
def release (set : BreakoutSet) (p : Grant → Bool) (now : Nat) : BreakoutSet :=
  { set with grants := set.grants.filter fun grant => !(grant.live now && p grant) }

def push (set : BreakoutSet) (grant : Grant) : BreakoutSet :=
  { set with grants := set.grants ++ [grant] }

def openChild (set : BreakoutSet) (childRoomId : String) : Option Child :=
  set.children.find? fun child =>
    decide (child.roomId = childRoomId ∧ child.state = .opened)

def openChildren (set : BreakoutSet) : List Child :=
  set.children.filter fun child => decide (child.state = .opened)

end BreakoutSet

/-- The grant that admits its holder to a child room. -/
def admitting (roomId principal deviceFingerprint : String) (parentRevision now : Nat)
    (grant : Grant) : Bool :=
  grant.live now && decide (grant.childRoomId = roomId)
    && grant.heldBy principal deviceFingerprint
    && decide (grant.parentRevision = parentRevision)

/-! ## Reading -/

structure Reserved where
  setId : String
  parentRoomId : String
  parentRevision : Nat
  child : Child
  deriving DecidableEq

structure Snapshot where
  setId : String
  parentRoomId : String
  parentRevision : Nat
  state : Stage
  expiresAt : Nat
  children : List Child
  grants : List Grant
  deriving DecidableEq

namespace BreakoutRegistry

def empty : BreakoutRegistry := ⟨KeyedMap.empty, KeyedMap.empty⟩

def parentOf (b : BreakoutRegistry) (roomId : String) : String := (b.byChild.get roomId).getD ""

def childRoomIds (b : BreakoutRegistry) : List String := b.byChild.keys

def reserved (b : BreakoutRegistry) (roomId : String) : Option Reserved := do
  let parentRoomId ← b.byChild.get roomId
  let set ← b.sets.get parentRoomId
  let child ← set.children.find? fun child => decide (child.roomId = roomId)
  if parentRoomId ≠ "" ∧ set.state ≠ .closed ∧ child.state = .opened then
    some ⟨set.setId, parentRoomId, set.parentRevision, child⟩
  else
    none

def snapshot (b : BreakoutRegistry) (parentRoomId : String) (now : Nat) : Option Snapshot := do
  let set ← b.sets.get parentRoomId
  if set.state = .closed then
    none
  else
    some {
      setId := set.setId
      parentRoomId := set.parentRoomId
      parentRevision := set.parentRevision
      state := set.state
      expiresAt := set.expiresAt
      children := set.children.filter fun child => decide (child.state ≠ .closed)
      grants := set.grants.filter (Grant.live now) }

def hasLiveGrant (b : BreakoutRegistry) (roomId principal deviceFingerprint : String)
    (now : Nat) : Bool :=
  match b.reserved roomId with
  | none => false
  | some reserved =>
      (b.sets.get reserved.parentRoomId).any fun set =>
        set.grants.any (admitting roomId principal deviceFingerprint set.parentRevision now)

def due (b : BreakoutRegistry) (now : Nat) : List String :=
  (b.sets.keep fun _ set => decide (set.expiresAt ≤ now)).keys

end BreakoutRegistry

/-! ## Opening and closing -/

/-- What the random source drew for a set: its identifier, and for every
child an identifier and the texts tried for its room. -/
structure Draws where
  setId : String
  childId : Nat → String
  room : Nat → List String

structure OpenRequest where
  parentRoomId : String
  parentMode : String
  parentKind : Kind
  ownerRole : Role
  childCount : Int
  capacity : Int
  lifetimeMs : Option Int
  occupiedRoomIds : List String

def allocateChildRoomId (occupied draws : List String) : Except String String :=
  found (((draws.take 8).map ("brk-" ++ ·)).find? fun roomId =>
    roomIdOK roomId && decide (roomId ∉ occupied)) "breakout_room_id_exhausted"

/-- `lifetimeMs`, where it is left out -/
def OpenRequest.lifetime (request : OpenRequest) : Int :=
  request.lifetimeMs.getD defaultBreakoutLifetimeMs

def newChild (request : OpenRequest) (now : Nat) (childId roomId : String) : Child where
  childId := childId
  roomId := roomId
  state := .opened
  capacity := request.capacity.toNat
  membershipEpoch := 1
  topologyEpoch := 1
  routeEpoch := 1
  securityEpoch := 1
  createdAt := now
  expiresAt := now + request.lifetime.toNat

/-- The loop that makes the children: one room identifier after the other is
entered, also where a later one cannot be found. -/
def placeChildren (request : OpenRequest) (now : Nat) (draws : Draws) : Nat → Nat → List String →
    KeyedMap String String → KeyedMap String String × Except String (List Child)
  | _, 0, _, byChild => (byChild, .ok [])
  | index, count + 1, occupied, byChild =>
      match allocateChildRoomId occupied (draws.room index) with
      | .error code => (byChild, .error code)
      | .ok roomId =>
          let rest := placeChildren request now draws (index + 1) count (roomId :: occupied)
            (byChild.set roomId request.parentRoomId)
          (rest.1, rest.2.map (newChild request now (draws.childId index) roomId :: ·))

def newSet (request : OpenRequest) (now : Nat) (draws : Draws) (children : List Child) :
    BreakoutSet where
  setId := draws.setId
  parentRoomId := request.parentRoomId
  parentRevision := 1
  state := .opened
  createdAt := now
  expiresAt := now + request.lifetime.toNat
  children := children
  grants := []

namespace BreakoutRegistry

def checkOpen (b : BreakoutRegistry) (request : OpenRequest) (now : Nat) : Except String Unit := do
  failIf (request.parentMode ≠ "room") "breakout_pair_denied"
  failIf (request.parentKind = .breakout) "breakout_nested_denied"
  failIf (request.ownerRole ≠ .owner) "breakout_owner_required"
  failIf (¬roomIdOK request.parentRoomId) "invalid_parent_room"
  failIf (b.sets.get request.parentRoomId).isSome "breakout_set_exists"
  failIf (¬Within minBreakoutChildren maxBreakoutChildren request.childCount)
    "invalid_breakout_count"
  failIf (¬Within minRoomParticipants maxRoomParticipants request.capacity)
    "invalid_breakout_capacity"
  failIf (¬Within minBreakoutLifetimeMs maxBreakoutLifetimeMs request.lifetime)
    "invalid_breakout_lifetime"
  failIf (maxSafeInteger < now) "invalid_breakout_time"

def openSet (b : BreakoutRegistry) (request : OpenRequest) (draws : Draws) (now : Nat) :
    BreakoutRegistry × Except String (Option Snapshot) :=
  match b.checkOpen request now with
  | .error code => (b, .error code)
  | .ok () =>
      let placed := placeChildren request now draws 0 request.childCount.toNat
        (request.parentRoomId :: request.occupiedRoomIds ++ b.byChild.keys) b.byChild
      match placed.2 with
      | .error code => ({ b with byChild := placed.1 }, .error code)
      | .ok children =>
          let b' : BreakoutRegistry := {
            sets := b.sets.set request.parentRoomId (newSet request now draws children)
            byChild := placed.1 }
          (b', .ok (b'.snapshot request.parentRoomId now))

/-- The set is closed with all its children, and dropped with them. -/
def closeSet (b : BreakoutRegistry) (parentRoomId : String) :
    BreakoutRegistry × Option (List String) :=
  match b.sets.get parentRoomId with
  | none => (b, none)
  | some set =>
      if set.state = .closed then
        (b, none)
      else
        ({ sets := b.sets.erase parentRoomId
           byChild := b.byChild.keep fun roomId _ =>
             decide (roomId ∉ set.children.map Child.roomId) },
          some (set.children.map Child.roomId))

end BreakoutRegistry

/-! ## Assigning -/

/-- `ttlMs`, where it is left out -/
def lasting (ttlMs : Option Int) : Int := ttlMs.getD defaultBreakoutGrantMs

/-- An assignment whose checks have passed. -/
structure Assignment where
  set : BreakoutSet
  target : TargetPeer
  child : Child
  expiresAt : Nat

def checkPrincipal (target : TargetPeer) : Except String Unit := do
  failIf (target.machine = true) "breakout_machine_denied"
  failIf (textLength target.principal < 1) "invalid_breakout_principal"
  failIf (textLength target.deviceFingerprint < 8) "invalid_breakout_device"

def Assignment.grant (a : Assignment) (grantId parentRoomId childRoomId : String) : Grant where
  grantId := grantId
  setId := a.set.setId
  parentRoomId := parentRoomId
  parentRevision := a.set.parentRevision
  childRoomId := childRoomId
  principal := a.target.principal
  deviceFingerprint := a.target.deviceFingerprint
  targetPeerId := a.target.id
  expiresAt := a.expiresAt
  consumedAt := 0

/-- The set without the live grants the target holds. -/
def Assignment.released (a : Assignment) (now : Nat) : BreakoutSet :=
  a.set.release (Grant.heldBy a.target.principal a.target.deviceFingerprint) now

/-- An entry of `occupiedByChild`, which is 0 where the child has none. -/
def occupancy (occupiedByChild : KeyedMap String Nat) (roomId : String) : Nat :=
  (occupiedByChild.get roomId).getD 0

def Eligible (parentRoomId : String) (peer : TargetPeer) : Prop :=
  peer.roomId = parentRoomId ∧ peer.machine = false ∧ 0 < textLength peer.principal
    ∧ 8 ≤ textLength peer.deviceFingerprint

instance (parentRoomId : String) (peer : TargetPeer) : Decidable (Eligible parentRoomId peer) :=
  inferInstanceAs (Decidable (_ ∧ _))

/-- The next child in turn that has a place, and how many were tried before. -/
def nextChild (set : BreakoutSet) (openChildren : List Child) (childIndex : Nat)
    (peer : TargetPeer) (occupiedByChild : KeyedMap String Nat) (now : Nat) :
    Option (Nat × Child) :=
  (List.range openChildren.length).findSome? fun attempt => do
    let child ← openChildren[(childIndex + attempt) % openChildren.length]?
    if set.waitingOthers child.roomId peer.principal peer.deviceFingerprint now
        + occupancy occupiedByChild child.roomId < child.capacity then
      some (attempt, child)
    else
      none

/-- `candidateKeys.has` -/
def candidateKey (peers : List TargetPeer) (grant : Grant) : Bool :=
  decide (Keys.joined [grant.principal, grant.deviceFingerprint]
    ∈ peers.map fun peer => Keys.joined [peer.principal, peer.deviceFingerprint])

/-- A child with the places it has left. -/
structure Scored where
  child : Child
  remaining : Int
  occupied : Nat

def score (set : BreakoutSet) (targetPeer : Option TargetPeer)
    (occupiedByChild : KeyedMap String Nat) (now : Nat) (child : Child) : Scored :=
  let occupied := occupancy occupiedByChild child.roomId
  let waiting := targetPeer.elim (set.waiting child.roomId now) fun peer =>
    set.waitingOthers child.roomId peer.principal peer.deviceFingerprint now
  ⟨child, child.capacity - (waiting + occupied : Nat), occupied⟩

/-- More places first, then the order of the room identifiers. -/
def ScoredLe (a b : Scored) : Prop :=
  b.remaining < a.remaining ∨ b.remaining = a.remaining ∧ idLe a.child.roomId b.child.roomId = true

instance : DecidableRel ScoredLe := fun _ _ => inferInstanceAs (Decidable (_ ∨ _))

/-- The child an assignment goes to: the preferred one where it has a place,
else the one with the most places left. -/
def chooseChild (set : BreakoutSet) (targetPeer : Option TargetPeer)
    (preferredChildRoomId : String) (occupiedByChild : KeyedMap String Nat) (now : Nat) :
    Option Scored :=
  let scoreOf := score set targetPeer occupiedByChild now
  let preferred := (set.openChildren.find? fun child =>
    decide (child.roomId = preferredChildRoomId)).map scoreOf
  let roomy := fun item : Scored => decide (0 < item.remaining)
  if preferredChildRoomId ≠ "" ∧ preferred.any roomy then
    preferred
  else
    (((set.openChildren.map scoreOf).filter roomy).insertionSort ScoredLe).head?

/-- Mark the first grant with a property as used up. -/
def useFirst (p : Grant → Bool) (now : Nat) : List Grant → List Grant
  | [] => []
  | grant :: grants =>
      if p grant then { grant with consumedAt := now } :: grants
      else grant :: useFirst p now grants

namespace BreakoutRegistry

def checkAssignment (b : BreakoutRegistry) (parentRoomId : String) (targetPeer : Option TargetPeer)
    (childRoomId : String) (ttlMs : Option Int) (now occupied : Nat) :
    Except String Assignment := do
  let set ← found ((b.sets.get parentRoomId).filter fun set => decide (set.state = .opened))
    "breakout_unavailable"
  failIf (set.expiresAt ≤ now) "breakout_expired"
  let target ← found (targetPeer.filter fun target => decide (target.roomId = parentRoomId))
    "breakout_target_not_member"
  checkPrincipal target
  let child ← found (set.openChild childRoomId) "breakout_unknown_child"
  failIf (¬Within minBreakoutGrantMs maxBreakoutGrantMs (lasting ttlMs)) "invalid_breakout_grant"
  failIf (maxSafeInteger < occupied) "invalid_breakout_occupancy"
  let expiresAt := min (now + (lasting ttlMs).toNat) set.expiresAt
  failIf (expiresAt ≤ now) "breakout_expired"
  .ok ⟨set, target, child, expiresAt⟩

/-- What assignments have in common: the target's other live grants are
dropped before the child is found to be full. -/
def place (b : BreakoutRegistry) (parentRoomId : String) (targetPeer : Option TargetPeer)
    (childRoomId : String) (ttlMs : Option Int) (now occupied : Nat) (grantId : String) :
    BreakoutRegistry × Except String Grant :=
  match b.checkAssignment parentRoomId targetPeer childRoomId ttlMs now occupied with
  | .error code => (b, .error code)
  | .ok a =>
      if a.child.capacity ≤ (a.released now).waiting childRoomId now + occupied then
        ({ b with sets := b.sets.set parentRoomId (a.released now) }, .error "breakout_child_full")
      else
        let grant := a.grant grantId parentRoomId childRoomId
        ({ b with sets := b.sets.set parentRoomId ((a.released now).push grant) }, .ok grant)

def assign (b : BreakoutRegistry) (parentRoomId : String) (ownerRole : Role)
    (targetPeer : Option TargetPeer) (childRoomId : String) (ttlMs : Option Int)
    (now occupied : Nat) (grantId : String) : BreakoutRegistry × Except String Grant :=
  if ownerRole ≠ .owner then
    (b, .error "breakout_owner_required")
  else
    b.place parentRoomId targetPeer childRoomId ttlMs now occupied grantId

def assignVoluntary (b : BreakoutRegistry) (parentRoomId : String)
    (targetPeer : Option TargetPeer) (childRoomId : String) (ttlMs : Option Int)
    (now occupied : Nat) (grantId : String) : BreakoutRegistry × Except String Grant :=
  b.place parentRoomId targetPeer childRoomId ttlMs now occupied grantId

/-- The loop over the peers; it ends with the first that finds no child. -/
def balance (parentRoomId : String) (ownerRole : Role) (openChildren : List Child)
    (occupiedByChild : KeyedMap String Nat) (ttlMs : Option Int) (now : Nat)
    (grantIds : Nat → String) : List TargetPeer → Nat → BreakoutRegistry → List Grant →
    BreakoutRegistry × Except String (List Grant)
  | [], _, b, grants => (b, .ok grants)
  | peer :: peers, childIndex, b, grants =>
      match (b.sets.get parentRoomId).bind fun set =>
          nextChild set openChildren childIndex peer occupiedByChild now with
      | none => (b, .ok grants)
      | some (attempt, child) =>
          match b.assign parentRoomId ownerRole (some peer) child.roomId ttlMs now
              (occupancy occupiedByChild child.roomId) (grantIds grants.length) with
          | (b', .error code) => (b', .error code)
          | (b', .ok grant) =>
              balance parentRoomId ownerRole openChildren occupiedByChild ttlMs now grantIds peers
                ((childIndex + attempt + 1) % openChildren.length) b' (grants ++ [grant])

def checkBalanced (b : BreakoutRegistry) (parentRoomId : String) (ownerRole : Role) (now : Nat) :
    Except String BreakoutSet := do
  failIf (ownerRole ≠ .owner) "breakout_owner_required"
  let set ← found ((b.sets.get parentRoomId).filter fun set => decide (set.state = .opened))
    "breakout_unavailable"
  failIf (set.expiresAt ≤ now) "breakout_expired"
  failIf (set.openChildren = []) "breakout_unknown_child"
  .ok set

def assignBalanced (b : BreakoutRegistry) (parentRoomId : String) (ownerRole : Role)
    (candidatePeers : List TargetPeer) (ttlMs : Option Int) (now : Nat)
    (occupiedByChild : KeyedMap String Nat) (grantIds : Nat → String) :
    BreakoutRegistry × Except String (List Grant) :=
  match b.checkBalanced parentRoomId ownerRole now with
  | .error code => (b, .error code)
  | .ok set =>
      let eligiblePeers := (candidatePeers.filter fun peer =>
        decide (Eligible parentRoomId peer)).insertionSort fun p q => idLe p.id q.id = true
      let openChildren := set.openChildren.insertionSort fun c d => idLe c.roomId d.roomId = true
      let b' := { b with
        sets := b.sets.set parentRoomId (set.release (candidateKey eligiblePeers) now) }
      balance parentRoomId ownerRole openChildren occupiedByChild ttlMs now grantIds eligiblePeers
        0 b' []

def checkResolve (b : BreakoutRegistry) (parentRoomId : String) (now : Nat) :
    Except String BreakoutSet := do
  let set ← found ((b.sets.get parentRoomId).filter fun set => decide (set.state = .opened))
    "breakout_unavailable"
  failIf (set.expiresAt ≤ now) "breakout_expired"
  failIf (set.openChildren = []) "breakout_unknown_child"
  .ok set

def resolveAssignment (b : BreakoutRegistry) (parentRoomId : String)
    (targetPeer : Option TargetPeer) (preferredChildRoomId : String) (ttlMs : Option Int)
    (now : Nat) (occupiedByChild : KeyedMap String Nat) (grantId : String) :
    BreakoutRegistry × Except String Grant :=
  match b.checkResolve parentRoomId now with
  | .error code => (b, .error code)
  | .ok set =>
      match chooseChild set targetPeer preferredChildRoomId occupiedByChild now with
      | none => (b, .error "breakout_all_children_full")
      | some item =>
          b.assignVoluntary parentRoomId targetPeer item.child.roomId ttlMs now item.occupied
            grantId

/-! ## Revoking and consuming -/

def checkRevoke (b : BreakoutRegistry) (parentRoomId : String) (ownerRole : Role)
    (grantId : String) (now : Nat) : Except String (BreakoutSet × Grant) := do
  failIf (ownerRole ≠ .owner) "breakout_owner_required"
  let set ← found ((b.sets.get parentRoomId).filter fun set => decide (set.state = .opened))
    "breakout_unavailable"
  let grant ← found (set.grants.find? fun grant => decide (grant.grantId = grantId))
    "breakout_unknown_grant"
  failIf (¬grant.live now) "breakout_grant_consumed"
  .ok (set, grant)

def revoke (b : BreakoutRegistry) (parentRoomId : String) (ownerRole : Role) (grantId : String)
    (now : Nat) : BreakoutRegistry × Except String Grant :=
  match b.checkRevoke parentRoomId ownerRole grantId now with
  | .error code => (b, .error code)
  | .ok (set, grant) =>
      let rest := set.grants.eraseP fun grant => decide (grant.grantId = grantId)
      ({ b with sets := b.sets.set parentRoomId { set with grants := rest } },
        .ok { grant with consumedAt := now })

def checkConsume (b : BreakoutRegistry) (roomId setId principal deviceFingerprint : String)
    (now : Nat) : Except String (Reserved × BreakoutSet) := do
  let reserved ← found ((b.reserved roomId).filter fun reserved => decide (reserved.setId = setId))
    "breakout_assignment_required"
  failIf (reserved.child.expiresAt ≤ now) "breakout_expired"
  let set ← found ((b.sets.get reserved.parentRoomId).filter fun set => set.grants.any fun grant =>
    admitting roomId principal deviceFingerprint set.parentRevision now grant
      && decide (grant.setId = setId)) "breakout_assignment_required"
  .ok (reserved, set)

def consume (b : BreakoutRegistry) (roomId setId principal deviceFingerprint : String)
    (now : Nat) : BreakoutRegistry × Except String Reserved :=
  match b.checkConsume roomId setId principal deviceFingerprint now with
  | .error code => (b, .error code)
  | .ok (reserved, set) =>
      let grants := useFirst (fun grant =>
        admitting roomId principal deviceFingerprint set.parentRevision now grant
          && decide (grant.setId = setId)) now set.grants
      ({ b with sets := b.sets.set reserved.parentRoomId { set with grants := grants } },
        .ok reserved)

end BreakoutRegistry

end Breakout

end WebrtcMinimize
