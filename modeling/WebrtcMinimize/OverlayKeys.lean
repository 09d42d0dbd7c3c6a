import WebrtcMinimize.Maps

/-!
# Overlay keys of the peers

What `PeerMeshService` does with the overlay keys that the server relays:
`acceptOverlayKey`, `applyPeerOverlayKey` with its three attempts, the keys that
are ahead of the topology, and the rotations, which replace the whole overlay.
The calls suspend at `overlayInitialization` and at the import of a key; calls
that wait for an initialization go on in the order in which they began to wait,
imports end in any order.

Lifetimes, operations and peer objects are compared by identity in the source.
They are numbers here, each drawn once.
-/

namespace WebrtcMinimize

namespace OverlayKeys

/-! ## The overlay -/

/-- `OpaqueDataOverlay`, as far as keys go. -/
structure OpaqueDataOverlay (PeerId Key : Type) where
  lifetime : Nat
  keyPair : Bool
  peerImports : KeyedMap PeerId Nat
  peerKeys : KeyedMap PeerId Key

/-- What `overlayOperationCurrent([peerId], false)` has captured. -/
structure Fence where
  generation : Nat
  membershipEpoch : Nat
  peer : Option Nat
deriving DecidableEq

/-- A call of `applyPeerOverlayKey`, in one of its attempts. -/
structure Call (PeerId Key : Type) where
  serial : Nat
  peerId : PeerId
  key : Key
  attempt : Nat
  fence : Fence

/-- A call that waits until this many initializations are over. -/
structure Waiting (PeerId Key : Type) where
  call : Call PeerId Key
  awaited : Nat

/-- A call whose key is being imported. -/
structure Import (PeerId Key : Type) where
  call : Call PeerId Key
  lifetime : Nat
  operation : Nat

/-- What a rotation waits for. -/
inductive Stage
  | queued
  | loading (lifetime : Nat)
  | generating (lifetime overlay : Nat)
  | exporting (lifetime overlay : Nat)
deriving DecidableEq

structure Rotation where
  generation : Nat
  stage : Stage
deriving DecidableEq

/-- `PeerMeshService` in one room. -/
structure Mesh (PeerId Key : Type) where
  ownId : PeerId
  peers : KeyedMap PeerId Nat
  membershipEpoch : Nat
  membershipStable : Bool
  appliedPeerIds : List PeerId
  overlayPublicKey : Bool
  overlayGeneration : Nat
  bufferedOverlayKeys : KeyedMap PeerId (Nat × Key)
  /-- `overlayInitialization`: the rotations that are not over, and how many are. -/
  rotations : List Rotation
  settled : Nat
  /-- `LazyOpaqueDataOverlay` -/
  lifetime : Nat
  overlay : Option (OpaqueDataOverlay PeerId Key)
  waiting : List (Waiting PeerId Key)
  importing : List (Import PeerId Key)
  fresh : Nat
  /-- The last call for each peer; nothing reads it. -/
  latest : KeyedMap PeerId Nat

variable {PeerId Key : Type} [DecidableEq PeerId]

/-- After `initialize`. -/
def start (ownId : PeerId) : Mesh PeerId Key where
  ownId
  peers := .empty
  membershipEpoch := 0
  membershipStable := false
  appliedPeerIds := []
  overlayPublicKey := false
  overlayGeneration := 0
  bufferedOverlayKeys := .empty
  rotations := []
  settled := 0
  lifetime := 0
  overlay := none
  waiting := []
  importing := []
  fresh := 1
  latest := .empty

def maxAttempts : Nat := 3

namespace OpaqueDataOverlay

variable (o : OpaqueDataOverlay PeerId Key)

def removePeer (peerId : PeerId) : OpaqueDataOverlay PeerId Key :=
  { o with peerImports := o.peerImports.erase peerId, peerKeys := o.peerKeys.erase peerId }

def setKeyPair : OpaqueDataOverlay PeerId Key := { o with keyPair := true }

end OpaqueDataOverlay

namespace Mesh

variable (s : Mesh PeerId Key)

def peerIds : List PeerId := s.peers.keys

/-- The peer is in the room. -/
def has (peerId : PeerId) : Bool := (s.peers.get peerId).isSome

/-- The key that the overlay holds for the peer. -/
def peerKey (peerId : PeerId) : Option Key := s.overlay.bind fun o => o.peerKeys.get peerId

/-! ### Calls -/

/-- `overlayOperationCurrent([peerId], false)` -/
def fence (peerId : PeerId) : Fence :=
  ⟨s.overlayGeneration, s.membershipEpoch, s.peers.get peerId⟩

def current (call : Call PeerId Key) : Bool :=
  call.fence.peer.isSome && decide (s.fence call.peerId = call.fence)

/-- An attempt begins, and waits for `overlayInitialization`. -/
def tryOnce (call : Call PeerId Key) : Mesh PeerId Key :=
  if s.has call.peerId = false then s
  else { s with
    waiting := s.waiting ++ [⟨{ call with fence := s.fence call.peerId },
      s.settled + s.rotations.length⟩] }

/-- The error is transient: the next attempt, if there is one. -/
def tryAgain (call : Call PeerId Key) : Mesh PeerId Key :=
  if maxAttempts ≤ call.attempt + 1 then s
  else s.tryOnce { call with attempt := call.attempt + 1 }

def applyPeerOverlayKey (peerId : PeerId) (key : Key) : Mesh PeerId Key :=
  { s with fresh := s.fresh + 1, latest := s.latest.set peerId s.fresh }.tryOnce
    ⟨s.fresh, peerId, key, 0, s.fence peerId⟩

/-- `overlay.setPeerKey`, until the key is being imported. -/
def setPeerKey (call : Call PeerId Key) : Mesh PeerId Key :=
  match s.overlay with
  | none => s.tryAgain call
  | some o =>
      if o.keyPair = false ∨ call.peerId = s.ownId then s
      else { s with
        fresh := s.fresh + 1
        overlay := some { o.removePeer call.peerId with
          peerImports := (o.removePeer call.peerId).peerImports.set call.peerId s.fresh }
        importing := s.importing ++ [⟨call, o.lifetime, s.fresh⟩] }

/-- The first call that waits goes on. -/
def resume : Mesh PeerId Key :=
  match s.waiting with
  | [] => s
  | w :: rest =>
      if s.settled < w.awaited then s
      else if s.current w.call = false then { s with waiting := rest }
      else { s with waiting := rest }.setPeerKey w.call

/-- The overlay has not changed since the import began. -/
def unchanged (x : Import PeerId Key) : Bool :=
  s.overlay.any fun o =>
    o.lifetime == x.lifetime && o.peerImports.get x.call.peerId == some x.operation

/-- The import at this place ends. -/
def imported (i : Nat) : Mesh PeerId Key :=
  match s.importing[i]? with
  | none => s
  | some x =>
      if s.unchanged x = false then
        { s with importing := s.importing.eraseIdx i }.tryAgain x.call
      else { s with
        importing := s.importing.eraseIdx i
        overlay := s.overlay.map fun o =>
          { o with peerKeys := o.peerKeys.set x.call.peerId x.call.key } }

/-! ### Rotations -/

def rotateOverlayKey : Mesh PeerId Key :=
  { s with
    overlayGeneration := s.overlayGeneration + 1
    overlayPublicKey := false
    rotations := s.rotations ++ [⟨s.overlayGeneration + 1, .queued⟩] }

/-- `LazyOpaqueDataOverlay.destroy` -/
def destroyOverlay : Mesh PeerId Key :=
  { s with fresh := s.fresh + 1, lifetime := s.fresh, overlay := none }

/-- The first rotation is over. -/
def settle : Mesh PeerId Key := { s with rotations := s.rotations.tail, settled := s.settled + 1 }

def setStage (stage : Stage) : Mesh PeerId Key :=
  { s with rotations := s.rotations.modifyHead fun r => ⟨r.generation, stage⟩ }

/-- The overlay object is still the one whose initialization this is. -/
def initializing (overlay : Nat) : Bool := s.overlay.any fun o => o.lifetime == overlay

/-- The first rotation goes on. -/
def rotation : Mesh PeerId Key :=
  match s.rotations with
  | [] => s
  | r :: _ =>
      match r.stage with
      | .queued =>
          if r.generation ≠ s.overlayGeneration then s.settle
          else s.destroyOverlay.setStage (.loading s.fresh)
      | .loading lifetime =>
          if lifetime ≠ s.lifetime then s.settle
          else { s with
            fresh := s.fresh + 1
            overlay := some ⟨s.fresh, false, .empty, .empty⟩ }.setStage (.generating lifetime s.fresh)
      | .generating lifetime overlay =>
          if s.initializing overlay = false then s.settle
          else s.setStage (.exporting lifetime overlay)
      | .exporting lifetime overlay =>
          if s.initializing overlay = false ∨ lifetime ≠ s.lifetime then s.settle
          else if r.generation ≠ s.overlayGeneration then s.destroyOverlay.settle
          else { s with
            overlayPublicKey := true
            overlay := s.overlay.map OpaqueDataOverlay.setKeyPair }.settle

/-! ### Messages -/

def addPeer (peerId : PeerId) : Mesh PeerId Key :=
  if peerId = s.ownId ∨ s.has peerId = true then s
  else { s with
    fresh := s.fresh + 1
    peers := s.peers.set peerId s.fresh
    membershipStable := s.membershipStable && s.membershipEpoch == 0 }

def removePeer (peerId : PeerId) : Mesh PeerId Key :=
  if s.has peerId = false then s
  else { s with
    peers := s.peers.erase peerId
    membershipStable := false
    overlay := s.overlay.map fun o => o.removePeer peerId
    bufferedOverlayKeys := s.bufferedOverlayKeys.erase peerId }

/-- `resetPeerConnection` -/
def resetPeer (peerId : PeerId) : Mesh PeerId Key :=
  if s.has peerId = false then s
  else
    let added := (s.removePeer peerId).addPeer peerId
    { added with membershipStable := s.membershipStable || added.membershipStable }

def flushOne (s : Mesh PeerId Key) (e : PeerId × (Nat × Key)) : Mesh PeerId Key :=
  if s.has e.1 = false ∨ e.2.1 < s.membershipEpoch then
    { s with bufferedOverlayKeys := s.bufferedOverlayKeys.erase e.1 }
  else if e.2.1 = s.membershipEpoch then
    { s with bufferedOverlayKeys := s.bufferedOverlayKeys.erase e.1 }.applyPeerOverlayKey e.1 e.2.2
  else s

def flushBufferedOverlayKeys : Mesh PeerId Key := s.bufferedOverlayKeys.entries.foldl flushOne s

/-- `applyTopology`; `valid` is what the topology contract says of the message
but for its membership epoch. -/
def applyTopology (membershipEpoch : Nat) (valid : Bool) : Mesh PeerId Key :=
  if valid = false ∨ membershipEpoch < 1 ∨ membershipEpoch < s.membershipEpoch then s
  else
    let peerLeft := s.appliedPeerIds.any fun peerId => !s.has peerId
    let applied := { s with
      membershipEpoch
      membershipStable := true
      appliedPeerIds := s.peerIds }
    if membershipEpoch ≠ s.membershipEpoch ∧ (peerLeft = true ∨ s.overlayPublicKey = false) then
      applied.rotateOverlayKey.flushBufferedOverlayKeys
    else applied.flushBufferedOverlayKeys

def acceptOverlayKey (peerId : PeerId) (membershipEpoch : Nat) (key : Key) : Mesh PeerId Key :=
  if s.has peerId = false then s
  else if s.membershipEpoch < membershipEpoch then
    { s with bufferedOverlayKeys := s.bufferedOverlayKeys.set peerId (membershipEpoch, key) }
  else if membershipEpoch < s.membershipEpoch then s
  else { s with bufferedOverlayKeys := s.bufferedOverlayKeys.erase peerId }.applyPeerOverlayKey
    peerId key

end Mesh

/-! ## Runs -/

inductive Event (PeerId Key : Type)
  | addPeer (peerId : PeerId)
  | removePeer (peerId : PeerId)
  | resetPeer (peerId : PeerId)
  | topology (membershipEpoch : Nat) (valid : Bool)
  | overlayKey (peerId : PeerId) (membershipEpoch : Nat) (key : Key)
  | resume
  | imported (i : Nat)
  | rotation
deriving DecidableEq

namespace Mesh

def next (s : Mesh PeerId Key) : Event PeerId Key → Mesh PeerId Key
  | .addPeer peerId => s.addPeer peerId
  | .removePeer peerId => s.removePeer peerId
  | .resetPeer peerId => s.resetPeer peerId
  | .topology membershipEpoch valid => s.applyTopology membershipEpoch valid
  | .overlayKey peerId membershipEpoch key => s.acceptOverlayKey peerId membershipEpoch key
  | .resume => s.resume
  | .imported i => s.imported i
  | .rotation => s.rotation

/-- No operation of the overlay is pending. -/
def idle (s : Mesh PeerId Key) : Bool :=
  s.waiting.isEmpty && s.importing.isEmpty && s.rotations.isEmpty

end Mesh

/-! ## What the server sends -/

/-- The membership epoch that the server has put on the message. -/
def Event.stamp : Event PeerId Key → Option Nat
  | .topology membershipEpoch _ => some membershipEpoch
  | .overlayKey _ membershipEpoch _ => some membershipEpoch
  | _ => none

/-- The server's epoch starts at one and does not decrease. -/
def Honest (es : List (Event PeerId Key)) : Prop :=
  (1 :: es.filterMap Event.stamp).Pairwise (· ≤ ·)

instance (es : List (Event PeerId Key)) : Decidable (Honest es) :=
  inferInstanceAs (Decidable (List.Pairwise _ _))

/-- What has come from a peer since it was added, with the epochs. -/
def hear (peerId : PeerId) (heard : Option (List (Nat × Key))) :
    Event PeerId Key → Option (List (Nat × Key))
  | .addPeer p => if p = peerId then some (heard.getD []) else heard
  | .removePeer p => if p = peerId then none else heard
  | .resetPeer p => if p = peerId then heard.map fun _ => [] else heard
  | .overlayKey p membershipEpoch key =>
      if p = peerId then heard.map (· ++ [(membershipEpoch, key)]) else heard
  | _ => heard

def heard (es : List (Event PeerId Key)) (peerId : PeerId) : List (Nat × Key) :=
  (es.foldl (hear peerId) none).getD []

/-- The last key of the peer with this epoch, of those that came since it was added. -/
def lastKey (es : List (Event PeerId Key)) (peerId : PeerId) (membershipEpoch : Nat) : Option Key :=
  ((heard es peerId).filter fun m => m.1 == membershipEpoch).getLast?.map Prod.snd

end OverlayKeys

end WebrtcMinimize
