import Mathlib.Logic.Function.Basic

/-!
# Peer resets

The `PeerConnectionManager`s of two peers, joined by one channel in each
direction, as far as the rebuilding of their connections goes. A transport that
has refused its DTLS role is rebuilt; a marker asks the other side to rebuild as
well, and the same marker is the answer. What a marker means is decided by two
times that each side keeps for its peer.

A connection is known by how often its side has rebuilt. Descriptions and
candidates carry that number here; the sides do not read it, nor whether a
marker is an answer.
-/

namespace WebrtcMinimize

namespace PeerResets

inductive Side
  | left
  | right
deriving DecidableEq

def Side.other : Side → Side
  | .left => .right
  | .right => .left

/-- `PEER_RESET_COOLDOWN_MS` -/
def cooldownMs : Nat := 120000

/-- `PEER_RESET_ACK_TIMEOUT_MS` -/
def ackTimeoutMs : Nat := 10000

inductive Signal
  /-- A `rollback` description. -/
  | marker (answer : Bool)
  /-- Any other description, or a candidate, from the connection with this number. -/
  | ordinary (generation : Nat)
deriving DecidableEq

structure PeerResetState where
  resetAt : Nat
  awaitingAckUntil : Nat
deriving DecidableEq

/-- `PeerConnectionManager`, for one peer. -/
structure Manager where
  generation : Nat
  reset : Option PeerResetState
  dtlsConflict : Bool
  /-- The signals accepted and not yet applied: the connection they come from, and
  the one that they are for. -/
  signalQueue : List (Nat × Nat)
deriving DecidableEq

inductive Action
  | rebuilt (side : Side) (time : Nat) (answer : Bool)
  /-- A signal of the connection `sender` is applied to the connection `receiver`. -/
  | applied (side : Side) (sender receiver : Nat)
deriving DecidableEq

structure Pair where
  now : Nat
  manager : Side → Manager
  /-- What is on its way to each side. -/
  channel : Side → List Signal
  log : List Action

def start (now : Nat) : Pair := ⟨now, fun _ => ⟨0, none, false, []⟩, fun _ => [], []⟩

namespace Manager

variable (m : Manager) (now : Nat)

def awaitingPeerReset : Bool := m.reset.any fun r => decide (now < r.awaitingAckUntil)

def coolingDown : Bool := m.reset.any fun r => decide (now - r.resetAt < cooldownMs)

/-- The connection of `recreatePeer`. Signals that were accepted for the old one stay
with it. -/
def recreatePeer : Manager := ⟨m.generation + 1, some ⟨now, 0⟩, false, m.signalQueue⟩

def setAwaiting (awaitingAckUntil : Nat) : Manager :=
  { m with reset := m.reset.map fun r => ⟨r.resetAt, awaitingAckUntil⟩ }

end Manager

namespace Pair

variable (p : Pair) (x : Side)

def setManager (m : Manager) : Pair := { p with manager := Function.update p.manager x m }

def signal (s : Signal) : Pair :=
  { p with channel := Function.update p.channel x.other (p.channel x.other ++ [s]) }

/-- What comes first on the way to the side is taken off. -/
def take (rest : List Signal) : Pair := { p with channel := Function.update p.channel x rest }

def record (action : Action) : Pair := { p with log := p.log ++ [action] }

/-- The marker, and the new connection. -/
def rebuild (answer : Bool) : Pair :=
  ((p.signal x (.marker answer)).setManager x ((p.manager x).recreatePeer p.now)).record
    (.rebuilt x p.now answer)

def initiatePeerReset : Pair :=
  if (p.manager x).coolingDown p.now = true then p
  else (p.rebuild x false).setManager x
    (((p.rebuild x false).manager x).setAwaiting (p.now + ackTimeoutMs))

def acceptPeerReset : Pair :=
  if (p.manager x).awaitingPeerReset p.now = true then
    p.setManager x ((p.manager x).setAwaiting 0)
  else if (p.manager x).coolingDown p.now = true then p
  else p.rebuild x true

def handleDtlsConflict : Pair :=
  (p.setManager x { p.manager x with dtlsConflict := true }).initiatePeerReset x

/-- `recover`, of which only the part about resets; its timer may run out at any time. -/
def recover (connected : Bool) : Pair :=
  if connected = true ∨ (p.manager x).dtlsConflict = false then p else p.initiatePeerReset x

def acceptSignal : Signal → Pair
  | .marker _ => p.acceptPeerReset x
  | .ordinary generation =>
      if (p.manager x).awaitingPeerReset p.now = true then p
      else p.setManager x { p.manager x with
        signalQueue := (p.manager x).signalQueue ++ [(generation, (p.manager x).generation)] }

/-- `applySignal`; a connection that was replaced is closed. -/
def applySignal : Pair :=
  match (p.manager x).signalQueue with
  | [] => p
  | (sender, receiver) :: rest =>
      let taken := p.setManager x { p.manager x with signalQueue := rest }
      if receiver ≠ (p.manager x).generation then taken
      else taken.record (.applied x sender receiver)

end Pair

/-! ## Runs -/

inductive Event
  /-- The transport of the side refuses its DTLS role. -/
  | conflict (x : Side)
  | recover (x : Side) (connected : Bool)
  /-- The side sends a description or a candidate. -/
  | send (x : Side)
  /-- What comes first on the way to the side arrives. -/
  | deliver (x : Side)
  | apply (x : Side)
  | tick (ms : Nat)
deriving DecidableEq

namespace Pair

def next (p : Pair) : Event → Pair
  | .conflict x => p.handleDtlsConflict x
  | .recover x connected => p.recover x connected
  | .send x => p.signal x (.ordinary (p.manager x).generation)
  | .deliver x =>
      match p.channel x with
      | [] => p
      | s :: rest => (p.take x rest).acceptSignal x s
  | .apply x => p.applySignal x
  | .tick ms => { p with now := p.now + ms }

/-- Both channels are empty. -/
def quiet (p : Pair) : Prop := ∀ x, p.channel x = []

end Pair

/-- When the side rebuilt its connection. -/
def Action.rebuiltAt (x : Side) : Action → Option Nat
  | .rebuilt y time _ => if y = x then some time else none
  | _ => none

def Pair.rebuilds (p : Pair) (x : Side) : List Nat := p.log.filterMap (Action.rebuiltAt x)

/-- How many markers were sent, as requests or as answers. -/
def Pair.markers (p : Pair) (answer : Bool) : Nat :=
  p.log.countP fun
    | .rebuilt _ _ answer' => answer' == answer
    | _ => false

/-- The conflicts among the events. -/
def conflicts (es : List Event) : Nat :=
  es.countP fun
    | .conflict _ => true
    | _ => false

end PeerResets

end WebrtcMinimize
