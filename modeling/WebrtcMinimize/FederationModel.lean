import WebrtcMinimize.Checks
import WebrtcMinimize.Runs

/-!
# Negotiation on a federation link

Two native agents at the ends of a federation link renegotiate their peer
connection in turns. The initiator of the link may offer when it has given
no turn away; the other end asks for a turn with a negotiation request and
offers once the initiator granted it. Offers and answers travel over the
server's signaling, requests and grants over the data channel, each in
order and without loss. What an end does under its lock is one step; what it sends after
releasing the lock waits in `unsent` until the sending routine runs.

The peer connection is the part of the third-party stack that the code
relies on: its signaling state, in which descriptions can be set as the
offer/answer exchange allows.
-/

namespace WebrtcMinimize

open Checks

/-! ## The peer connection -/

inductive SignalingState where
  | stable | haveLocalOffer | haveRemoteOffer | closed
deriving DecidableEq, Repr

namespace SignalingState

def setLocalOffer : SignalingState → Option SignalingState
  | .stable => some .haveLocalOffer
  | .haveLocalOffer => some .haveLocalOffer
  | .haveRemoteOffer => none
  | .closed => none

def setRemoteOffer : SignalingState → Option SignalingState
  | .stable => some .haveRemoteOffer
  | .haveRemoteOffer => some .haveRemoteOffer
  | .haveLocalOffer => none
  | .closed => none

def setLocalAnswer : SignalingState → Option SignalingState
  | .haveRemoteOffer => some .stable
  | .stable => none
  | .haveLocalOffer => none
  | .closed => none

def setRemoteAnswer : SignalingState → Option SignalingState
  | .haveLocalOffer => some .stable
  | .stable => none
  | .haveRemoteOffer => none
  | .closed => none

end SignalingState

/-! ## Messages -/

/-- What a `federation-signal` carries. -/
inductive SignalMessage where
  | offer | answer | candidate
deriving DecidableEq, Repr

/-- The messages of the `federation-control` channel. -/
inductive ControlMessage where
  | hello
  | ack (accepted : Bool)
  | negotiationRequest (sequence : Nat)
  | negotiationGrant (sequence : Nat)
  | stats (sequence : Nat)
deriving DecidableEq, Repr

/-! ## One end -/

structure FederationPeer where
  signaling : SignalingState
  makingOffer : Bool
  needsNegotiation : Bool
  nextNegotiationSequence : Nat
  localNegotiationRequest : Nat
  localNegotiationGrant : Nat
  lastRemoteNegotiationRequest : Nat
  remoteNegotiationRequest : Nat
  remoteNegotiationGrant : Nat
  remoteHello : Bool
  remoteAck : Bool
  ready : Bool
  closed : Bool
  lastStatsSequence : Nat
  statsSequence : Nat
deriving DecidableEq, Repr

/-- A peer as `newFederationPeer` makes it. -/
def FederationPeer.new : FederationPeer where
  signaling := .stable
  makingOffer := false
  needsNegotiation := false
  nextNegotiationSequence := 0
  localNegotiationRequest := 0
  localNegotiationGrant := 0
  lastRemoteNegotiationRequest := 0
  remoteNegotiationRequest := 0
  remoteNegotiationGrant := 0
  remoteHello := false
  remoteAck := false
  ready := false
  closed := false
  lastStatsSequence := 0
  statsSequence := 0

namespace FederationPeer

variable (f : FederationPeer)

/-- The state after a signal and the answer to send. The answer is sent
under the lock. `retryNegotiation` says that the remote answer left out an
outgoing track. -/
def acceptSignal (isInitiator retryNegotiation : Bool) (message : SignalMessage) :
    Except String (FederationPeer × Option SignalMessage) := do
  failIf (f.closed = true) "federation peer closed"
  match message with
  | .candidate => return (f, none)
  | .offer =>
      failIf (f.makingOffer = true ∨ f.signaling ≠ .stable) "unscheduled federation offer"
      failIf (isInitiator = true ∧ f.remoteNegotiationGrant = 0) "ungranted federation offer"
      failIf (isInitiator = false ∧ f.localNegotiationGrant ≠ 0)
        "federation offer crossed a granted local turn"
      match f.signaling.setRemoteOffer.bind SignalingState.setLocalAnswer with
      | none => .error "set federation remote description"
      | some signaling => return ({ f with
          signaling := signaling
          remoteNegotiationGrant := if isInitiator then 0 else f.remoteNegotiationGrant },
          some .answer)
  | .answer =>
      match f.signaling.setRemoteAnswer with
      | none => .error "set federation remote description"
      | some signaling => return ({ f with
          signaling := signaling
          needsNegotiation := f.needsNegotiation || retryNegotiation }, none)

/-- What `negotiate` leads to besides the change of the peer. -/
inductive Turn where
  | wait
  | request (sequence : Nat)
  | offer
deriving DecidableEq, Repr

/-- `created` says that the peer connection made the offer. -/
def negotiate (isInitiator created : Bool) : FederationPeer × Turn :=
  if f.closed then (f, .wait)
  else
    let f := { f with needsNegotiation := true }
    if f.makingOffer = true ∨ f.signaling ≠ .stable
        ∨ isInitiator = true ∧ f.remoteNegotiationGrant ≠ 0 then (f, .wait)
    else if isInitiator = false ∧ f.ready = false then (f, .wait)
    else if isInitiator = false ∧ f.localNegotiationGrant = 0 then
      if f.localNegotiationRequest ≠ 0 then (f, .wait)
      else
        let sequence := f.nextNegotiationSequence + 1
        ({ f with nextNegotiationSequence := sequence, localNegotiationRequest := sequence },
          .request sequence)
    else
      match if created then f.signaling.setLocalOffer else none with
      | none => (f, .wait)
      | some signaling => ({ f with
          signaling := signaling
          needsNegotiation := false
          localNegotiationGrant := 0 }, .offer)

/-- `takeRemoteNegotiationGrantLocked` -/
def takeRemoteNegotiationGrant (isInitiator : Bool) : FederationPeer × Option Nat :=
  if isInitiator = false ∨ f.ready = false ∨ f.remoteNegotiationRequest = 0
      ∨ f.remoteNegotiationGrant ≠ 0 ∨ f.makingOffer = true ∨ f.signaling ≠ .stable then (f, none)
  else
    ({ f with
      remoteNegotiationRequest := 0
      remoteNegotiationGrant := f.remoteNegotiationRequest }, some f.remoteNegotiationRequest)

/-- The message is one that the peer's decoder lets through. -/
def decodable : ControlMessage → Bool
  | .negotiationRequest sequence => decide (1 ≤ sequence)
  | .negotiationGrant sequence => decide (1 ≤ sequence)
  | _ => true

/-- The state after a control message and the message to send, or the reason
the link is closed for. `leaseActive` is the outcome of the lease checks of
a hello. -/
def acceptControl (isInitiator leaseActive : Bool) (message : ControlMessage) :
    Except String (FederationPeer × Option ControlMessage) := do
  failIf (decodable message = false) "invalid-control-envelope"
  if f.closed then return (f, none)
  match message with
  | .hello =>
      failIf (leaseActive = false) "invalid-lease-proof"
      return ({ f with remoteHello := true }, some (.ack true))
  | .ack accepted =>
      failIf (accepted = false) "rejected-ack"
      return ({ f with remoteAck := true }, none)
  | .negotiationRequest sequence =>
      failIf (isInitiator = false ∨ sequence ≤ f.lastRemoteNegotiationRequest)
        "invalid-negotiation-request"
      let requested := { f with
        lastRemoteNegotiationRequest := sequence
        remoteNegotiationRequest := sequence }
      let (granting, grant) := requested.takeRemoteNegotiationGrant isInitiator
      return (granting, grant.map .negotiationGrant)
  | .negotiationGrant sequence =>
      failIf (isInitiator = true ∨ sequence ≠ f.localNegotiationRequest) "invalid-negotiation-grant"
      return ({ f with localNegotiationRequest := 0, localNegotiationGrant := sequence }, none)
  | .stats sequence =>
      failIf (sequence ≤ f.lastStatsSequence) "non-monotone-stats"
      return ({ f with lastStatsSequence := sequence }, none)

def markReady : FederationPeer :=
  if f.closed = false ∧ f.ready = false ∧ f.remoteHello = true ∧ f.remoteAck = true then
    { f with ready := true }
  else f

def close : FederationPeer := { f with closed := true, ready := false, signaling := .closed }

end FederationPeer

/-! ## The link -/

inductive Side where
  | initiator | responder
deriving DecidableEq, Repr

def Side.isInitiator : Side → Bool
  | .initiator => true
  | .responder => false

/-- One end of the link with what is under way to it. -/
structure LinkEnd where
  peer : FederationPeer
  /-- Signals that reach this end next, in order. -/
  signals : List SignalMessage
  controls : List ControlMessage
  /-- What routines of this end have yet to send, in no order. -/
  unsentSignals : List SignalMessage
  unsentControls : List ControlMessage
  /-- The control messages this end has sent, in order. -/
  sent : List ControlMessage

def LinkEnd.new : LinkEnd := ⟨.new, [], [], [], [], []⟩

def LinkEnd.close (e : LinkEnd) : LinkEnd := { e with peer := e.peer.close }

structure NegotiatedLink where
  initiator : LinkEnd
  responder : LinkEnd

namespace NegotiatedLink

variable (s : NegotiatedLink)

def new : NegotiatedLink := ⟨.new, .new⟩

def own : Side → LinkEnd
  | .initiator => s.initiator
  | .responder => s.responder

def other : Side → LinkEnd
  | .initiator => s.responder
  | .responder => s.initiator

/-- The link with new ends, the side's own first. -/
def put : Side → LinkEnd → LinkEnd → NegotiatedLink
  | .initiator, own, other => ⟨own, other⟩
  | .responder, own, other => ⟨other, own⟩

/-- A failed negotiation message closes the end, any other is given up. -/
def giveUp (e : LinkEnd) : ControlMessage → LinkEnd
  | .negotiationRequest _ => e.close
  | .negotiationGrant _ => e.close
  | _ => e

end NegotiatedLink

inductive NegotiationEvent where
  /-- A local track changed, or a grant or an answer came in. -/
  | negotiate (side : Side) (created : Bool)
  | continueNegotiation (side : Side)
  | markReady (side : Side)
  | controlOpened (side : Side)
  | statsTicked (side : Side)
  | candidateGathered (side : Side)
  | sendSignal (side : Side) (message : SignalMessage) (delivered : Bool)
  | sendControl (side : Side) (message : ControlMessage) (delivered : Bool)
  | receiveSignal (side : Side) (retryNegotiation : Bool)
  | receiveControl (side : Side) (leaseActive : Bool)
  | close (side : Side)
deriving DecidableEq, Repr

def NegotiationEvent.apply (s : NegotiatedLink) : NegotiationEvent → NegotiatedLink
  | .negotiate side created =>
      let e := s.own side
      let (peer, turn) := e.peer.negotiate side.isInitiator created
      let after := match turn with
        | .wait => { e with peer := peer }
        | .request sequence => { e with
            peer := peer
            unsentControls := e.unsentControls ++ [.negotiationRequest sequence] }
        | .offer => { e with peer := peer, unsentSignals := e.unsentSignals ++ [.offer] }
      .put side after (s.other side)
  | .continueNegotiation side =>
      let e := s.own side
      let (peer, grant) := e.peer.takeRemoteNegotiationGrant side.isInitiator
      .put side { e with
        peer := peer
        unsentControls := e.unsentControls ++ (grant.map ControlMessage.negotiationGrant).toList }
        (s.other side)
  | .markReady side =>
      let e := s.own side
      .put side { e with peer := e.peer.markReady } (s.other side)
  | .controlOpened side =>
      let e := s.own side
      .put side { e with unsentControls := e.unsentControls ++ [.hello] } (s.other side)
  | .statsTicked side =>
      let e := s.own side
      let sequence := e.peer.statsSequence + 1
      .put side { e with
        peer := { e.peer with statsSequence := sequence }
        unsentControls := e.unsentControls ++ [.stats sequence] } (s.other side)
  | .candidateGathered side =>
      let other := s.other side
      .put side (s.own side) { other with signals := other.signals ++ [.candidate] }
  | .sendSignal side message delivered =>
      let e := s.own side
      let other := s.other side
      if message ∉ e.unsentSignals then s
      else
        let after := { e with unsentSignals := e.unsentSignals.erase message }
        if delivered then .put side after { other with signals := other.signals ++ [message] }
        else .put side after.close other
  | .sendControl side message delivered =>
      let e := s.own side
      let other := s.other side
      if message ∉ e.unsentControls then s
      else
        let after := { e with unsentControls := e.unsentControls.erase message }
        if delivered && !e.peer.closed then
          .put side { after with sent := e.sent ++ [message] }
            { other with controls := other.controls ++ [message] }
        else .put side (NegotiatedLink.giveUp after message) other
  | .receiveSignal side retryNegotiation =>
      let e := s.own side
      let other := s.other side
      match e.signals with
      | [] => s
      | message :: rest =>
          let after := { e with signals := rest }
          match e.peer.acceptSignal side.isInitiator retryNegotiation message with
          | .error _ => .put side after other
          | .ok (peer, reply) => .put side { after with peer := peer }
              { other with signals := other.signals ++ reply.toList }
  | .receiveControl side leaseActive =>
      let e := s.own side
      match e.controls with
      | [] => s
      | message :: rest =>
          let after := { e with controls := rest }
          match e.peer.acceptControl side.isInitiator leaseActive message with
          | .error _ => .put side after.close (s.other side)
          | .ok (peer, reply) => .put side { after with
              peer := peer
              unsentControls := e.unsentControls ++ reply.toList } (s.other side)
  | .close side => .put side (s.own side).close (s.other side)

/-- One step of the two ends. -/
def NegotiationStep (s : NegotiatedLink) (event : NegotiationEvent) (t : NegotiatedLink) : Prop :=
  t = event.apply s

end WebrtcMinimize
