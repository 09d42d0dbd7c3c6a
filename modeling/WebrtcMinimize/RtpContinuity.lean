import Mathlib.Data.List.Forall2

/-!
# RTP continuity

A subscriber sees one stream of RTP packets, also where the layer that is forwarded
to it changes. The rewriter gives every packet the next sequence number and a
timestamp that follows the last one: by the difference of the input timestamps
where that is a plausible step of one layer, else by the last such step.
-/

namespace WebrtcMinimize

namespace RtpContinuity

structure Header where
  version : UInt8
  padding : Bool
  extension : Bool
  marker : Bool
  payloadType : UInt8
  sequenceNumber : UInt16
  timestamp : UInt32
  ssrc : UInt32
  csrc : List UInt32
  extensionProfile : UInt16
  extensions : List (UInt8 × List UInt8)
  paddingSize : UInt8
deriving DecidableEq

structure Packet extends Header where
  payload : List UInt8
deriving DecidableEq

def defaultVideoTimestampStep : UInt32 := 3000

/-- The largest difference of timestamps that is taken over. -/
def maximumTimestampStep : UInt32 := 90000

/-- `rtpContinuityRewriter` -/
structure Rewriter where
  initialized : Bool
  layer : String
  nextSequence : UInt16
  lastInputTimestamp : UInt32
  outputTimestamp : UInt32
  timestampStep : UInt32
deriving DecidableEq

/-- The rewriter of a new subscriber. -/
def Rewriter.new : Rewriter := ⟨false, "", 0, 0, 0, 0⟩

/-- The rewriter past its first packet. -/
def Rewriter.advance (r : Rewriter) (layer : String) (timestamp : UInt32) : Rewriter :=
  let r := { r with nextSequence := r.nextSequence + 1 }
  if layer ≠ r.layer then
    { r with
      layer := layer
      lastInputTimestamp := timestamp
      outputTimestamp := r.outputTimestamp + r.timestampStep }
  else if timestamp ≠ r.lastInputTimestamp then
    let delta := timestamp - r.lastInputTimestamp
    let step := if delta = 0 ∨ maximumTimestampStep < delta then r.timestampStep else delta
    { r with
      timestampStep := step
      lastInputTimestamp := timestamp
      outputTimestamp := r.outputTimestamp + step }
  else r

def Rewriter.rewrite (r : Rewriter) (layer : String) (packet : Packet) : Rewriter × Packet :=
  if r.initialized = false then
    ({ initialized := true
       layer := layer
       nextSequence := packet.sequenceNumber
       lastInputTimestamp := packet.timestamp
       outputTimestamp := packet.timestamp
       timestampStep := defaultVideoTimestampStep }, packet)
  else
    let r := r.advance layer packet.timestamp
    (r, { packet with sequenceNumber := r.nextSequence, timestamp := r.outputTimestamp })

/-- What a subscriber gets, of packets with the layers they are from. -/
def Rewriter.forward (r : Rewriter) : List (String × Packet) → List Packet
  | [] => []
  | (layer, packet) :: inputs =>
      (r.rewrite layer packet).2 :: (r.rewrite layer packet).1.forward inputs

/-! ## Continuity -/

/-- The next packet of a stream: its timestamp is at most the largest step ahead. -/
def Follows (p q : Packet) : Prop :=
  q.sequenceNumber = p.sequenceNumber + 1 ∧ q.timestamp - p.timestamp ≤ maximumTimestampStep

/-- Nothing but the sequence number and the timestamp of a packet is its own. -/
def Rewritten (input output : Packet) : Prop :=
  output = { input with sequenceNumber := output.sequenceNumber, timestamp := output.timestamp }

/-- The rewriter after a packet it has sent. -/
structure Rewriter.Sent (r : Rewriter) (last : Packet) : Prop where
  initialized : r.initialized = true
  sequence : r.nextSequence = last.sequenceNumber
  timestamp : r.outputTimestamp = last.timestamp
  step : r.timestampStep ≤ maximumTimestampStep

section Steps

variable {r : Rewriter} {last : Packet}

theorem advance_initialized (r : Rewriter) (layer : String) (timestamp : UInt32) :
    (r.advance layer timestamp).initialized = r.initialized := by
  unfold Rewriter.advance
  dsimp only
  split
  · rfl
  · split <;> rfl

theorem advance_sequence (r : Rewriter) (layer : String) (timestamp : UInt32) :
    (r.advance layer timestamp).nextSequence = r.nextSequence + 1 := by
  unfold Rewriter.advance
  dsimp only
  split
  · rfl
  · split <;> rfl

/-- The output advances by nothing, or by a step, and steps stay in their bound. -/
theorem advance_timestamp (h : r.timestampStep ≤ maximumTimestampStep) (layer : String)
    (timestamp : UInt32) :
    (r.advance layer timestamp).timestampStep ≤ maximumTimestampStep
      ∧ ∃ step ≤ maximumTimestampStep,
        (r.advance layer timestamp).outputTimestamp = r.outputTimestamp + step := by
  unfold Rewriter.advance
  dsimp only
  split
  · exact ⟨h, r.timestampStep, h, rfl⟩
  · split
    · split
      · exact ⟨h, r.timestampStep, h, rfl⟩
      · rename_i hsensible
        rw [not_or, UInt32.not_lt] at hsensible
        exact ⟨hsensible.2, _, hsensible.2, rfl⟩
    · exact ⟨h, 0, by decide, (UInt32.add_zero _).symm⟩

theorem rewrite_rewritten (r : Rewriter) (layer : String) (packet : Packet) :
    Rewritten packet (r.rewrite layer packet).2 := by
  unfold Rewriter.rewrite
  split <;> rfl

/-- Whatever came before, the rewriter knows the packet it has sent. -/
theorem rewrite_sent (h : r.initialized = true → r.timestampStep ≤ maximumTimestampStep)
    (layer : String) (packet : Packet) :
    (r.rewrite layer packet).1.Sent (r.rewrite layer packet).2 := by
  unfold Rewriter.rewrite
  split
  · exact ⟨rfl, rfl, rfl, show defaultVideoTimestampStep ≤ maximumTimestampStep by decide⟩
  · rename_i hinit
    rw [Bool.not_eq_false] at hinit
    exact ⟨(advance_initialized r layer packet.timestamp).trans hinit, rfl, rfl,
      (advance_timestamp (h hinit) layer packet.timestamp).1⟩

theorem rewrite_follows (h : r.Sent last) (layer : String) (packet : Packet) :
    Follows last (r.rewrite layer packet).2 := by
  obtain ⟨-, step, hstep, htimestamp⟩ := advance_timestamp h.step layer packet.timestamp
  have hrewrite : (r.rewrite layer packet).2 = { packet with
      sequenceNumber := (r.advance layer packet.timestamp).nextSequence
      timestamp := (r.advance layer packet.timestamp).outputTimestamp } := by
    rw [Rewriter.rewrite, h.initialized]
    rfl
  rw [hrewrite]
  refine ⟨?_, ?_⟩
  · rw [advance_sequence, h.sequence]
  · rw [htimestamp, h.timestamp, UInt32.add_comm, UInt32.add_sub_cancel]
    exact hstep

end Steps

/-! ## Streams -/

theorem forward_rewritten : ∀ (r : Rewriter) (inputs : List (String × Packet)),
    List.Forall₂ (fun input output => Rewritten input.2 output) inputs (r.forward inputs)
  | _, [] => .nil
  | r, (layer, packet) :: inputs =>
      .cons (rewrite_rewritten r layer packet) (forward_rewritten _ inputs)

theorem forward_chain : ∀ (inputs : List (String × Packet)) {r : Rewriter} {last : Packet},
    r.Sent last → List.IsChain Follows (last :: r.forward inputs)
  | [], _, last, _ => .singleton last
  | (layer, packet) :: inputs, r, last, h => by
      refine List.isChain_cons_cons.mpr ⟨rewrite_follows h layer packet, ?_⟩
      exact forward_chain inputs (rewrite_sent (fun _ => h.step) layer packet)

end RtpContinuity

end WebrtcMinimize
