import WebrtcMinimize.ProgramClock

/-!
# Encoder rollover

`sourceProgramRollover` sits between the program clock and a succession of
encoders. It checks that the handoffs come in the clock's order, and passes
them to the current encoder relative to a base: the first whole second of
audio after the encoder was accepted. The goroutine `run` replaces an
encoder that failed; between the old one and the next, handoffs are dropped.

An encoder is what the order of its input depends on: a fence that admits
the sources of a block, and two raw lanes that check index, time and scene
revision before they queue. Whether the fence, the lanes' owner and a free
slot agree is the environment's answer.
-/

namespace WebrtcMinimize

namespace Packager

open GoInts Runs

/-- The handoff `delta` samples later. -/
def Handoff.shift (x : Handoff) (delta : Int) : Handoff :=
  match x with
  | .audio time => .audio (time + delta)
  | .video time revision => .video (time + delta) revision

/-! ## The raw lanes of an encoder -/

structure RawLane where
  index : Int
  revision : Nat
deriving DecidableEq

/-- The position and scope check of `enqueueLocked`. -/
def RawLane.expects (q : RawLane) (startSample fps : Int) : Handoff → Bool
  | .audio time =>
      decide (q.index ≤ (int64 (sourceAudioMixMaxTime - startSample)).tdiv 960)
        && decide (time = int64 (startSample + int64 (q.index * 960)))
  | .video time revision =>
      match sourceProgramVideoTime q.index fps startSample with
      | none => false
      | some expected =>
          decide (1 ≤ revision) && decide (revision ≤ 9007199254740991)
            && decide (q.revision ≤ revision) && decide (time = expected)

/-- The environment's answers while one handoff is written. -/
structure WriteAnswers where
  /-- The rollover is permitted, and the block has its size and a guard of
  the right shape. -/
  permitted : Bool
  /-- The encoder's fence admits the block's sources. -/
  admitted : Bool
  /-- The raw output is permitted. -/
  rawPermitted : Bool
  /-- A slot of the lane is free. -/
  slotFree : Bool

structure ProgramEncoder where
  startSample : Int
  fps : Int
  audio : RawLane
  video : RawLane
  /-- What the encoder has been given, the oldest first. -/
  received : List Handoff
  /-- What a lane refused for its index, time or revision. -/
  misplaced : List Handoff
deriving DecidableEq

namespace ProgramEncoder

def fresh (startSample fps : Int) : ProgramEncoder :=
  ⟨startSample, fps, ⟨0, 0⟩, ⟨0, 0⟩, [], []⟩

def lane (e : ProgramEncoder) (x : Handoff) : RawLane :=
  if x.isVideo then e.video else e.audio

/-- The lane counts a queued block, and keeps the revision of a frame. -/
def queued (e : ProgramEncoder) : Handoff → ProgramEncoder
  | .audio _ => { e with audio := { e.audio with index := int64 (e.audio.index + 1) } }
  | .video _ revision => { e with video := ⟨int64 (e.video.index + 1), revision⟩ }

/-- `enqueueLocked`. -/
def enqueue (e : ProgramEncoder) (x : Handoff) (w : WriteAnswers) : ProgramEncoder × Bool :=
  if (e.lane x).expects e.startSample e.fps x = false then
    ({ e with misplaced := e.misplaced ++ [x] }, false)
  else if w.rawPermitted = false ∨ w.slotFree = false then
    (e, false)
  else
    (e.queued x, true)

/-- `WriteProgramAudio` and `WriteProgramVideo`. -/
def write (e : ProgramEncoder) (x : Handoff) (w : WriteAnswers) : ProgramEncoder × Bool :=
  let e := { e with received := e.received ++ [x] }
  if w.admitted = false then
    (e, false)
  else
    e.enqueue x w

end ProgramEncoder

/-! ## The rollover -/

/-- Where `run` stands: watching the current encoder, draining a stopped
one, or constructing the next. -/
inductive RolloverPhase
  | watching
  | draining
  | constructing
deriving DecidableEq

/-- An encoder with the program sample its input is relative to. -/
structure Generation where
  base : Int
  encoder : ProgramEncoder
deriving DecidableEq

structure ProgramRollover where
  fps : Int
  current : Option ProgramEncoder
  accept : Bool
  /-- -1 until a common whole-second boundary. -/
  base : Int
  audioIndex : Int
  videoIndex : Int
  videoRevision : Nat
  epoch : Nat
  closed : Bool
  phase : RolloverPhase
  /-- The generations `run` has taken down. -/
  retired : List Generation
deriving DecidableEq

/-- The first encoder is constructed before `run` starts. -/
def newSourceProgramRollover (fps : Int) : ProgramRollover where
  fps := fps
  current := some (.fresh 0 fps)
  accept := true
  base := -1
  audioIndex := 0
  videoIndex := 0
  videoRevision := 0
  epoch := 0
  closed := false
  phase := .watching
  retired := []

namespace ProgramRollover

variable (p : ProgramRollover)

/-- Whether a handoff is the next one of the schedule. -/
def inOrder : Handoff → Bool
  | .audio time =>
      decide (p.audioIndex ≤ sourceAudioMixMaxTime.tdiv 960)
        && decide (time = int64 (p.audioIndex * 960))
  | .video time revision =>
      match sourceProgramVideoTime p.videoIndex p.fps 0 with
      | none => false
      | some expected =>
          decide (1 ≤ revision) && decide (p.videoRevision ≤ revision)
            && decide (revision ≤ sourceVideoSceneMaxRevision) && decide (time = expected)

/-- The scheduler cursors move on with every handoff in order. -/
def advance : Handoff → ProgramRollover
  | .audio _ => { p with audioIndex := int64 (p.audioIndex + 1) }
  | .video _ revision =>
      { p with videoIndex := int64 (p.videoIndex + 1), videoRevision := revision }

/-- The current encoder is given the handoff, relative to the base. -/
def pass (e : ProgramEncoder) (x : Handoff) (w : WriteAnswers) : ProgramRollover :=
  let (e', ok) := e.write (x.shift (-p.base)) w
  if ok then
    { p with current := some e' }
  else
    { p with current := some e', accept := false }

/-- `write`, with whether it returned nil. -/
def write (x : Handoff) (w : WriteAnswers) : ProgramRollover × Bool :=
  if p.closed ∨ w.permitted = false ∨ p.inOrder x = false then
    ({ p with closed := true, accept := false }, false)
  else
    let p := p.advance x
    match p.current with
    | none => (p, true)
    | some e =>
        if p.accept = false then
          (p, true)
        else if p.base < 0 then
          if x.isVideo ∨ x.time.tmod 48000 ≠ 0 then
            (p, true)
          else
            ({ p with base := x.time }.pass e x w, true)
        else
          (p.pass e x w, true)

/-! ## Steps

`run` takes the lock for each of its three changes; `Close` may come from
anywhere, and a handoff at any moment between them. -/

inductive RolloverEvent
  | write (x : Handoff) (w : WriteAnswers)
  | close
  /-- The current encoder failed or stopped. -/
  | stop
  /-- It was drained, and may be replaced. -/
  | drained
  /-- The next encoder was constructed. -/
  | constructed

inductive Step : ProgramRollover → RolloverEvent → ProgramRollover → Prop
  | write {p : ProgramRollover} (x : Handoff) (w : WriteAnswers) :
      Step p (.write x w) (p.write x w).1
  | close {p : ProgramRollover} : Step p .close { p with closed := true, accept := false }
  | stop {p : ProgramRollover} : p.phase = .watching →
      Step p .stop { p with accept := false, phase := .draining }
  | drained {p : ProgramRollover} {e : ProgramEncoder} : p.phase = .draining →
      p.current = some e → p.closed = false →
      Step p .drained
        { p with
          current := none
          phase := .constructing
          retired := p.retired ++ [⟨p.base, e⟩] }
  | constructed {p : ProgramRollover} : p.phase = .constructing →
      Step p .constructed
        { p with
          current := some (.fresh 0 p.fps)
          accept := true
          base := -1
          epoch := p.epoch + 1
          phase := .watching }

/-- Every generation so far, the current one last. -/
def generations : List Generation :=
  p.retired ++ (p.current.map fun e => ⟨p.base, e⟩).toList

/-- The handoffs of a run. -/
def writes (es : List RolloverEvent) : List Handoff :=
  es.filterMap fun
    | .write x _ => some x
    | _ => none

end ProgramRollover

end Packager

end WebrtcMinimize
