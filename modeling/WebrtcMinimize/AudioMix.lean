import WebrtcMinimize.ProgramClock
import WebrtcMinimize.RingWindow

/-!
# The audio mixer

`sourceAudioMixer` with the strategy `unprocessed`. Each input has a ring of
`queueSamples` stereo frames, written at program positions and read by
`RenderGuarded`, which sums the next 960 positions over the inputs, clears
them, and hands the block to its callback.

With this strategy the two floating-point factors of the source, duck and
limiter, are exactly 1, and what they multiply is below 2^53, so the sums
are integer arithmetic. The map iteration of the source is in the order of
the inputs here: it only adds integers and closes inputs.

`authorized` callbacks answer anew at each check; a check made for every
input answers by input number.
-/

namespace WebrtcMinimize

namespace Packager

open Runs RingWindow List

def sourceAudioLevelMaxRevision : Nat := 9007199254740991

/-- `sourceAudioMixMaxTime` as a position. -/
def audioMixMaxTime : Nat := sourceAudioMixMaxTime.toNat

/-- A stereo sample. -/
abbrev Frame := Int × Int

def silence : Frame := (0, 0)

/-! ## PCM16LE -/

def int16 (lo hi : UInt8) : Int :=
  (BitVec.ofNat 16 (lo.toNat + 256 * hi.toNat)).toInt

def decodePCM : List UInt8 → List Frame
  | a :: b :: c :: d :: rest => (int16 a b, int16 c d) :: decodePCM rest
  | _ => []

def putInt16 (value : Int) : List UInt8 :=
  let u := (value.emod 65536).toNat
  [UInt8.ofNat u, UInt8.ofNat (u / 256)]

/-- The output value of a sum: Q15 gain taken off, truncated, limited. -/
def outputSample (sum : Int) : Int :=
  max (-32768) (min 32767 (sum.tdiv 32768))

def encodePCM (sums : List Frame) : List UInt8 :=
  sums.flatMap fun s => putInt16 (outputSample s.1) ++ putInt16 (outputSample s.2)

/-! ## State -/

structure AudioMixConfig where
  maxSources : Nat
  queueSamples : Nat
  maxPCMBytes : Nat
  startSample : Nat
deriving DecidableEq

structure AudioMixInput where
  /-- Q15 gains, 0 to 32768. -/
  left : Nat
  right : Nat
  muted : Bool
  /-- Admitted by `AddProgram`: no RTP clock, positions come with the PCM. -/
  programTime : Bool
  pcm : List Frame
  lastEnd : Nat
  started : Bool
  closed : Bool
deriving DecidableEq

/-- An accepted write, with the cursor it was made at. -/
structure AudioWrite where
  input : Nat
  start : Nat
  cursor : Nat
  frames : List Frame
deriving DecidableEq

structure AudioBlock where
  time : Nat
  pcm : List UInt8
deriving DecidableEq

/-- Inputs keep their number; a closed one is no longer in `m.sources`. -/
structure SourceAudioMixer where
  cfg : AudioMixConfig
  inputs : List AudioMixInput
  pcmBytes : Nat
  cursor : Nat
  closed : Bool
  revision : Nat
  /-- The accepted writes so far. -/
  written : List AudioWrite
  /-- The blocks handed to a callback so far. -/
  blocks : List AudioBlock
deriving DecidableEq

def newSourceAudioMixer (cfg : AudioMixConfig) (authorized : Bool) : Option SourceAudioMixer :=
  if cfg.maxSources < 1 ∨ cfg.maxSources > 80 ∨ cfg.queueSamples < 960 ∨ cfg.queueSamples > 48000
      ∨ cfg.queueSamples % 120 ≠ 0 ∨ cfg.maxPCMBytes < cfg.queueSamples * 4
      ∨ cfg.maxPCMBytes > 80 * 48000 * 4 ∨ cfg.startSample > audioMixMaxTime
      ∨ authorized = false then
    none
  else
    some ⟨cfg, [], 0, cfg.startSample, false, 1, [], []⟩

def validSourceAudioGain (left right : Int) : Bool :=
  left ≥ 0 ∧ left ≤ 32768 ∧ right ≥ 0 ∧ right ≤ 32768

def AudioMixInput.shut (s : AudioMixInput) : AudioMixInput :=
  { s with closed := true, pcm := [] }

namespace SourceAudioMixer

variable (m : SourceAudioMixer)

/-! ## Closing -/

def liveInputs : Nat :=
  m.inputs.countP fun s => !s.closed

def closeLocked : SourceAudioMixer :=
  if m.closed then m
  else
    { m with
      closed := true
      inputs := m.inputs.map AudioMixInput.shut
      pcmBytes := m.pcmBytes - m.liveInputs * (m.cfg.queueSamples * 4) }

/-- A mixer whose revisions are used up closes. -/
def advanceRevisionLocked : SourceAudioMixer × Bool :=
  if m.revision ≥ sourceAudioLevelMaxRevision then
    (m.closeLocked, false)
  else
    ({ m with revision := m.revision + 1 }, true)

def closeInput (i : Nat) : SourceAudioMixer :=
  match m.inputs[i]? with
  | none => m
  | some s =>
      if s.closed then m
      else
        let m := { m with
          inputs := m.inputs.set i s.shut
          pcmBytes := m.pcmBytes - m.cfg.queueSamples * 4 }
        if m.closed then m else m.advanceRevisionLocked.1

/-- Close every input that is not authorized. -/
def closeUnauthorized (authorized : Nat → Bool) : SourceAudioMixer :=
  (range m.inputs.length).foldl (fun m i => if authorized i then m else m.closeInput i) m

/-! ## Inputs -/

structure Admission where
  left : Int
  right : Int
  programTime : Bool
  /-- The kind is one of the three the mixer knows. -/
  knownKind : Bool

/-- The answers of the mixer's and of the input's own callback. -/
structure Authority where
  mixer : Bool
  input : Bool

def add (cfg : Admission) (a : Authority) : SourceAudioMixer :=
  if m.closed ∨ a.mixer = false then
    m.closeLocked
  else if cfg.knownKind = false ∨ a.input = false ∨ validSourceAudioGain cfg.left cfg.right = false
      ∨ m.liveInputs ≥ m.cfg.maxSources
      ∨ m.pcmBytes + m.cfg.queueSamples * 4 > m.cfg.maxPCMBytes then
    m
  else
    let (m, ok) := m.advanceRevisionLocked
    if ok then
      { m with
        inputs := m.inputs ++ [⟨cfg.left.toNat, cfg.right.toNat, false, cfg.programTime,
          replicate m.cfg.queueSamples silence, 0, false, false⟩]
        pcmBytes := m.pcmBytes + m.cfg.queueSamples * 4 }
    else
      m

/-- What `writeProgramLocked` refuses an open input for, beside authority. -/
def writeDenied (s : AudioMixInput) (start : Int) (pcm : List UInt8) (mapped : Bool) : Bool :=
  pcm.length = 0 ∨ pcm.length % 4 ≠ 0 ∨ pcm.length > 5760 * 4
    ∨ mapped = false ∨ start < 0 ∨ start > audioMixMaxTime ∨ (s.started ∧ start < s.lastEnd)
    ∨ start + pcm.length / 4 > m.cursor + m.cfg.queueSamples

/-- The frames from the cursor on are put in the ring; those before it have
been played already. -/
def take (i : Nat) (s : AudioMixInput) (start : Nat) (frames : List Frame) : SourceAudioMixer :=
  let first := max start m.cursor
  { m with
    inputs := m.inputs.set i { s with
      started := true
      lastEnd := start + frames.length
      pcm := store s.pcm first (frames.drop (first - start)) }
    written := m.written ++ [⟨i, start, m.cursor, frames⟩] }

def writeProgramLocked (i : Nat) (start : Int) (pcm : List UInt8) (mapped : Bool)
    (a : Authority) : SourceAudioMixer :=
  if m.closed ∨ a.mixer = false then
    m.closeLocked
  else
    match m.inputs[i]? with
    | none => m
    | some s =>
        if s.closed ∨ a.input = false ∨ m.writeDenied s start pcm mapped then
          m.closeInput i
        else
          m.take i s start.toNat (decodePCM pcm)

/-- `WritePCM`; `mapped` is what the input's RTP clock makes of the timestamp. -/
def writePCM (i : Nat) (rate channels : Int) (mapped : Option Int) (pcm : List UInt8)
    (a a' : Authority) : SourceAudioMixer :=
  if m.closed ∨ a.mixer = false then
    m.closeLocked
  else
    match m.inputs[i]? with
    | none => m
    | some s =>
        if s.closed ∨ a.input = false ∨ rate ≠ 48000 ∨ channels ≠ 2 ∨ s.programTime
            ∨ pcm.length = 0 ∨ pcm.length % 4 ≠ 0 ∨ pcm.length > 5760 * 4 then
          m.closeInput i
        else
          m.writeProgramLocked i (mapped.getD 0) pcm mapped.isSome a'

/-! ## Levels -/

def setGain (i : Nat) (left right : Int) (a : Authority) : SourceAudioMixer :=
  if m.closed ∨ a.mixer = false then
    m.closeLocked
  else
    match m.inputs[i]? with
    | none => m
    | some s =>
        if s.closed ∨ a.input = false then
          m.closeInput i
        else if validSourceAudioGain left right = false then
          m
        else if s.left ≠ left.toNat ∨ s.right ≠ right.toNat then
          let (m, ok) := m.advanceRevisionLocked
          if ok then
            { m with inputs := m.inputs.set i { s with left := left.toNat, right := right.toNat } }
          else
            m
        else
          m

structure LevelChange where
  input : Nat
  left : Int
  right : Int
  muted : Bool

/-- The answers while levels are set: the mixer's callback, the inputs' when
the mixer is made current, and again for the changed ones, the command fence
with the mixer, and the changed inputs once more. -/
structure LevelAuthority where
  mixer : Bool
  inputs : Nat → Bool
  changed : Nat → Bool
  fence : Bool
  still : Nat → Bool

def currentLevelsLocked (a : LevelAuthority) : SourceAudioMixer :=
  if m.closed ∨ a.mixer = false then m.closeLocked else m.closeUnauthorized a.inputs

def changeValid (a : LevelAuthority) (c : LevelChange) : Bool :=
  (m.inputs[c.input]?).any (fun s => !s.closed) && a.changed c.input
    && validSourceAudioGain c.left c.right

def change (c : LevelChange) : SourceAudioMixer :=
  match m.inputs[c.input]? with
  | none => m
  | some s =>
      { m with
        inputs := m.inputs.set c.input
          { s with left := c.left.toNat, right := c.right.toNat, muted := c.muted } }

def setLevels (expected : Nat) (changes : List LevelChange) (a : LevelAuthority) :
    SourceAudioMixer :=
  let m := m.currentLevelsLocked a
  if m.closed ∨ expected ≠ m.revision ∨ expected = 0 ∨ changes = [] ∨ changes.length > 80 then
    m
  else if ¬(changes.map LevelChange.input).Nodup ∨ changes.all (m.changeValid a) = false then
    m
  else if a.fence = false ∨ changes.all (fun c => a.still c.input) = false then
    m
  else
    let (m, ok) := m.advanceRevisionLocked
    if ok then changes.foldl change m else m

/-! ## Rendering -/

/-- The answers while a block is rendered: the mixer and each input before
the mixing, each input and the mixer after it, and the callback's own. -/
structure RenderAnswers where
  mixer : Bool
  inputs : Nat → Bool
  still : Nat → Bool
  stillMixer : Bool
  consumed : Bool

/-- A frame with its gains, added to the sum of its position. -/
def addFrame (s : AudioMixInput) (sum frame : Frame) : Frame :=
  (sum.1 + frame.1 * s.left, sum.2 + frame.2 * s.right)

/-- One input's turn: its next 960 frames are read and cleared. -/
def mixInput (a : RenderAnswers) (state : SourceAudioMixer × List Frame) (i : Nat) :
    SourceAudioMixer × List Frame :=
  match state.1.inputs[i]? with
  | none => state
  | some s =>
      if s.closed then
        state
      else if a.inputs i = false then
        (state.1.closeInput i, state.2)
      else
        let read := drain silence 960 state.1.cursor s.pcm
        ({ state.1 with inputs := state.1.inputs.set i { s with pcm := read.2 } },
          if s.muted then state.2 else zipWith (addFrame s) state.2 read.1)

def mixInputs (a : RenderAnswers) : SourceAudioMixer × List Frame :=
  (range m.inputs.length).foldl (mixInput a) (m, replicate 960 silence)

/-- Whether some input was revoked while the block was mixed. -/
def revoked (a : RenderAnswers) : Bool :=
  (range m.inputs.length).any fun i =>
    (m.inputs[i]?).any (fun s => !s.closed) && !a.still i

/-- `RenderGuarded`, with the block its callback is given. -/
def renderGuarded (a : RenderAnswers) : SourceAudioMixer × Option AudioBlock :=
  if m.closed ∨ a.mixer = false ∨ m.cursor > audioMixMaxTime - 960 then
    (m.closeLocked, none)
  else
    let (mixed, sums) := m.mixInputs a
    -- a block that has samples of a revoked source is not handed off
    let pcm := if mixed.revoked a then replicate 3840 0 else encodePCM sums
    let m := mixed.closeUnauthorized a.still
    if m.closed ∨ a.stillMixer = false then
      (m.closeLocked, none)
    else
      let block : AudioBlock := ⟨m.cursor, pcm⟩
      let m := { m with blocks := m.blocks ++ [block] }
      if a.consumed then
        ({ m with cursor := m.cursor + 960 }, some block)
      else
        (m.closeLocked, some block)

/-! ## Steps -/

inductive MixerCall
  | add (cfg : Admission) (a : Authority)
  | writePCM (i : Nat) (rate channels : Int) (mapped : Option Int) (pcm : List UInt8)
      (a a' : Authority)
  | writeProgramPCM (i : Nat) (start : Int) (pcm : List UInt8) (a : Authority)
  | setGain (i : Nat) (left right : Int) (a : Authority)
  | setLevels (expected : Nat) (changes : List LevelChange) (a : LevelAuthority)
  | closeInput (i : Nat)
  | close
  | render (a : RenderAnswers)

def next : MixerCall → SourceAudioMixer
  | .add cfg a => m.add cfg a
  | .writePCM i rate channels mapped pcm a a' => m.writePCM i rate channels mapped pcm a a'
  | .writeProgramPCM i start pcm a => m.writeProgramLocked i start pcm true a
  | .setGain i left right a => m.setGain i left right a
  | .setLevels expected changes a => m.setLevels expected changes a
  | .closeInput i => m.closeInput i
  | .close => m.closeLocked
  | .render a => (m.renderGuarded a).1

/-- One call. -/
def Step (m : SourceAudioMixer) (call : MixerCall) (m' : SourceAudioMixer) : Prop :=
  m.next call = m'

end SourceAudioMixer

end Packager

end WebrtcMinimize
