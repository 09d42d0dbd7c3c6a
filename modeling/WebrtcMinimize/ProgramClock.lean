import WebrtcMinimize.GoInts
import WebrtcMinimize.Merge
import WebrtcMinimize.Runs

/-!
# The program clock of the packager

`sourceProgramClock` schedules what the packager renders: audio blocks of
960 samples and video frames at a fixed rate, on one timeline of 48 kHz
samples. A `Step` reads the wall clock, turns it into a target sample and
hands off every item up to it, the earlier of the two cursors first, at
most 16 of them and none that is more than the lag limit late.

The two mixers are modelled by what the clock depends on: their cursor, the
refusals that depend on it, and the callback they run with the rendered
bytes. Whether a mixer, a source or the output agrees is the environment's
answer, one `Handling` for each item of a step.
-/

namespace WebrtcMinimize

namespace Packager

open GoInts Runs

def sourceAudioMixSamples : Int := 960

def sourceAudioMixMaxTime : Int := maxInt64 - 48000

def sourceVideoSceneMaxRevision : Nat := 9007199254740991

def sourceVideoMixMaxTime : Int := maxInt64 - 48000

/-- Nanoseconds in a second. -/
def second : Int := 1000000000

/-- `time.Time.Sub`, which saturates. -/
def timeSub (t u : Int) : Int :=
  max minInt64 (min maxInt64 (t - u))

def sourceDurationSamples (d : Int) : Int :=
  int64 (int64 (d.tdiv second * 48000) + (int64 (d.tmod second * 48000)).tdiv second)

/-- The sample position of frame `index`, unless it is out of range. -/
def sourceProgramVideoTime (index fps start : Int) : Option Int :=
  if index < 0 ∨ fps < 1 ∨ fps > 60 ∨ start < 0 ∨ start > sourceVideoMixMaxTime then
    none
  else
    let whole := index.tdiv fps
    if whole > (int64 (sourceVideoMixMaxTime - start)).tdiv 48000 then
      none
    else
      let time := int64 (int64 (start + int64 (whole * 48000))
        + (int64 (index.tmod fps * 48000)).tdiv fps)
      if time ≤ sourceVideoMixMaxTime then some time else none

/-! ## The mixers, as the clock sees them -/

structure AudioMixer where
  startSample : Int
  cursor : Int
  programOwned : Bool
  closed : Bool
deriving DecidableEq

structure VideoMixer where
  startSample : Int
  cursor : Int
  rendered : Bool
  programOwned : Bool
  closed : Bool
deriving DecidableEq

/-- A call of the output's `WriteProgramAudio` or `WriteProgramVideo`. -/
inductive Handoff
  | audio (time : Int)
  | video (time : Int) (revision : Nat)
deriving DecidableEq

def Handoff.time : Handoff → Int
  | .audio time => time
  | .video time _ => time

def Handoff.isVideo : Handoff → Bool
  | .audio _ => false
  | .video _ _ => true

@[simp] theorem Handoff.time_audio (time : Int) : (Handoff.audio time).time = time := rfl

@[simp] theorem Handoff.time_video (time : Int) (revision : Nat) :
    (Handoff.video time revision).time = time := rfl

@[simp] theorem Handoff.isVideo_audio (time : Int) : (Handoff.audio time).isVideo = false := rfl

@[simp] theorem Handoff.isVideo_video (time : Int) (revision : Nat) :
    (Handoff.video time revision).isVideo = true := rfl

structure ProgramClockConfig where
  /-- Wall clock at `startSample`, in nanoseconds. -/
  start : Int
  startSample : Int
  framesPerSecond : Int
  maxLagSamples : Int
deriving DecidableEq

/-- The ranges the constructor checks. -/
structure ProgramClockConfig.Accepted (cfg : ProgramClockConfig) : Prop where
  sample_nonneg : 0 ≤ cfg.startSample
  sample_le : cfg.startSample ≤ sourceAudioMixMaxTime - 48000
  fps_pos : 1 ≤ cfg.framesPerSecond
  fps_le : cfg.framesPerSecond ≤ 60
  lag_ge : 960 ≤ cfg.maxLagSamples
  lag_le : cfg.maxLagSamples ≤ 4800

structure SourceProgramClock where
  cfg : ProgramClockConfig
  audio : AudioMixer
  video : VideoMixer
  last : Int
  nextAudio : Int
  videoIndex : Int
  closed : Bool
  /-- What the output has been given so far, the oldest first. -/
  handed : List Handoff
deriving DecidableEq

def newSourceProgramClock (cfg : ProgramClockConfig) (permitted : Bool) (now : Int)
    (audio : AudioMixer) (video : VideoMixer) : Option SourceProgramClock :=
  if cfg.startSample < 0 ∨ cfg.startSample > sourceAudioMixMaxTime - 48000
      ∨ cfg.framesPerSecond < 1 ∨ cfg.framesPerSecond > 60
      ∨ cfg.maxLagSamples < 960 ∨ cfg.maxLagSamples > 4800 then
    none
  else if permitted = false ∨ now < cfg.start then
    none
  else if audio.closed ∨ video.closed ∨ audio.programOwned ∨ video.programOwned
      ∨ audio.startSample ≠ cfg.startSample ∨ video.startSample ≠ cfg.startSample
      ∨ audio.cursor ≠ cfg.startSample ∨ video.cursor ≠ cfg.startSample ∨ video.rendered then
    none
  else
    some
      { cfg := cfg
        audio := { audio with programOwned := true }
        video := { video with programOwned := true }
        last := cfg.start
        nextAudio := cfg.startSample
        videoIndex := 0
        closed := false
        handed := [] }

namespace SourceProgramClock

/-- The environment's answers while one due item is handled. -/
structure Handling where
  /-- The program is permitted before the render. -/
  permitted : Bool
  /-- The mixer is open and authorized at every check around its mixing. -/
  rendered : Bool
  /-- The scene revision a video frame is composed at. -/
  revision : Nat
  /-- The program is still permitted when the mixer runs the callback. -/
  stillPermitted : Bool
  /-- The output's write returns nil. -/
  delivered : Bool

/-- Every answer is favourable. -/
def Handling.Fair (h : Handling) : Prop :=
  h.permitted = true ∧ h.rendered = true ∧ h.stillPermitted = true ∧ h.delivered = true

/-- The environment of one `Step`. -/
structure Tick where
  permitted : Bool
  now : Int
  handling : Nat → Handling

variable (p : SourceProgramClock)

def closeLocked : SourceProgramClock :=
  if p.closed then p
  else
    { p with
      closed := true
      audio := { p.audio with closed := true }
      video := { p.video with closed := true } }

/-! ## One item

Each function returns whether it succeeded. A mixer that is refused its
callback closes itself. -/

def writeAudio (time : Int) (h : Handling) : SourceProgramClock × Bool :=
  if h.stillPermitted = false ∨ time ≠ p.nextAudio then
    (p, false)
  else
    ({ p with handed := p.handed ++ [.audio time] }, h.delivered)

def writeVideo (time : Int) (h : Handling) : SourceProgramClock × Bool :=
  if h.stillPermitted = false then
    (p, false)
  else
    ({ p with handed := p.handed ++ [.video time h.revision] }, h.delivered)

/-- `sourceAudioMixer.RenderGuarded` with the clock's callback. -/
def renderAudio (h : Handling) : SourceProgramClock × Bool :=
  if p.audio.closed ∨ h.rendered = false
      ∨ p.audio.cursor > sourceAudioMixMaxTime - sourceAudioMixSamples then
    ({ p with audio := { p.audio with closed := true } }, false)
  else
    let (q, ok) := p.writeAudio p.audio.cursor h
    if ok then
      ({ q with audio := { q.audio with cursor := int64 (q.audio.cursor + sourceAudioMixSamples) } },
        true)
    else
      ({ q with audio := { q.audio with closed := true } }, false)

/-- `sourceVideoMixer.RenderGuarded` with the clock's callback. -/
def renderVideo (time : Int) (h : Handling) : SourceProgramClock × Bool :=
  if p.video.closed ∨ h.rendered = false ∨ time < p.video.cursor
      ∨ time > sourceVideoMixMaxTime ∨ (p.video.rendered ∧ time = p.video.cursor) then
    ({ p with video := { p.video with closed := true } }, false)
  else
    let p := { p with video := { p.video with cursor := time, rendered := true } }
    let (q, ok) := p.writeVideo time h
    if ok then
      (q, true)
    else
      ({ q with video := { q.video with closed := true } }, false)

/-- The earlier of the two cursors is served, audio first at ties. -/
def handle (videoAt : Int) (h : Handling) : SourceProgramClock × Bool :=
  if p.nextAudio ≤ videoAt then
    let (q, ok) := p.renderAudio h
    ({ q with nextAudio := int64 (q.nextAudio + sourceAudioMixSamples) }, ok)
  else
    let (q, ok) := p.renderVideo videoAt h
    ({ q with videoIndex := int64 (q.videoIndex + 1) }, ok)

/-! ## A step -/

/-- The loop of `Step`, with the iterations that are left. -/
def stepLoop (target : Int) (handling : Nat → Handling) :
    Nat → Nat → SourceProgramClock → SourceProgramClock × Option String
  | 0, _, p => (p.closeLocked, some "source program catchup budget")
  | left + 1, count, p =>
      match sourceProgramVideoTime p.videoIndex p.cfg.framesPerSecond p.cfg.startSample with
      | none => (p.closeLocked, some "source program video time budget")
      | some videoAt =>
          let next := min p.nextAudio videoAt
          if next > target then
            (p, none)
          else if int64 (target - next) > p.cfg.maxLagSamples then
            (p.closeLocked, some "source program scheduler lag")
          else if (handling count).permitted = false then
            (p.closeLocked, some "source program revoked")
          else
            let (q, ok) := p.handle videoAt (handling count)
            if ok then
              stepLoop target handling left (count + 1) q
            else
              (q.closeLocked, some "source program output failed")

/-- The sample the wall clock has reached. -/
def target (cfg : ProgramClockConfig) (now : Int) : Int :=
  int64 (cfg.startSample + sourceDurationSamples (timeSub now cfg.start))

/-- `Step`, with the error it returns. -/
def step (e : Tick) : SourceProgramClock × Option String :=
  if p.closed ∨ e.permitted = false then
    (p.closeLocked, some "source program revoked")
  else if e.now < p.cfg.start ∨ e.now < p.last then
    (p.closeLocked, some "source program clock rollback")
  else
    let p := { p with last := e.now }
    if sourceDurationSamples (timeSub e.now p.cfg.start)
        > int64 (sourceAudioMixMaxTime - p.cfg.startSample) then
      (p.closeLocked, some "source program time budget")
    else
      stepLoop (target p.cfg e.now) e.handling 16 0 p

/-- A step, whatever it returns. -/
def Stepped (p : SourceProgramClock) (e : Tick) (q : SourceProgramClock) : Prop :=
  (p.step e).1 = q

/-- A step that returns nil. -/
def SteppedNil (p : SourceProgramClock) (e : Tick) (q : SourceProgramClock) : Prop :=
  p.step e = (q, none)

end SourceProgramClock

end Packager

end WebrtcMinimize
