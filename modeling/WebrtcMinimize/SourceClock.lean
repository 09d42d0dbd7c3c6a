import WebrtcMinimize.ProgramClock

/-!
# Source clocks

A publisher's media sources share one `sourcePublisherClock`: the wall
clock, and the reference that the first sender report of any of them
anchors. A `sourceMediaClock` unwraps its RTP timestamps from one accepted
report to the next and maps them to program samples; a report that does not
fit is ignored, suspends the output as an outlier, or closes the source.

NTP and RTP values are the 64 and 32 bits of the wire, and their differences
are read as signed numbers of that width. Sample positions and unwrapped RTP
time are integers: the largest product of the source, `elapsedRTP * 48000`
at 90 kHz, leaves 64 bits after 67 years of one source's reports.

The fit of an adaptive source is floating point; what it answers to a report
is a parameter of the report. Such a source has no fixed map, but it reads
and anchors the same publisher clock as the others.
-/

namespace WebrtcMinimize

namespace Packager

open GoInts

def sourceClockTimeout : Int := 12 * second

structure SourceSenderReport where
  ssrc : BitVec 32
  ntp : BitVec 64
  rtp : BitVec 32
deriving DecidableEq

/-- The signed modular difference of two NTP times, in samples. -/
def sourceNTPSamples (ntp reference : BitVec 64) : Int :=
  let delta := (ntp - reference).toInt
  delta.tdiv 4294967296 * 48000 + (delta.tmod 4294967296 * 48000).tdiv 4294967296

/-! ## The publisher clock -/

structure SourcePublisherClock where
  start : Int
  last : Int
  referenceAt : Int
  delay : Int
  referenceSample : Int
  referenceNTP : BitVec 64
  anchored : Bool
  closed : Bool
  sources : Int
deriving DecidableEq

namespace SourcePublisherClock

/-- `timeLocked` at wall clock `now`: a rollback closes the clock. -/
def timeLocked (p : SourcePublisherClock) (now : Int) : SourcePublisherClock × Option Int :=
  if p.closed then
    (p, none)
  else if now < p.start ∨ now < p.last then
    ({ p with closed := true }, none)
  else
    ({ p with last := now }, some now)

def anchor (p : SourcePublisherClock) (ntp : BitVec 64) (now : Int) : SourcePublisherClock :=
  if p.anchored then p
  else
    { p with
      anchored := true
      referenceNTP := ntp
      referenceAt := now
      referenceSample := sourceDurationSamples (timeSub now p.start) + p.delay }

/-- The program sample of an NTP time, by the anchored reference. -/
def position (p : SourcePublisherClock) (ntp : BitVec 64) : Int :=
  p.referenceSample + sourceNTPSamples ntp p.referenceNTP

/-- The distance of a report's NTP time from its arrival, in samples. -/
def errorSamples (p : SourcePublisherClock) (ntp : BitVec 64) (now : Int) : Int :=
  sourceNTPSamples ntp p.referenceNTP - sourceDurationSamples (timeSub now p.referenceAt)

def reference (p : SourcePublisherClock) (ntp : BitVec 64) (now : Int) :
    SourcePublisherClock × Option (Int × Int) :=
  match p.timeLocked now with
  | (p, none) => (p, none)
  | (p, some now) =>
      if ntp = 0 then
        (p, none)
      else
        let p := p.anchor ntp now
        if p.errorSamples ntp now < -96000 ∨ p.errorSamples ntp now > 96000
            ∨ p.position ntp < 0 then
          (p, none)
        else
          (p, some (p.position ntp, now))

end SourcePublisherClock

/-! ## A media clock

Its operations work on the source together with its publisher. -/

structure SourceMediaClock where
  ssrc : BitVec 32
  rate : Nat
  boundAt : Int
  lastReportAt : Int
  first : SourceSenderReport
  last : SourceSenderReport
  anchor : Int
  elapsedRTP : Int
  reports : Nat
  bound : Bool
  closed : Bool
  failure : Nat
  failureInterval : Int
  failureSkew : Int
  uncertain : Bool
  outliers : Nat
  recovery : Nat
  uncertainAt : Int
  videoEpoch : Nat
  adaptive : Bool
deriving DecidableEq

def noReport : SourceSenderReport := ⟨0, 0, 0⟩

namespace SourceMediaClock

def fresh (adaptive : Bool) : SourceMediaClock where
  ssrc := 0
  rate := 0
  boundAt := 0
  lastReportAt := 0
  first := noReport
  last := noReport
  anchor := 0
  elapsedRTP := 0
  reports := 0
  bound := false
  closed := false
  failure := 0
  failureInterval := 0
  failureSkew := 0
  uncertain := false
  outliers := 0
  recovery := 0
  uncertainAt := 0
  videoEpoch := 0
  adaptive := adaptive

def shut (c : SourceMediaClock) : SourceMediaClock :=
  { c with
    closed := true
    first := noReport
    last := noReport
    anchor := 0
    reports := 0
    elapsedRTP := 0
    uncertain := false
    outliers := 0
    recovery := 0
    uncertainAt := 0 }

/-- A timestamp as RTP time since the first report, by its signed distance
from the last one. -/
def unwrap (c : SourceMediaClock) (timestamp : BitVec 32) : Int :=
  c.elapsedRTP + (timestamp - c.last.rtp).toInt

/-- The affine map from RTP time since the first report to program samples. -/
def sampleAt (c : SourceMediaClock) (u : Int) : Int :=
  c.anchor + (u * 48000).tdiv c.rate

/-- When the source expires without another report. -/
def deadline (c : SourceMediaClock) : Int :=
  if c.reports > 0 then c.lastReportAt else c.boundAt

/-- What a report says beside the last accepted one. -/
inductive Continuity
  | ignored
  | deviates (invalidShape : Bool) (interval skew : Int)
  | continues (elapsedRTP : Int)
deriving DecidableEq

def continuity (c : SourceMediaClock) (report : SourceSenderReport) : Continuity :=
  if c.reports > 0 then
    let delta := (report.ntp - c.last.ntp).toInt
    if delta < 0 ∨ (delta = 0 ∧ report.rtp = c.last.rtp) then
      .ignored
    else
      let ntpSamples := sourceNTPSamples report.ntp c.last.ntp
      let rtpDelta := (report.rtp - c.last.rtp).toInt
      let rtpSamples := (rtpDelta * 48000).tdiv c.rate
      let jitter := if c.rate = 48000 then sourceAudioMixSamples else 96
      let tolerance := jitter + ntpSamples.tdiv 200
      let skew := rtpSamples - ntpSamples
      let invalidShape : Bool := delta = 0 ∨ rtpDelta ≤ 0 ∨ ntpSamples ≤ 0 ∨ ntpSamples > 12 * 48000
      if invalidShape ∨ (c.adaptive = false ∧ (skew > tolerance ∨ skew < -tolerance)) then
        .deviates invalidShape ntpSamples skew
      else
        .continues (c.elapsedRTP + rtpDelta)
  else
    .continues c.elapsedRTP

end SourceMediaClock

structure SharedClock where
  publisher : SourcePublisherClock
  source : SourceMediaClock
deriving DecidableEq

/-- What became of a sender report. -/
inductive ReportOutcome
  | ignored
  | outlier
  | accepted
  | denied
deriving DecidableEq

inductive SourceVideoTimeState
  | denied
  | waiting
  | suspended
  | ready
deriving DecidableEq

structure SourceVideoTime where
  state : SourceVideoTimeState
  epoch : Nat
deriving DecidableEq

namespace SharedClock

variable (s : SharedClock)

def closeLocked : SharedClock :=
  if s.source.closed then s
  else
    { publisher := { s.publisher with sources := s.publisher.sources - 1 }
      source := s.source.shut }

def failLocked (reason : Nat) : SharedClock :=
  if s.source.closed then s
  else closeLocked { s with source := { s.source with failure := reason } }

/-- The source's own deadlines, checked at wall clock `now`. -/
def currentLocked (now : Int) : SharedClock × Option Int :=
  match s.publisher.timeLocked now with
  | (p, none) => (failLocked ⟨p, s.source⟩ 2, none)
  | (p, some now) =>
      let s := { s with publisher := p }
      if s.source.closed then
        (s.failLocked 2, none)
      else if (s.source.bound ∧ now - s.source.deadline ≥ sourceClockTimeout)
          ∨ (s.source.uncertain ∧ now - s.source.uncertainAt ≥ sourceClockTimeout) then
        (s.failLocked 3, none)
      else
        (s, some now)

def sourceClockTick (now : Int) : SharedClock :=
  (s.currentLocked now).1

def bindSourceClock (ssrc : BitVec 32) (rate : Nat) (now : Int) : SharedClock :=
  match s.publisher.timeLocked now with
  | (p, none) => failLocked ⟨p, s.source⟩ 1
  | (p, some now) =>
      let s := { s with publisher := p }
      if s.source.closed ∨ (rate ≠ 48000 ∧ rate ≠ 90000) ∨ (s.source.adaptive ∧ rate ≠ 48000)
          ∨ (s.source.bound ∧ (s.source.ssrc ≠ ssrc ∨ s.source.rate ≠ rate)) then
        s.failLocked 1
      else if s.source.bound then
        s
      else
        { s with source := { s.source with bound := true, ssrc := ssrc, rate := rate, boundAt := now } }

/-- A report that deviates: a moderate outlier suspends the output, twice at
most in a row, and anything else closes the source. -/
def suspend (invalidShape : Bool) (interval skew observedAt : Int) : SharedClock × ReportOutcome :=
  let s := { s with
    source := { s.source with
      failureInterval := max (-576000) (min 576000 interval)
      failureSkew := max (-48000) (min 48000 skew) } }
  if invalidShape = false ∧ skew ≥ -4800 ∧ skew ≤ 4800 ∧ s.source.outliers < 2 then
    if s.source.uncertain = false ∧ s.source.videoEpoch = 18446744073709551615 then
      (s.failLocked 5, .denied)
    else
      let c := if s.source.uncertain then s.source
        else { s.source with videoEpoch := s.source.videoEpoch + 1, uncertainAt := observedAt }
      ({ s with
        source := { c with uncertain := true, recovery := 0, outliers := c.outliers + 1 } },
        .outlier)
  else
    (s.failLocked 5, .denied)

/-- An adaptive source whose fit does not take the report. -/
def misfit (observedAt : Int) : SharedClock × ReportOutcome :=
  if s.source.outliers < 2 then
    let c := if s.source.uncertain then s.source
      else { s.source with uncertainAt := observedAt }
    ({ s with source := { c with uncertain := true, recovery := 0, outliers := c.outliers + 1 } },
      .outlier)
  else
    (s.failLocked 7, .denied)

/-- The report is taken over as the last one. -/
def accept (report : SourceSenderReport) (elapsedRTP now : Int) : SharedClock :=
  let c := { s.source with
    last := report
    lastReportAt := now
    elapsedRTP := elapsedRTP
    outliers := 0 }
  let c :=
    if c.uncertain then
      if c.recovery + 1 = 2 then
        { c with uncertain := false, recovery := 0, uncertainAt := 0 }
      else
        { c with recovery := c.recovery + 1 }
    else c
  { s with source := if c.reports < 65535 then { c with reports := c.reports + 1 } else c }

/-- The report's place against the publisher's reference. -/
def place (report : SourceSenderReport) (elapsedRTP observedAt now : Int) (fits : Bool) :
    SharedClock × ReportOutcome :=
  match s.publisher.reference report.ntp now with
  | (p, none) => (failLocked ⟨p, s.source⟩ 6, .denied)
  | (p, some (programSample, now)) =>
      let c := if s.source.reports = 0 then
        { s.source with first := report, anchor := programSample } else s.source
      let s : SharedClock := ⟨p, c⟩
      if s.source.adaptive then
        if fits then
          (s.accept report elapsedRTP now, .accepted)
        else
          s.misfit observedAt
      else if s.source.reports > 0
          ∧ (s.source.sampleAt elapsedRTP - programSample > 4800
            ∨ programSample - s.source.sampleAt elapsedRTP > 4800) then
        (s.failLocked 7, .denied)
      else
        (s.accept report elapsedRTP now, .accepted)

/-- `SourceSenderReport`; the wall clock is read on entry and once more for
the reference. -/
def sourceSenderReport (report : SourceSenderReport) (entered now : Int) (fits : Bool) :
    SharedClock × ReportOutcome :=
  match s.currentLocked entered with
  | (s, none) => (s.failLocked 4, .denied)
  | (s, some observedAt) =>
      if s.source.bound = false ∨ report.ssrc ≠ s.source.ssrc ∨ report.ntp = 0 then
        (s.failLocked 4, .denied)
      else
        match s.source.continuity report with
        | .ignored => (s, .ignored)
        | .deviates invalidShape interval skew => s.suspend invalidShape interval skew observedAt
        | .continues elapsedRTP => s.place report elapsedRTP observedAt now fits

/-- `Map`: the sample, when the map is ready and the timestamp near. -/
def map (timestamp : BitVec 32) (now : Int) : SharedClock × Option Int :=
  match s.currentLocked now with
  | (s, none) => (s, none)
  | (s, some _) =>
      let distance := (timestamp - s.source.last.rtp).toInt
      if s.source.reports < 2 ∨ s.source.uncertain ∨ s.source.adaptive
          ∨ distance < -(s.source.rate * 12) ∨ distance > s.source.rate * 12 then
        (s, none)
      else
        let sample := s.source.sampleAt (s.source.elapsedRTP + distance)
        (s, if sample ≥ 0 then some sample else none)

def videoTimeLocked (now : Int) : SharedClock × SourceVideoTime :=
  match s.currentLocked now with
  | (s', none) => (s', ⟨.denied, s.source.videoEpoch⟩)
  | (s', some _) =>
      if (s'.source.bound ∧ s'.source.rate ≠ 90000) ∨ s'.source.adaptive then
        (s', ⟨.denied, s.source.videoEpoch⟩)
      else if s'.source.uncertain then
        (s', ⟨.suspended, s.source.videoEpoch⟩)
      else if s'.source.bound = false ∨ s'.source.reports < 2 then
        (s', ⟨.waiting, s.source.videoEpoch⟩)
      else
        (s', ⟨.ready, s.source.videoEpoch⟩)

/-- `MapVideo`: a sample comes with every state but `denied`. -/
def mapVideo (timestamp : BitVec 32) (now : Int) : SharedClock × Int × SourceVideoTime :=
  let (s, snapshot) := s.videoTimeLocked now
  if snapshot.state = .denied ∨ s.source.reports = 0 then
    (s, 0, snapshot)
  else
    let distance := (timestamp - s.source.last.rtp).toInt
    let sample := s.source.sampleAt (s.source.elapsedRTP + distance)
    if distance < -(s.source.rate * 12) ∨ distance > s.source.rate * 12 ∨ sample < 0 then
      (s, sample, { snapshot with state := .denied })
    else
      (s, sample, snapshot)

end SharedClock

/-! ## The sources of a publisher -/

structure ClockGroup where
  publisher : SourcePublisherClock
  sources : List SourceMediaClock
deriving DecidableEq

/-- The calls on a publisher's clocks, a source by its number. Each reads the
wall clock where its argument says so. -/
inductive ClockCall
  | newSource (adaptive : Bool) (now : Int)
  | bind (i : Nat) (ssrc : BitVec 32) (rate : Nat) (now : Int)
  | tick (i : Nat) (now : Int)
  | report (i : Nat) (report : SourceSenderReport) (entered now : Int) (fits : Bool)
  | map (i : Nat) (timestamp : BitVec 32) (now : Int)
  | videoTime (i : Nat) (now : Int)
  | mapVideo (i : Nat) (timestamp : BitVec 32) (now : Int)
  | closeSource (i : Nat)
  | closePublisher

def newSourcePublisherClock (start delay now : Int) : Option ClockGroup :=
  if delay < 0 ∨ delay > 48000 then
    none
  else
    let p : SourcePublisherClock := ⟨start, start, 0, delay, 0, 0, false, false, 0⟩
    match p.timeLocked now with
    | (_, none) => none
    | (p, some _) => some ⟨p, []⟩

namespace ClockGroup

variable (g : ClockGroup)

/-- Source `i` with the publisher. -/
def shared (i : Nat) : Option SharedClock :=
  g.sources[i]?.map fun c => ⟨g.publisher, c⟩

/-- An operation on source `i`. -/
def apply (i : Nat) (f : SharedClock → SharedClock) : ClockGroup :=
  match g.shared i with
  | none => g
  | some s => ⟨(f s).publisher, g.sources.set i (f s).source⟩

/-- `NewSource` and `NewAdaptiveAudioSource`. -/
def newSource (adaptive : Bool) (now : Int) : ClockGroup :=
  match g.publisher.timeLocked now with
  | (p, none) => ⟨p, g.sources⟩
  | (p, some _) =>
      if p.sources ≥ 4 then
        ⟨p, g.sources⟩
      else
        ⟨{ p with sources := p.sources + 1 }, g.sources ++ [.fresh adaptive]⟩

def closePublisher : ClockGroup :=
  { g with
    publisher := { g.publisher with closed := true, referenceNTP := 0, referenceSample := 0 } }

def next : ClockCall → ClockGroup
  | .newSource adaptive now => g.newSource adaptive now
  | .bind i ssrc rate now => g.apply i fun s => s.bindSourceClock ssrc rate now
  | .tick i now => g.apply i fun s => s.sourceClockTick now
  | .report i report entered now fits =>
      g.apply i fun s => (s.sourceSenderReport report entered now fits).1
  | .map i timestamp now => g.apply i fun s => (s.map timestamp now).1
  | .videoTime i now => g.apply i fun s => (s.videoTimeLocked now).1
  | .mapVideo i timestamp now => g.apply i fun s => (s.mapVideo timestamp now).1
  | .closeSource i => g.apply i fun s => s.closeLocked
  | .closePublisher => g.closePublisher

/-- One call. -/
def Step (g : ClockGroup) (call : ClockCall) (g' : ClockGroup) : Prop :=
  g.next call = g'

end ClockGroup

end Packager

end WebrtcMinimize
