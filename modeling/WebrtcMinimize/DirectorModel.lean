import WebrtcMinimize.AudioMix
import WebrtcMinimize.Checks
import WebrtcMinimize.CommandLedger

/-!
# Scene and audio commands

`ApplySceneCommand` and `ApplyAudioCommand` of a program generation, from the
decoded command down to the two mixers. Each has a ledger of its own
(`Director.command`); what differs is the checks before it, and what an
attempt does to its mixer.

The clock is sampled twice, when the command is looked at and, under the
lock of the mixer, when it is applied. The first sample and the answers of
the authority callbacks come with the call. A command is taken as decoded;
bytes that are not one are refused before anything is read.

The digest stands for SHA-256 of the command in JSON.
-/

namespace WebrtcMinimize

namespace Packager

open Checks

/-! ## Scene geometry -/

inductive SceneLayout
  | single
  | screenPresenter
  | sideBySide
  | activeSpeaker
  | grid
  | waitingSlate
  | endSlate
deriving DecidableEq

inductive VideoKind
  | camera
  | screen
deriving DecidableEq

inductive SceneFit
  | contain
  | cover
deriving DecidableEq

structure SceneRect where
  source : Nat
  x : Nat
  y : Nat
  width : Nat
  height : Nat
deriving DecidableEq

/-- The strip of an active speaker, from the sources that are not active. -/
def speakerStrip (active width height strip count : Nat) : List SceneRect :=
  ((List.range count).filter fun i => i ≠ active).mapIdx fun row i =>
    let top := height * row / (count - 1)
    ⟨i, width - strip, top, strip, height * (row + 1) / (count - 1) - top⟩

/-- The least number of columns whose square holds `count` cells. -/
def gridColumns (count : Nat) : Nat :=
  (List.range (count + 1)).find? (fun k => 1 ≤ k ∧ count ≤ k * k) |>.getD 1

def gridRects (columns width height count : Nat) : List SceneRect :=
  let rows := (count + columns - 1) / columns
  (List.range count).map fun i =>
    let column := i % columns
    let row := i / columns
    let left := width * column / columns
    let top := height * row / rows
    ⟨i, left, top, width * (column + 1) / columns - left, height * (row + 1) / rows - top⟩

def presenterRects (kinds : List VideoKind) (width height : Nat) : List SceneRect :=
  let screen := (kinds.findIdx? fun k => k = .screen).getD 0
  let camera := (List.range kinds.length).find? fun i => kinds[i]? = some .camera ∧ i ≠ screen
  match camera with
  | none => [⟨screen, 0, 0, width, height⟩]
  | some camera =>
      let padding := min (max 1 (width * 2 / 100)) ((height - 2) / 2)
      let w := max 2 (width * 22 / 100)
      let h := min (height - padding * 2) (max 2 (w * 9 / 16))
      [⟨screen, 0, 0, width, height⟩, ⟨camera, width - w - padding, height - h - padding, w, h⟩]

def sourceVideoSceneRects (layout : SceneLayout) (kinds : List VideoKind) (width height : Nat)
    (active : Option Nat) : Option (List SceneRect) :=
  if width < 32 ∨ width > 1920 ∨ height < 20 ∨ height > 1080 ∨ kinds.length > 20
      ∨ active.any (fun i => i ≥ kinds.length) then
    none
  else if kinds = [] ∨ layout = .waitingSlate ∨ layout = .endSlate then
    some []
  else
    let first := active.getD 0
    match layout with
    | .single => some [⟨first, 0, 0, width, height⟩]
    | .screenPresenter => some (presenterRects kinds width height)
    | .activeSpeaker =>
        if kinds.length = 1 then
          some [⟨first, 0, 0, width, height⟩]
        else
          let strip := max 2 (width * 22 / 100)
          some (⟨first, 0, 0, width - strip, height⟩
            :: speakerStrip first width height strip kinds.length)
    | .sideBySide => some (gridRects (min 2 kinds.length) width height kinds.length)
    | _ => some (gridRects (gridColumns kinds.length) width height kinds.length)

/-! ## The presentation of the video mixer -/

structure SceneInput where
  kind : VideoKind
  fit : SceneFit
  closed : Bool
deriving DecidableEq

structure SceneMixer where
  width : Nat
  height : Nat
  inputs : List SceneInput
  closed : Bool
  revision : Nat
  layout : SceneLayout
  /-- Inputs by number; one that was closed is gone. -/
  scene : List (Option Nat)
  sceneFits : List SceneFit
  rects : List SceneRect
deriving DecidableEq

/-- The answers while a scene is set: the mixer's callback, the inputs'. -/
structure SceneAuthority where
  mixer : Bool
  inputs : Nat → Bool

inductive InputCheck
  | ok
  | denied
  | revoked (i : Nat)
deriving DecidableEq

namespace SceneMixer

variable (m : SceneMixer)

def closeInput (i : Nat) : SceneMixer :=
  match m.inputs[i]? with
  | none => m
  | some s =>
      if s.closed then m
      else
        { m with
          inputs := m.inputs.set i { s with closed := true }
          scene := m.scene.map fun j => if j = some i then none else j }

def closeLocked : SceneMixer :=
  if m.closed then m
  else
    { m with
      closed := true
      inputs := m.inputs.map fun s => { s with closed := true }
      scene := []
      sceneFits := []
      rects := [] }

/-- The inputs of a scene, in order; the first that is not authorized is
closed, and the scene is refused. -/
def checkInputs (authorized : Nat → Bool) : List Nat → List Nat → InputCheck
  | [], _ => .ok
  | i :: is, seen =>
      match m.inputs[i]? with
      | none => .denied
      | some s =>
          if s.closed ∨ i ∈ seen then .denied
          else if authorized i = false then .revoked i
          else checkInputs authorized is (i :: seen)

def kinds (inputs : List Nat) : List VideoKind :=
  inputs.filterMap fun i => (m.inputs[i]?).map SceneInput.kind

def admittedFits (inputs : List Nat) : List SceneFit :=
  inputs.filterMap fun i => (m.inputs[i]?).map SceneInput.fit

def setScenePresentationGuarded (expected : Nat) (layout : SceneLayout) (inputs : List Nat)
    (active : Option Nat) (fits : Option (List SceneFit)) (a : SceneAuthority) (current : Bool) :
    SceneMixer × Option Nat :=
  if m.closed ∨ a.mixer = false then
    (m.closeLocked, none)
  else if expected ≠ m.revision ∨ m.revision ≥ sourceVideoSceneMaxRevision ∨ inputs.length > 20
      ∨ fits.any (fun fs => fs.length ≠ inputs.length)
      ∨ active ≠ none ∧ layout ≠ .single ∧ layout ≠ .activeSpeaker then
    (m, none)
  else
    match m.checkInputs a.inputs inputs [] with
    | .denied => (m, none)
    | .revoked i => (m.closeInput i, none)
    | .ok =>
        let selected := active.bind fun i => inputs.idxOf? i
        if active ≠ none ∧ selected = none then
          (m, none)
        else
          match sourceVideoSceneRects layout (m.kinds inputs) m.width m.height selected with
          | none => (m, none)
          | some rects =>
              if current = false then
                (m, none)
              else
                ({ m with
                  scene := inputs.map some
                  rects := rects
                  layout := layout
                  sceneFits := fits.getD (m.admittedFits inputs)
                  revision := m.revision + 1 }, some (m.revision + 1))

end SceneMixer

/-! ## Levels and strategy of the audio mixer -/

inductive AudioStrategy
  | unprocessed
  | balanced
  | speechFirst
  | screenFirst
deriving DecidableEq

structure AudioTarget where
  mixer : SourceAudioMixer
  strategy : AudioStrategy
deriving DecidableEq

namespace AudioTarget

open SourceAudioMixer

def setLevelsStrategy (t : AudioTarget) (expected : Nat) (changes : List LevelChange)
    (strategy : Option AudioStrategy) (a : LevelAuthority) : AudioTarget × Option Nat :=
  let m := t.mixer.currentLevelsLocked a
  let t := { t with mixer := m }
  if m.closed ∨ expected ≠ m.revision ∨ expected = 0 ∨ changes = [] ∧ strategy = none
      ∨ changes.length > 80 then
    (t, none)
  else if ¬(changes.map LevelChange.input).Nodup ∨ changes.all (m.changeValid a) = false then
    (t, none)
  else if a.fence = false ∨ changes.all (fun c => a.still c.input) = false then
    (t, none)
  else
    let (m, ok) := m.advanceRevisionLocked
    if ok then
      let m := changes.foldl change m
      (⟨m, strategy.getD t.strategy⟩, some m.revision)
    else
      ({ t with mixer := m }, none)

end AudioTarget

/-! ## The generation -/

/-- What both kinds of command name the writer by. -/
structure ControlScope where
  assignmentId : String
  programId : String
  programEpoch : Int
  leaseId : String
  fencingRevision : Int
deriving DecidableEq

structure GenerationSource where
  audio : Option Nat
  video : Option Nat
  closed : Bool
deriving DecidableEq

structure SceneTarget where
  video : SceneMixer
  sceneSelection : List String
  sceneSelectedActive : String
  sceneSelectionRevision : Nat
deriving DecidableEq

/-- The integers a command may carry. -/
def controlInteger (n : Int) : Bool := 1 ≤ n ∧ n ≤ 9007199254740991

def controlScopeOK (s : ControlScope) : Bool :=
  refOK "asn_" s.assignmentId ∧ refOK "prg_" s.programId ∧ refOK "lea_" s.leaseId
    ∧ controlInteger s.programEpoch ∧ controlInteger s.fencingRevision

/-- Issued a second ahead at most, running, and for four seconds at most. -/
def controlTimesOK (issuedAt expiresAt now : Int) : Bool :=
  controlInteger issuedAt ∧ controlInteger expiresAt ∧ controlInteger now
    ∧ issuedAt ≤ now + 1000 ∧ now < expiresAt ∧ issuedAt < expiresAt
    ∧ expiresAt - issuedAt ≤ 4000

/-! ### Scene commands -/

def maximumSourceSceneHistory : Nat := 32

structure SceneCommand where
  version : Nat
  commandId : String
  scope : ControlScope
  expectedSceneRevision : Nat
  layout : SceneLayout
  sourceLeaseIds : List String
  activeSourceLeaseId : String
  /-- Version 2 only. -/
  sourceFits : Option (List SceneFit)
  issuedAt : Int
  expiresAt : Int
deriving DecidableEq

structure SceneReceipt where
  version : Nat
  commandId : String
  scope : ControlScope
  sceneRevision : Nat
  appliedAt : Int
deriving DecidableEq

/-- `parseSourceSceneCommand` on a decoded command. -/
def parseSourceSceneCommand (c : SceneCommand) (now : Int) : Bool :=
  (c.version = 1 ∧ c.sourceFits = none
      ∨ c.version = 2 ∧ c.sourceFits.any fun fs => fs.length = c.sourceLeaseIds.length)
    ∧ refOK "scn_" c.commandId ∧ controlScopeOK c.scope
    ∧ 1 ≤ c.expectedSceneRevision ∧ c.expectedSceneRevision < sourceVideoSceneMaxRevision
    ∧ c.sourceLeaseIds.length ≤ 20 ∧ controlTimesOK c.issuedAt c.expiresAt now
    ∧ c.sourceLeaseIds.all (refOK "sls_") ∧ c.sourceLeaseIds.Nodup
    ∧ (c.activeSourceLeaseId = "" ∨ (c.layout = .single ∨ c.layout = .activeSpeaker)
        ∧ c.activeSourceLeaseId ∈ c.sourceLeaseIds)

/-- The answers while a scene command is applied: the generation when the
command is admitted and again under its lock, the sources', the mixer's, and
the second sample of the clock. -/
structure SceneAnswers where
  permitted : Bool
  again : Bool
  sources : String → Bool
  mixer : SceneAuthority
  appliedAt : Int

/-- The inputs of the sources, when all of them can be shown. -/
def sceneInputs (sources : KeyedMap String GenerationSource) (allowed : String → Bool) :
    List String → Option (List Nat)
  | [] => some []
  | id :: ids => do
      let s ← sources.get id
      let video ← s.video
      if allowed id = false ∨ s.closed then none
      let rest ← sceneInputs sources allowed ids
      pure (video :: rest)

/-- The generation's `setScenePresentationGuarded`. -/
def SceneTarget.setScene (t : SceneTarget) (sources : KeyedMap String GenerationSource)
    (expected : Nat) (layout : SceneLayout) (ids : List String) (active : String)
    (fits : Option (List SceneFit)) (a : SceneAnswers) (current : Bool) :
    SceneTarget × Option Nat :=
  if a.again = false ∨ ids.length > 20 then
    (t, none)
  else
    match sceneInputs sources a.sources ids with
    | none => (t, none)
    | some inputs =>
        let selected := ((sources.get active).bind GenerationSource.video).filter
          fun _ => decide (active ∈ ids)
        if active ≠ "" ∧ selected = none then
          (t, none)
        else
          match t.video.setScenePresentationGuarded expected layout inputs selected fits a.mixer
              current with
          | (video, none) => ({ t with video := video }, none)
          | (video, some revision) => (⟨video, ids, active, revision⟩, some revision)

/-! ### Audio commands -/

def maximumSourceAudioControlHistory : Nat := 32

structure SourceProgramAudioLevel where
  sourceLeaseId : String
  left : Int
  right : Int
  muted : Bool
deriving DecidableEq

structure AudioCommand where
  version : Nat
  commandId : String
  scope : ControlScope
  expectedAudioRevision : Nat
  sources : List SourceProgramAudioLevel
  /-- Not in version 1. -/
  strategy : Option AudioStrategy
  issuedAt : Int
  expiresAt : Int
deriving DecidableEq

structure AudioReceipt where
  version : Nat
  commandId : String
  scope : ControlScope
  audioRevision : Nat
  appliedAt : Int
deriving DecidableEq

/-- `parseSourceAudioCommand` on a decoded command. -/
def parseSourceAudioCommand (c : AudioCommand) (now : Int) : Bool :=
  (c.version = 1 ∧ c.strategy = none ∧ c.sources ≠ []
      ∨ (c.version = 2 ∨ c.version = 3) ∧ c.strategy.isSome)
    ∧ refOK "aud_" c.commandId ∧ controlScopeOK c.scope
    ∧ controlTimesOK c.issuedAt c.expiresAt now
    ∧ 1 ≤ c.expectedAudioRevision ∧ c.expectedAudioRevision < sourceAudioLevelMaxRevision
    ∧ c.sources.length ≤ 80
    ∧ c.sources.all (fun s => refOK "sls_" s.sourceLeaseId && validSourceAudioGain s.left s.right)
    ∧ (c.sources.map SourceProgramAudioLevel.sourceLeaseId).Nodup

/-- The command with its sources in the order of their ids. -/
def AudioCommand.canonical (c : AudioCommand) : AudioCommand :=
  { c with sources := c.sources.mergeSort fun a b => decide (a.sourceLeaseId ≤ b.sourceLeaseId) }

/-- The answers while an audio command is applied: the generation when the
command is admitted and again under its lock, the sources', those of the
mixer, the generation once more in the fence, and the second sample of the
clock. -/
structure AudioAnswers where
  permitted : Bool
  again : Bool
  sources : String → Bool
  levels : SourceAudioMixer.LevelAuthority
  fence : Bool
  appliedAt : Int

/-- The level changes, when all of the sources can be set. -/
def levelChanges (sources : KeyedMap String GenerationSource) (allowed : String → Bool) :
    List SourceProgramAudioLevel → Option (List SourceAudioMixer.LevelChange)
  | [] => some []
  | level :: levels => do
      let s ← sources.get level.sourceLeaseId
      let audio ← s.audio
      if allowed level.sourceLeaseId = false ∨ s.closed then none
      let rest ← levelChanges sources allowed levels
      pure (⟨audio, level.left, level.right, level.muted⟩ :: rest)

/-- `setAudioLevelsStrategy`; the fence is the generation's and the caller's. -/
def AudioTarget.setLevels (t : AudioTarget) (sources : KeyedMap String GenerationSource)
    (expected : Nat) (levels : List SourceProgramAudioLevel) (strategy : Option AudioStrategy)
    (a : AudioAnswers) (current : Bool) : AudioTarget × Option Nat :=
  if a.again = false ∨ levels = [] ∧ strategy = none ∨ levels.length > 80 then
    (t, none)
  else
    match levelChanges sources a.sources levels with
    | none => (t, none)
    | some changes =>
        t.setLevelsStrategy expected changes strategy
          { a.levels with fence := a.levels.fence && current }

/-! ### The generation's two directors -/

structure ProgramDirector (δ : Type) where
  scope : ControlScope
  outputAudioChannels : Nat
  sources : KeyedMap String GenerationSource
  scene : Director String δ SceneReceipt SceneTarget
  audio : Director String δ AudioReceipt AudioTarget

namespace ProgramDirector

variable {δ : Type} [DecidableEq δ]

/-- What a scene command is refused for before the ledger is looked at. -/
def sceneAdmitted (g : ProgramDirector δ) (c : SceneCommand) (now : Int) (a : SceneAnswers) :
    Bool :=
  parseSourceSceneCommand c now ∧ a.permitted ∧ g.scene.ledger.lastNow ≤ now ∧ c.scope = g.scope

def attemptScene (g : ProgramDirector δ) (c : SceneCommand) (now : Int) (a : SceneAnswers)
    (t : SceneTarget) : SceneTarget × Option (SceneReceipt × Int) :=
  match t.setScene g.sources c.expectedSceneRevision c.layout c.sourceLeaseIds
      c.activeSourceLeaseId c.sourceFits a (decide (now ≤ a.appliedAt ∧ a.appliedAt < c.expiresAt)) with
  | (t, none) => (t, none)
  | (t, some revision) =>
      (t, some (⟨c.version, c.commandId, c.scope, revision, a.appliedAt⟩, a.appliedAt))

def applySceneCommand (digest : SceneCommand → δ) (g : ProgramDirector δ) (c : SceneCommand)
    (now : Int) (a : SceneAnswers) : ProgramDirector δ × Option SceneReceipt :=
  if g.sceneAdmitted c now a then
    let (scene, receipt) := g.scene.command maximumSourceSceneHistory c.commandId (digest c)
      c.expiresAt now (g.attemptScene c now a)
    ({ g with scene := scene }, receipt)
  else
    (g, none)

/-- `audioScopeCurrent` at a reading, with the answer of the generation. -/
def audioScopeCurrent (g : ProgramDirector δ) (c : AudioCommand) (lastNow now : Int)
    (permitted : Bool) : Bool :=
  permitted ∧ lastNow ≤ now ∧ now < c.expiresAt ∧ (c.version = 2 → g.outputAudioChannels = 2)
    ∧ c.scope = g.scope

def audioAdmitted (g : ProgramDirector δ) (c : AudioCommand) (now : Int) (a : AudioAnswers) :
    Bool :=
  parseSourceAudioCommand c now ∧ g.audioScopeCurrent c g.audio.ledger.lastNow now a.permitted

def attemptAudio (g : ProgramDirector δ) (c : AudioCommand) (now : Int) (a : AudioAnswers)
    (t : AudioTarget) : AudioTarget × Option (AudioReceipt × Int) :=
  match t.setLevels g.sources c.expectedAudioRevision c.canonical.sources c.strategy a
      (decide (now ≤ a.appliedAt) && g.audioScopeCurrent c now a.appliedAt a.fence) with
  | (t, none) => (t, none)
  | (t, some revision) =>
      (t, some (⟨c.version, c.commandId, c.scope, revision, a.appliedAt⟩, a.appliedAt))

def applyAudioCommand (digest : AudioCommand → δ) (g : ProgramDirector δ) (c : AudioCommand)
    (now : Int) (a : AudioAnswers) : ProgramDirector δ × Option AudioReceipt :=
  if g.audioAdmitted c now a then
    let (audio, receipt) := g.audio.command maximumSourceAudioControlHistory c.commandId
      (digest c.canonical) c.expiresAt now (g.attemptAudio c now a)
    ({ g with audio := audio }, receipt)
  else
    (g, none)

/-! ### Steps -/

inductive DirectorCall
  | scene (c : SceneCommand) (now : Int) (a : SceneAnswers)
  | audio (c : AudioCommand) (now : Int) (a : AudioAnswers)
  /-- What renders, admissions and revocations make of sources and mixers. -/
  | elsewhere (sources : KeyedMap String GenerationSource) (scene : SceneTarget)
      (audio : AudioTarget)
  /-- `QueryAudio`, when it is answered. -/
  | queryAudio (observedAt : Int)

def next (scenes : SceneCommand → δ) (audios : AudioCommand → δ) (g : ProgramDirector δ) :
    DirectorCall → ProgramDirector δ
  | .scene c now a => (g.applySceneCommand scenes c now a).1
  | .audio c now a => (g.applyAudioCommand audios c now a).1
  | .elsewhere sources scene audio =>
      { g with
        sources := sources
        scene := { g.scene with target := scene }
        audio := { g.audio with target := audio } }
  | .queryAudio observedAt =>
      if g.audio.ledger.lastNow ≤ observedAt then
        { g with audio := { g.audio with ledger := { g.audio.ledger with lastNow := observedAt } } }
      else
        g

def Step (scenes : SceneCommand → δ) (audios : AudioCommand → δ) (g : ProgramDirector δ)
    (call : DirectorCall) (g' : ProgramDirector δ) : Prop :=
  g.next scenes audios call = g'

end ProgramDirector

end Packager

end WebrtcMinimize
