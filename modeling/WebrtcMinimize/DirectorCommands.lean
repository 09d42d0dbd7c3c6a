import WebrtcMinimize.AudioTimeline
import WebrtcMinimize.DirectorModel

/-!
# Commands under compare and swap

What one scene or audio command does to a generation (`Director.Effect`), and
what holds of the commands applied along a run in which sources and mixers
change in any way between them.

A refused scene command may have closed an input that was not authorized, or
the whole mixer when its own authority was gone (`SceneMixer.Closes`). An
audio command closes what is not authorized before it looks at the revision,
and each closing moves the revision (`SourceAudioMixer.Closes`).
-/

namespace WebrtcMinimize

namespace Packager

open Runs List SourceProgramAudioLevel Sum Nat

/-! ## What a refusal closes -/

/-- An input found unauthorized, or all of a mixer that is not permitted. -/
inductive SceneMixer.Closes (a : SceneAuthority) (m : SceneMixer) : SceneMixer → Prop
  | same : Closes a m m
  | input (i : Nat) (denied : a.inputs i = false) : Closes a m (m.closeInput i)
  | mixer (denied : m.closed = true ∨ a.mixer = false) : Closes a m m.closeLocked

namespace SceneMixer

variable {m m' : SceneMixer} {a : SceneAuthority}

theorem checkInputs_revoked {authorized : Nat → Bool} {i : Nat} : ∀ {is seen : List Nat},
    m.checkInputs authorized is seen = .revoked i → authorized i = false
  | [], seen, h => by
      cases h
  | j :: is, seen, h => by
      rw [checkInputs] at h
      split at h
      · cases h
      · split_ifs at h with hdenied hrevoked
        · cases h
          exact hrevoked
        · exact checkInputs_revoked h

/-- The presentation that a successful call leaves. -/
structure Presents (m : SceneMixer) (layout : SceneLayout) (inputs : List Nat)
    (fits : Option (List SceneFit)) (m' : SceneMixer) : Prop where
  revision : m'.revision = m.revision + 1
  layout : m'.layout = layout
  scene : m'.scene = inputs.map some
  fits : m'.sceneFits = fits.getD (m.admittedFits inputs)
  inputs : m'.inputs = m.inputs

theorem setScenePresentationGuarded_cases (m : SceneMixer) (expected : Nat) (layout : SceneLayout)
    (inputs : List Nat) (active : Option Nat) (fits : Option (List SceneFit)) (a : SceneAuthority)
    (current : Bool) :
    (∃ m', m.setScenePresentationGuarded expected layout inputs active fits a current = (m', none)
      ∧ Closes a m m')
    ∨ ∃ m', m.setScenePresentationGuarded expected layout inputs active fits a current
        = (m', some (m.revision + 1))
      ∧ expected = m.revision ∧ current = true ∧ Presents m layout inputs fits m' := by
  rw [setScenePresentationGuarded]
  split
  · next hgone => exact .inl ⟨_, rfl, .mixer hgone⟩
  · split
    · exact .inl ⟨_, rfl, .same⟩
    · next hconflict =>
        have hexpected : expected = m.revision := by
          by_contra hne
          exact hconflict (.inl hne)
        split
        · exact .inl ⟨_, rfl, .same⟩
        · next i hrevoked => exact .inl ⟨_, rfl, .input i (checkInputs_revoked hrevoked)⟩
        · dsimp only
          split
          · exact .inl ⟨_, rfl, .same⟩
          · split
            · exact .inl ⟨_, rfl, .same⟩
            · split
              · exact .inl ⟨_, rfl, .same⟩
              · next hcurrent =>
                  exact .inr ⟨_, rfl, hexpected, by simpa using hcurrent, rfl, rfl, rfl, rfl, rfl⟩

end SceneMixer

/-- What the closing of inputs makes of an audio mixer: the levels stay, and
the revision moves by the number of inputs closed at most. -/
structure SourceAudioMixer.Closes (a : SourceAudioMixer.LevelAuthority)
    (m m' : SourceAudioMixer) : Prop where
  inputs : ∀ (i : Nat) (s : AudioMixInput), m.inputs[i]? = some s →
    m'.inputs[i]? = some s ∨ m'.inputs[i]? = some s.shut ∧ (a.inputs i = false ∨ m'.closed = true)
  grows : m.revision ≤ m'.revision
  moves : m'.revision + m'.liveInputs ≤ m.revision + m.liveInputs
  stays : m.closed = true → m'.closed = true
  closed : m'.closed = true →
    m.closed = true ∨ a.mixer = false ∨ sourceAudioLevelMaxRevision ≤ m'.revision

namespace SourceAudioMixer

variable {m m' m'' : SourceAudioMixer} {a : LevelAuthority}

theorem Closes.refl (m : SourceAudioMixer) : Closes a m m :=
  ⟨fun _ _ hs => .inl hs, le_refl _, le_refl _, id, .inl⟩

theorem Closes.trans (h : Closes a m m') (h' : Closes a m' m'') : Closes a m m'' where
  inputs := by
    intro i s hs
    rcases h.inputs i s hs with hs' | ⟨hs', hwhy⟩
    · exact h'.inputs i s hs'
    · refine .inr ⟨?_, hwhy.imp_right h'.stays⟩
      rcases h'.inputs i s.shut hs' with hs'' | ⟨hs'', -⟩
      · exact hs''
      · exact hs''
  grows := le_trans h.grows h'.grows
  moves := le_trans h'.moves h.moves
  stays := fun hc => h'.stays (h.stays hc)
  closed := by
    intro hc
    rcases h'.closed hc with hc' | hmixer | hfull
    · exact (h.closed hc').imp_right (.imp_right fun hle => le_trans hle h'.grows)
    · exact .inr (.inl hmixer)
    · exact .inr (.inr hfull)

theorem liveInputs_closeLocked (m : SourceAudioMixer) :
    m.closeLocked.liveInputs ≤ m.liveInputs := by
  rw [closeLocked]
  split
  · exact le_refl _
  · rw [liveInputs, countP_map, countP_eq_zero.mpr fun s _ => by simp [AudioMixInput.shut]]
    exact zero_le _

theorem closeLocked_revision (m : SourceAudioMixer) : m.closeLocked.revision = m.revision := by
  rw [closeLocked]
  split <;> rfl

theorem closeLocked_closes
    (hwhy : m.closed = true ∨ a.mixer = false ∨ sourceAudioLevelMaxRevision ≤ m.revision) :
    Closes a m m.closeLocked where
  inputs := by
    intro i s hs
    have hclosed := m.closeLocked_closed
    rw [closeLocked] at hclosed ⊢
    split
    · exact .inl hs
    · refine .inr ⟨?_, .inr rfl⟩
      rw [getElem?_map, hs]
      rfl
  grows := le_of_eq m.closeLocked_revision.symm
  moves := by
    rw [m.closeLocked_revision]
    exact Nat.add_le_add_left m.liveInputs_closeLocked _
  stays := fun _ => m.closeLocked_closed
  closed := fun _ => by rwa [m.closeLocked_revision]

theorem advanceRevisionLocked_cases (m : SourceAudioMixer) :
    sourceAudioLevelMaxRevision ≤ m.revision ∧ m.advanceRevisionLocked = (m.closeLocked, false)
    ∨ m.advanceRevisionLocked = ({ m with revision := m.revision + 1 }, true) := by
  rw [advanceRevisionLocked]
  split
  · next hfull => exact .inl ⟨hfull, rfl⟩
  · exact .inr rfl

/-- One open input is closed, and the revision goes on with it. -/
theorem closeInput_closes (i : Nat) (hdenied : a.inputs i = false) :
    Closes a m (m.closeInput i) := by
  rw [closeInput]
  split
  · exact .refl m
  · next s hs =>
      split
      · exact .refl m
      · next hopen =>
          have hlt := (List.getElem?_eq_some_iff.mp hs).1
          have hlive : (m.inputs.set i s.shut).countP (fun t => !t.closed) + 1 = m.liveInputs := by
            have hget : m.inputs[i] = s := (List.getElem?_eq_some_iff.mp hs).2
            have hpos : 0 < m.inputs.countP fun t => !t.closed :=
              countP_pos_iff.mpr ⟨s, mem_of_getElem? hs, by simpa using hopen⟩
            rw [countP_set hlt, hget, liveInputs]
            simp only [AudioMixInput.shut, hopen]
            simp
            omega
          have hinputs : ∀ (j : Nat) (t : AudioMixInput), m.inputs[j]? = some t →
              (m.inputs.set i s.shut)[j]? = some t
              ∨ (m.inputs.set i s.shut)[j]? = some t.shut ∧ a.inputs j = false := by
            intro j t ht
            by_cases hj : i = j
            · subst hj
              cases hs.symm.trans ht
              exact .inr ⟨getElem?_set_self hlt, hdenied⟩
            · exact .inl ((getElem?_set_ne hj).trans ht)
          dsimp only
          have hset : ∀ (bytes revision : Nat), m.revision ≤ revision → revision ≤ m.revision + 1 →
              Closes a m { m with
                inputs := m.inputs.set i s.shut, pcmBytes := bytes, revision := revision } := by
            intro bytes revision hle hle'
            refine ⟨fun j t ht => (hinputs j t ht).imp_right (And.imp_right .inl), hle, ?_, id,
              .inl⟩
            show revision + (m.inputs.set i s.shut).countP (fun t => !t.closed) ≤ _
            omega
          split
          · exact hset _ _ (le_refl _) (le_succ _)
          · rcases advanceRevisionLocked_cases { m with
              inputs := m.inputs.set i s.shut, pcmBytes := m.pcmBytes - m.cfg.queueSamples * 4 }
              with ⟨hfull, hadvance⟩ | hadvance
            · rw [hadvance]
              exact (hset _ _ (le_refl _) (le_succ _)).trans
                (closeLocked_closes (.inr (.inr hfull)))
            · rw [hadvance]
              exact hset _ _ (le_succ _) (le_refl _)

theorem closeUnauthorized_closes (m : SourceAudioMixer) : Closes a m (m.closeUnauthorized a.inputs) := by
  have hgo : ∀ (is : List Nat) (m : SourceAudioMixer),
      Closes a m (is.foldl (fun m i => if a.inputs i then m else m.closeInput i) m) := by
    intro is
    induction is with
    | nil => exact Closes.refl
    | cons i is ih =>
        intro m
        rw [foldl_cons]
        refine Closes.trans ?_ (ih _)
        split
        · exact .refl m
        · next hdenied => exact closeInput_closes i (by simpa using hdenied)
  exact hgo _ m

theorem currentLevelsLocked_closes (m : SourceAudioMixer) (a : LevelAuthority) :
    Closes a m (m.currentLevelsLocked a) := by
  rw [currentLevelsLocked]
  split
  · next hgone => exact closeLocked_closes (hgone.imp_right .inl)
  · exact m.closeUnauthorized_closes

theorem foldl_change_revision : ∀ (changes : List LevelChange) (m : SourceAudioMixer),
    (changes.foldl change m).revision = m.revision
  | [], _ => rfl
  | c :: changes, m => by
      rw [foldl_cons, foldl_change_revision changes, change]
      split <;> rfl

end SourceAudioMixer

namespace AudioTarget

open SourceAudioMixer

/-- Levels and strategy are set on what the closing left. -/
structure Sets (t : AudioTarget) (a : LevelAuthority) (expected : Nat)
    (changes : List LevelChange) (strategy : Option AudioStrategy) (m : SourceAudioMixer)
    (t' : AudioTarget) : Prop where
  closes : Closes a t.mixer m
  expected : expected = m.revision
  mixer : t'.mixer = changes.foldl change { m with revision := m.revision + 1 }
  strategy : t'.strategy = strategy.getD t.strategy

theorem Sets.revision {t t' : AudioTarget} {a : LevelAuthority} {expected : Nat}
    {changes : List LevelChange} {strategy : Option AudioStrategy} {m : SourceAudioMixer}
    (h : t.Sets a expected changes strategy m t') : t'.mixer.revision = m.revision + 1 := by
  rw [h.mixer, foldl_change_revision]

theorem setLevelsStrategy_cases (t : AudioTarget) (expected : Nat) (changes : List LevelChange)
    (strategy : Option AudioStrategy) (a : LevelAuthority) :
    (∃ m, t.setLevelsStrategy expected changes strategy a = ({ t with mixer := m }, none)
      ∧ Closes a t.mixer m)
    ∨ ∃ m t', t.setLevelsStrategy expected changes strategy a = (t', some (m.revision + 1))
      ∧ a.fence = true ∧ t.Sets a expected changes strategy m t' := by
  have hcloses := t.mixer.currentLevelsLocked_closes a
  rw [setLevelsStrategy]
  split
  · exact .inl ⟨_, rfl, hcloses⟩
  · next hdenied =>
      have hexpected : expected = (t.mixer.currentLevelsLocked a).revision := by
        by_contra hne
        exact hdenied (.inr (.inl hne))
      split
      · exact .inl ⟨_, rfl, hcloses⟩
      · split
        · exact .inl ⟨_, rfl, hcloses⟩
        · next hfence =>
            have hfenced : a.fence = true := by
              by_contra hoff
              exact hfence (.inl (by simpa using hoff))
            rcases (t.mixer.currentLevelsLocked a).advanceRevisionLocked_cases with
              ⟨hfull, hadvance⟩ | hadvance
            · rw [hadvance]
              exact .inl ⟨_, rfl, hcloses.trans (closeLocked_closes (.inr (.inr hfull)))⟩
            · rw [hadvance]
              dsimp only
              rw [if_pos rfl, foldl_change_revision]
              exact .inr ⟨_, _, rfl, hfenced, hcloses, hexpected, rfl, rfl⟩

end AudioTarget

/-! ## Equal content -/

/-- The same command, its sources in any order. -/
def AudioCommand.SameContent (c c' : AudioCommand) : Prop :=
  { c with sources := [] } = { c' with sources := [] } ∧ c.sources.Perm c'.sources

theorem AudioCommand.sameContent_iff {c c' : AudioCommand}
    (hnodup : (c'.sources.map sourceLeaseId).Nodup) :
    c.canonical = c'.canonical ↔ c.SameContent c' := by
  have hperm := fun d : AudioCommand =>
    mergeSort_perm d.sources fun a b => decide (a.sourceLeaseId ≤ b.sourceLeaseId)
  have hsorted : ∀ d : AudioCommand, d.canonical.sources.Pairwise fun a b =>
      decide (a.sourceLeaseId ≤ b.sourceLeaseId) = true := fun d =>
    pairwise_mergeSort
      (fun a b c hab hbc => by simp only [decide_eq_true_eq] at *; exact String.le_trans hab hbc)
      (fun a b => by simpa using String.le_total a.sourceLeaseId b.sourceLeaseId) d.sources
  constructor
  · intro heq
    have hsources := congrArg AudioCommand.sources heq
    refine ⟨?_, ((hperm c).symm.trans (.of_eq hsources)).trans (hperm c')⟩
    exact congrArg (fun d : AudioCommand => { d with sources := [] }) heq
  · intro ⟨hrest, hsources⟩
    have hsame : c.canonical.sources = c'.canonical.sources := by
      refine List.Perm.eq_of_pairwise ?_ (hsorted c) (hsorted c')
        (((hperm c).trans hsources).trans (hperm c').symm)
      intro a b ha hb hab hba
      have ha' := hsources.mem_iff.mp ((hperm c).mem_iff.mp ha)
      have hb' := (hperm c').mem_iff.mp hb
      simp only [decide_eq_true_eq] at hab hba
      exact inj_on_of_nodup_map hnodup ha' hb' (String.le_antisymm hab hba)
    have hcanonical := fun d : AudioCommand =>
      show d.canonical = { ({ d with sources := [] } : AudioCommand) with
        sources := d.canonical.sources } from rfl
    rw [hcanonical c, hcanonical c', hrest, hsame]

/-! ## One command -/

namespace ProgramDirector

variable {δ : Type} {g : ProgramDirector δ}

/-- What a refused scene command leaves. -/
def sceneCloses (a : SceneAnswers) (t t' : SceneTarget) : Prop :=
  ∃ m, SceneMixer.Closes a.mixer t.video m ∧ t' = { t with video := m }

/-- A scene command is applied: in scope, at the revision it expects, while
it lives; the revision goes up by one. -/
structure SceneApplies (g : ProgramDirector δ) (c : SceneCommand) (now : Int) (a : SceneAnswers)
    (t t' : SceneTarget) (receipt : SceneReceipt) (appliedAt : Int) : Prop where
  scope : c.scope = g.scope
  expected : c.expectedSceneRevision = t.video.revision
  sampled : now ≤ appliedAt
  unexpired : appliedAt < c.expiresAt
  presents : ∃ inputs, sceneInputs g.sources a.sources c.sourceLeaseIds = some inputs
    ∧ SceneMixer.Presents t.video c.layout inputs c.sourceFits t'.video
  selection : t'.sceneSelection = c.sourceLeaseIds ∧ t'.sceneSelectedActive = c.activeSourceLeaseId
  receipt : receipt = ⟨c.version, c.commandId, c.scope, t.video.revision + 1, appliedAt⟩

theorem attemptScene_cases (c : SceneCommand) (now : Int) (a : SceneAnswers) (t : SceneTarget)
    (hscope : c.scope = g.scope) :
    (∃ t', g.attemptScene c now a t = (t', none) ∧ sceneCloses a t t')
    ∨ ∃ t' receipt, g.attemptScene c now a t = (t', some (receipt, a.appliedAt))
      ∧ g.SceneApplies c now a t t' receipt a.appliedAt := by
  have hsame : sceneCloses a t t := ⟨t.video, .same, rfl⟩
  rw [attemptScene, SceneTarget.setScene]
  split_ifs with hagain
  · exact .inl ⟨t, rfl, hsame⟩
  · cases hinputs : sceneInputs g.sources a.sources c.sourceLeaseIds with
    | none => exact .inl ⟨t, rfl, hsame⟩
    | some inputs =>
        dsimp only
        generalize (((g.sources.get c.activeSourceLeaseId).bind GenerationSource.video).filter
          fun _ => decide (c.activeSourceLeaseId ∈ c.sourceLeaseIds)) = selected
        by_cases hselected : c.activeSourceLeaseId ≠ "" ∧ selected = none
        · rw [if_pos hselected]
          exact .inl ⟨t, rfl, hsame⟩
        · rw [if_neg hselected]
          rcases t.video.setScenePresentationGuarded_cases c.expectedSceneRevision c.layout inputs
            selected c.sourceFits a.mixer
            (decide (now ≤ a.appliedAt ∧ a.appliedAt < c.expiresAt)) with
            ⟨m, hset, hcloses⟩ | ⟨m, hset, hexpected, hcurrent, hpresents⟩
          · rw [hset]
            exact .inl ⟨_, rfl, m, hcloses, rfl⟩
          · rw [hset]
            obtain ⟨hsampled, hlive⟩ := of_decide_eq_true hcurrent
            exact .inr ⟨_, _, rfl, hscope, hexpected, hsampled, hlive,
              ⟨inputs, hinputs, hpresents⟩, ⟨rfl, rfl⟩, rfl⟩

/-- What a refused audio command leaves. -/
def audioCloses (a : AudioAnswers) (t t' : AudioTarget) : Prop :=
  ∃ m, SourceAudioMixer.Closes a.levels t.mixer m ∧ t' = { t with mixer := m }

/-- An audio command is applied: in scope, at the revision it expects after
what was closed, while it lives; the revision goes up by one. -/
structure AudioApplies (g : ProgramDirector δ) (c : AudioCommand) (now : Int) (a : AudioAnswers)
    (t t' : AudioTarget) (receipt : AudioReceipt) (appliedAt : Int) : Prop where
  scope : c.scope = g.scope
  sampled : now ≤ appliedAt
  unexpired : appliedAt < c.expiresAt
  sets : ∃ m changes, SourceAudioMixer.Closes a.levels t.mixer m
    ∧ levelChanges g.sources a.sources c.canonical.sources = some changes
    ∧ c.expectedAudioRevision = m.revision ∧ t'.mixer.revision = m.revision + 1
    ∧ t'.mixer = changes.foldl SourceAudioMixer.change { m with revision := m.revision + 1 }
    ∧ t'.strategy = c.strategy.getD t.strategy
    ∧ receipt = ⟨c.version, c.commandId, c.scope, m.revision + 1, appliedAt⟩

theorem attemptAudio_cases (c : AudioCommand) (now : Int) (a : AudioAnswers) (t : AudioTarget)
    (hscope : c.scope = g.scope) :
    (∃ t', g.attemptAudio c now a t = (t', none) ∧ audioCloses a t t')
    ∨ ∃ t' receipt, g.attemptAudio c now a t = (t', some (receipt, a.appliedAt))
      ∧ g.AudioApplies c now a t t' receipt a.appliedAt := by
  have hsame : audioCloses a t t := ⟨t.mixer, .refl _, rfl⟩
  rw [attemptAudio, AudioTarget.setLevels]
  split_ifs with hagain
  · exact .inl ⟨t, rfl, hsame⟩
  · cases hchanges : levelChanges g.sources a.sources c.canonical.sources with
    | none => exact .inl ⟨t, rfl, hsame⟩
    | some changes =>
        generalize hcurrent : (decide (now ≤ a.appliedAt)
          && g.audioScopeCurrent c now a.appliedAt a.fence) = current
        dsimp only
        rcases t.setLevelsStrategy_cases c.expectedAudioRevision changes c.strategy
          { a.levels with fence := a.levels.fence && current } with
          ⟨m, hset, hcloses⟩ | ⟨m, t', hset, hfence, hsets⟩
        · rw [hset]
          exact .inl ⟨_, rfl, m, ⟨hcloses.inputs, hcloses.grows, hcloses.moves, hcloses.stays,
            hcloses.closed⟩, rfl⟩
        · rw [hset]
          have hnow : current = true := (Bool.and_eq_true_iff.mp hfence).2
          rw [← hcurrent, Bool.and_eq_true_iff, audioScopeCurrent] at hnow
          obtain ⟨hsampled, hscoped⟩ := hnow
          have hlive : a.appliedAt < c.expiresAt := (of_decide_eq_true hscoped).2.2.1
          have hcloses := hsets.closes
          exact .inr ⟨_, _, rfl, hscope, of_decide_eq_true hsampled, hlive, m, changes,
            ⟨hcloses.inputs, hcloses.grows, hcloses.moves, hcloses.stays, hcloses.closed⟩,
            hchanges, hsets.expected, hsets.revision, hsets.mixer, hsets.strategy, rfl⟩

/-! ## Runs -/

section Runs

variable {g' : ProgramDirector δ} {scenes : SceneCommand → δ}
  {audios : AudioCommand → δ}

/-- A generation whose directors have applied nothing. -/
def start (scope : ControlScope) (channels : Nat) (sources : KeyedMap String GenerationSource)
    (scene : SceneTarget) (audio : AudioTarget) : ProgramDirector δ :=
  ⟨scope, channels, sources, ⟨.empty, scene, []⟩, ⟨.empty, audio, []⟩⟩

/-- A log entry is that of a scene command. -/
structure OfScene (scenes : SceneCommand → δ) (scope : ControlScope)
    (b : Applied String δ SceneReceipt) (c : SceneCommand) : Prop where
  id : b.id = c.commandId
  digest : b.digest = scenes c
  expiresAt : b.expiresAt = c.expiresAt
  scope : c.scope = scope
  unexpired : b.appliedAt < c.expiresAt
  receipt : ∃ revision, b.receipt = ⟨c.version, c.commandId, c.scope, revision, b.appliedAt⟩

/-- A log entry is that of an audio command. -/
structure OfAudio (audios : AudioCommand → δ) (scope : ControlScope)
    (b : Applied String δ AudioReceipt) (c : AudioCommand) : Prop where
  id : b.id = c.commandId
  digest : b.digest = audios c.canonical
  expiresAt : b.expiresAt = c.expiresAt
  scope : c.scope = scope
  unexpired : b.appliedAt < c.expiresAt
  distinct : (c.sources.map sourceLeaseId).Nodup
  receipt : ∃ revision, b.receipt = ⟨c.version, c.commandId, c.scope, revision, b.appliedAt⟩

structure DirectorsOK (scenes : SceneCommand → δ) (audios : AudioCommand → δ)
    (g : ProgramDirector δ) : Prop where
  scene : g.scene.OK
  audio : g.audio.OK
  scenes : ∀ b ∈ g.scene.log, ∃ c, OfScene scenes g.scope b c
  audios : ∀ b ∈ g.audio.log, ∃ c, OfAudio audios g.scope b c

theorem start_directorsOK (scope : ControlScope) (channels : Nat)
    (sources : KeyedMap String GenerationSource) (scene : SceneTarget) (audio : AudioTarget) :
    DirectorsOK scenes audios (start scope channels sources scene audio) where
  scene := ⟨Ledger.holds_nil, Ledger.known_empty, .nil⟩
  audio := ⟨Ledger.holds_nil, Ledger.known_empty, .nil⟩
  scenes := fun _ hb => by cases hb
  audios := fun _ hb => by cases hb

/-- What a scene command may do to the generation. -/
def SceneEffect (scenes : SceneCommand → δ) (g : ProgramDirector δ) (c : SceneCommand)
    (now : Int) (a : SceneAnswers) (r : ProgramDirector δ × Option SceneReceipt) : Prop :=
  r.1 = { g with scene := r.1.scene }
    ∧ g.scene.Effect c.commandId (scenes c) c.expiresAt (sceneCloses a) (g.SceneApplies c now a)
      r.1.scene r.2

/-- What an audio command may do to the generation. -/
def AudioEffect (audios : AudioCommand → δ) (g : ProgramDirector δ) (c : AudioCommand)
    (now : Int) (a : AudioAnswers) (r : ProgramDirector δ × Option AudioReceipt) : Prop :=
  r.1 = { g with audio := r.1.audio }
    ∧ g.audio.Effect c.commandId (audios c.canonical) c.expiresAt (audioCloses a)
      (g.AudioApplies c now a) r.1.audio r.2

theorem sceneAdmitted_facts {c : SceneCommand} {now : Int} {a : SceneAnswers}
    (h : g.sceneAdmitted c now a = true) : g.scene.ledger.lastNow ≤ now ∧ c.scope = g.scope :=
  (of_decide_eq_true h).2.2

theorem audioAdmitted_facts {c : AudioCommand} {now : Int} {a : AudioAnswers}
    (h : g.audioAdmitted c now a = true) :
    g.audio.ledger.lastNow ≤ now ∧ c.scope = g.scope ∧ (c.sources.map sourceLeaseId).Nodup := by
  obtain ⟨hparsed, hscoped⟩ := of_decide_eq_true h
  obtain ⟨-, hnow, -, -, hscope⟩ := of_decide_eq_true hscoped
  exact ⟨hnow, hscope, (of_decide_eq_true hparsed).2.2.2.2.2.2.2.2⟩

variable [DecidableEq δ]

section

variable (h : DirectorsOK scenes audios g)

include h

theorem DirectorsOK.scene_effect (c : SceneCommand) (now : Int)
    (a : SceneAnswers) : SceneEffect scenes g c now a (g.applySceneCommand scenes c now a) := by
  have hrefl : sceneCloses a g.scene.target g.scene.target := ⟨_, .same, rfl⟩
  rw [applySceneCommand]
  split
  · next hadmitted =>
      have hscope := (sceneAdmitted_facts hadmitted).2
      refine ⟨rfl, h.scene.effect hrefl (fun target hgo => ?_)
        fun target receipt appliedAt hgo => ?_⟩
      · rcases attemptScene_cases c now a g.scene.target hscope with
          ⟨t', hgo', hcloses⟩ | ⟨t', receipt, hgo', -⟩
        · rw [hgo] at hgo'
          cases hgo'
          exact hcloses
        · rw [hgo] at hgo'
          cases hgo'
      · rcases attemptScene_cases c now a g.scene.target hscope with
          ⟨t', hgo', -⟩ | ⟨t', receipt', hgo', happlies⟩
        · rw [hgo] at hgo'
          cases hgo'
        · rw [hgo] at hgo'
          cases hgo'
          exact happlies
  · exact ⟨rfl, .refused rfl hrefl⟩

theorem DirectorsOK.audio_effect (c : AudioCommand) (now : Int)
    (a : AudioAnswers) : AudioEffect audios g c now a (g.applyAudioCommand audios c now a) := by
  have hrefl : audioCloses a g.audio.target g.audio.target := ⟨_, .refl _, rfl⟩
  rw [applyAudioCommand]
  split
  · next hadmitted =>
      have hscope := (audioAdmitted_facts hadmitted).2.1
      refine ⟨rfl, h.audio.effect hrefl (fun target hgo => ?_)
        fun target receipt appliedAt hgo => ?_⟩
      · rcases attemptAudio_cases c now a g.audio.target hscope with
          ⟨t', hgo', hcloses⟩ | ⟨t', receipt, hgo', -⟩
        · rw [hgo] at hgo'
          cases hgo'
          exact hcloses
        · rw [hgo] at hgo'
          cases hgo'
      · rcases attemptAudio_cases c now a g.audio.target hscope with
          ⟨t', hgo', -⟩ | ⟨t', receipt', hgo', happlies⟩
        · rw [hgo] at hgo'
          cases hgo'
        · rw [hgo] at hgo'
          cases hgo'
          exact happlies
  · exact ⟨rfl, .refused rfl hrefl⟩

theorem DirectorsOK.applySceneCommand (c : SceneCommand)
    (now : Int) (a : SceneAnswers) :
    DirectorsOK scenes audios (g.applySceneCommand scenes c now a).1 := by
  have hok : (g.applySceneCommand scenes c now a).1.scene.OK := by
    rw [ProgramDirector.applySceneCommand]
    split
    · next hadmitted =>
        obtain ⟨hnow, hscope⟩ := sceneAdmitted_facts hadmitted
        refine h.scene.command hnow fun target receipt appliedAt hgo => ?_
        rcases attemptScene_cases c now a g.scene.target hscope with
          ⟨t', hgo', -⟩ | ⟨t', receipt', hgo', happlies⟩
        · rw [hgo] at hgo'
          cases hgo'
        · rw [hgo] at hgo'
          cases hgo'
          exact happlies.sampled
    · exact h.scene
  obtain ⟨hframe, heffect⟩ := h.scene_effect c now a
  revert hok heffect
  rw [hframe]
  generalize (g.applySceneCommand scenes c now a).1.scene = scene
  generalize (g.applySceneCommand scenes c now a).2 = answer
  intro hok heffect
  refine ⟨hok, h.audio, fun b hb => ?_, h.audios⟩
  cases heffect with
  | repeated _ _ _ hlog _ => exact h.scenes b (hlog ▸ hb)
  | refused hlog _ => exact h.scenes b (hlog ▸ hb)
  | applied happlies hlog =>
      rw [hlog] at hb
      rcases mem_append.mp hb with hb | hb
      · exact h.scenes b hb
      · obtain rfl := mem_singleton.mp hb
        exact ⟨c, rfl, rfl, rfl, happlies.scope, happlies.unexpired, _, happlies.receipt⟩

theorem DirectorsOK.applyAudioCommand (c : AudioCommand)
    (now : Int) (a : AudioAnswers) :
    DirectorsOK scenes audios (g.applyAudioCommand audios c now a).1 := by
  obtain ⟨hframe, heffect⟩ := h.audio_effect c now a
  have hok : (g.applyAudioCommand audios c now a).1.audio.OK ∧ ((c.sources.map sourceLeaseId).Nodup
        ∨ (g.applyAudioCommand audios c now a).1.audio.log = g.audio.log) := by
    rw [ProgramDirector.applyAudioCommand]
    split
    · next hadmitted =>
        obtain ⟨hnow, hscope, hnodup⟩ := audioAdmitted_facts hadmitted
        refine ⟨h.audio.command hnow fun target receipt appliedAt hgo => ?_, .inl hnodup⟩
        rcases attemptAudio_cases c now a g.audio.target hscope with
          ⟨t', hgo', -⟩ | ⟨t', receipt', hgo', happlies⟩
        · rw [hgo] at hgo'
          cases hgo'
        · rw [hgo] at hgo'
          cases hgo'
          exact happlies.sampled
    · exact ⟨h.audio, .inr rfl⟩
  revert hok heffect
  rw [hframe]
  generalize (g.applyAudioCommand audios c now a).1.audio = audio
  generalize (g.applyAudioCommand audios c now a).2 = answer
  intro heffect ⟨hok, hnodup⟩
  refine ⟨h.scene, hok, h.scenes, fun b hb => ?_⟩
  cases heffect with
  | repeated _ _ _ hlog _ => exact h.audios b (hlog ▸ hb)
  | refused hlog _ => exact h.audios b (hlog ▸ hb)
  | applied happlies hlog =>
      have hnodup := hnodup.resolve_right fun hsame => by
        have hlength := congrArg length (hlog.symm.trans hsame)
        simp at hlength
      rw [hlog] at hb
      rcases mem_append.mp hb with hb | hb
      · exact h.audios b hb
      · obtain rfl := mem_singleton.mp hb
        obtain ⟨m, -, -, -, -, -, -, -, hreceipt⟩ := happlies.sets
        exact ⟨c, rfl, rfl, rfl, happlies.scope, happlies.unexpired, hnodup, _, hreceipt⟩

theorem DirectorsOK.next (call : DirectorCall) :
    DirectorsOK scenes audios (g.next scenes audios call) ∧
      (g.next scenes audios call).scope = g.scope := by
  cases call with
  | scene c now a =>
      refine ⟨h.applySceneCommand c now a, ?_⟩
      rw [ProgramDirector.next, (h.scene_effect c now a).1]
  | audio c now a =>
      refine ⟨h.applyAudioCommand c now a, ?_⟩
      rw [ProgramDirector.next, (h.audio_effect c now a).1]
  | elsewhere sources scene audio =>
      exact ⟨⟨⟨h.scene.holds, h.scene.known, h.scene.once⟩,
        ⟨h.audio.holds, h.audio.known, h.audio.once⟩, h.scenes, h.audios⟩, rfl⟩
  | queryAudio observedAt =>
      rw [ProgramDirector.next]
      split
      · next hlater =>
          exact ⟨⟨h.scene, ⟨h.audio.holds.later hlater, h.audio.known, h.audio.once⟩,
            h.scenes, h.audios⟩, rfl⟩
      · exact ⟨h, rfl⟩

theorem DirectorsOK.run {calls : List DirectorCall}
    (hp : Path (Step scenes audios) g calls g') :
    DirectorsOK scenes audios g' ∧ g'.scope = g.scope := by
  refine hp.inv (I := fun u => DirectorsOK scenes audios u ∧ u.scope = g.scope)
    (fun hstep hok => ?_) ⟨h, rfl⟩
  obtain rfl := hstep
  obtain ⟨hnext, hscope⟩ := hok.1.next _
  exact ⟨hnext, hscope.trans hok.2⟩

end

/-- The scene ledger at a reading. -/
def sceneAsOf (g : ProgramDirector δ) (now : Int) : ProgramDirector δ :=
  { g with scene := { g.scene with ledger := g.scene.ledger.asOf now } }

/-- The audio ledger at a reading. -/
def audioAsOf (g : ProgramDirector δ) (now : Int) : ProgramDirector δ :=
  { g with audio := { g.audio with ledger := g.audio.ledger.asOf now } }

/-- An admitted scene command that repeats the id of an applied one. -/
theorem DirectorsOK.scene_repeated (h : DirectorsOK scenes audios g)
    {b : Applied String δ SceneReceipt} (hb : b ∈ g.scene.log) {c₀ : SceneCommand}
    (hof : OfScene scenes g.scope b c₀) {c : SceneCommand} {now : Int} {a : SceneAnswers}
    (hadmitted : g.sceneAdmitted c now a = true) (hid : c.commandId = c₀.commandId)
    (hlive : now < c₀.expiresAt) :
    g.applySceneCommand scenes c now a
      = (g.sceneAsOf now, if scenes c₀ = scenes c then some b.receipt else none) := by
  have hrepeated := h.scene.repeated hb (sceneAdmitted_facts hadmitted).1
    (hof.expiresAt ▸ hlive) maximumSourceSceneHistory (scenes c) c.expiresAt
    (g.attemptScene c now a)
  rw [hof.id, ← hid, hof.digest] at hrepeated
  rw [ProgramDirector.applySceneCommand, if_pos hadmitted, hrepeated]
  rfl

theorem DirectorsOK.audio_repeated (h : DirectorsOK scenes audios g)
    {b : Applied String δ AudioReceipt} (hb : b ∈ g.audio.log) {c₀ : AudioCommand}
    (hof : OfAudio audios g.scope b c₀) {c : AudioCommand} {now : Int} {a : AudioAnswers}
    (hadmitted : g.audioAdmitted c now a = true) (hid : c.commandId = c₀.commandId)
    (hlive : now < c₀.expiresAt) :
    g.applyAudioCommand audios c now a = (g.audioAsOf now,
          if audios c₀.canonical = audios c.canonical then some b.receipt else none) := by
  have hrepeated := h.audio.repeated hb (audioAdmitted_facts hadmitted).1
    (hof.expiresAt ▸ hlive) maximumSourceAudioControlHistory (audios c.canonical) c.expiresAt
    (g.attemptAudio c now a)
  rw [hof.id, ← hid, hof.digest] at hrepeated
  rw [ProgramDirector.applyAudioCommand, if_pos hadmitted, hrepeated]
  rfl

/-- **Commands are applied once.** In every run, with sources and mixers
changing in any way between the commands: an id is applied again only after
its first version expired; until then an admitted repetition gets the
receipt when the content is the same and is refused when it is not, without
effect; and whatever a command does is one of the three of `Effect`. -/
theorem commands_once {scope : ControlScope} {channels : Nat}
    {sources : KeyedMap String GenerationSource} {t : SceneTarget} {u : AudioTarget}
    {calls : List DirectorCall}
    (hp : Path (Step scenes audios) (start scope channels sources t u) calls g) :
    Ledger.Once g.scene.log ∧ Ledger.Once g.audio.log
    ∧ (∀ b ∈ g.scene.log, ∃ c₀, OfScene scenes scope b c₀
      ∧ ∀ c now a, g.sceneAdmitted c now a = true → c.commandId = c₀.commandId →
        now < c₀.expiresAt →
          (c = c₀ → g.applySceneCommand scenes c now a = (g.sceneAsOf now, some b.receipt))
          ∧ (c ≠ c₀ → (scenes c₀ = scenes c → c₀ = c) →
            g.applySceneCommand scenes c now a = (g.sceneAsOf now, none)))
    ∧ (∀ b ∈ g.audio.log, ∃ c₀, OfAudio audios scope b c₀
      ∧ ∀ c now a, g.audioAdmitted c now a = true → c.commandId = c₀.commandId →
        now < c₀.expiresAt → (c.SameContent c₀ →
            g.applyAudioCommand audios c now a = (g.audioAsOf now, some b.receipt))
          ∧ (¬c.SameContent c₀ →
            (audios c₀.canonical = audios c.canonical → c₀.canonical = c.canonical) →
              g.applyAudioCommand audios c now a = (g.audioAsOf now, none)))
    ∧ (∀ c now a, SceneEffect scenes g c now a (g.applySceneCommand scenes c now a))
    ∧ ∀ c now a, AudioEffect audios g c now a (g.applyAudioCommand audios c now a) := by
  obtain ⟨hok, hscope⟩ := (start_directorsOK scope channels sources t u).run hp
  obtain rfl : g.scope = scope := hscope
  refine ⟨hok.scene.once, hok.audio.once, fun b hb => ?_, fun b hb => ?_, hok.scene_effect,
    hok.audio_effect⟩
  · obtain ⟨c₀, hof⟩ := hok.scenes b hb
    refine ⟨c₀, hof, fun c now a hadmitted hid hlive => ?_⟩
    rw [hok.scene_repeated hb hof hadmitted hid hlive]
    refine ⟨fun hsame => by rw [hsame, if_pos rfl], fun hother hdigest => ?_⟩
    rw [if_neg fun heq => hother (hdigest heq).symm]
  · obtain ⟨c₀, hof⟩ := hok.audios b hb
    refine ⟨c₀, hof, fun c now a hadmitted hid hlive => ?_⟩
    rw [hok.audio_repeated hb hof hadmitted hid hlive]
    have hsame := AudioCommand.sameContent_iff (c := c) hof.distinct
    refine ⟨fun hcontent => ?_, fun hother hdigest => ?_⟩
    · rw [hsame.mpr hcontent, if_pos rfl]
    · rw [if_neg fun heq => hother (hsame.mp (hdigest heq).symm)]

end Runs

/-! ### A sample -/

def sampleScope : ControlScope :=
  ⟨"asn_aaaaaaaaaaaaaaaa", "prg_aaaaaaaaaaaaaaaa", 1, "lea_aaaaaaaaaaaaaaaa", 1⟩

def sampleSources : KeyedMap String GenerationSource :=
  KeyedMap.empty.set "sls_aaaaaaaaaaaaaaaa" ⟨some 0, some 0, false⟩

def sampleScene : SceneTarget :=
  ⟨⟨320, 180, [⟨.camera, .contain, false⟩], false, 1, .grid, [], [], []⟩, [], "", 0⟩

def sampleAudio : AudioTarget :=
  ⟨⟨SourceAudioMixer.sampleConfig, [⟨32768, 32768, false, true, [], 0, false, false⟩], 3840, 0,
    false, 2, [], []⟩, .unprocessed⟩

def sampleSceneCommand : SceneCommand :=
  ⟨1, "scn_aaaaaaaaaaaaaaaa", sampleScope, 1, .grid, ["sls_aaaaaaaaaaaaaaaa"], "", none, 1000, 4000⟩

def sampleAudioCommand : AudioCommand :=
  ⟨1, "aud_aaaaaaaaaaaaaaaa", sampleScope, 2, [⟨"sls_aaaaaaaaaaaaaaaa", 100, 100, false⟩], none,
    1000, 4000⟩

def permittedScene (appliedAt : Int) : SceneAnswers :=
  ⟨true, true, fun _ => true, ⟨true, fun _ => true⟩, appliedAt⟩

def permittedAudio (appliedAt : Int) : AudioAnswers :=
  ⟨true, true, fun _ => true, ⟨true, fun _ => true, fun _ => true, true, fun _ => true⟩, true,
    appliedAt⟩

/-- The mixer's own callback denies after the generation has permitted. -/
def deniedMixer : SceneAnswers :=
  ⟨true, true, fun _ => true, ⟨false, fun _ => true⟩, 1600⟩

def sampleStart : ProgramDirector (SceneCommand ⊕ AudioCommand) :=
  start sampleScope 2 sampleSources sampleScene sampleAudio

def sampleDirected : ProgramDirector (SceneCommand ⊕ AudioCommand) :=
  (sampleStart.next inl inr (.scene sampleSceneCommand 1500 (permittedScene 1550))).next
    inl inr (.audio sampleAudioCommand 1500 (permittedAudio 1550))

theorem sampleDirected_run : Path (Step inl inr) sampleStart
    [.scene sampleSceneCommand 1500 (permittedScene 1550),
      .audio sampleAudioCommand 1500 (permittedAudio 1550)] sampleDirected :=
  .cons rfl (.cons rfl (.nil _))

theorem commands_once_sample :
    sampleDirected.scene.log.length = 1 ∧ sampleDirected.audio.log.length = 1
    ∧ Ledger.Once sampleDirected.scene.log ∧ Ledger.Once sampleDirected.audio.log
    ∧ SceneEffect inl sampleDirected sampleSceneCommand 1600 (permittedScene 1600)
      (sampleDirected.applySceneCommand inl sampleSceneCommand 1600 (permittedScene 1600))
    ∧ (sampleDirected.applySceneCommand inl sampleSceneCommand 1600 (permittedScene 1600)).2
      = some ⟨1, "scn_aaaaaaaaaaaaaaaa", sampleScope, 2, 1550⟩ := by
  obtain ⟨hscenes, haudios, -, -, heffect, -⟩ := commands_once sampleDirected_run
  exact ⟨by decide, by decide +kernel, hscenes, haudios, heffect _ _ _,
    by decide⟩

/-- A refused scene command empties the scene of a mixer whose source is
authorized; and a repetition before the last reading of the clock, within
its life and permitted, does not get its receipt. -/
theorem refusal_empties_scene : Path (Step inl inr) sampleStart
      [.scene sampleSceneCommand 1500 (permittedScene 1550),
        .audio sampleAudioCommand 1500 (permittedAudio 1550)] sampleDirected
    ∧ sampleDirected.scene.target.video.scene = [some 0]
    ∧ sampleDirected.sceneAdmitted
      { sampleSceneCommand with commandId := "scn_bbbbbbbbbbbbbbbb" } 1600 deniedMixer = true
    ∧ (sampleDirected.applySceneCommand inl
      { sampleSceneCommand with commandId := "scn_bbbbbbbbbbbbbbbb" } 1600 deniedMixer).2 = none
    ∧ (sampleDirected.applySceneCommand inl
      { sampleSceneCommand with commandId := "scn_bbbbbbbbbbbbbbbb" } 1600
        deniedMixer).1.scene.target.video.scene = []
    ∧ parseSourceSceneCommand sampleSceneCommand 1520 = true
    ∧ (permittedScene 1520).permitted = true
    ∧ (sampleDirected.applySceneCommand inl sampleSceneCommand 1520 (permittedScene 1520)).2
      = none := by
  exact ⟨sampleDirected_run, by decide, by decide, by decide,
    by decide, by decide, rfl, by decide +kernel⟩

end ProgramDirector

end Packager

end WebrtcMinimize
