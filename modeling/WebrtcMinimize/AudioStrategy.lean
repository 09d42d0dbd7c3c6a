import WebrtcMinimize.AudioTimeline

/-!
# Ducking and the limiter

`RenderGuarded` with the strategies that change levels, over exact rationals. Microphones and
screen audio are ducked in favour of each other, on the energy of the block that is about to be
mixed, and a linked limiter keeps the stereo peak below its ceiling. What the other calls make
of the sources between two blocks is left open.
-/

namespace WebrtcMinimize

namespace Packager

open RingWindow List

inductive SourceAudioKind
  | generic | microphone | screenAudio
deriving DecidableEq

inductive SourceAudioStrategy
  | unprocessed | balanced | speechFirst | screenFirst
deriving DecidableEq

structure SourceAudioDynamics where
  microphone : ℚ
  screen : ℚ
  limiter : ℚ

def initialSourceAudioDynamics : SourceAudioDynamics := ⟨1, 1, 1⟩

/-- A 20-ms attack and a release of approximately 300 ms. -/
def sourceAudioDuckStep (previous target : ℚ) : ℚ :=
  if target < previous then target else previous + (target - previous) / 15

/-- The conversion of a float to `int64`. -/
def towardZero (x : ℚ) : Int := if x < 0 then ⌈x⌉ else ⌊x⌋

/-- The largest magnitude in a block. -/
def peakOf (values : List Frame) : Int :=
  values.foldl (fun peak v => max peak (max |v.1| |v.2|)) 0

/-- The linked stereo peak ceiling, approximately -0.92 dBFS. -/
def limiterCeiling : Int := 29490

def limitSample (limiter : ℚ) (sample : Int) : Int :=
  max (-32768) (min 32767 (towardZero (sample * limiter)))

/-- The limiter sees the peak of the block it is applied to. -/
def renderStrategyLocked (strategy : SourceAudioStrategy) (d : SourceAudioDynamics)
    (sums : List Frame) : SourceAudioDynamics × List Frame :=
  let block := sums.map fun s => (s.1.tdiv 32768, s.2.tdiv 32768)
  let peak := peakOf block
  let target : ℚ := if peak > limiterCeiling then limiterCeiling / peak else 1
  let limiter :=
    if strategy = .unprocessed then 1 else sourceAudioDuckStep d.limiter target
  ({ d with limiter }, block.map fun s => (limitSample limiter s.1, limitSample limiter s.2))

structure StrategyMixer where
  mixer : SourceAudioMixer
  /-- The kind of each input, by number. -/
  kind : Nat → SourceAudioKind
  strategy : SourceAudioStrategy
  dynamics : SourceAudioDynamics

/-- The first check of each input is made for the targets. -/
structure StrategyAnswers extends SourceAudioMixer.RenderAnswers where
  targets : Nat → Bool

namespace StrategyMixer

variable (m : StrategyMixer)

/-- The mixer after some calls; one that closes clears its dynamics. -/
def settle (mixer : SourceAudioMixer) : StrategyMixer :=
  { m with
    mixer
    dynamics := if mixer.closed && !m.mixer.closed then ⟨0, 0, 0⟩ else m.dynamics }

def closeLocked : StrategyMixer := m.settle m.mixer.closeLocked

/-- The frames of the next block. -/
def ahead (s : AudioMixInput) : List Frame := (drain silence 960 m.mixer.cursor s.pcm).1

def energy (s : AudioMixInput) : Int :=
  ((m.ahead s).map fun frame =>
    let left := Int.tdiv (frame.1 * s.left) 32768
    let right := Int.tdiv (frame.2 * s.right) 32768
    left * left + right * right).sum

/-- An input of the kind is above the threshold. -/
def loud (kind : SourceAudioKind) : Bool :=
  (range m.mixer.inputs.length).any fun i => (m.mixer.inputs[i]?).any fun s =>
    !s.closed && !s.muted && m.kind i == kind && decide (m.energy s ≥ 1475 * 1475 * 960 * 2)

/-- The gains of microphones and of screen audio to move to. -/
def targets : ℚ × ℚ :=
  match m.strategy with
  | .unprocessed => (1, 1)
  | .screenFirst => if m.loud .screenAudio then (28 / 100, 1) else (1, 1)
  | .speechFirst => if m.loud .microphone then (1, 28 / 100) else (1, 1)
  | .balanced => if m.loud .microphone then (1, 1 / 2) else (1, 1)

def strategyTargetsLocked (authorized : Nat → Bool) : StrategyMixer × ℚ × ℚ :=
  if m.strategy = .unprocessed then (m, 1, 1)
  else
    let m := m.settle (m.mixer.closeUnauthorized authorized)
    (m, m.targets)

/-- The gain at a position of the block, on the way from the old dynamics to the new. -/
def duck (now : SourceAudioDynamics) (kind : SourceAudioKind) (i : Nat) : ℚ :=
  let between := fun start stop : ℚ => start + (stop - start) * ((i + 1) / 960)
  if m.strategy = .unprocessed then 1
  else
    match kind with
    | .generic => 1
    | .microphone => between m.dynamics.microphone now.microphone
    | .screenAudio => between m.dynamics.screen now.screen

def addDucked (s : AudioMixInput) (gain : Nat → ℚ) (sum : Frame) (frame : Frame × Nat) : Frame :=
  (sum.1 + towardZero ((frame.1.1 * s.left : Int) * gain frame.2),
    sum.2 + towardZero ((frame.1.2 * s.right : Int) * gain frame.2))

def mixInput (now : SourceAudioDynamics) (a : StrategyAnswers)
    (state : SourceAudioMixer × List Frame) (i : Nat) : SourceAudioMixer × List Frame :=
  match state.1.inputs[i]? with
  | none => state
  | some s =>
      if s.closed then
        state
      else if a.inputs i = false then
        (state.1.closeInput i, state.2)
      else
        let read := drain silence 960 state.1.cursor s.pcm
        ({ state.1 with inputs := state.1.inputs.set i { s with pcm := read.2 } },
          if s.muted then state.2
          else zipWith (addDucked s (m.duck now (m.kind i))) state.2 read.1.zipIdx)

def mixInputs (now : SourceAudioDynamics) (a : StrategyAnswers) :
    SourceAudioMixer × List Frame :=
  (range m.mixer.inputs.length).foldl (m.mixInput now a)
    (m.mixer, replicate 960 silence)

/-- The dynamics move to their targets and the block is mixed and limited. -/
def mixBlock (target : ℚ × ℚ) (a : StrategyAnswers) : StrategyMixer × List Frame :=
  let now := { m.dynamics with
    microphone := sourceAudioDuckStep m.dynamics.microphone target.1
    screen := sourceAudioDuckStep m.dynamics.screen target.2 }
  let (mixer, sums) := m.mixInputs now a
  let m := { m with dynamics := now }.settle mixer
  let (dynamics, values) := renderStrategyLocked m.strategy m.dynamics sums
  ({ m with dynamics }, values)

/-- The block is handed off, unless one of its sources was revoked meanwhile. -/
def handOff (values : List Frame) (a : StrategyAnswers) : StrategyMixer × Option AudioBlock :=
  let pcm := if m.mixer.revoked a.toRenderAnswers then replicate (4 * 960) 0
    else values.flatMap fun v => putInt16 v.1 ++ putInt16 v.2
  let m := m.settle (m.mixer.closeUnauthorized a.still)
  if m.mixer.closed ∨ a.stillMixer = false then
    (m.closeLocked, none)
  else
    let block : AudioBlock := ⟨m.mixer.cursor, pcm⟩
    let mixer := { m.mixer with blocks := m.mixer.blocks ++ [block] }
    if a.consumed then
      ({ m with mixer := { mixer with cursor := mixer.cursor + 960 } }, some block)
    else
      ({ m with mixer }.closeLocked, some block)

/-- `RenderGuarded`, with the block its callback is given. -/
def renderGuarded (a : StrategyAnswers) : StrategyMixer × Option AudioBlock :=
  if m.mixer.closed ∨ a.mixer = false ∨ m.mixer.cursor > audioMixMaxTime - 960 then
    (m.closeLocked, none)
  else
    let (m, target) := m.strategyTargetsLocked a.targets
    if m.mixer.closed then
      (m, none)
    else
      let (m, values) := m.mixBlock target a
      m.handOff values a

inductive Call
  | render (a : StrategyAnswers)
  /-- What the other calls make of the mixer and its inputs. -/
  | sources (mixer : SourceAudioMixer) (kind : Nat → SourceAudioKind)
  | setStrategy (strategy : SourceAudioStrategy)

def next (m : StrategyMixer) (call : Call) : StrategyMixer :=
  if m.mixer.closed then m
  else
    match call with
    | .render a => (m.renderGuarded a).1
    | .sources mixer kind => { m.settle mixer with kind }
    | .setStrategy .unprocessed =>
        { m with strategy := .unprocessed, dynamics := ⟨1, 1, 1⟩ }
    | .setStrategy strategy => { m with strategy }

/-! ## Gains -/

structure Bounded (d : SourceAudioDynamics) : Prop where
  microphone : 28 / 100 ≤ d.microphone ∧ d.microphone ≤ 1
  screen : 28 / 100 ≤ d.screen ∧ d.screen ≤ 1
  limiter : 0 < d.limiter ∧ d.limiter ≤ 1

/-- On the way up to 1, by a fifteenth of what is missing. -/
def Rises (previous now : ℚ) : Prop :=
  previous ≤ now ∧ now ≤ 1 ∧ 1 - now = 14 / 15 * (1 - previous)

variable {m} {low previous target : ℚ}

theorem duckStep_between (h : low ≤ previous) (h' : previous ≤ 1) (ht : low ≤ target)
    (ht' : target ≤ 1) :
    low ≤ sourceAudioDuckStep previous target ∧ sourceAudioDuckStep previous target ≤ 1 := by
  unfold sourceAudioDuckStep
  split <;> constructor <;> linarith

theorem duckStep_pos (h : 0 < previous) (ht : 0 < target) :
    0 < sourceAudioDuckStep previous target := by
  unfold sourceAudioDuckStep
  split <;> linarith

theorem duckStep_le : sourceAudioDuckStep previous target ≤ target := by
  unfold sourceAudioDuckStep
  split <;> linarith

theorem duckStep_rises (h : previous ≤ 1) : Rises previous (sourceAudioDuckStep previous 1) := by
  unfold sourceAudioDuckStep
  rw [if_neg (not_lt.mpr h)]
  refine ⟨?_, ?_, ?_⟩ <;> linarith

theorem targets_between (m : StrategyMixer) :
    (28 / 100 ≤ m.targets.1 ∧ m.targets.1 ≤ 1) ∧ 28 / 100 ≤ m.targets.2 ∧ m.targets.2 ≤ 1 := by
  unfold targets
  cases m.strategy <;> dsimp only <;> (try split) <;> norm_num

/-! ## The limiter -/

theorem abs_towardZero {x : ℚ} {n : Int} (h : |x| ≤ n) : |towardZero x| ≤ n := by
  obtain ⟨hlow, hhigh⟩ := abs_le.mp h
  unfold towardZero
  split
  · next hneg =>
      have hceil : ⌈x⌉ ≤ 0 := Int.ceil_le.mpr (by simpa using hneg.le)
      have hlow' : -n ≤ ⌈x⌉ := by exact_mod_cast hlow.trans (Int.le_ceil x)
      exact abs_le.mpr ⟨hlow', by omega⟩
  · next hpos =>
      have hfloor : 0 ≤ ⌊x⌋ := Int.floor_nonneg.mpr (not_lt.mp hpos)
      have hhigh' : ⌊x⌋ ≤ n := by exact_mod_cast (Int.floor_le x).trans hhigh
      exact abs_le.mpr ⟨by omega, hhigh'⟩

theorem le_peakOf {values : List Frame} {v : Frame} (hv : v ∈ values) :
    |v.1| ≤ peakOf values ∧ |v.2| ≤ peakOf values := by
  have hgo : ∀ (values : List Frame) (peak : Int),
      peak ≤ values.foldl (fun peak v => max peak (max |v.1| |v.2|)) peak
        ∧ ∀ v ∈ values, max |v.1| |v.2|
          ≤ values.foldl (fun peak v => max peak (max |v.1| |v.2|)) peak := by
    intro values
    induction values with
    | nil => intro peak; exact ⟨le_rfl, fun v hv => nomatch hv⟩
    | cons w values ih =>
        intro peak
        obtain ⟨hpeak, hall⟩ := ih (max peak (max |w.1| |w.2|))
        refine ⟨(le_max_left _ _).trans hpeak, fun v hv => ?_⟩
        rcases mem_cons.mp hv with rfl | hv
        · exact (le_max_right _ _).trans hpeak
        · exact hall v hv
  exact max_le_iff.mp ((hgo values 0).2 v hv)

/-- Within the target of the block's peak, a sample keeps below the ceiling. -/
theorem abs_limitSample {limiter : ℚ} {sample peak : Int} (hpos : 0 < limiter)
    (hpeak : |sample| ≤ peak)
    (hle : limiter ≤ if peak > limiterCeiling then (limiterCeiling : ℚ) / peak else 1) :
    |limitSample limiter sample| ≤ limiterCeiling := by
  have hscaled : |sample * limiter| ≤ (limiterCeiling : ℚ) := by
    have habs : |(sample : ℚ)| ≤ peak := by exact_mod_cast hpeak
    rw [abs_mul, abs_of_pos hpos]
    have hbound : |(sample : ℚ)| * limiter ≤ peak * limiter :=
      mul_le_mul_of_nonneg_right habs hpos.le
    split at hle
    · next hover =>
        have hp : (0 : ℚ) < peak := by exact_mod_cast (show (0 : Int) < 29490 by decide).trans hover
        calc |(sample : ℚ)| * limiter ≤ peak * limiter := hbound
          _ ≤ peak * (limiterCeiling / peak) := mul_le_mul_of_nonneg_left hle hp.le
          _ = limiterCeiling := mul_div_cancel₀ _ hp.ne'
    · next hover =>
        have hp : (peak : ℚ) ≤ limiterCeiling := by exact_mod_cast not_lt.mp hover
        have hnonneg := (abs_nonneg (sample : ℚ)).trans habs
        calc |(sample : ℚ)| * limiter ≤ peak * limiter := hbound
          _ ≤ peak * 1 := mul_le_mul_of_nonneg_left hle hnonneg
          _ ≤ limiterCeiling := by rwa [mul_one]
  have htrunc := abs_le.mp (abs_towardZero hscaled)
  rw [limitSample, abs_le]
  omega

theorem renderStrategyLocked_limiter {strategy : SourceAudioStrategy} {d : SourceAudioDynamics}
    (sums : List Frame) (h : 0 < d.limiter ∧ d.limiter ≤ 1) :
    0 < (renderStrategyLocked strategy d sums).1.limiter
      ∧ (renderStrategyLocked strategy d sums).1.limiter ≤ 1 := by
  simp only [renderStrategyLocked]
  split
  · norm_num
  · have htarget : ∀ peak : Int,
        0 < (if peak > limiterCeiling then (limiterCeiling : ℚ) / peak else 1)
          ∧ (if peak > limiterCeiling then (limiterCeiling : ℚ) / peak else 1) ≤ 1 := by
      intro peak
      split
      · next hover =>
          have hover' : (limiterCeiling : ℚ) < peak := by exact_mod_cast hover
          have hp : (0 : ℚ) < limiterCeiling := by norm_num [limiterCeiling]
          exact ⟨div_pos hp (hp.trans hover'), (div_le_one (hp.trans hover')).mpr hover'.le⟩
      · norm_num
    exact ⟨duckStep_pos h.1 (htarget _).1, (duckStep_between h.1.le h.2 (htarget _).1.le (htarget _).2).2⟩

theorem renderStrategyLocked_values {strategy : SourceAudioStrategy} {d : SourceAudioDynamics}
    {sums : List Frame} (hs : strategy ≠ .unprocessed) (h : 0 < d.limiter ∧ d.limiter ≤ 1) :
    ∀ v ∈ (renderStrategyLocked strategy d sums).2,
      |v.1| ≤ limiterCeiling ∧ |v.2| ≤ limiterCeiling := by
  have hpos := (@renderStrategyLocked_limiter strategy _ sums h).1
  simp only [renderStrategyLocked, if_neg hs] at hpos ⊢
  intro v hv
  obtain ⟨w, hw, rfl⟩ := mem_map.mp hv
  have hpeak := le_peakOf hw
  exact ⟨abs_limitSample hpos hpeak.1 duckStep_le, abs_limitSample hpos hpeak.2 duckStep_le⟩

theorem decodePCM_values {values : List Frame}
    (h : ∀ v ∈ values, |v.1| ≤ limiterCeiling ∧ |v.2| ≤ limiterCeiling) :
    decodePCM (values.flatMap fun v => putInt16 v.1 ++ putInt16 v.2) = values := by
  have hrange : ∀ {x : Int}, |x| ≤ limiterCeiling → -32768 ≤ x ∧ x ≤ 32767 := by
    intro x hx
    have := abs_le.mp hx
    unfold limiterCeiling at this
    omega
  induction values with
  | nil => rfl
  | cons v values ih =>
      obtain ⟨hl, hr⟩ := h v mem_cons_self
      have hl := int16_putInt16 (hrange hl).1 (hrange hl).2
      have hr := int16_putInt16 (hrange hr).1 (hrange hr).2
      rw [flatMap_cons, hl.1, hr.1]
      simp only [cons_append, nil_append, decodePCM, hl.2, hr.2]
      rw [ih fun w hw => h w (mem_cons_of_mem v hw)]

/-! ## A render -/

/-- An open mixer has its gains within their bounds. -/
def GainsOK (m : StrategyMixer) : Prop := m.mixer.closed = false → Bounded m.dynamics

@[simp] theorem settle_mixer (mixer : SourceAudioMixer) : (m.settle mixer).mixer = mixer := rfl

theorem settle_dynamics {mixer : SourceAudioMixer} (h : mixer.closed = false) :
    (m.settle mixer).dynamics = m.dynamics := by
  simp [settle, h]

theorem closeLocked_shut (m : StrategyMixer) : m.closeLocked.mixer.closed = true :=
  m.mixer.closeLocked_closed

theorem mixBlock_gains {target : ℚ × ℚ} (h : Bounded m.dynamics) (a : StrategyAnswers)
    (ht : (28 / 100 ≤ target.1 ∧ target.1 ≤ 1) ∧ 28 / 100 ≤ target.2 ∧ target.2 ≤ 1)
    (hopen : (m.mixBlock target a).1.mixer.closed = false) :
    Bounded (m.mixBlock target a).1.dynamics
      ∧ (m.strategy ≠ .unprocessed → ∀ v ∈ (m.mixBlock target a).2,
        |v.1| ≤ limiterCeiling ∧ |v.2| ≤ limiterCeiling) := by
  have hopen' : (m.mixInputs _ a).1.closed = false := hopen
  simp only [mixBlock, settle_dynamics hopen']
  refine ⟨⟨?_, ?_, renderStrategyLocked_limiter _ h.limiter⟩, fun hs => ?_⟩
  · exact duckStep_between h.microphone.1 h.microphone.2 ht.1.1 ht.1.2
  · exact duckStep_between h.screen.1 h.screen.2 ht.2.1 ht.2.2
  · exact renderStrategyLocked_values hs h.limiter

theorem handOff_open (values : List Frame) (a : StrategyAnswers) :
    ((m.handOff values a).1.mixer.closed = false →
      m.mixer.closed = false ∧ (m.handOff values a).1.dynamics = m.dynamics)
    ∧ ∀ block, (m.handOff values a).2 = some block → m.mixer.closed = false
      ∧ (block.pcm = replicate (4 * 960) 0
        ∨ block.pcm = values.flatMap fun v => putInt16 v.1 ++ putInt16 v.2) := by
  have hshut : ∀ n : StrategyMixer, n.closeLocked.mixer.closed ≠ false := by
    intro n
    rw [closeLocked_shut]
    decide
  unfold handOff
  dsimp only
  split
  · exact ⟨fun hopen => absurd hopen (hshut _), fun block hb => nomatch hb⟩
  · next hgood =>
      obtain ⟨hopen, -⟩ := not_or.mp hgood
      have hopen' : m.mixer.closed = false := by
        by_contra hclosed
        exact hopen ((m.mixer.closeUnauthorized_quiet a.still).stays (by simpa using hclosed))
      refine ⟨?_, fun block hb => ⟨hopen', ?_⟩⟩
      · split
        · exact fun _ => ⟨hopen', settle_dynamics (by simpa using hopen)⟩
        · exact fun hopen => absurd hopen (hshut _)
      · have hpcm : block.pcm = if m.mixer.revoked a.toRenderAnswers
            then replicate (4 * 960) 0
            else values.flatMap fun v => putInt16 v.1 ++ putInt16 v.2 := by
          split at hb <;> cases hb <;> rfl
        rw [hpcm]
        exact ite_eq_or_eq ..

/-! ## Silence -/

/-- The open inputs have nothing but silence for the next block. -/
def Silent (m : StrategyMixer) : Prop :=
  ∀ s ∈ m.mixer.inputs, s.closed = false → ∀ frame ∈ m.ahead s, frame = silence

theorem Silent.settle {mixer : SourceAudioMixer} (h : Silent m) (hquiet : m.mixer.Quiet mixer) :
    Silent (m.settle mixer) := by
  intro s' hs' hopen frame hframe
  obtain ⟨i, hi⟩ := mem_iff_getElem?.mp hs'
  obtain ⟨s, hs, hsame⟩ := hquiet.kept i s' hi hopen
  refine h s (mem_of_getElem? hs) hsame.opened frame ?_
  simpa [ahead, hquiet.cursor, hsame.pcm] using hframe

theorem Silent.targets (h : Silent m) : m.targets = (1, 1) := by
  have hloud : ∀ kind, m.loud kind = false := by
    intro kind
    rw [← Bool.not_eq_true]
    intro hloud
    simp only [loud, any_eq_true, Option.any_eq_true, Bool.and_eq_true, Bool.not_eq_true',
      decide_eq_true_eq] at hloud
    obtain ⟨i, -, s, hs, ⟨⟨hopen, -⟩, -⟩, henergy⟩ := hloud
    have hzero : m.energy s = 0 := by
      refine sum_eq_zero fun x hx => ?_
      obtain ⟨frame, hframe, rfl⟩ := mem_map.mp hx
      rw [h s (mem_of_getElem? hs) hopen frame hframe]
      simp [silence]
    rw [hzero] at henergy
    norm_num at henergy
  unfold StrategyMixer.targets
  split <;> simp [hloud]

theorem Silent.mixInputs (h : Silent m) (now : SourceAudioDynamics) (a : StrategyAnswers) :
    ∀ v ∈ (m.mixInputs now a).2, v = silence := by
  -- the inputs from the n-th on have not been read yet
  have hgo : ∀ n, ∀ state, state = (range n).foldl (m.mixInput now a)
        (m.mixer, replicate 960 silence) →
      state.1.cursor = m.mixer.cursor ∧ (∀ v ∈ state.2, v = silence)
      ∧ ∀ i s, n ≤ i → state.1.inputs[i]? = some s → s.closed = false →
        ∀ frame ∈ m.ahead s, frame = silence := by
    intro n
    induction n with
    | zero =>
        rintro state rfl
        exact ⟨rfl, fun v hv => eq_of_mem_replicate hv, fun i s _ hs => h s (mem_of_getElem? hs)⟩
    | succ n ih =>
        rintro state rfl
        rw [range_succ, foldl_append]
        obtain ⟨hcursor, hsums, hrest⟩ := ih _ rfl
        generalize (range n).foldl _ _ = state at hcursor hsums hrest
        have hlater : ∀ i s, n + 1 ≤ i → state.1.inputs[i]? = some s → s.closed = false →
            ∀ frame ∈ m.ahead s, frame = silence := fun i s hi => hrest i s (by omega)
        rw [foldl_cons, foldl_nil, mixInput]
        split
        · exact ⟨hcursor, hsums, hlater⟩
        · next s hs =>
            split
            · exact ⟨hcursor, hsums, hlater⟩
            · split
              · have hquiet := state.1.closeInput_quiet n
                refine ⟨hquiet.cursor.trans hcursor, hsums, fun i s' hi hs' hopen => ?_⟩
                obtain ⟨s, hs, hsame⟩ := hquiet.kept i s' hs' hopen
                have hahead : m.ahead s' = m.ahead s := by rw [ahead, ahead, hsame.pcm]
                exact hahead ▸ hlater i s hi hs hsame.opened
              · next hopen _ =>
                  refine ⟨hcursor, ?_, fun i s' hi hs' => hlater i s' hi ?_⟩
                  · dsimp only
                    split
                    · exact hsums
                    · intro v hv
                      rw [← map_uncurry_zip_eq_zipWith] at hv
                      obtain ⟨⟨sum, frame, k⟩, hzip, rfl⟩ := mem_map.mp hv
                      obtain ⟨hsum, hframe⟩ := of_mem_zip hzip
                      rw [hcursor] at hframe
                      have hzero := hrest n s le_rfl hs (by simpa using hopen) frame
                        (fst_mem_of_mem_zipIdx hframe)
                      simp [addDucked, hsums sum hsum, hzero, silence, towardZero]
                  · rwa [getElem?_set_ne (by omega)] at hs'
  exact (hgo _ _ rfl).2.1

theorem renderStrategyLocked_silent {strategy : SourceAudioStrategy} {d : SourceAudioDynamics}
    {sums : List Frame} (hs : strategy ≠ .unprocessed) (h : ∀ v ∈ sums, v = silence) :
    (renderStrategyLocked strategy d sums).1.limiter = sourceAudioDuckStep d.limiter 1 := by
  have hpeak : ∀ n, peakOf (replicate n (0, 0)) = 0 := by
    intro n
    induction n with
    | zero => rfl
    | succ n ih => simpa [peakOf, replicate_succ] using ih
  rw [eq_replicate_of_mem h]
  simp [renderStrategyLocked, hs, silence, hpeak, limiterCeiling]

theorem mixBlock_silent {a : StrategyAnswers} (h : Bounded m.dynamics)
    (hs : m.strategy ≠ .unprocessed) (hsilent : Silent m)
    (hopen : (m.mixBlock (1, 1) a).1.mixer.closed = false) :
    Rises m.dynamics.microphone (m.mixBlock (1, 1) a).1.dynamics.microphone
    ∧ Rises m.dynamics.screen (m.mixBlock (1, 1) a).1.dynamics.screen
    ∧ Rises m.dynamics.limiter (m.mixBlock (1, 1) a).1.dynamics.limiter := by
  have hopen' : (m.mixInputs _ a).1.closed = false := hopen
  simp only [mixBlock, settle_dynamics hopen']
  refine ⟨duckStep_rises h.microphone.2, duckStep_rises h.screen.2, ?_⟩
  exact (@renderStrategyLocked_silent m.strategy _ _ hs (hsilent.mixInputs _ a)).symm
    ▸ duckStep_rises h.limiter.2

/-! ## Runs -/

theorem strategyTargetsLocked_open {authorized : Nat → Bool}
    (hopen : (m.strategyTargetsLocked authorized).1.mixer.closed = false) :
    (m.strategyTargetsLocked authorized).1.dynamics = m.dynamics
    ∧ (m.strategyTargetsLocked authorized).1.strategy = m.strategy
    ∧ ((28 / 100 ≤ (m.strategyTargetsLocked authorized).2.1
        ∧ (m.strategyTargetsLocked authorized).2.1 ≤ 1)
      ∧ 28 / 100 ≤ (m.strategyTargetsLocked authorized).2.2
        ∧ (m.strategyTargetsLocked authorized).2.2 ≤ 1)
    ∧ (Silent m → Silent (m.strategyTargetsLocked authorized).1
      ∧ (m.strategyTargetsLocked authorized).2 = (1, 1)) := by
  unfold strategyTargetsLocked at hopen ⊢
  split
  · norm_num
  · next hs =>
      rw [if_neg hs] at hopen
      refine ⟨settle_dynamics hopen, rfl, targets_between _, fun h => ?_⟩
      have hsilent := h.settle (m.mixer.closeUnauthorized_quiet authorized)
      exact ⟨hsilent, hsilent.targets⟩

/-- The gains of an open mixer after a render, and the block it handed off. -/
theorem renderGuarded_gains (h : GainsOK m) (a : StrategyAnswers) : GainsOK (m.renderGuarded a).1
    ∧ (m.strategy ≠ .unprocessed → (∀ block, (m.renderGuarded a).2 = some block →
        ∀ v ∈ decodePCM block.pcm, |v.1| ≤ limiterCeiling ∧ |v.2| ≤ limiterCeiling)
      ∧ (Silent m → (m.renderGuarded a).1.mixer.closed = false →
        Rises m.dynamics.microphone (m.renderGuarded a).1.dynamics.microphone
        ∧ Rises m.dynamics.screen (m.renderGuarded a).1.dynamics.screen
        ∧ Rises m.dynamics.limiter (m.renderGuarded a).1.dynamics.limiter)) := by
  have hclosed : ∀ {n : StrategyMixer} {p : Prop}, n.mixer.closed = true →
      n.mixer.closed = false → p := by
    intro n p hshut hopen
    rw [hshut] at hopen
    cases hopen
  unfold renderGuarded
  split
  · exact ⟨hclosed m.closeLocked_shut, fun _ => ⟨fun block hb => (nomatch hb),
      fun _ => hclosed m.closeLocked_shut⟩⟩
  · next hguard =>
      have hgains := h (by simpa using (not_or.mp hguard).1)
      dsimp only
      split
      · next hshut => exact ⟨hclosed hshut, fun _ => ⟨fun block hb => (nomatch hb), fun _ => hclosed hshut⟩⟩
      · next hopen =>
          obtain ⟨hsame, hstrategy, htarget, hsilent⟩ :=
            @strategyTargetsLocked_open m a.targets (by simpa using hopen)
          generalize m.strategyTargetsLocked a.targets = r at *
          rw [← hsame] at hgains ⊢
          have hmix := mixBlock_gains hgains a htarget
          obtain ⟨hkept, hblock⟩ := (r.1.mixBlock r.2 a).1.handOff_open (r.1.mixBlock r.2 a).2 a
          refine ⟨fun hout => ?_, fun hs => ⟨fun block hb => ?_, fun hm hout => ?_⟩⟩
          · rw [(hkept hout).2]
            exact (hmix (hkept hout).1).1
          · obtain ⟨hmixed, hpcm | hpcm⟩ := hblock block hb
            · rw [hpcm, decodePCM_zeros]
              intro v hv
              rw [eq_of_mem_replicate hv]
              decide
            · have hvalues := (hmix hmixed).2 (hstrategy ▸ hs)
              rw [hpcm, decodePCM_values hvalues]
              exact hvalues
          · obtain ⟨hquiet, hone⟩ := hsilent hm
            rw [(hkept hout).2, hone]
            exact mixBlock_silent hgains (hstrategy ▸ hs) hquiet (hone ▸ (hkept hout).1)

theorem GainsOK.next (h : GainsOK m) (call : Call) : GainsOK (m.next call) := by
  unfold StrategyMixer.next
  split
  · exact h
  · next hopen =>
      have hgains := h (by simpa using hopen)
      split
      · exact (renderGuarded_gains h _).1
      · intro hopen
        exact (settle_dynamics hopen).symm ▸ hgains
      · intro _
        refine ⟨?_, ?_, ?_⟩ <;> norm_num
      · exact fun _ => hgains

/-- **Limiter and ducking.** -/
theorem limiter_and_ducking (mixer : SourceAudioMixer) (kind : Nat → SourceAudioKind)
    (strategy : SourceAudioStrategy) (calls : List Call) (a : StrategyAnswers) :
    let m := calls.foldl next ⟨mixer, kind, strategy, initialSourceAudioDynamics⟩
    let m' := (m.renderGuarded a).1
    (m.mixer.closed = false → Bounded m.dynamics)
    ∧ (m.strategy ≠ .unprocessed → (∀ block, (m.renderGuarded a).2 = some block →
        ∀ v ∈ decodePCM block.pcm, |v.1| ≤ limiterCeiling ∧ |v.2| ≤ limiterCeiling)
      ∧ (Silent m → m'.mixer.closed = false → Rises m.dynamics.microphone m'.dynamics.microphone
        ∧ Rises m.dynamics.screen m'.dynamics.screen
        ∧ Rises m.dynamics.limiter m'.dynamics.limiter)) := by
  intro m m'
  have hrun : ∀ (calls : List Call) (m : StrategyMixer), GainsOK m → GainsOK (calls.foldl next m) := by
    intro calls
    induction calls with
    | nil => exact fun m h => h
    | cons call calls ih => exact fun m h => ih _ (h.next call)
  have hm : GainsOK m := by
    refine hrun calls _ fun _ => ⟨?_, ?_, ?_⟩ <;> norm_num [initialSourceAudioDynamics]
  exact ⟨hm, (renderGuarded_gains hm a).2⟩

/-- A refused render closes the mixer and clears the gains. -/
theorem refused_render_clears : ¬∀ (mixer : SourceAudioMixer) (kind : Nat → SourceAudioKind)
    (strategy : SourceAudioStrategy) (answers : List StrategyAnswers), strategy ≠ .unprocessed →
      Bounded ((answers.map Call.render).foldl next
        ⟨mixer, kind, strategy, initialSourceAudioDynamics⟩).dynamics := by
  intro h
  have hgain := (h ⟨⟨1, 960, 3840, 0⟩, [], 0, 0, false, 1, [], []⟩ (fun _ => .generic) .balanced
    [⟨⟨false, fun _ => true, fun _ => true, true, true⟩, fun _ => true⟩] (by decide)).limiter.1
  exact absurd hgain (by decide)

end StrategyMixer

end Packager

end WebrtcMinimize
