import WebrtcMinimize.ProgramRollover
import WebrtcMinimize.ProgramSchedule

/-!
# Every generation starts at zero

A timetable of the program clock does not change when it is shifted by whole
seconds: 48000 is a multiple of 960, and frame `fps * s + i` is due exactly
`s` seconds after frame `i`, whatever `fps` is. So an encoder whose base is
the instant of a whole-second block sees the clock's own timetables from
zero on, provided the next frame is frame `fps * s`. That is what audio
first at ties gives: when the block of second `s` is handed off, every
earlier frame is behind it and the frame of the same instant is not.

`Feeding` is the state of an encoder with a base; `RolloverOK` is kept by
every step of the rollover, for any handoffs that are a merge of the two
timetables.
-/

namespace WebrtcMinimize

namespace Packager

open GoInts Runs Merge Handoff List Nat
open SourceProgramClock hiding audio

/-! ## Timetables from zero -/

/-- The program timeline from sample 0 at `fps`. -/
def fromZero (fps : Int) : ProgramClockConfig := ⟨0, 0, fps, 960⟩

theorem fromZero_accepted (fps : Int) (h : 1 ≤ fps) (h' : fps ≤ 60) : (fromZero fps).Accepted :=
  ⟨le_refl 0, show (0 : Int) ≤ sourceAudioMixMaxTime - 48000 by decide, h, h', le_refl 960,
    show (960 : Int) ≤ 4800 by decide⟩

theorem audioDue_fromZero (fps : Int) (k : Nat) : audioDue (fromZero fps) k = 960 * k := by
  simp [audioDue, fromZero]

theorem audioDue_shift (fps : Int) (s k : Nat) :
    audioDue (fromZero fps) (50 * s + k) = audioDue (fromZero fps) k + 48000 * s := by
  rw [audioDue_fromZero, audioDue_fromZero]
  push_cast
  ring

/-- The truncation of `i * 48000 / fps` is the same in every second. -/
theorem videoDue_shift {fps : Nat} (hfps : 1 ≤ fps) (s i : Nat) :
    videoDue (fromZero fps) (fps * s + i) = videoDue (fromZero fps) i + 48000 * s := by
  have hsum : ((fps * s + i : Nat) : Int) * 48000 = (i : Int) * 48000 + 48000 * s * fps := by
    push_cast
    ring
  have hdiv : ((i : Int) * 48000 + 48000 * s * fps) / fps = (i : Int) * 48000 / fps + 48000 * s :=
    Int.add_mul_ediv_right _ _ (by omega)
  simp only [videoDue, fromZero]
  rw [hsum, hdiv]
  ring

/-! ## One encoder -/

theorem Handoff.shift_audio (time delta : Int) :
    (audio time).shift delta = .audio (time + delta) := rfl

theorem Handoff.shift_video (time delta : Int) (revision : Nat) :
    (video time revision).shift delta = .video (time + delta) revision := rfl

/-- The scene revision of a frame. -/
def Handoff.revision? : Handoff → Option Nat
  | .audio _ => none
  | .video _ revision => some revision

theorem revisions_concat_audio (log : List Handoff) (time : Int) :
    (log ++ [audio time]).filterMap revision? = log.filterMap revision? := by
  rw [filterMap_append]
  exact append_nil _

theorem revisions_concat_video (log : List Handoff) (time : Int) (revision : Nat) :
    (log ++ [video time revision]).filterMap revision? = log.filterMap revision? ++ [revision] := by
  rw [filterMap_append]
  rfl

/-- The input of a generation: blocks at 0, 960, .. and frames at the
clock's frame instants, merged, with revisions that do not fall; shifted by
the base it is a stretch of the program, and no lane refused any of it for
its place. -/
structure Generation.Aligned (fps : Int) (program : List Handoff) (g : Generation) : Prop where
  blocks : ∃ n, (g.encoder.received.filter (fun x => !x.isVideo)).map time
    = (range n).map fun k : Nat => 960 * (k : Int)
  frames : ∃ m, (g.encoder.received.filter isVideo).map (fun x => some x.time)
    = (range m).map fun i : Nat => sourceProgramVideoTime i fps 0
  sorted : g.encoder.received.Pairwise (Before isVideo time)
  revisions : (g.encoder.received.filterMap revision?).Pairwise (· ≤ ·)
  instants : g.encoder.received.map (fun x => x.shift g.base) <:+: program
  placed : g.encoder.misplaced = []

theorem Generation.Aligned.grow {fps : Int} {program : List Handoff} {g : Generation}
    (h : g.Aligned fps program) (x : Handoff) : g.Aligned fps (program ++ [x]) :=
  { h with instants := h.instants.trans (prefix_append program [x]).isInfix }

theorem Generation.aligned_fresh (fps base : Int) (program : List Handoff) :
    Generation.Aligned fps program ⟨base, .fresh 0 fps⟩ where
  blocks := ⟨0, rfl⟩
  frames := ⟨0, rfl⟩
  sorted := .nil
  revisions := .nil
  instants := nil_infix
  placed := rfl

namespace ProgramEncoder

variable {e : ProgramEncoder} {x : Handoff} {w : WriteAnswers}

/-- A handoff in its place is only refused for another reason, and then the
lanes stay as they were. -/
theorem write_expected (h : (e.lane x).expects e.startSample e.fps x = true) :
    (e.write x w).1.received = e.received ++ [x]
    ∧ (e.write x w).1.misplaced = e.misplaced
    ∧ ((e.write x w).2 = true →
      (e.write x w).1 = { e with received := e.received ++ [x] }.queued x) := by
  have hexp : ({ e with received := e.received ++ [x] }.lane x).expects e.startSample e.fps x
      = true := h
  have hqueued : ({ e with received := e.received ++ [x] }.queued x).received
      = e.received ++ [x] := by
    cases x <;> rfl
  have hplaced : ({ e with received := e.received ++ [x] }.queued x).misplaced = e.misplaced := by
    cases x <;> rfl
  unfold write enqueue
  by_cases hadmitted : w.admitted = false
  · simp [hadmitted]
  · simp only [hadmitted, if_false, hexp, Bool.true_eq_false]
    by_cases hraw : w.rawPermitted = false ∨ w.slotFree = false
    · simp [hraw]
    · simp [hraw, hqueued, hplaced]

end ProgramEncoder

/-- An encoder with a base, fed by a program that has handed off `n` blocks
and `m` frames. -/
structure Feeding (fps : Nat) (base : Int) (revision : Nat) (e : ProgramEncoder) (n m : Nat)
    (program : List Handoff) (s a v : Nat) : Prop where
  base_eq : base = 48000 * s
  blocks : n = 50 * s + a
  frames : m = fps * s + v
  start : e.startSample = 0
  rate : e.fps = fps
  audioIndex : e.audio.index = a
  videoIndex : e.video.index = v
  lane_le : e.video.revision ≤ revision
  received_le : ∀ r ∈ e.received.filterMap revision?, r ≤ e.video.revision
  revisions : (e.received.filterMap revision?).Pairwise (· ≤ ·)
  merged : Merged isVideo time (audioDue (fromZero fps)) (videoDue (fromZero fps))
    a v e.received
  onTimeline : ∀ i < v, videoDue (fromZero fps) i ≤ sourceVideoMixMaxTime
  stretch : e.received.map (fun x => x.shift base) <:+ program
  placed : e.misplaced = []

namespace Feeding

variable {fps : Nat} {base : Int} {revision : Nat} {e : ProgramEncoder} {n m : Nat}
  {program : List Handoff} {s a v : Nat}

section

variable (h : Feeding fps base revision e n m program s a v)

include h

theorem aligned (hfps : 1 ≤ fps)
    (hfps' : fps ≤ 60) : Generation.Aligned fps program ⟨base, e⟩ where
  blocks := by
    refine ⟨a, ?_⟩
    rw [h.merged.early_items]
    exact map_congr_left fun k _ => audioDue_fromZero fps k
  frames := by
    refine ⟨v, ?_⟩
    have hsome : (e.received.filter isVideo).map (fun x => some x.time)
        = ((e.received.filter isVideo).map time).map some := by
      rw [map_map]
      rfl
    rw [hsome, h.merged.late_items, map_map]
    refine map_congr_left fun i hi => ?_
    have hv := videoTime_eq (fromZero_accepted fps (by omega) (by omega)) i
    rw [if_pos (h.onTimeline i (mem_range.mp hi))] at hv
    exact hv.symm
  sorted := h.merged.sorted
  __ := h
  instants := h.stretch.isInfix

theorem expects_audio
    (hn : (n : Int) ≤ sourceAudioMixMaxTime.tdiv 960) :
    (e.lane (.audio (960 * a))).expects e.startSample e.fps (.audio (960 * a)) = true := by
  have hmax : sourceAudioMixMaxTime = 9223372036854727807 := rfl
  have hblocks := h.blocks
  rw [hmax] at hn
  have hroom : (int64 (sourceAudioMixMaxTime - 0)).tdiv 960 = (9223372036854727807 : Int).tdiv 960 := by
    decide
  have hdiv : (9223372036854727807 : Int).tdiv 960 = 9607679205057008 := by decide
  simp only [ProgramEncoder.lane, isVideo_audio, Bool.false_eq_true, if_false,
    RawLane.expects, h.start, h.audioIndex, hroom, hdiv, Bool.and_eq_true, decide_eq_true_eq]
  refine ⟨by omega, ?_⟩
  rw [int64_of_nonneg (x := (a : Int) * 960) (by omega) (by unfold maxInt64; omega),
    int64_of_nonneg (by omega) (by unfold maxInt64; omega)]
  omega

theorem expects_video (hfps : 1 ≤ fps)
    (hfps' : fps ≤ 60) {r : Nat} (hr : 1 ≤ r) (hr' : r ≤ sourceVideoSceneMaxRevision)
    (hle : revision ≤ r) (hv : videoDue (fromZero fps) v ≤ sourceVideoMixMaxTime) :
    (e.lane (.video (videoDue (fromZero fps) v) r)).expects e.startSample e.fps
      (.video (videoDue (fromZero fps) v) r) = true := by
  have htime := videoTime_eq (fromZero_accepted fps (by omega) (by omega)) v
  rw [if_pos hv] at htime
  have htime' : sourceProgramVideoTime e.video.index e.fps e.startSample
      = some (videoDue (fromZero fps) v) := by
    rw [h.videoIndex, h.rate, h.start]
    exact htime
  have hlane := h.lane_le
  simp only [ProgramEncoder.lane, isVideo_video, if_true, RawLane.expects, htime',
    Bool.and_eq_true, decide_eq_true_eq, and_true]
  unfold sourceVideoSceneMaxRevision at hr'
  omega

theorem feed_audio
    (hn : (n : Int) ≤ sourceAudioMixMaxTime.tdiv 960)
    (hfirst : audioDue (fromZero fps) a ≤ videoDue (fromZero fps) v) :
    Feeding fps base revision
      ({ e with received := e.received ++ [audio (960 * a)] }.queued (.audio (960 * a)))
      (n + 1) m (program ++ [.audio (960 * n)]) s (a + 1) v where
  __ := h
  blocks := by
    have := h.blocks
    omega
  audioIndex := by
    have hblocks := h.blocks
    have hdiv : sourceAudioMixMaxTime.tdiv 960 = 9607679205057008 := by decide
    show int64 (e.audio.index + 1) = ((a + 1 : Nat) : Int)
    rw [h.audioIndex, int64_of_nonneg (by omega) (by unfold maxInt64; omega)]
    push_cast
    rfl
  received_le := by
    intro r hr
    simp only [ProgramEncoder.queued, revisions_concat_audio] at hr
    exact h.received_le r hr
  revisions := by
    simp only [ProgramEncoder.queued, revisions_concat_audio]
    exact h.revisions
  merged := h.merged.early (audioDue_mono _) rfl (audioDue_fromZero fps a).symm hfirst
  stretch := by
    obtain ⟨before, hbefore⟩ := h.stretch
    have hblocks := h.blocks
    have hbase := h.base_eq
    refine ⟨before, ?_⟩
    have htime : 960 * (a : Int) + base = 960 * n := by
      rw [hbase, hblocks]
      push_cast
      ring
    simp only [ProgramEncoder.queued, map_append, map_singleton, shift_audio, htime]
    rw [← append_assoc, hbefore]

theorem feed_video (hfps : 1 ≤ fps)
    (hfps' : fps ≤ 60) {r : Nat} (hle : revision ≤ r)
    (hv : videoDue (fromZero fps) v ≤ sourceVideoMixMaxTime)
    (hfirst : videoDue (fromZero fps) v < audioDue (fromZero fps) a) :
    Feeding fps base r
      ({ e with received := e.received ++ [video (videoDue (fromZero fps) v) r] }.queued
        (.video (videoDue (fromZero fps) v) r))
      n (m + 1) (program ++ [.video (videoDue (fromZero fps) m) r]) s a (v + 1) where
  __ := h
  frames := by
    have := h.frames
    omega
  videoIndex := by
    have haccepted := fromZero_accepted fps (by omega) (by omega)
    have hadd := videoDue_add haccepted 0 v
    have hzero := videoDue_nonneg haccepted 0
    have hnonneg := haccepted.sample_nonneg
    unfold sourceVideoMixMaxTime maxInt64 at hv
    rw [zero_add] at hadd
    show int64 (e.video.index + 1) = ((v + 1 : Nat) : Int)
    rw [h.videoIndex, int64_of_nonneg (by omega) (by unfold maxInt64; omega)]
    push_cast
    rfl
  lane_le := le_refl r
  received_le := by
    intro r' hr'
    have hlane := h.lane_le
    simp only [ProgramEncoder.queued, revisions_concat_video, mem_append, mem_singleton] at hr'
    rcases hr' with hr' | hr'
    · exact le_trans (h.received_le r' hr') (le_trans hlane hle)
    · exact le_of_eq hr'
  revisions := by
    have hlane := h.lane_le
    simp only [ProgramEncoder.queued, revisions_concat_video]
    refine pairwise_append.mpr ⟨h.revisions, pairwise_singleton _ _, ?_⟩
    intro r₁ hr₁ r₂ hr₂
    rw [mem_singleton.mp hr₂]
    exact le_trans (h.received_le r₁ hr₁) (le_trans hlane hle)
  merged := h.merged.late (videoDue_mono (fromZero_accepted fps (by omega) (by omega))) rfl rfl hfirst
  onTimeline := by
    intro i hi
    rcases Nat.lt_or_eq_of_le (Nat.lt_succ_iff.mp hi) with hlt | heq
    · exact h.onTimeline i hlt
    · rw [heq]
      exact hv
  stretch := by
    obtain ⟨before, hbefore⟩ := h.stretch
    have hshift := videoDue_shift hfps s v
    rw [← h.frames, ← h.base_eq] at hshift
    refine ⟨before, ?_⟩
    simp only [ProgramEncoder.queued, map_append, map_singleton, shift_video]
    rw [← append_assoc, hbefore, hshift]

end

/-- **Write lemma.** From a feeding encoder's next handoff: the input stays
aligned, and unless the write failed the encoder goes on feeding. -/
theorem write {x : Handoff} {w : WriteAnswers} {n' m' a' v' r' : Nat} {program' : List Handoff}
    (hexp : (e.lane x).expects e.startSample e.fps x = true)
    (hnext : Feeding fps base r' ({ e with received := e.received ++ [x] }.queued x) n' m'
      program' s a' v') (hfps : 1 ≤ fps) (hfps' : fps ≤ 60) :
    Generation.Aligned fps program' ⟨base, (e.write x w).1⟩
    ∧ ((e.write x w).2 = true → Feeding fps base r' (e.write x w).1 n' m' program' s a' v') := by
  obtain ⟨hreceived, hplaced, hok⟩ := ProgramEncoder.write_expected (w := w) hexp
  refine ⟨?_, fun h => by rw [hok h]; exact hnext⟩
  have halign := hnext.aligned hfps hfps'
  have hreceived' : ({ e with received := e.received ++ [x] }.queued x).received
      = (e.write x w).1.received := by
    rw [hreceived]
    cases x <;> rfl
  have hplaced' : ({ e with received := e.received ++ [x] }.queued x).misplaced
      = (e.write x w).1.misplaced := by
    rw [hplaced]
    cases x <;> rfl
  have hblocks := halign.blocks
  have hframes := halign.frames
  have hsorted := halign.sorted
  have hrevisions := halign.revisions
  have hinstants := halign.instants
  have hplace := halign.placed
  simp only [hreceived', hplaced'] at hblocks hframes hsorted hrevisions hinstants hplace
  exact ⟨hblocks, hframes, hsorted, hrevisions, hinstants, hplace⟩

end Feeding

/-! ## The rollover -/

/-- When the block of second `s` is next and no frame is ahead of it, the
next frame is the first of that second. -/
theorem frame_at_second {fps : Nat} (hfps : 1 ≤ fps) (hfps' : fps ≤ 60) {s m : Nat}
    {program : List Handoff}
    (hmerged : Merged isVideo time (audioDue (fromZero fps))
      (videoDue (fromZero fps)) (50 * s) m program)
    (hfirst : audioDue (fromZero fps) (50 * s) ≤ videoDue (fromZero fps) m) : m = fps * s := by
  have hmono := videoDue_mono (fromZero_accepted fps (by omega) (by omega))
  have hblock : audioDue (fromZero fps) (50 * s) = 48000 * s := by
    rw [audioDue_fromZero]
    push_cast
    ring
  have hframe : videoDue (fromZero fps) (fps * s) = 48000 * s := by
    have hshift := videoDue_shift hfps s 0
    have hzero : videoDue (fromZero fps) 0 = 0 := by simp [videoDue, fromZero]
    rw [add_zero, hzero, zero_add] at hshift
    exact hshift
  refine le_antisymm ?_ ?_
  · by_contra hlt
    obtain ⟨k, rfl⟩ : ∃ k, m = k + 1 := exists_eq_add_one_of_ne_zero (by omega)
    obtain ⟨x, hx, -, htime⟩ := (mem_lane_iff hmerged.late_items _).mpr ⟨k, lt_succ_self k, rfl⟩
    have hbefore := hmerged.before_early x hx
    have hle : videoDue (fromZero fps) (fps * s) ≤ videoDue (fromZero fps) k :=
      hmono.monotone (by omega)
    omega
  · by_contra hlt
    have hbehind := hmono (not_le.mp hlt)
    omega

namespace ProgramRollover

variable {p q : ProgramRollover} {e : ProgramEncoder} {x : Handoff} {w : WriteAnswers}

section

variable (p : ProgramRollover) (x : Handoff)

@[simp] theorem advance_current :
    (p.advance x).current = p.current := by
  cases x <;> rfl

@[simp] theorem advance_accept :
    (p.advance x).accept = p.accept := by
  cases x <;> rfl

@[simp] theorem advance_base : (p.advance x).base = p.base := by
  cases x <;> rfl

@[simp] theorem advance_fps : (p.advance x).fps = p.fps := by
  cases x <;> rfl

@[simp] theorem advance_retired :
    (p.advance x).retired = p.retired := by
  cases x <;> rfl

end

theorem mem_generations {g : Generation} :
    g ∈ p.generations ↔ g ∈ p.retired ∨ ∃ e, p.current = some e ∧ g = ⟨p.base, e⟩ := by
  cases hc : p.current <;> simp [generations, hc]

/-- Everything a write can do: refuse and close, move the cursors on, or
also pass the handoff to the current encoder, at a whole second first. -/
theorem write_cases (p : ProgramRollover) (x : Handoff) (w : WriteAnswers) :
    (p.write x w).1 = { p with closed := true, accept := false }
    ∨ (p.closed = false ∧ p.inOrder x = true ∧ (((p.write x w).1 = p.advance x
          ∧ ∀ e, p.current = some e → p.accept = true → p.base < 0)
        ∨ ∃ e, p.current = some e ∧ p.accept = true
          ∧ ((p.base < 0 ∧ x.isVideo = false ∧ x.time.tmod 48000 = 0
              ∧ (p.write x w).1 = { p.advance x with base := x.time }.pass e x w)
            ∨ (0 ≤ p.base ∧ (p.write x w).1 = (p.advance x).pass e x w)))) := by
  unfold write
  by_cases hdenied : p.closed = true ∨ w.permitted = false ∨ p.inOrder x = false
  · rw [if_pos hdenied]
    exact .inl rfl
  rw [if_neg hdenied]
  simp only [not_or, Bool.not_eq_true, Bool.not_eq_false] at hdenied
  obtain ⟨hopen, -, horder⟩ := hdenied
  refine .inr ⟨hopen, horder, ?_⟩
  rcases hcurrent : p.current with _ | e
  · left
    simp [advance_current, hcurrent]
  · simp only [advance_current, hcurrent, advance_accept, advance_base]
    by_cases haccept : p.accept = false
    · refine .inl ⟨by rw [if_pos haccept], fun _ _ htrue => ?_⟩
      rw [haccept] at htrue
      cases htrue
    rw [if_neg haccept]
    by_cases hbase : p.base < 0
    · rw [if_pos hbase]
      by_cases hskip : x.isVideo = true ∨ x.time.tmod 48000 ≠ 0
      · exact .inl ⟨by rw [if_pos hskip], fun _ _ _ => hbase⟩
      · rw [if_neg hskip]
        simp only [not_or, Bool.not_eq_true, ne_eq, not_not] at hskip
        exact .inr ⟨e, rfl, by simpa using haccept, .inl ⟨hbase, hskip.1, hskip.2, rfl⟩⟩
    · rw [if_neg hbase]
      exact .inr ⟨e, rfl, by simpa using haccept, .inr ⟨not_lt.mp hbase, rfl⟩⟩

theorem pass_spec (p : ProgramRollover) (e : ProgramEncoder) (x : Handoff) (w : WriteAnswers) :
    (p.pass e x w).current = some (e.write (x.shift (-p.base)) w).1
    ∧ ((p.pass e x w).accept = true → p.accept = true → (e.write (x.shift (-p.base)) w).2 = true)
    ∧ (p.pass e x w).base = p.base ∧ (p.pass e x w).fps = p.fps
    ∧ (p.pass e x w).closed = p.closed ∧ (p.pass e x w).retired = p.retired
    ∧ (p.pass e x w).audioIndex = p.audioIndex ∧ (p.pass e x w).videoIndex = p.videoIndex
    ∧ (p.pass e x w).videoRevision = p.videoRevision := by
  unfold pass
  rcases hw : e.write (x.shift (-p.base)) w with ⟨e', ok⟩
  cases ok <;> simp

/-- The rollover has seen `n` blocks and `m` frames of a program. -/
structure RolloverOK (fps n m : Nat) (program : List Handoff) (p : ProgramRollover) : Prop where
  rate : p.fps = fps
  aligned : ∀ g ∈ p.generations, g.Aligned fps program
  audioIndex : p.closed = false → p.audioIndex = n
  videoIndex : p.closed = false → p.videoIndex = m
  /-- An accepted encoder waits for its base or has been fed from it. -/
  ready : p.closed = false → p.accept = true → ∀ e, p.current = some e →
    (p.base < 0 ∧ e = .fresh 0 fps)
    ∨ (0 ≤ p.base ∧ ∃ s a v, Feeding fps p.base p.videoRevision e n m program s a v)

variable {fps m n : Nat} {program : List Handoff}

section

variable (h : RolloverOK fps n m program p)

include h

/-- A rollover that takes no more handoffs stays aligned with the program. -/
theorem RolloverOK.deny {n' m' : Nat} (x : Handoff) :
    RolloverOK fps n' m' (program ++ [x]) { p with closed := true, accept := false } where
  rate := h.rate
  aligned := fun g hg => (h.aligned g hg).grow x
  audioIndex := by simp
  videoIndex := by simp
  ready := by simp

/-- The encoder after a handoff was passed on is the last generation. -/
theorem RolloverOK.passed {n' m' : Nat} {r : ProgramRollover}
    {s a v : Nat} (hbase : r.base = 48000 * s)
    (hr : r = { p.advance x with base := r.base })
    (haudio : r.audioIndex = n') (hvideo : r.videoIndex = m') (haccept : p.accept = true)
    (hwrite : Generation.Aligned fps (program ++ [x]) ⟨r.base, (e.write (x.shift (-r.base)) w).1⟩
      ∧ ((e.write (x.shift (-r.base)) w).2 = true → Feeding fps r.base r.videoRevision
        (e.write (x.shift (-r.base)) w).1 n' m' (program ++ [x]) s a v)) :
    RolloverOK fps n' m' (program ++ [x]) (r.pass e x w) := by
  obtain ⟨hcurrent, hok, hb, hf, -, hretired, ha, hv, hrev⟩ := pass_spec r e x w
  have hrretired : r.retired = p.retired := by
    rw [hr]
    simp
  have hrfps : r.fps = p.fps := by
    rw [hr]
    simp
  have hraccept : r.accept = true := by
    rw [hr]
    simpa using haccept
  refine ⟨by rw [hf, hrfps, h.rate], fun g hg => ?_, fun _ => by rw [ha, haudio],
    fun _ => by rw [hv, hvideo], fun _ hacc e' he' => .inr ⟨by omega, s, a, v, ?_⟩⟩
  · rcases mem_generations.mp hg with hg | ⟨e', he', rfl⟩
    · rw [hretired, hrretired] at hg
      exact (h.aligned g (mem_generations.mpr (.inl hg))).grow x
    · rw [hcurrent, Option.some.injEq] at he'
      rw [hb, ← he']
      exact hwrite.1
  · rw [hcurrent, Option.some.injEq] at he'
    rw [hb, hrev, ← he']
    exact hwrite.2 (hok hacc hraccept)

/-- The cursors have moved on and the encoder, if any, still waits. -/
theorem RolloverOK.advanced {n' m' : Nat}
    (haudio : (p.advance x).audioIndex = n') (hvideo : (p.advance x).videoIndex = m')
    (hopen : p.closed = false) (hwait : ∀ e, p.current = some e → p.accept = true → p.base < 0) :
    RolloverOK fps n' m' (program ++ [x]) (p.advance x) where
  rate := by rw [advance_fps, h.rate]
  aligned := by
    intro g hg
    rw [mem_generations, advance_retired, advance_current, advance_base, ← mem_generations] at hg
    exact (h.aligned g hg).grow x
  audioIndex := fun _ => haudio
  videoIndex := fun _ => hvideo
  ready := by
    intro _ haccept e he
    rw [advance_accept] at haccept
    rw [advance_current] at he
    rw [advance_base]
    rcases h.ready hopen haccept e he with hwaiting | ⟨hbase, -⟩
    · exact .inl hwaiting
    · have := hwait e he haccept
      omega

/-- **Block step.** -/
theorem RolloverOK.write_audio
    (hfps : 1 ≤ fps) (hfps' : fps ≤ 60)
    (hmerged : Merged isVideo time (audioDue (fromZero fps)) (videoDue (fromZero fps)) n m program)
    (hfirst : audioDue (fromZero fps) n ≤ videoDue (fromZero fps) m) (w : WriteAnswers) :
    RolloverOK fps (n + 1) m (program ++ [.audio (960 * n)]) (p.write (.audio (960 * n)) w).1 := by
  rcases write_cases p (.audio (960 * n)) w with hq | ⟨hopen, horder, hq⟩
  · rw [hq]
    exact h.deny _
  have hindex := h.audioIndex hopen
  have hmax : sourceAudioMixMaxTime.tdiv 960 = 9607679205057008 := by decide
  have hn : (n : Int) ≤ sourceAudioMixMaxTime.tdiv 960 := by
    simp only [inOrder, hindex, Bool.and_eq_true, decide_eq_true_eq] at horder
    exact horder.1
  have haudio : (p.advance (.audio (960 * n))).audioIndex = ((n + 1 : Nat) : Int) := by
    show int64 (p.audioIndex + 1) = _
    rw [hindex, int64_of_nonneg (by omega) (by unfold maxInt64; omega)]
    push_cast
    rfl
  have hvideo : (p.advance (.audio (960 * n))).videoIndex = m := h.videoIndex hopen
  rcases hq with ⟨hq, hwait⟩ | ⟨e, he, haccept, hq⟩
  · rw [hq]
    exact h.advanced haudio hvideo hopen hwait
  -- feeding from base `48000 s`, the block is number `n - 50 s` of the generation
  have hfeed : ∀ {base : Int} {s a v : Nat}, Feeding fps base p.videoRevision e n m program s a v →
      Generation.Aligned fps (program ++ [.audio (960 * n)])
        ⟨base, (e.write ((audio (960 * n)).shift (-base)) w).1⟩
      ∧ ((e.write ((audio (960 * n)).shift (-base)) w).2 = true →
        Feeding fps base p.videoRevision (e.write ((audio (960 * n)).shift (-base)) w).1
          (n + 1) m (program ++ [.audio (960 * n)]) s (a + 1) v) := by
    intro base s a v hf
    have hblocks := hf.blocks
    have hbase := hf.base_eq
    have hrel : (audio (960 * n)).shift (-base) = .audio (960 * a) := by
      rw [shift_audio]
      congr 1
      omega
    have hfirst' : audioDue (fromZero fps) a ≤ videoDue (fromZero fps) v := by
      rw [hblocks, hf.frames, audioDue_shift, videoDue_shift hfps] at hfirst
      omega
    rw [hrel]
    exact Feeding.write (hf.expects_audio hn) (hf.feed_audio hn hfirst') hfps hfps'
  rcases hq with ⟨hbase, -, hsecond, hq⟩ | ⟨hbase, hq⟩
  · rw [hq]
    -- the base is set: the encoder is fresh, and the next frame opens the second
    obtain ⟨-, rfl⟩ := (h.ready hopen haccept e he).resolve_right (by omega)
    obtain ⟨s, rfl⟩ : ∃ s, n = 50 * s := by
      refine ⟨n / 50, ?_⟩
      rw [time_audio, Int.tmod_eq_emod_of_nonneg (by omega)] at hsecond
      omega
    have hframes := frame_at_second hfps hfps' hmerged hfirst
    have hfresh : Feeding fps (960 * (50 * s : Nat)) p.videoRevision (.fresh 0 fps) (50 * s) m
        program s 0 0 :=
      { base_eq := by
          push_cast
          ring
        blocks := rfl
        frames := hframes
        start := rfl
        rate := rfl
        audioIndex := rfl
        videoIndex := rfl
        lane_le := zero_le _
        received_le := fun r hr => absurd hr (not_mem_nil)
        revisions := .nil
        merged := .nil _ _ _ _
        onTimeline := fun i hi => absurd hi (not_lt_zero i)
        stretch := nil_suffix
        placed := rfl }
    exact h.passed hfresh.base_eq rfl haudio hvideo haccept (hfeed hfresh)
  · rw [hq]
    rcases h.ready hopen haccept e he with ⟨hneg, -⟩ | ⟨-, s, a, v, hf⟩
    · omega
    · exact h.passed hf.base_eq rfl haudio hvideo haccept (hfeed hf)

/-- **Frame step.** -/
theorem RolloverOK.write_video
    (hfps : 1 ≤ fps) (hfps' : fps ≤ 60)
    (hfirst : videoDue (fromZero fps) m < audioDue (fromZero fps) n) (r : Nat) (w : WriteAnswers) :
    RolloverOK fps n (m + 1) (program ++ [.video (videoDue (fromZero fps) m) r])
      (p.write (.video (videoDue (fromZero fps) m) r) w).1 := by
  rcases write_cases p (.video (videoDue (fromZero fps) m) r) w with hq | ⟨hopen, horder, hq⟩
  · rw [hq]
    exact h.deny _
  have hindex := h.videoIndex hopen
  have haccepted := fromZero_accepted fps (by omega) (by omega)
  have htime := videoTime_eq haccepted m
  have hstart : (fromZero fps).startSample = 0 := rfl
  have hrate : (fromZero fps).framesPerSecond = fps := rfl
  rw [hstart, hrate] at htime
  have hv : videoDue (fromZero fps) m ≤ sourceVideoMixMaxTime := by
    by_contra hlate
    rw [if_neg hlate] at htime
    simp only [inOrder, hindex, h.rate, htime] at horder
    cases horder
  rw [if_pos hv] at htime
  simp only [inOrder, hindex, h.rate, htime, Bool.and_eq_true, decide_eq_true_eq] at horder
  obtain ⟨⟨⟨hr1, hrle⟩, hrmax⟩, -⟩ := horder
  have hvideo : (p.advance (.video (videoDue (fromZero fps) m) r)).videoIndex
      = ((m + 1 : Nat) : Int) := by
    have hadd := videoDue_add haccepted 0 m
    have hzero := videoDue_nonneg haccepted 0
    unfold sourceVideoMixMaxTime maxInt64 at hv
    rw [zero_add] at hadd
    show int64 (p.videoIndex + 1) = _
    rw [hindex, int64_of_nonneg (by omega) (by unfold maxInt64; omega)]
    push_cast
    rfl
  have haudio : (p.advance (.video (videoDue (fromZero fps) m) r)).audioIndex = n :=
    h.audioIndex hopen
  rcases hq with ⟨hq, hwait⟩ | ⟨e, he, haccept, hq⟩
  · rw [hq]
    exact h.advanced haudio hvideo hopen hwait
  rcases hq with ⟨-, hblock, -⟩ | ⟨hbase, hq⟩
  · cases hblock
  rw [hq]
  rcases h.ready hopen haccept e he with ⟨hneg, -⟩ | ⟨-, s, a, v, hf⟩
  · omega
  have hshift := videoDue_shift hfps s v
  rw [← hf.frames] at hshift
  have hbaseEq := hf.base_eq
  have hrel : (video (videoDue (fromZero fps) m) r).shift (-p.base)
      = .video (videoDue (fromZero fps) v) r := by
    rw [shift_video]
    congr 1
    omega
  have hfirst' : videoDue (fromZero fps) v < audioDue (fromZero fps) a := by
    rw [hf.blocks, audioDue_shift] at hfirst
    omega
  have hv' : videoDue (fromZero fps) v ≤ sourceVideoMixMaxTime := by omega
  refine h.passed (s := s) (a := a) (v := v + 1) hf.base_eq rfl haudio hvideo haccept ?_
  rw [advance_base, hrel]
  exact Feeding.write (hf.expects_video hfps hfps' hr1 hrmax hrle hv')
    (hf.feed_video hfps hfps' hrle hv' hfirst') hfps hfps'

/-- **Step lemma.** The lifecycle of the encoders does not touch the cursors,
and a new encoder waits for its base. -/
theorem RolloverOK.lifecycle {ev : RolloverEvent}
    (hstep : Step p ev q) (hev : ∀ x w, ev ≠ .write x w) :
    RolloverOK fps n m program q := by
  cases hstep with
  | write x w => exact absurd rfl (hev x w)
  | close => exact ⟨h.rate, h.aligned, by simp, by simp, by simp⟩
  | stop _ => exact ⟨h.rate, h.aligned, h.audioIndex, h.videoIndex, by simp⟩
  | @drained e _ hcurrent _ =>
      refine ⟨h.rate, fun g hg => h.aligned g ?_, h.audioIndex, h.videoIndex, by simp⟩
      rw [mem_generations] at hg ⊢
      simp only [mem_append, mem_singleton, reduceCtorEq, false_and, exists_false, or_false] at hg
      rcases hg with hg | hg
      · exact .inl hg
      · exact .inr ⟨e, hcurrent, hg⟩
  | constructed _ =>
      refine ⟨h.rate, fun g hg => ?_, h.audioIndex, h.videoIndex, fun _ _ e he => .inl ⟨?_, ?_⟩⟩
      · rcases mem_generations.mp hg with hg | ⟨e, he, rfl⟩
        · exact h.aligned g (mem_generations.mpr (.inl hg))
        · cases he
          rw [h.rate]
          exact Generation.aligned_fresh fps _ program
      · show (-1 : Int) < 0
        decide
      · cases he
        rw [h.rate]

end

theorem writes_concat {es : List RolloverEvent} {ev : RolloverEvent}
    (hev : ∀ x w, ev ≠ .write x w) : writes (es ++ [ev]) = writes es := by
  cases ev with
  | write x w => exact absurd rfl (hev x w)
  | close | stop | drained | constructed => simp [writes]

/-- **Run lemma.** Whatever is a merge of the two timetables keeps the
rollover in order, between any lifecycle steps. -/
theorem RolloverOK.run (hfps : 1 ≤ fps) (hfps' : fps ≤ 60) {es : List RolloverEvent}
    (hp : Path Step (newSourceProgramRollover fps) es p) :
    ∀ n m, Merged isVideo time (audioDue (fromZero fps)) (videoDue (fromZero fps))
      n m (writes es) → RolloverOK fps n m (writes es) p := by
  refine Runs.Path.history (J := fun es p => ∀ n m, Merged isVideo time
    (audioDue (fromZero fps)) (videoDue (fromZero fps)) n m (writes es) →
    RolloverOK fps n m (writes es) p) ?_ ?_ hp
  · intro n m hmerged
    have hn : n = 0 := by
      have hlength := congrArg length hmerged.early_items
      simp only [writes, filterMap_nil, filter_nil, map_nil, length_nil,
        length_map, length_range] at hlength
      exact hlength.symm
    have hm : m = 0 := by
      have hlength := congrArg length hmerged.late_items
      simp only [writes, filterMap_nil, filter_nil, map_nil, length_nil,
        length_map, length_range] at hlength
      exact hlength.symm
    subst hn
    subst hm
    refine ⟨rfl, fun g hg => ?_, fun _ => rfl, fun _ => rfl, fun _ _ e he => ?_⟩
    · rcases mem_generations.mp hg with hg | ⟨e, he, rfl⟩
      · cases hg
      · cases he
        exact Generation.aligned_fresh fps _ _
    · cases he
      exact .inl ⟨show (-1 : Int) < 0 by decide, rfl⟩
  · intro es t ev u _ ih hstep n m hmerged
    cases ev with
    | write x w =>
        have hwrites : writes (es ++ [.write x w]) = writes es ++ [x] := by simp [writes]
        rw [hwrites] at hmerged ⊢
        cases hstep
        cases x with
        | audio time =>
            obtain ⟨k, rfl, htime, hfirst, hmerged'⟩ := hmerged.of_concat_early rfl
            rw [time_audio, audioDue_fromZero] at htime
            subst htime
            exact (ih k m hmerged').write_audio hfps hfps' hmerged' hfirst w
        | video time r =>
            obtain ⟨k, rfl, htime, hfirst, hmerged'⟩ := hmerged.of_concat_late rfl
            subst htime
            exact (ih n k hmerged').write_video hfps hfps' hfirst r w
    | close | stop | drained | constructed =>
        all_goals
          rw [writes_concat (by simp)] at hmerged ⊢
          exact (ih n m hmerged).lifecycle hstep (by simp)

/-- **Encoder rollover.** A clock from sample 0 at any accepted rate hands off
to a rollover, whose encoders fail, drain and are replaced at any moments:
every generation gets blocks at 0, 960, .. and frames at
`sourceProgramVideoTime` 0, 1, .., merged, with revisions that do not fall;
shifted by its base this is a stretch of the clock's own handoffs, and no
lane ever refuses any of it for its place. -/
theorem rollover_aligned {cfg : ProgramClockConfig} {permitted : Bool} {now : Int}
    {audio : AudioMixer} {video : VideoMixer} {p₀ clock : SourceProgramClock}
    (hnew : newSourceProgramClock cfg permitted now audio video = some p₀)
    (hzero : cfg.startSample = 0) {ticks : List SourceProgramClock.Tick}
    (hclock : Path SourceProgramClock.Stepped p₀ ticks clock) {es : List RolloverEvent}
    (hrun : Path Step (newSourceProgramRollover cfg.framesPerSecond) es p)
    (hwrites : writes es <+: clock.handed) :
    ∀ g ∈ p.generations, g.Aligned cfg.framesPerSecond (writes es) := by
  obtain ⟨hcfg₀, hs₀⟩ := newSourceProgramClock_onSchedule hnew
  have haccepted := hs₀.accepted
  rw [hcfg₀] at haccepted
  obtain ⟨n, m, hmerged⟩ := handed_merged hnew hclock
  obtain ⟨n', m', hmerged'⟩ := hmerged.of_prefix hwrites
  have hlo := haccepted.fps_pos
  have hhi := haccepted.fps_le
  obtain ⟨fps, hfps⟩ := Int.eq_ofNat_of_zero_le (show 0 ≤ cfg.framesPerSecond by omega)
  have hblocks : audioDue cfg = audioDue (fromZero fps) := by
    funext k
    simp [audioDue, fromZero, hzero]
  have hframes : videoDue cfg = videoDue (fromZero fps) := by
    funext i
    simp [videoDue, fromZero, hzero, hfps]
  rw [hblocks, hframes] at hmerged'
  rw [hfps] at hrun ⊢
  exact (RolloverOK.run (by omega) (by omega) hrun n' m' hmerged').aligned

/-! ### The first tenth of a second at 60 frames -/

/-- Handoffs written one after the other, with the same answers. -/
theorem Path.writes (w : WriteAnswers) : ∀ (xs : List Handoff) (p : ProgramRollover),
    Path Step p (xs.map fun x => .write x w) (xs.foldl (fun p x => (p.write x w).1) p)
  | [], p => .nil p
  | x :: xs, p => .cons (.write x w) (Path.writes w xs (p.write x w).1)

theorem writes_map (w : WriteAnswers) (xs : List Handoff) :
    ProgramRollover.writes (xs.map fun x => .write x w) = xs := by
  induction xs with
  | nil => rfl
  | cons x xs ih => exact congrArg (cons x) ih

theorem rollover_aligned_sample :
    ∃ g ∈ ((sampleClock.step sampleTick).1.handed.foldl
        (fun p x => (p.write x ⟨true, true, true, true⟩).1) (newSourceProgramRollover 60)).generations,
      g.encoder.received.length = 13
      ∧ g.Aligned 60 (sampleClock.step sampleTick).1.handed := by
  have hnew : newSourceProgramClock sampleConfig true 0 ⟨0, 0, false, false⟩
      ⟨0, 0, false, false, false⟩ = some sampleClock := by decide
  have hall := rollover_aligned hnew rfl
    (Runs.Path.single (s := sampleClock) (e := sampleTick) rfl)
    (Path.writes ⟨true, true, true, true⟩
      (sampleClock.step sampleTick).1.handed
      (newSourceProgramRollover 60))
    (writes_map _ _ ▸ prefix_rfl)
  have hsome : ∃ g ∈ ((sampleClock.step
      sampleTick).1.handed.foldl
        (fun p x => (p.write x ⟨true, true, true, true⟩).1)
        (newSourceProgramRollover 60)).generations, g.encoder.received.length = 13 := by
    decide
  obtain ⟨g, hg, hlength⟩ := hsome
  exact ⟨g, hg, hlength, hall g hg⟩

end ProgramRollover

end Packager

end WebrtcMinimize
