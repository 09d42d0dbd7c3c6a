import WebrtcMinimize.ProgramClock

/-!
# The schedule of the program clock

In exact arithmetic the two timetables are `audioDue`, a block every 960
samples, and `videoDue`, frame `i` at the floor of `48000 * i / fps`. The
64-bit arithmetic of the source computes exactly these as long as they lie
on the timeline (`sourceProgramVideoTime_eq_some_iff`), and a clock that
has not failed has handed off a merge of the two (`OnSchedule`).

That the 16 iterations of a step suffice is not counted item by item: the
lag check bounds how far the first due item lies back, so six more blocks
and seven more frames reach beyond the target, and every iteration uses one
of these thirteen up (`stepLoop_no_catchup`).
-/

namespace WebrtcMinimize

namespace Packager

open GoInts Runs Merge Handoff List

/-! ## Exact instants -/

theorem timeSub_of_le {t u : Int} (h : u ≤ t) : timeSub t u = min maxInt64 (t - u) := by
  unfold timeSub minInt64 maxInt64
  omega

theorem sourceDurationSamples_eq {d : Int} (hd : 0 ≤ d) (hmax : d ≤ maxInt64) :
    sourceDurationSamples d = d * 48000 / second := by
  obtain ⟨hq, hr, hr0, hr1⟩ := tdiv_tmod_of_nonneg hd (show (0 : Int) < second by decide)
  have hsplit := split_scale d 48000 (show (0 : Int) < second by decide)
  unfold maxInt64 second at *
  rw [sourceDurationSamples, second, hq, hr, int64_of_nonneg (x := d / 1000000000 * 48000),
    int64_of_nonneg (x := d % 1000000000 * 48000), Int.tdiv_eq_ediv_of_nonneg, hsplit,
    int64_of_nonneg]
  all_goals first | omega | (unfold maxInt64; omega)

/-- **Frame instants.** The 64-bit computation gives the exact floor, and it
fails exactly when that is not on the timeline. -/
theorem sourceProgramVideoTime_eq_some_iff {index fps start time : Int}
    (hfps : 1 ≤ fps) (hfps' : fps ≤ 60) (hstart : 0 ≤ start) :
    sourceProgramVideoTime index fps start = some time
      ↔ 0 ≤ index ∧ time = start + index * 48000 / fps ∧ time ≤ sourceVideoMixMaxTime := by
  have hmax : sourceVideoMixMaxTime = 9223372036854727807 := rfl
  rcases Int.lt_or_le index 0 with hneg | hindex
  · simp only [sourceProgramVideoTime, hneg, true_or, if_true]
    constructor
    · intro h
      cases h
    · rintro ⟨h, -⟩
      omega
  obtain ⟨hq, hr, hr0, hr1⟩ := tdiv_tmod_of_nonneg hindex (show (0 : Int) < fps by omega)
  have hq0 : 0 ≤ index / fps := Int.ediv_nonneg hindex (by omega)
  have hrest0 : 0 ≤ index % fps * 48000 / fps := Int.ediv_nonneg (by omega) (by omega)
  have hrest1 : index % fps * 48000 / fps < 48000 := Int.ediv_lt_of_lt_mul (by omega) (by linarith)
  have hsplit := split_scale index 48000 (show (0 : Int) < fps by omega)
  by_cases hbig : start > sourceVideoMixMaxTime
  · rw [sourceProgramVideoTime, if_pos (by tauto)]
    constructor
    · intro h
      cases h
    · rintro ⟨-, htime, hle⟩
      omega
  rw [sourceProgramVideoTime, if_neg (by omega)]
  simp only [hq, hr]
  have hroom : (int64 (sourceVideoMixMaxTime - start)).tdiv 48000
      = (sourceVideoMixMaxTime - start) / 48000 := by
    rw [int64_of_nonneg (by omega) (by unfold maxInt64; omega)]
    exact Int.tdiv_eq_ediv_of_nonneg (by omega)
  rw [hroom]
  by_cases hwhole : index / fps > (sourceVideoMixMaxTime - start) / 48000
  · rw [if_pos hwhole]
    constructor
    · intro h
      cases h
    · rintro ⟨-, htime, hle⟩
      omega
  · rw [if_neg hwhole, int64_of_nonneg (x := index / fps * 48000) (by omega)
      (by unfold maxInt64; omega),
      int64_of_nonneg (x := start + index / fps * 48000) (by omega) (by unfold maxInt64; omega),
      int64_of_nonneg (x := index % fps * 48000) (by omega) (by unfold maxInt64; omega),
      Int.tdiv_eq_ediv_of_nonneg (by omega),
      int64_of_nonneg (by omega) (by unfold maxInt64; omega)]
    have hexact : start + index / fps * 48000 + index % fps * 48000 / fps
        = start + index * 48000 / fps := by omega
    rw [hexact]
    by_cases hle : start + index * 48000 / fps ≤ sourceVideoMixMaxTime
    · rw [if_pos hle]
      constructor
      · intro h
        cases h
        exact ⟨hindex, rfl, hle⟩
      · rintro ⟨-, rfl, -⟩
        rfl
    · rw [if_neg hle]
      constructor
      · intro h
        cases h
      · rintro ⟨-, rfl, h⟩
        exact absurd h hle

/-! ## The timetables -/

def audioDue (cfg : ProgramClockConfig) (k : Nat) : Int :=
  cfg.startSample + 960 * k

def videoDue (cfg : ProgramClockConfig) (i : Nat) : Int :=
  cfg.startSample + i * 48000 / cfg.framesPerSecond

theorem audioDue_succ (cfg : ProgramClockConfig) (k : Nat) :
    audioDue cfg (k + 1) = audioDue cfg k + 960 := by
  unfold audioDue
  push_cast
  ring

theorem audioDue_mono (cfg : ProgramClockConfig) : StrictMono (audioDue cfg) := by
  refine strictMono_nat_of_lt_succ fun k => ?_
  rw [audioDue_succ]
  omega

variable {cfg : ProgramClockConfig}

section

variable (hcfg : cfg.Accepted)

include hcfg

/-- Frames are at least 800 samples apart, 60 of them making a second. -/
theorem videoDue_add (i k : Nat) :
    videoDue cfg i + 800 * k ≤ videoDue cfg (i + k) := by
  have hfps := hcfg.fps_pos
  have hfps' := hcfg.fps_le
  have hspan : (i : Int) * 48000 + 800 * k * cfg.framesPerSecond ≤ ((i + k : Nat) : Int) * 48000 := by
    push_cast
    nlinarith
  have hdiv := Int.ediv_le_ediv (show 0 < cfg.framesPerSecond by omega) hspan
  rw [Int.add_mul_ediv_right _ _ (by omega)] at hdiv
  unfold videoDue
  omega

theorem videoDue_mono : StrictMono (videoDue cfg) := by
  refine strictMono_nat_of_lt_succ fun i => ?_
  have := videoDue_add hcfg i 1
  omega

theorem videoDue_nonneg (i : Nat) : cfg.startSample ≤ videoDue cfg i := by
  have hfps := hcfg.fps_pos
  have : 0 ≤ (i : Int) * 48000 / cfg.framesPerSecond := Int.ediv_nonneg (by omega) (by omega)
  unfold videoDue
  omega

theorem videoDue_succ_le (i : Nat) :
    videoDue cfg (i + 1) ≤ videoDue cfg i + 48000 := by
  have hfps := hcfg.fps_pos
  have hspan : ((i + 1 : Nat) : Int) * 48000 ≤ (i : Int) * 48000 + 48000 * cfg.framesPerSecond := by
    push_cast
    linarith
  have hdiv := Int.ediv_le_ediv (show 0 < cfg.framesPerSecond by omega) hspan
  rw [Int.add_mul_ediv_right _ _ (by omega)] at hdiv
  unfold videoDue
  omega

theorem videoTime_eq (i : Nat) :
    sourceProgramVideoTime i cfg.framesPerSecond cfg.startSample
      = if videoDue cfg i ≤ sourceVideoMixMaxTime then some (videoDue cfg i) else none := by
  have hiff := fun time => @sourceProgramVideoTime_eq_some_iff i cfg.framesPerSecond
    cfg.startSample time hcfg.fps_pos hcfg.fps_le hcfg.sample_nonneg
  by_cases hle : videoDue cfg i ≤ sourceVideoMixMaxTime
  · rw [if_pos hle]
    exact (hiff _).mpr ⟨Int.natCast_nonneg i, rfl, hle⟩
  · rw [if_neg hle]
    rcases hsome : sourceProgramVideoTime i cfg.framesPerSecond cfg.startSample with _ | time
    · rfl
    · obtain ⟨-, rfl, h⟩ := (hiff time).mp hsome
      exact absurd h hle

end

namespace SourceProgramClock

/-! ## One item -/

variable {p q : SourceProgramClock} {n m : Nat} {h : Handling}

section

variable (p : SourceProgramClock)

@[simp] theorem closeLocked_closed : p.closeLocked.closed = true := by
  unfold closeLocked
  split
  · assumption
  · rfl

@[simp] theorem closeLocked_handed : p.closeLocked.handed = p.handed := by
  unfold closeLocked
  split <;> rfl

theorem renderAudio_handed (h : Handling) :
    (p.renderAudio h).1.handed = p.handed
    ∨ (p.renderAudio h).1.handed = p.handed ++ [.audio p.nextAudio] := by
  unfold renderAudio writeAudio
  split
  · exact .inl rfl
  · by_cases hfence : h.stillPermitted = false ∨ p.audio.cursor ≠ p.nextAudio
    · simp [hfence]
    · have hcursor : p.audio.cursor = p.nextAudio := by tauto
      right
      rw [if_neg hfence]
      cases hd : h.delivered <;> simp [hcursor]

theorem renderVideo_handed (time : Int) (h : Handling) :
    (p.renderVideo time h).1.handed = p.handed
    ∨ (p.renderVideo time h).1.handed = p.handed ++ [.video time h.revision] := by
  unfold renderVideo writeVideo
  split
  · exact .inl rfl
  · by_cases hfence : h.stillPermitted = false
    · simp [hfence]
    · right
      cases hd : h.delivered <;> simp [hfence]

end

theorem renderAudio_ok (hr : p.renderAudio h = (q, true)) : p.audio.cursor = p.nextAudio
    ∧ p.audio.cursor ≤ sourceAudioMixMaxTime - sourceAudioMixSamples
    ∧ q = { p with
        audio := { p.audio with cursor := int64 (p.audio.cursor + sourceAudioMixSamples) }
        handed := p.handed ++ [.audio p.nextAudio] } := by
  unfold renderAudio writeAudio at hr
  split at hr
  · simp at hr
  · rename_i hopen
    by_cases hfence : h.stillPermitted = false ∨ p.audio.cursor ≠ p.nextAudio
    · simp [hfence] at hr
    · have hcursor : p.audio.cursor = p.nextAudio := by tauto
      rw [if_neg hfence] at hr
      refine ⟨hcursor, not_lt.mp fun hgt => hopen (.inr (.inr hgt)), ?_⟩
      cases hd : h.delivered with
      | false => simp [hd] at hr
      | true =>
          simp only [hd, if_true, Prod.mk.injEq, and_true] at hr
          rw [← hr, hcursor]

theorem renderVideo_ok {time : Int} (hr : p.renderVideo time h = (q, true)) : q = { p with
      video := { p.video with cursor := time, rendered := true }
      handed := p.handed ++ [.video time h.revision] } := by
  unfold renderVideo writeVideo at hr
  split at hr
  · simp at hr
  · by_cases hfence : h.stillPermitted = false
    · simp [hfence] at hr
    · cases hd : h.delivered with
      | false => simp [hd, hfence] at hr
      | true =>
          simp only [hd, if_neg hfence, if_true, Prod.mk.injEq, and_true] at hr
          exact hr.symm

/-- What an open clock has handed off, and where its cursors stand. -/
structure OnSchedule (p : SourceProgramClock) (n m : Nat) : Prop where
  accepted : p.cfg.Accepted
  isOpen : p.closed = false
  audioOpen : p.audio.closed = false
  videoOpen : p.video.closed = false
  nextAudio : p.nextAudio = audioDue p.cfg n
  cursor : p.audio.cursor = p.nextAudio
  index : p.videoIndex = m
  videoCursor : p.video.cursor < videoDue p.cfg m
    ∨ (p.video.cursor = videoDue p.cfg m ∧ p.video.rendered = false)
  merged : Merged isVideo time (audioDue p.cfg) (videoDue p.cfg) n m p.handed
  started : p.cfg.start ≤ p.last
  due : ∀ x ∈ p.handed, x.time ≤ target p.cfg p.last

section

variable (hs : OnSchedule p n m)

include hs

theorem OnSchedule.audio (hfirst : p.nextAudio ≤ videoDue p.cfg m)
    (hdue : p.nextAudio ≤ target p.cfg p.last)
    (hr : p.handle (videoDue p.cfg m) h = (q, true)) :
    q.cfg = p.cfg ∧ q.last = p.last ∧ OnSchedule q (n + 1) m := by
  unfold handle at hr
  rw [if_pos hfirst] at hr
  rcases hrender : p.renderAudio h with ⟨q', ok⟩
  simp only [hrender, Prod.mk.injEq] at hr
  obtain ⟨rfl, rfl⟩ := hr
  obtain ⟨hcursor, hroom, rfl⟩ := renderAudio_ok hrender
  have hnonneg := hs.accepted.sample_nonneg
  have hnext : int64 (p.nextAudio + sourceAudioMixSamples) = audioDue p.cfg (n + 1) := by
    rw [hcursor] at hroom
    unfold sourceAudioMixMaxTime sourceAudioMixSamples maxInt64 at hroom
    rw [audioDue_succ, hs.nextAudio, sourceAudioMixSamples]
    rw [hs.nextAudio] at hroom
    exact int64_of_nonneg (by unfold audioDue; omega) (by unfold maxInt64; omega)
  refine ⟨rfl, rfl, ?_⟩
  exact
    { hs with
      nextAudio := hnext
      cursor := by rw [hcursor]
      merged := hs.merged.early (audioDue_mono _) rfl hs.nextAudio
        (by rw [← hs.nextAudio]; exact hfirst)
      due := by
        intro x hx
        rcases mem_append.mp hx with hx | hx
        · exact hs.due x hx
        · rw [mem_singleton] at hx
          rw [hx]
          exact hdue }

theorem OnSchedule.frame (hfirst : ¬p.nextAudio ≤ videoDue p.cfg m)
    (hdue : videoDue p.cfg m ≤ target p.cfg p.last)
    (hmax : videoDue p.cfg m ≤ sourceVideoMixMaxTime)
    (hr : p.handle (videoDue p.cfg m) h = (q, true)) :
    q.cfg = p.cfg ∧ q.last = p.last ∧ OnSchedule q n (m + 1) := by
  unfold handle at hr
  rw [if_neg hfirst] at hr
  rcases hrender : p.renderVideo (videoDue p.cfg m) h with ⟨q', ok⟩
  simp only [hrender, Prod.mk.injEq] at hr
  obtain ⟨rfl, rfl⟩ := hr
  obtain rfl := renderVideo_ok hrender
  have hindex : int64 (p.videoIndex + 1) = ((m + 1 : Nat) : Int) := by
    have hadd := videoDue_add hs.accepted 0 m
    have hzero := videoDue_nonneg hs.accepted 0
    have hnonneg := hs.accepted.sample_nonneg
    unfold sourceVideoMixMaxTime maxInt64 at hmax
    rw [Nat.zero_add] at hadd
    rw [hs.index]
    exact int64_of_nonneg (by omega) (by unfold maxInt64; omega)
  refine ⟨rfl, rfl, ?_⟩
  exact
    { hs with
      index := hindex
      videoCursor := .inl (videoDue_mono hs.accepted (Nat.lt_succ_self m))
      merged := hs.merged.late (videoDue_mono hs.accepted) rfl rfl
        (by rw [← hs.nextAudio]; exact not_le.mp hfirst)
      due := by
        intro x hx
        rcases mem_append.mp hx with hx | hx
        · exact hs.due x hx
        · rw [mem_singleton] at hx
          rw [hx]
          exact hdue }

/-- Every answer being favourable, only the end of the timeline stops an
item. -/
theorem OnSchedule.fair (hf : h.Fair)
    (hmax : videoDue p.cfg m ≤ sourceVideoMixMaxTime)
    (hroom : p.nextAudio ≤ sourceAudioMixMaxTime - sourceAudioMixSamples) :
    (p.handle (videoDue p.cfg m) h).2 = true := by
  obtain ⟨-, hrendered, hstill, hdelivered⟩ := hf
  have hcursor := hs.cursor
  by_cases hfirst : p.nextAudio ≤ videoDue p.cfg m
  · simp [handle, hfirst, renderAudio, writeAudio, hs.audioOpen, hrendered, hstill, hdelivered,
      hcursor, not_lt.mpr hroom]
  · have hlate : ¬videoDue p.cfg m < p.video.cursor := by
      rcases hs.videoCursor with hlt | ⟨heq, -⟩ <;> omega
    have hfresh : ¬(p.video.rendered = true ∧ videoDue p.cfg m = p.video.cursor) := by
      rintro ⟨hrendered, heq⟩
      rcases hs.videoCursor with hlt | ⟨-, hunrendered⟩
      · omega
      · rw [hunrendered] at hrendered
        cases hrendered
    simp [handle, hfirst, renderVideo, writeVideo, hs.videoOpen, hrendered, hstill, hdelivered,
      hlate, hfresh, not_lt.mpr hmax]

/-- What the output has been given is on schedule even when it refused the
last item. -/
theorem OnSchedule.handed (h : Handling) :
    ∃ n' m', Merged isVideo time (audioDue p.cfg) (videoDue p.cfg) n' m'
      (p.handle (videoDue p.cfg m) h).1.handed := by
  unfold handle
  by_cases hfirst : p.nextAudio ≤ videoDue p.cfg m
  · rw [if_pos hfirst]
    rcases renderAudio_handed p h with hh | hh
    · exact ⟨n, m, by simpa [hh] using hs.merged⟩
    · have hnext := hs.merged.early (x := .audio p.nextAudio) (audioDue_mono _) rfl hs.nextAudio
        (by rw [← hs.nextAudio]; exact hfirst)
      exact ⟨n + 1, m, by simpa [hh] using hnext⟩
  · rw [if_neg hfirst]
    rcases renderVideo_handed p (videoDue p.cfg m) h with hh | hh
    · exact ⟨n, m, by simpa [hh] using hs.merged⟩
    · have hnext := hs.merged.late (x := .video (videoDue p.cfg m) h.revision)
        (videoDue_mono hs.accepted) rfl rfl (by rw [← hs.nextAudio]; exact not_le.mp hfirst)
      exact ⟨n, m + 1, by simpa [hh] using hnext⟩

end

/-! ## The loop -/

/-- One iteration: nothing is due, or the step fails with its reason, or one
due item no more than the lag limit late is handed off. -/
theorem OnSchedule.iteration (hs : OnSchedule p n m) {t : Int} (ht : t = target p.cfg p.last)
    (htmax : t ≤ maxInt64) (handling : Nat → Handling) (left count : Nat) :
    (stepLoop t handling (left + 1) count p = (p, none)
      ∧ t < audioDue p.cfg n ∧ t < videoDue p.cfg m)
    ∨ (∃ c e, c.closed = true ∧ stepLoop t handling (left + 1) count p = (c, some e)
      ∧ (∃ n' m', Merged isVideo time (audioDue p.cfg) (videoDue p.cfg) n' m' c.handed)
      ∧ (e = "source program scheduler lag"
        ∨ (e = "source program video time budget" ∧ sourceVideoMixMaxTime < videoDue p.cfg m)
        ∨ (e = "source program revoked" ∧ ¬(handling count).Fair)
        ∨ (e = "source program output failed"
          ∧ ((handling count).Fair → sourceAudioMixMaxTime - sourceAudioMixSamples < p.nextAudio))))
    ∨ ∃ q, stepLoop t handling (left + 1) count p = stepLoop t handling left (count + 1) q
      ∧ q.cfg = p.cfg ∧ q.last = p.last ∧ t - 4800 ≤ audioDue p.cfg n
      ∧ t - 4800 ≤ videoDue p.cfg m
      ∧ ((audioDue p.cfg n ≤ t ∧ OnSchedule q (n + 1) m)
        ∨ (videoDue p.cfg m ≤ t ∧ OnSchedule q n (m + 1))) := by
  have hclosed : ∃ n' m', Merged isVideo time (audioDue p.cfg) (videoDue p.cfg)
      n' m' p.closeLocked.handed := ⟨n, m, by rw [closeLocked_handed]; exact hs.merged⟩
  have hvideo := videoDue_nonneg hs.accepted m
  have hnonneg := hs.accepted.sample_nonneg
  have haudio : p.cfg.startSample ≤ p.nextAudio := by
    rw [hs.nextAudio]
    unfold audioDue
    omega
  have htime := videoTime_eq hs.accepted m
  by_cases hmax : videoDue p.cfg m ≤ sourceVideoMixMaxTime
  case neg =>
    right; left
    rw [if_neg hmax] at htime
    refine ⟨p.closeLocked, "source program video time budget", closeLocked_closed p, ?_,
      hclosed, .inr (.inl ⟨rfl, not_le.mp hmax⟩)⟩
    simp only [stepLoop, hs.index, htime]
  rw [if_pos hmax] at htime
  simp only [stepLoop, hs.index, htime]
  by_cases hdue : min p.nextAudio (videoDue p.cfg m) > t
  · left
    rw [if_pos hdue]
    rw [← hs.nextAudio]
    exact ⟨rfl, by omega, by omega⟩
  right
  rw [if_neg hdue]
  have hdiff : int64 (t - min p.nextAudio (videoDue p.cfg m))
      = t - min p.nextAudio (videoDue p.cfg m) := int64_of_nonneg (by omega) (by omega)
  rw [hdiff]
  by_cases hlag : t - min p.nextAudio (videoDue p.cfg m) > p.cfg.maxLagSamples
  · left
    rw [if_pos hlag]
    exact ⟨p.closeLocked, _, closeLocked_closed p, rfl, hclosed, .inl rfl⟩
  rw [if_neg hlag]
  by_cases hpermitted : (handling count).permitted = false
  · left
    rw [if_pos hpermitted]
    refine ⟨p.closeLocked, _, closeLocked_closed p, rfl, hclosed,
      .inr (.inr (.inl ⟨rfl, fun hf => ?_⟩))⟩
    rw [hf.1] at hpermitted
    cases hpermitted
  rw [if_neg hpermitted]
  have hwithin := hs.accepted.lag_le
  rcases hhandle : p.handle (videoDue p.cfg m) (handling count) with ⟨q, ok⟩
  cases ok with
  | false =>
      left
      have hhanded := hs.handed (handling count)
      rw [hhandle] at hhanded
      refine ⟨q.closeLocked, _, closeLocked_closed q, rfl, by rwa [closeLocked_handed],
        .inr (.inr (.inr ⟨rfl, ?_⟩))⟩
      intro hf
      by_contra hroom
      have hok := hs.fair hf hmax (not_lt.mp hroom)
      rw [hhandle] at hok
      cases hok
  | true =>
      right
      refine ⟨q, rfl, ?_⟩
      rw [← hs.nextAudio]
      by_cases hfirst : p.nextAudio ≤ videoDue p.cfg m
      · obtain ⟨hcfg, hlast, hq⟩ := hs.audio hfirst (by omega) hhandle
        exact ⟨hcfg, hlast, by omega, by omega, .inl ⟨by omega, hq⟩⟩
      · obtain ⟨hcfg, hlast, hq⟩ := hs.frame hfirst (by omega) hmax hhandle
        exact ⟨hcfg, hlast, by omega, by omega, .inr ⟨by omega, hq⟩⟩

/-- **A finished loop.** What a loop returning nil leaves is on schedule,
with both next items beyond the target. -/
theorem OnSchedule.loop_nil {t : Int} (htmax : t ≤ maxInt64) {handling : Nat → Handling} :
    ∀ {left count n m : Nat} {p : SourceProgramClock}, OnSchedule p n m →
      t = target p.cfg p.last → stepLoop t handling left count p = (q, none) →
      ∃ n' m', OnSchedule q n' m' ∧ q.cfg = p.cfg ∧ q.last = p.last
        ∧ t < audioDue p.cfg n' ∧ t < videoDue p.cfg m'
  | 0, _, _, _, _, _, _, hr => by simp [stepLoop] at hr
  | left + 1, count, n, m, p, hs, ht, hr => by
      rcases hs.iteration ht htmax handling left count with
        ⟨heq, ha, hv⟩ | ⟨c, e, -, heq, -, -⟩ | ⟨q', heq, hcfg, hlast, -, -, hq'⟩
      · rw [heq] at hr
        cases hr
        exact ⟨n, m, hs, rfl, rfl, ha, hv⟩
      · rw [heq] at hr
        cases hr
      · rw [heq] at hr
        have ht' : t = target q'.cfg q'.last := by rw [hcfg, hlast, ht]
        rw [← hcfg, ← hlast]
        rcases hq' with ⟨-, hq'⟩ | ⟨-, hq'⟩
        · exact hq'.loop_nil htmax ht' hr
        · exact hq'.loop_nil htmax ht' hr

/-- A loop that fails leaves a closed clock, and an output on schedule. -/
theorem OnSchedule.loop_error {t : Int} (htmax : t ≤ maxInt64) {handling : Nat → Handling}
    {e : String} :
    ∀ {left count n m : Nat} {p : SourceProgramClock}, OnSchedule p n m →
      t = target p.cfg p.last → stepLoop t handling left count p = (q, some e) →
      q.closed = true ∧ ∃ n' m', Merged isVideo time (audioDue p.cfg)
        (videoDue p.cfg) n' m' q.handed
  | 0, _, n, m, p, hs, _, hr => by
      simp only [stepLoop, Prod.mk.injEq] at hr
      rw [← hr.1]
      exact ⟨closeLocked_closed p, n, m, by rw [closeLocked_handed]; exact hs.merged⟩
  | left + 1, count, n, m, p, hs, ht, hr => by
      rcases hs.iteration ht htmax handling left count with
        ⟨heq, -, -⟩ | ⟨c, e', hc, heq, hhanded, -⟩ | ⟨q', heq, hcfg, hlast, -, -, hq'⟩
      · rw [heq] at hr
        cases hr
      · rw [heq] at hr
        cases hr
        exact ⟨hc, hhanded⟩
      · rw [heq] at hr
        have ht' : t = target q'.cfg q'.last := by rw [hcfg, hlast, ht]
        rw [← hcfg]
        rcases hq' with ⟨-, hq'⟩ | ⟨-, hq'⟩
        · exact hq'.loop_error htmax ht' hr
        · exact hq'.loop_error htmax ht' hr

/-- **Enough iterations.** With `A` more blocks and `V` more frames reaching
beyond the target, a loop of more than `A + V` iterations does not run out. -/
theorem OnSchedule.loop_budget {t : Int} (htmax : t ≤ maxInt64) {handling : Nat → Handling} :
    ∀ {left count n m A V : Nat} {p : SourceProgramClock}, OnSchedule p n m →
      t = target p.cfg p.last → t < audioDue p.cfg (n + A) → t < videoDue p.cfg (m + V) →
      A + V < left →
      (stepLoop t handling left count p).2 ≠ some "source program catchup budget"
  | 0, _, _, _, _, _, _, _, _, _, _, hleft => by omega
  | left + 1, count, n, m, A, V, p, hs, ht, hA, hV, hleft => by
      rcases hs.iteration ht htmax handling left count with
        ⟨heq, -, -⟩ | ⟨c, e, -, heq, -, he⟩ | ⟨q', heq, hcfg, hlast, -, -, hq'⟩
      · rw [heq]
        simp
      · rw [heq]
        rcases he with rfl | ⟨rfl, -⟩ | ⟨rfl, -⟩ | ⟨rfl, -⟩ <;> simp
      · rw [heq]
        have ht' : t = target q'.cfg q'.last := by rw [hcfg, hlast, ht]
        rw [← hcfg] at hA hV hq'
        rcases hq' with ⟨hdue, hq'⟩ | ⟨hdue, hq'⟩
        · obtain ⟨A', rfl⟩ : ∃ A', A = A' + 1 := by
            refine Nat.exists_eq_add_one_of_ne_zero fun hzero => ?_
            subst hzero
            exact absurd hA (not_lt.mpr hdue)
          exact hq'.loop_budget htmax ht' (by rwa [Nat.add_right_comm n 1 A']) hV (by omega)
        · obtain ⟨V', rfl⟩ : ∃ V', V = V' + 1 := by
            refine Nat.exists_eq_add_one_of_ne_zero fun hzero => ?_
            subst hzero
            exact absurd hV (not_lt.mpr hdue)
          exact hq'.loop_budget htmax ht' hA (by rwa [Nat.add_right_comm m 1 V']) (by omega)

/-- The 16 iterations of a step are never used up: the lag check leaves six
blocks and seven frames at most. -/
theorem OnSchedule.loop_no_catchup {t : Int} (hs : OnSchedule p n m)
    (ht : t = target p.cfg p.last) (htmax : t ≤ maxInt64) (handling : Nat → Handling) :
    (stepLoop t handling 16 0 p).2 ≠ some "source program catchup budget" := by
  rcases hs.iteration ht htmax handling 15 0 with
    ⟨heq, -, -⟩ | ⟨c, e, -, heq, -, he⟩ | ⟨q', -, -, -, ha, hv, -⟩
  · rw [heq]
    simp
  · rw [heq]
    rcases he with rfl | ⟨rfl, -⟩ | ⟨rfl, -⟩ | ⟨rfl, -⟩ <;> simp
  · have hblocks : t < audioDue p.cfg (n + 6) := by
      unfold audioDue at ha ⊢
      push_cast
      omega
    have hframes : t < videoDue p.cfg (m + 7) := by
      have := videoDue_add hs.accepted m 7
      omega
    exact hs.loop_budget htmax ht hblocks hframes (by omega)

theorem OnSchedule.next_near (hs : OnSchedule p n m) {t : Int}
    (hstart : p.cfg.startSample ≤ t) (hdue : ∀ x ∈ p.handed, x.time ≤ t) :
    p.nextAudio ≤ t + 960 ∧ videoDue p.cfg m ≤ t + 48000 := by
  constructor
  · rw [hs.nextAudio]
    cases n with
    | zero =>
        unfold audioDue
        omega
    | succ k =>
        obtain ⟨x, hx, -, hxk⟩ := (mem_lane_iff hs.merged.early_items _).mpr
          ⟨k, Nat.lt_succ_self k, rfl⟩
        have := hdue x hx
        rw [audioDue_succ]
        omega
  · cases m with
    | zero =>
        have hzero : videoDue p.cfg 0 = p.cfg.startSample := by simp [videoDue]
        omega
    | succ k =>
        obtain ⟨x, hx, -, hxk⟩ := (mem_lane_iff hs.merged.late_items _).mpr
          ⟨k, Nat.lt_succ_self k, rfl⟩
        have hle := videoDue_succ_le hs.accepted k
        have := hdue x hx
        omega

/-- With favourable answers, and a second or more before the end of the
timeline, a loop ends well, reports lag or runs out. -/
theorem OnSchedule.loop_fair {t : Int} (htmax : t ≤ sourceAudioMixMaxTime - 48000)
    {handling : Nat → Handling} (hf : ∀ i, (handling i).Fair) :
    ∀ {left count n m : Nat} {p : SourceProgramClock}, OnSchedule p n m →
      t = target p.cfg p.last → p.cfg.startSample ≤ t →
      (stepLoop t handling left count p).2 = none
      ∨ (stepLoop t handling left count p).2 = some "source program scheduler lag"
      ∨ (stepLoop t handling left count p).2 = some "source program catchup budget"
  | 0, _, _, _, _, _, _, _ => .inr (.inr rfl)
  | left + 1, count, n, m, p, hs, ht, hstart => by
      have hmax : sourceAudioMixMaxTime = maxInt64 - 48000 := rfl
      have hmax' : sourceVideoMixMaxTime = maxInt64 - 48000 := rfl
      have hblock : sourceAudioMixSamples = 960 := rfl
      obtain ⟨haudio, hvideo⟩ := hs.next_near hstart (by rw [ht]; exact hs.due)
      rcases hs.iteration ht (by omega) handling left count with
        ⟨heq, -, -⟩ | ⟨c, e, -, heq, -, he⟩ | ⟨q', heq, hcfg, hlast, -, -, hq'⟩
      · left
        rw [heq]
      · rw [heq]
        rcases he with rfl | ⟨rfl, hlate⟩ | ⟨rfl, hunfair⟩ | ⟨rfl, hfull⟩
        · exact .inr (.inl rfl)
        · omega
        · exact absurd (hf count) hunfair
        · have := hfull (hf count)
          omega
      · rw [heq]
        have ht' : t = target q'.cfg q'.last := by rw [hcfg, hlast, ht]
        have hstart' : q'.cfg.startSample ≤ t := by rwa [hcfg]
        rcases hq' with ⟨-, hq'⟩ | ⟨-, hq'⟩
        · exact hq'.loop_fair htmax hf ht' hstart'
        · exact hq'.loop_fair htmax hf ht' hstart'

/-! ## A step -/

variable {cfg : ProgramClockConfig}

theorem target_mono (hcfg : cfg.Accepted) {s t : Int} (hs : cfg.start ≤ s) (hst : s ≤ t)
    (hbudget : sourceDurationSamples (timeSub t cfg.start)
      ≤ int64 (sourceAudioMixMaxTime - cfg.startSample)) :
    cfg.startSample ≤ target cfg s ∧ target cfg s ≤ target cfg t
      ∧ target cfg t ≤ sourceAudioMixMaxTime
      ∧ target cfg t = cfg.startSample + sourceDurationSamples (timeSub t cfg.start) := by
  have h0 := hcfg.sample_nonneg
  have h1 := hcfg.sample_le
  have hmaxTime : sourceAudioMixMaxTime = 9223372036854727807 := rfl
  have hmaxInt : maxInt64 = 9223372036854775807 := rfl
  rw [int64_of_nonneg (by omega) (by omega)] at hbudget
  have hdur : ∀ u, cfg.start ≤ u → u ≤ t → 0 ≤ sourceDurationSamples (timeSub u cfg.start)
      ∧ sourceDurationSamples (timeSub u cfg.start)
        ≤ sourceDurationSamples (timeSub t cfg.start) := by
    intro u hu hut
    rw [timeSub_of_le hu, timeSub_of_le (le_trans hu hut),
      sourceDurationSamples_eq (by omega) (by omega),
      sourceDurationSamples_eq (by omega) (by omega)]
    unfold second
    constructor <;> omega
  obtain ⟨hpos, hle⟩ := hdur s hs hst
  unfold target
  rw [int64_of_nonneg (by omega) (by omega), int64_of_nonneg (by omega) (by omega)]
  refine ⟨?_, ?_, ?_, rfl⟩ <;> omega

theorem OnSchedule.step (hs : OnSchedule p n m) (e : Tick) :
    ((p.step e).2 = none → p.last ≤ e.now ∧ (p.step e).1.cfg = p.cfg ∧ (p.step e).1.last = e.now
      ∧ ∃ n' m', OnSchedule (p.step e).1 n' m'
        ∧ target p.cfg e.now < audioDue p.cfg n' ∧ target p.cfg e.now < videoDue p.cfg m')
    ∧ ((p.step e).2 ≠ none → (p.step e).1.closed = true
      ∧ ∃ n' m', Merged isVideo time (audioDue p.cfg) (videoDue p.cfg) n' m' (p.step e).1.handed)
    ∧ (p.step e).2 ≠ some "source program catchup budget"
    ∧ (e.permitted = true → (∀ i, (e.handling i).Fair) → p.last ≤ e.now →
      sourceDurationSamples (timeSub e.now p.cfg.start)
        ≤ sourceAudioMixMaxTime - 48000 - p.cfg.startSample →
      (p.step e).2 = none ∨ (p.step e).2 = some "source program scheduler lag") := by
  have hmerged : ∃ n' m', Merged isVideo time (audioDue p.cfg) (videoDue p.cfg)
      n' m' p.handed := ⟨n, m, hs.merged⟩
  unfold SourceProgramClock.step
  by_cases hdenied : p.closed = true ∨ e.permitted = false
  · rw [if_pos hdenied]
    refine ⟨by simp, by simpa using hmerged, by simp, fun hpermitted => ?_⟩
    rcases hdenied with hclosed | hdenied
    · rw [hs.isOpen] at hclosed
      cases hclosed
    · rw [hpermitted] at hdenied
      cases hdenied
  rw [if_neg hdenied]
  by_cases hback : e.now < p.cfg.start ∨ e.now < p.last
  · rw [if_pos hback]
    have hstarted := hs.started
    exact ⟨by simp, by simpa using hmerged, by simp, fun _ _ _ => by omega⟩
  rw [if_neg hback]
  have hmaxTime : sourceAudioMixMaxTime = 9223372036854727807 := rfl
  have hmaxInt : maxInt64 = 9223372036854775807 := rfl
  have h0 := hs.accepted.sample_nonneg
  have h1 := hs.accepted.sample_le
  have hroom : int64 (sourceAudioMixMaxTime - p.cfg.startSample)
      = sourceAudioMixMaxTime - p.cfg.startSample := int64_of_nonneg (by omega) (by omega)
  by_cases hbudget : sourceDurationSamples (timeSub e.now p.cfg.start)
      > int64 (sourceAudioMixMaxTime - p.cfg.startSample)
  · simp only [if_pos hbudget]
    refine ⟨by simp, by simpa using hmerged, by simp, fun _ _ _ hend => ?_⟩
    omega
  simp only [if_neg hbudget]
  obtain ⟨hstart, hmono, htmax, hexact⟩ := target_mono hs.accepted hs.started
    (show p.last ≤ e.now by omega) (not_lt.mp hbudget)
  have hs' : OnSchedule { p with last := e.now } n m :=
    { hs with
      started := show p.cfg.start ≤ e.now by omega
      due := fun x hx => le_trans (hs.due x hx) hmono }
  have hfits : target p.cfg e.now ≤ maxInt64 := by omega
  refine ⟨fun hnil => ?_, fun herror => ?_, hs'.loop_no_catchup rfl hfits _,
    fun _ hfair hlast hend => ?_⟩
  · obtain ⟨n', m', hq, hcfg, hqlast, ha, hv⟩ := hs'.loop_nil hfits rfl (Prod.ext rfl hnil)
    exact ⟨by omega, hcfg, hqlast, n', m', hq, ha, hv⟩
  · obtain ⟨text, htext⟩ := Option.ne_none_iff_exists'.mp herror
    exact hs'.loop_error hfits rfl (Prod.ext rfl htext)
  · have hcatchup := hs'.loop_no_catchup rfl hfits e.handling
    have hlate : target p.cfg e.now ≤ sourceAudioMixMaxTime - 48000 := by omega
    have hfirst : p.cfg.startSample ≤ target p.cfg e.now := le_trans hstart hmono
    rcases hs'.loop_fair hlate hfair rfl hfirst with hok | hlag | hout
    · exact .inl hok
    · exact .inr hlag
    · exact absurd hout hcatchup

/-! ## Whole runs -/

theorem newSourceProgramClock_onSchedule {permitted : Bool} {now : Int}
    {audio : AudioMixer} {video : VideoMixer}
    (hnew : newSourceProgramClock cfg permitted now audio video = some p) :
    p.cfg = cfg ∧ OnSchedule p 0 0 := by
  unfold newSourceProgramClock at hnew
  split at hnew
  · cases hnew
  · have haccepted : cfg.Accepted := ⟨by omega, by omega, by omega, by omega, by omega, by omega⟩
    split at hnew
    · cases hnew
    · split at hnew
      · cases hnew
      · rename_i hmixers
        cases hnew
        simp only [not_or, Bool.not_eq_true, ne_eq, not_not] at hmixers
        obtain ⟨haudio, hvideo, -, -, -, -, hcursor, hframes, hrendered⟩ := hmixers
        refine ⟨rfl, ?_⟩
        exact
          { accepted := haccepted
            isOpen := rfl
            audioOpen := haudio
            videoOpen := hvideo
            nextAudio := by simp [audioDue]
            cursor := hcursor
            index := rfl
            videoCursor := .inr ⟨by simp [videoDue, hframes], hrendered⟩
            merged := .nil _ _ _ _
            started := le_refl _
            due := by simp }

variable {es : List Tick} {p₀ : SourceProgramClock}

/-- **Run lemma.** While its steps return nil, a clock stays on schedule, and
after a step both next items lie beyond the target. -/
theorem OnSchedule.run (hs : OnSchedule p₀ 0 0) (hp : Path SteppedNil p₀ es p) :
    p.cfg = p₀.cfg ∧ ∃ n m, OnSchedule p n m ∧ ∀ e, es.getLast? = some e →
      p.last = e.now ∧ target p.cfg p.last < audioDue p.cfg n
        ∧ target p.cfg p.last < videoDue p.cfg m := by
  refine Runs.Path.history (J := fun es p => p.cfg = p₀.cfg ∧ ∃ n m, OnSchedule p n m
    ∧ ∀ e, es.getLast? = some e → p.last = e.now ∧ target p.cfg p.last < audioDue p.cfg n
      ∧ target p.cfg p.last < videoDue p.cfg m) ?_ ?_ hp
  · exact ⟨rfl, 0, 0, hs, fun e he => by cases he⟩
  · rintro es t e u - ⟨hcfg, n, m, ht, -⟩ hstep
    have hres : t.step e = (u, none) := hstep
    obtain ⟨hnil, -⟩ := ht.step e
    rw [hres] at hnil
    obtain ⟨-, hcfg', hlast, n', m', hu, ha, hv⟩ := hnil rfl
    refine ⟨hcfg'.trans hcfg, n', m', hu, fun e' he' => ?_⟩
    rw [getLast?_concat, Option.some.injEq] at he'
    subst he'
    rw [hcfg', hlast]
    exact ⟨rfl, ha, hv⟩

/-- Whatever its steps return, a clock is closed or on schedule, and what the
output has been given is. -/
theorem OnSchedule.run_or_closed (hs : OnSchedule p₀ 0 0) (hp : Path Stepped p₀ es p) :
    (p.cfg = p₀.cfg ∧ ∃ n m, OnSchedule p n m)
    ∨ (p.closed = true ∧ ∃ n m, Merged isVideo time (audioDue p₀.cfg)
      (videoDue p₀.cfg) n m p.handed) := by
  refine Runs.Path.inv (I := fun p => (p.cfg = p₀.cfg ∧ ∃ n m, OnSchedule p n m)
    ∨ (p.closed = true ∧ ∃ n m, Merged isVideo time (audioDue p₀.cfg)
      (videoDue p₀.cfg) n m p.handed)) ?_ hp (.inl ⟨rfl, 0, 0, hs⟩)
  rintro t e u hstep (⟨hcfg, n, m, ht⟩ | ⟨hclosed, hmerged⟩)
  · have hres : (t.step e).1 = u := hstep
    obtain ⟨hnil, herror, -⟩ := ht.step e
    rw [hres] at hnil herror
    by_cases hnone : (t.step e).2 = none
    · obtain ⟨-, hcfg', -, n', m', hu, -⟩ := hnil hnone
      exact .inl ⟨hcfg'.trans hcfg, n', m', hu⟩
    · rw [hcfg] at herror
      exact .inr (herror hnone)
  · right
    have hres : (t.step e).1 = u := hstep
    rw [← hres, SourceProgramClock.step, if_pos (.inl hclosed)]
    exact ⟨closeLocked_closed t, by rwa [closeLocked_handed]⟩

/-- The handoffs of any run of a new clock are a merge of the timetables. -/
theorem handed_merged {permitted : Bool} {now : Int} {audio : AudioMixer} {video : VideoMixer}
    (hnew : newSourceProgramClock cfg permitted now audio video = some p₀)
    (hp : Path Stepped p₀ es p) :
    ∃ n m, Merged isVideo time (audioDue cfg) (videoDue cfg) n m p.handed := by
  obtain ⟨hcfg₀, hs₀⟩ := newSourceProgramClock_onSchedule hnew
  rcases hs₀.run_or_closed hp with ⟨hcfg, n, m, hs⟩ | ⟨-, hmerged⟩
  · rw [← hcfg₀, ← hcfg]
    exact ⟨n, m, hs.merged⟩
  · rwa [← hcfg₀]

/-- The handoffs are exactly the blocks and the frames up to sample `t`. -/
def HandedUpTo (cfg : ProgramClockConfig) (t : Int) (handed : List Handoff) : Prop :=
  (∀ k : Nat, Handoff.audio (cfg.startSample + 960 * k) ∈ handed ↔ cfg.startSample + 960 * k ≤ t)
  ∧ ∀ i : Nat, (∃ revision,
      Handoff.video (cfg.startSample + i * 48000 / cfg.framesPerSecond) revision ∈ handed)
    ↔ cfg.startSample + i * 48000 / cfg.framesPerSecond ≤ t

theorem OnSchedule.handedUpTo (hs : OnSchedule p n m)
    (ha : target p.cfg p.last < audioDue p.cfg n) (hv : target p.cfg p.last < videoDue p.cfg m) :
    HandedUpTo p.cfg (target p.cfg p.last) p.handed := by
  constructor
  · intro k
    have hiff := lane_due_iff (audioDue_mono p.cfg) hs.merged.early_items ha hs.due k
    unfold audioDue at hiff
    rw [← hiff]
    constructor
    · exact fun hmem => ⟨_, hmem, rfl, rfl⟩
    · rintro ⟨x, hx, hlane, htime⟩
      cases x with
      | audio time =>
          rwa [← htime]
      | video time revision => cases hlane
  · intro i
    have hiff := lane_due_iff (videoDue_mono hs.accepted) hs.merged.late_items hv hs.due i
    unfold videoDue at hiff
    rw [← hiff]
    constructor
    · rintro ⟨revision, hmem⟩
      exact ⟨_, hmem, rfl, rfl⟩
    · rintro ⟨x, hx, hlane, htime⟩
      cases x with
      | audio time => cases hlane
      | video time revision =>
          exact ⟨revision, by rwa [← htime]⟩

/-- **The schedule of a program clock.** Through any steps that return nil,
the output gets the blocks `startSample + 960 k` and the frames
`startSample + ⌊48000 i / fps⌋`, each once, merged by time with the blocks
first at ties, and after every step exactly those that are due. No step
runs out of iterations: with favourable answers, and a second before the
end of the timeline, it returns nil or reports lag. -/
theorem step_schedule {cfg : ProgramClockConfig} {permitted : Bool} {now : Int}
    {audio : AudioMixer} {video : VideoMixer} {p₀ : SourceProgramClock}
    (hnew : newSourceProgramClock cfg permitted now audio video = some p₀) :
    (∀ es p, Path SteppedNil p₀ es p → (∃ n : Nat, (p.handed.filter (fun x => !x.isVideo)).map time
        = (range n).map fun k : Nat => cfg.startSample + 960 * k)
      ∧ (∃ m : Nat, (p.handed.filter isVideo).map time
        = (range m).map fun i : Nat => cfg.startSample + i * 48000 / cfg.framesPerSecond)
      ∧ p.handed.Pairwise (Before isVideo time)
      ∧ ∀ e, es.getLast? = some e → HandedUpTo cfg (target cfg e.now) p.handed)
    ∧ ∀ es p e, Path Stepped p₀ es p →
      (p.step e).2 ≠ some "source program catchup budget"
      ∧ ((p.step e).2 = none → HandedUpTo cfg (target cfg e.now) (p.step e).1.handed)
      ∧ (p.closed = false → e.permitted = true → (∀ i, (e.handling i).Fair) → p.last ≤ e.now →
        sourceDurationSamples (timeSub e.now cfg.start)
          ≤ sourceAudioMixMaxTime - 48000 - cfg.startSample →
        (p.step e).2 = none ∨ (p.step e).2 = some "source program scheduler lag") := by
  obtain ⟨hcfg₀, hs₀⟩ := newSourceProgramClock_onSchedule hnew
  constructor
  · intro es p hp
    obtain ⟨hcfg, n, m, hs, hlast⟩ := hs₀.run hp
    have heq : p.cfg = cfg := hcfg.trans hcfg₀
    refine ⟨⟨n, ?_⟩, ⟨m, ?_⟩, hs.merged.sorted, fun e he => ?_⟩
    · rw [hs.merged.early_items, ← heq]
      rfl
    · rw [hs.merged.late_items, ← heq]
      rfl
    · obtain ⟨hnow, ha, hv⟩ := hlast e he
      rw [← hnow, ← heq]
      exact hs.handedUpTo ha hv
  · intro es p e hp
    rcases hs₀.run_or_closed hp with ⟨hcfg, n, m, hs⟩ | ⟨hclosed, -⟩
    · have heq : p.cfg = cfg := hcfg.trans hcfg₀
      obtain ⟨hnil, -, hcatchup, hfair⟩ := hs.step e
      refine ⟨hcatchup, fun hnone => ?_, fun _ => by rw [← heq]; exact hfair⟩
      obtain ⟨-, hcfg', hlast', n', m', hq, ha, hv⟩ := hnil hnone
      rw [← hcfg', ← hlast'] at ha hv
      have hup := hq.handedUpTo ha hv
      rwa [hcfg', hlast', heq] at hup
    · have hstep : p.step e = (p.closeLocked, some "source program revoked") := by
        rw [SourceProgramClock.step, if_pos (.inl hclosed)]
      rw [hstep]
      refine ⟨by simp, by simp, fun hopen => ?_⟩
      rw [hclosed] at hopen
      cases hopen

/-! ### A tenth of a second at 60 frames -/

def sampleConfig : ProgramClockConfig := ⟨0, 0, 60, 4800⟩

def sampleClock : SourceProgramClock :=
  ⟨sampleConfig, ⟨0, 0, true, false⟩, ⟨0, 0, false, true, false⟩, 0, 0, 0, false, []⟩

/-- 100 ms after the start, with every answer favourable. -/
def sampleTick : Tick := ⟨true, 100000000, fun _ => ⟨true, true, 1, true, true⟩⟩

theorem step_schedule_sample : (sampleClock.step sampleTick).1.handed.length = 13
    ∧ HandedUpTo sampleConfig (target sampleConfig sampleTick.now)
      (sampleClock.step sampleTick).1.handed := by
  have hnew : newSourceProgramClock sampleConfig true 0 ⟨0, 0, false, false⟩
      ⟨0, 0, false, false, false⟩ = some sampleClock := by decide
  refine ⟨by decide, ?_⟩
  exact ((step_schedule hnew).2 [] sampleClock sampleTick (.nil _)).2.1 (by decide)

end SourceProgramClock

end Packager

end WebrtcMinimize
