import WebrtcMinimize.SourceClock

/-!
# The map of a source clock

What a call on a publisher's clocks can change is `Kept`: the reference,
once anchored, and the anchor, the first report and the rate of a source,
once it has a report, stay as they are until the clock or the source is
closed; and an RTP timestamp is always congruent to the first one and the
unwrapped time since. Everything else is read off `sourceSenderReport`, one
outcome at a time.
-/

namespace WebrtcMinimize

namespace Packager

open GoInts Runs SourceMediaClock List Option Runs.Path

/-! ## What calls keep -/

namespace SourcePublisherClock

/-- An anchored reference is the same later on, unless the clock is closed. -/
def Later (p p' : SourcePublisherClock) : Prop :=
  p'.closed = true
  ∨ (p.closed = false ∧ (p.anchored = true → p'.anchored = true ∧ p'.referenceNTP = p.referenceNTP
      ∧ p'.referenceSample = p.referenceSample))

variable {p p' p'' : SourcePublisherClock}

theorem Later.refl (p : SourcePublisherClock) : p.Later p := by
  by_cases h : p.closed = true
  · exact .inl h
  · exact .inr ⟨by simpa using h, fun ha => ⟨ha, rfl, rfl⟩⟩

theorem Later.trans (h : p.Later p') (h' : p'.Later p'') : p.Later p'' := by
  rcases h' with hclosed | ⟨hopen, hkept'⟩
  · exact .inl hclosed
  rcases h with hclosed | ⟨hopen', hkept⟩
  · rw [hclosed] at hopen
    cases hopen
  refine .inr ⟨hopen', fun ha => ?_⟩
  obtain ⟨ha', hntp, hsample⟩ := hkept ha
  obtain ⟨ha'', hntp', hsample'⟩ := hkept' ha'
  exact ⟨ha'', hntp'.trans hntp, hsample'.trans hsample⟩

theorem Later.position_eq (h : p.Later p') (hopen : p'.closed = false)
    (ha : p.anchored = true) (ntp : BitVec 64) : p'.position ntp = p.position ntp := by
  rcases h with hclosed | ⟨-, hkept⟩
  · rw [hclosed] at hopen
    cases hopen
  · obtain ⟨-, hntp, hsample⟩ := hkept ha
    rw [position, position, hntp, hsample]

theorem timeLocked_cases (p : SourcePublisherClock) (now : Int) :
    (p.closed = false ∧ p.start ≤ now ∧ p.last ≤ now
      ∧ p.timeLocked now = ({ p with last := now }, some now))
    ∨ ∃ p', p.timeLocked now = (p', none) ∧ p'.closed = true := by
  unfold timeLocked
  by_cases hclosed : p.closed = true
  · rw [if_pos hclosed]
    exact .inr ⟨p, rfl, hclosed⟩
  · rw [if_neg hclosed]
    by_cases hback : now < p.start ∨ now < p.last
    · rw [if_pos hback]
      exact .inr ⟨_, rfl, rfl⟩
    · rw [if_neg hback]
      exact .inl ⟨by simpa using hclosed, by omega, by omega, rfl⟩

theorem Later.read (hopen : p.closed = false) (now : Int) : p.Later { p with last := now } :=
  .inr ⟨hopen, fun ha => ⟨ha, rfl, rfl⟩⟩

theorem Later.anchor (hopen : p.closed = false) (ntp : BitVec 64) (now : Int) :
    p.Later (p.anchor ntp now) := by
  unfold SourcePublisherClock.anchor
  by_cases ha : p.anchored = true
  · rw [if_pos ha]
    exact .refl p
  · exact .inr ⟨hopen, fun h => absurd h ha⟩

theorem anchor_spec (p : SourcePublisherClock) (ntp : BitVec 64) (now : Int) :
    (p.anchor ntp now).anchored = true ∧ (p.anchor ntp now).closed = p.closed := by
  unfold anchor
  by_cases ha : p.anchored = true
  · rw [if_pos ha]
    exact ⟨ha, rfl⟩
  · rw [if_neg ha]
    exact ⟨rfl, rfl⟩

/-- A successful reference is the position by an anchored, open clock. -/
theorem reference_spec (p : SourcePublisherClock) (ntp : BitVec 64) (now : Int) :
    p.Later (p.reference ntp now).1
    ∧ ∀ sample t, (p.reference ntp now).2 = some (sample, t) →
      t = now ∧ sample = (p.reference ntp now).1.position ntp ∧ 0 ≤ sample
      ∧ (p.reference ntp now).1.anchored = true ∧ (p.reference ntp now).1.closed = false := by
  unfold reference
  rcases p.timeLocked_cases now with ⟨hopen, -, -, heq⟩ | ⟨p', heq, hclosed⟩
  · rw [heq]
    have hread := Later.read hopen now
    by_cases hzero : ntp = 0
    · simp only [if_pos hzero]
      exact ⟨hread, fun sample t h => by cases h⟩
    · simp only [if_neg hzero]
      have hanchor := Later.anchor (p := { p with last := now }) hopen ntp now
      obtain ⟨ha, hc⟩ := anchor_spec { p with last := now } ntp now
      split
      · exact ⟨hread.trans hanchor, fun sample t h => by cases h⟩
      · refine ⟨hread.trans hanchor, fun sample t h => ?_⟩
        cases h
        exact ⟨rfl, rfl, by omega, ha, hc.trans hopen⟩
  · rw [heq]
    exact ⟨.inl hclosed, fun sample t h => by cases h⟩

end SourcePublisherClock

namespace SourceMediaClock

/-- What holds of every source. -/
structure OK (c : SourceMediaClock) : Prop where
  rtp : c.adaptive = false → c.last.rtp = c.first.rtp + BitVec.ofInt 32 c.elapsedRTP
  start : c.reports = 0 → c.elapsedRTP = 0
  rated : c.bound = true → c.rate = 48000 ∨ c.rate = 90000
  reported : 0 < c.reports → c.bound = true

/-- The map of a source with a report is the same later on, unless the source
is closed. -/
def Later (c c' : SourceMediaClock) : Prop :=
  c'.adaptive = c.adaptive
  ∧ (c'.closed = true ∨ (c.closed = false ∧ (c.bound = true → c'.bound = true ∧ c'.rate = c.rate)
      ∧ (0 < c.reports → 0 < c'.reports ∧ c'.anchor = c.anchor ∧ c'.first = c.first)))

variable {c c' c'' : SourceMediaClock}

theorem Later.refl (c : SourceMediaClock) : c.Later c := by
  refine ⟨rfl, ?_⟩
  by_cases h : c.closed = true
  · exact .inl h
  · exact .inr ⟨by simpa using h, fun hb => ⟨hb, rfl⟩, fun hr => ⟨hr, rfl, rfl⟩⟩

theorem Later.trans (h : c.Later c') (h' : c'.Later c'') : c.Later c'' := by
  obtain ⟨hadaptive, h⟩ := h
  obtain ⟨hadaptive', h'⟩ := h'
  refine ⟨hadaptive'.trans hadaptive, ?_⟩
  rcases h' with hclosed | ⟨hopen, hbound', hmap'⟩
  · exact .inl hclosed
  rcases h with hclosed | ⟨hopen', hbound, hmap⟩
  · rw [hclosed] at hopen
    cases hopen
  refine .inr ⟨hopen', fun hb => ?_, fun hr => ?_⟩
  · obtain ⟨hb', hrate⟩ := hbound hb
    obtain ⟨hb'', hrate'⟩ := hbound' hb'
    exact ⟨hb'', hrate'.trans hrate⟩
  · obtain ⟨hr', hanchor, hfirst⟩ := hmap hr
    obtain ⟨hr'', hanchor', hfirst'⟩ := hmap' hr'
    exact ⟨hr'', hanchor'.trans hanchor, hfirst'.trans hfirst⟩

theorem Later.sampleAt_eq (h : c.Later c') (hok : c.OK) (hopen : c'.closed = false)
    (hr : 0 < c.reports) (u : Int) : c'.sampleAt u = c.sampleAt u ∧ c'.rate = c.rate
      ∧ c'.anchor = c.anchor ∧ c'.first = c.first := by
  obtain ⟨-, hclosed | ⟨-, hbound, hmap⟩⟩ := h
  · rw [hclosed] at hopen
    cases hopen
  · obtain ⟨-, hanchor, hfirst⟩ := hmap hr
    obtain ⟨-, hrate⟩ := hbound (hok.reported hr)
    rw [sampleAt, sampleAt, hanchor, hrate]
    exact ⟨rfl, rfl, rfl, hfirst⟩

theorem fresh_ok (adaptive : Bool) : (fresh adaptive).OK :=
  ⟨fun _ => rfl, fun _ => rfl, fun h => (by cases h), fun h => absurd h (Nat.lt_irrefl 0)⟩

theorem OK.shut (h : c.OK) : c.shut.OK :=
  ⟨fun _ => rfl, fun _ => rfl, h.rated, fun hr => absurd hr (Nat.lt_irrefl 0)⟩

theorem OK.unwrap_rtp (h : c.OK) (hadaptive : c.adaptive = false) (timestamp : BitVec 32) :
    timestamp = c.first.rtp + BitVec.ofInt 32 (c.unwrap timestamp) := by
  have hrtp := h.rtp hadaptive
  rw [unwrap, BitVec.ofInt_add, BitVec.ofInt_toInt, ← BitVec.add_assoc, ← hrtp,
    BitVec.add_comm, BitVec.sub_add_cancel]

theorem OK.sampleAt_mono (h : c.OK) (hr : 0 < c.reports) {u u' : Int} (hle : u ≤ u') :
    c.sampleAt u ≤ c.sampleAt u' := by
  have hrate : (0 : Int) < c.rate := by
    rcases h.rated (h.reported hr) with hrate | hrate <;> rw [hrate] <;> decide
  have hdiv := Int.tdiv_le_tdiv hrate (show u * 48000 ≤ u' * 48000 by omega)
  unfold sampleAt
  omega

end SourceMediaClock

/-! ## One call on a source -/

namespace SharedClock

/-- What a call on a source keeps. -/
structure Kept (s s' : SharedClock) : Prop where
  publisher : s.publisher.Later s'.publisher
  source : s.source.Later s'.source
  ok : s.source.OK → s'.source.OK

variable {s s' s'' : SharedClock}

theorem Kept.refl (s : SharedClock) : s.Kept s := ⟨.refl _, .refl _, id⟩

theorem Kept.trans (h : s.Kept s') (h' : s'.Kept s'') : s.Kept s'' :=
  ⟨h.publisher.trans h'.publisher, h.source.trans h'.source, fun hok => h'.ok (h.ok hok)⟩

theorem Kept.of_publisher {p : SourcePublisherClock} (h : s.publisher.Later p) :
    s.Kept ⟨p, s.source⟩ :=
  ⟨h, .refl _, id⟩

section

variable (s : SharedClock)

theorem closeLocked_spec :
    s.Kept s.closeLocked ∧ s.closeLocked.source.closed = true := by
  unfold closeLocked
  by_cases hclosed : s.source.closed = true
  · rw [if_pos hclosed]
    exact ⟨.refl s, hclosed⟩
  · rw [if_neg hclosed]
    refine ⟨⟨?_, ⟨rfl, .inl rfl⟩, SourceMediaClock.OK.shut⟩, rfl⟩
    exact SourcePublisherClock.Later.refl s.publisher

theorem failLocked_spec (reason : Nat) :
    s.Kept (s.failLocked reason) ∧ (s.failLocked reason).source.closed = true := by
  unfold failLocked
  by_cases hclosed : s.source.closed = true
  · rw [if_pos hclosed]
    exact ⟨.refl s, hclosed⟩
  · rw [if_neg hclosed]
    obtain ⟨hkept, hshut⟩ := closeLocked_spec { s with source := { s.source with failure := reason } }
    refine ⟨⟨hkept.publisher, hkept.source, fun hok => hkept.ok ?_⟩, hshut⟩
    exact ⟨hok.rtp, hok.start, hok.rated, hok.reported⟩

theorem currentLocked_cases (now : Int) :
    (s.source.closed = false ∧ s.publisher.closed = false
      ∧ s.currentLocked now = (⟨{ s.publisher with last := now }, s.source⟩, some now))
    ∨ ∃ s', s.currentLocked now = (s', none) ∧ s.Kept s' ∧ s'.source.closed = true := by
  unfold currentLocked
  rcases s.publisher.timeLocked_cases now with ⟨hopen, -, -, heq⟩ | ⟨p, heq, hclosed⟩
  · rw [heq]
    have hread : s.Kept ⟨{ s.publisher with last := now }, s.source⟩ :=
      .of_publisher (.read hopen now)
    by_cases hsource : s.source.closed = true
    · right
      obtain ⟨hkept, hshut⟩ := failLocked_spec ⟨{ s.publisher with last := now }, s.source⟩ 2
      exact ⟨_, by simp only [if_pos hsource], hread.trans hkept, hshut⟩
    simp only [if_neg hsource]
    split
    · right
      obtain ⟨hkept, hshut⟩ := failLocked_spec ⟨{ s.publisher with last := now }, s.source⟩ 3
      exact ⟨_, rfl, hread.trans hkept, hshut⟩
    · exact .inl ⟨by simpa using hsource, hopen, rfl⟩
  · right
    rw [heq]
    obtain ⟨hkept, hshut⟩ := failLocked_spec ⟨p, s.source⟩ 2
    exact ⟨_, rfl, (Kept.of_publisher (.inl hclosed)).trans hkept, hshut⟩

theorem currentLocked_kept (now : Int) : s.Kept (s.currentLocked now).1 := by
  rcases s.currentLocked_cases now with ⟨-, hopen, heq⟩ | ⟨s', heq, hkept, -⟩
  · rw [heq]
    exact .of_publisher (.read hopen now)
  · rw [heq]
    exact hkept

theorem bindSourceClock_kept (ssrc : BitVec 32) (rate : Nat) (now : Int) :
    s.Kept (s.bindSourceClock ssrc rate now) := by
  unfold bindSourceClock
  rcases s.publisher.timeLocked_cases now with ⟨hopen, -, -, heq⟩ | ⟨p, heq, hclosed⟩
  · rw [heq]
    have hread : s.Kept ⟨{ s.publisher with last := now }, s.source⟩ :=
      .of_publisher (.read hopen now)
    simp only
    split
    · exact hread.trans (failLocked_spec _ 1).1
    · rename_i hvalid
      split
      · exact hread
      · rename_i hunbound
        have hrate : rate = 48000 ∨ rate = 90000 := by
          by_contra hrate
          exact hvalid (.inr (.inl (by omega)))
        have hfresh : s.source.bound = false := by simpa using hunbound
        refine hread.trans ⟨.refl _, ⟨rfl, .inr ⟨?_, fun hb => ?_, fun hr => ⟨hr, rfl, rfl⟩⟩⟩,
          fun hok => ⟨hok.rtp, hok.start, fun _ => hrate, fun _ => rfl⟩⟩
        · simp only [not_or, Bool.not_eq_true] at hvalid
          exact hvalid.1
        · rw [hfresh] at hb
          cases hb
  · rw [heq]
    exact (Kept.of_publisher (.inl hclosed)).trans (failLocked_spec _ 1).1

theorem map_kept (timestamp : BitVec 32) (now : Int) :
    s.Kept (s.map timestamp now).1 := by
  have hkept := s.currentLocked_kept now
  unfold map
  rcases heq : s.currentLocked now with ⟨s', t⟩
  rw [heq] at hkept
  cases t with
  | none => exact hkept
  | some t =>
      simp only
      split <;> exact hkept

theorem videoTimeLocked_kept (now : Int) : s.Kept (s.videoTimeLocked now).1 := by
  have hkept := s.currentLocked_kept now
  unfold videoTimeLocked
  rcases heq : s.currentLocked now with ⟨s', t⟩
  rw [heq] at hkept
  cases t with
  | none => exact hkept
  | some t =>
      simp only
      split
      · exact hkept
      · split
        · exact hkept
        · split <;> exact hkept

theorem mapVideo_kept (timestamp : BitVec 32) (now : Int) :
    s.Kept (s.mapVideo timestamp now).1 := by
  have hkept := s.videoTimeLocked_kept now
  unfold mapVideo
  rcases heq : s.videoTimeLocked now with ⟨s', snapshot⟩
  rw [heq] at hkept
  simp only
  split
  · exact hkept
  · split <;> exact hkept

end

/-! ### A sender report -/

/-- The map and the freshness deadline are the same. -/
structure SameMap (c c' : SourceMediaClock) : Prop where
  first : c'.first = c.first
  last : c'.last = c.last
  anchor : c'.anchor = c.anchor
  elapsedRTP : c'.elapsedRTP = c.elapsedRTP
  rate : c'.rate = c.rate
  reports : c'.reports = c.reports
  deadline : c'.deadline = c.deadline

theorem SameMap.later {c c' : SourceMediaClock} (h : SameMap c c') (hopen : c.closed = false)
    (hadaptive : c'.adaptive = c.adaptive) (hbound : c'.bound = c.bound) : c.Later c' :=
  ⟨hadaptive, .inr ⟨hopen, fun hb => ⟨hbound.trans hb, h.rate⟩,
    fun hr => ⟨by rw [h.reports]; exact hr, h.anchor, h.first⟩⟩⟩

theorem SameMap.ok {c c' : SourceMediaClock} (h : SameMap c c')
    (hadaptive : c'.adaptive = c.adaptive) (hbound : c'.bound = c.bound) (hok : c.OK) : c'.OK where
  rtp := by
    rw [hadaptive, h.last, h.first, h.elapsedRTP]
    exact hok.rtp
  start := by
    rw [h.reports, h.elapsedRTP]
    exact hok.start
  rated := by
    rw [hbound, h.rate]
    exact hok.rated
  reported := by
    rw [h.reports, hbound]
    exact hok.reported

/-- A deviating report closes the source, or only marks it uncertain. -/
theorem suspend_spec (s : SharedClock) (invalidShape : Bool) (interval skew observedAt : Int)
    (hopen : s.source.closed = false) :
    s.Kept (s.suspend invalidShape interval skew observedAt).1
    ∧ (((s.suspend invalidShape interval skew observedAt).2 = .denied
        ∧ (s.suspend invalidShape interval skew observedAt).1.source.closed = true)
      ∨ ((s.suspend invalidShape interval skew observedAt).2 = .outlier
        ∧ SameMap s.source (s.suspend invalidShape interval skew observedAt).1.source)) := by
  have hnoted : s.Kept { s with
      source := { s.source with
        failureInterval := max (-576000) (min 576000 interval)
        failureSkew := max (-48000) (min 48000 skew) } } := by
    have hsame : SameMap s.source { s.source with
        failureInterval := max (-576000) (min 576000 interval)
        failureSkew := max (-48000) (min 48000 skew) } := ⟨rfl, rfl, rfl, rfl, rfl, rfl, rfl⟩
    exact ⟨.refl _, hsame.later hopen rfl rfl, hsame.ok rfl rfl⟩
  unfold suspend
  simp only
  split
  · split
    · exact ⟨hnoted.trans (failLocked_spec _ 5).1, .inl ⟨rfl, (failLocked_spec _ 5).2⟩⟩
    · by_cases huncertain : s.source.uncertain = true
      · simp only [huncertain, if_true]
        have hsame : SameMap s.source { s.source with
            failureInterval := max (-576000) (min 576000 interval)
            failureSkew := max (-48000) (min 48000 skew)
            uncertain := true, recovery := 0, outliers := s.source.outliers + 1 } :=
          ⟨rfl, rfl, rfl, rfl, rfl, rfl, rfl⟩
        exact ⟨⟨.refl _, hsame.later hopen rfl rfl, hsame.ok rfl rfl⟩, .inr ⟨trivial, hsame⟩⟩
      · simp only [huncertain, Bool.false_eq_true, if_false]
        have hsame : SameMap s.source { s.source with
            failureInterval := max (-576000) (min 576000 interval)
            failureSkew := max (-48000) (min 48000 skew)
            videoEpoch := s.source.videoEpoch + 1, uncertainAt := observedAt
            uncertain := true, recovery := 0, outliers := s.source.outliers + 1 } :=
          ⟨rfl, rfl, rfl, rfl, rfl, rfl, rfl⟩
        exact ⟨⟨.refl _, hsame.later hopen rfl rfl, hsame.ok rfl rfl⟩, .inr ⟨trivial, hsame⟩⟩
  · exact ⟨hnoted.trans (failLocked_spec _ 5).1, .inl ⟨rfl, (failLocked_spec _ 5).2⟩⟩

theorem misfit_spec (s : SharedClock) (observedAt : Int) (hopen : s.source.closed = false) :
    s.Kept (s.misfit observedAt).1
    ∧ (((s.misfit observedAt).2 = .denied ∧ (s.misfit observedAt).1.source.closed = true)
      ∨ (s.misfit observedAt).2 = .outlier) := by
  unfold misfit
  split
  · by_cases huncertain : s.source.uncertain = true
    · simp only [huncertain, if_true]
      have hsame : SameMap s.source { s.source with
          uncertain := true, recovery := 0, outliers := s.source.outliers + 1 } :=
        ⟨rfl, rfl, rfl, rfl, rfl, rfl, rfl⟩
      exact ⟨⟨.refl _, hsame.later hopen rfl rfl, hsame.ok rfl rfl⟩, .inr trivial⟩
    · simp only [huncertain, Bool.false_eq_true, if_false]
      have hsame : SameMap s.source { s.source with
          uncertainAt := observedAt, uncertain := true, recovery := 0
          outliers := s.source.outliers + 1 } := ⟨rfl, rfl, rfl, rfl, rfl, rfl, rfl⟩
      exact ⟨⟨.refl _, hsame.later hopen rfl rfl, hsame.ok rfl rfl⟩, .inr trivial⟩
  · exact ⟨(failLocked_spec s 7).1, .inl ⟨rfl, (failLocked_spec s 7).2⟩⟩

theorem accept_spec (s : SharedClock) (report : SourceSenderReport) (elapsedRTP now : Int) :
    (s.accept report elapsedRTP now).publisher = s.publisher
    ∧ (s.accept report elapsedRTP now).source.last = report
    ∧ (s.accept report elapsedRTP now).source.elapsedRTP = elapsedRTP
    ∧ 0 < (s.accept report elapsedRTP now).source.reports
    ∧ (s.accept report elapsedRTP now).source.first = s.source.first
    ∧ (s.accept report elapsedRTP now).source.anchor = s.source.anchor
    ∧ (s.accept report elapsedRTP now).source.rate = s.source.rate
    ∧ (s.accept report elapsedRTP now).source.bound = s.source.bound
    ∧ (s.accept report elapsedRTP now).source.closed = s.source.closed
    ∧ (s.accept report elapsedRTP now).source.adaptive = s.source.adaptive := by
  unfold accept
  by_cases huncertain : s.source.uncertain = true
  · by_cases hrecovered : s.source.recovery + 1 = 2
    · simp only [huncertain, hrecovered, if_true]
      split
      · simp
      · simp
        omega
    · simp only [huncertain, hrecovered, if_true, if_false]
      split
      · simp
      · simp
        omega
  · simp only [huncertain, Bool.false_eq_true, if_false]
    split
    · simp
    · simp
      omega

/-- A report against the last one: the first passes, a later one adds its
signed RTP distance. -/
theorem continuity_continues {c : SourceMediaClock} {report : SourceSenderReport} {elapsed : Int}
    (h : c.continuity report = .continues elapsed) :
    (c.reports = 0 ∧ elapsed = c.elapsedRTP)
    ∨ (0 < c.reports ∧ elapsed = c.unwrap report.rtp) := by
  unfold continuity at h
  by_cases hr : c.reports > 0
  · simp only at h
    split_ifs at h <;> exact .inr ⟨hr, (SourceMediaClock.Continuity.continues.inj h).symm⟩
  · rw [if_neg hr] at h
    cases h
    exact .inl ⟨by omega, rfl⟩

/-- How far a source's map is from the publisher's reference. -/
def Near (s : SharedClock) (ntp : BitVec 64) : Prop :=
  s.source.sampleAt s.source.elapsedRTP - s.publisher.position ntp ≤ 4800
  ∧ s.publisher.position ntp - s.source.sampleAt s.source.elapsedRTP ≤ 4800

/-- **Placing a report.** The source is closed, an adaptive one is marked
uncertain, or the report is the new last one and the map is near the
reference. -/
theorem place_spec (s : SharedClock) (report : SourceSenderReport) (elapsed observedAt now : Int)
    (fits : Bool) (hopen : s.source.closed = false) (hbound : s.source.bound = true)
    (hcontinues : s.source.continuity report = .continues elapsed) :
    s.Kept (s.place report elapsed observedAt now fits).1
    ∧ (((s.place report elapsed observedAt now fits).2 = .denied
        ∧ (s.place report elapsed observedAt now fits).1.source.closed = true)
      ∨ ((s.place report elapsed observedAt now fits).2 = .outlier ∧ s.source.adaptive = true)
      ∨ ((s.place report elapsed observedAt now fits).2 = .accepted
        ∧ (s.place report elapsed observedAt now fits).1.source.closed = false
        ∧ (s.place report elapsed observedAt now fits).1.publisher.closed = false
        ∧ (s.place report elapsed observedAt now fits).1.publisher.anchored = true
        ∧ (s.place report elapsed observedAt now fits).1.source.last = report
        ∧ 0 < (s.place report elapsed observedAt now fits).1.source.reports
        ∧ (s.source.OK → s.source.adaptive = false →
          Near (s.place report elapsed observedAt now fits).1 report.ntp))) := by
  obtain ⟨hlater, hplaced⟩ := s.publisher.reference_spec report.ntp now
  unfold place
  rcases href : s.publisher.reference report.ntp now with ⟨p, answer⟩
  rw [href] at hlater hplaced
  have hread : s.Kept ⟨p, s.source⟩ := .of_publisher hlater
  cases answer with
  | none => exact ⟨hread.trans (failLocked_spec _ 6).1, .inl ⟨rfl, (failLocked_spec _ 6).2⟩⟩
  | some answer =>
  obtain ⟨sample, t⟩ := answer
  obtain ⟨rfl, hsample, -, ha, hc⟩ := hplaced sample t rfl
  simp only at hsample ha hc ⊢
  -- the first report anchors the map, before anything is checked
  set c := if s.source.reports = 0 then
    { s.source with first := report, anchor := sample } else s.source with hcdef
  have hclosed : c.closed = false := by
    rw [hcdef]
    split <;> exact hopen
  have hadaptive : c.adaptive = s.source.adaptive := by
    rw [hcdef]
    split <;> rfl
  have hreports : c.reports = s.source.reports := by
    rw [hcdef]
    split <;> rfl
  have hb : c.bound = true := by
    rw [hcdef]
    split <;> exact hbound
  have hrate : c.rate = s.source.rate := by
    rw [hcdef]
    split <;> rfl
  have hkept : s.source.Later c := by
    refine ⟨hadaptive, .inr ⟨hopen, fun _ => ⟨hb, hrate⟩, fun hr => ?_⟩⟩
    rw [hcdef, if_neg (by omega)]
    exact ⟨hr, rfl, rfl⟩
  -- what taking the report over makes of it
  obtain ⟨hpublisher, hlast, helapsed, hpos, hfirst', hanchor', hrate', hbound', hclosed',
    hadaptive'⟩ := accept_spec ⟨p, c⟩ report elapsed t
  have haccepted : s.Kept (SharedClock.accept ⟨p, c⟩ report elapsed t) := by
    refine ⟨by rw [hpublisher]; exact hlater, hkept.trans ⟨hadaptive', .inr ⟨hclosed,
      fun _ => ⟨hbound'.trans hb, hrate'⟩, fun _ => ⟨hpos, hanchor', hfirst'⟩⟩⟩, fun hok => ?_⟩
    refine ⟨fun hnot => ?_, fun hr => absurd hr (by omega), fun _ => ?_, fun _ => hbound'.trans hb⟩
    · rw [hadaptive', hadaptive] at hnot
      rw [hlast, helapsed, hfirst']
      rcases continuity_continues hcontinues with ⟨hr, rfl⟩ | ⟨hr, rfl⟩
      · rw [hcdef, if_pos hr, hok.start hr]
        simp
      · rw [hcdef, if_neg (by omega)]
        exact hok.unwrap_rtp hnot report.rtp
    · rw [hrate', hrate]
      exact hok.rated hbound
  by_cases hfit : c.adaptive = true
  · simp only [if_pos hfit]
    have hsource : s.source.adaptive = true := hadaptive.symm.trans hfit
    cases fits with
    | true =>
        simp only [if_true]
        refine ⟨haccepted, .inr (.inr ⟨trivial, hclosed'.trans hclosed, by rw [hpublisher]; exact hc,
          by rw [hpublisher]; exact ha, hlast, hpos, fun _ hnot => ?_⟩)⟩
        rw [hsource] at hnot
        cases hnot
    | false =>
        obtain ⟨hmisfit, hout⟩ := misfit_spec ⟨p, c⟩ observedAt hclosed
        refine ⟨⟨hlater.trans hmisfit.publisher, hkept.trans hmisfit.source, fun hok => ?_⟩, ?_⟩
        · refine hmisfit.ok ⟨fun hnot => ?_, fun hr => ?_, fun _ => ?_, fun _ => hb⟩
          · rw [hfit] at hnot
            cases hnot
          · have hstart := hok.start (hreports.symm.trans hr)
            rw [hcdef]
            split <;> exact hstart
          · rw [hrate]
            exact hok.rated hbound
        · rcases hout with hdenied | houtlier
          · exact .inl hdenied
          · exact .inr (.inl ⟨houtlier, hsource⟩)
  · simp only [if_neg hfit]
    split
    · have hkept' : s.Kept ⟨p, c⟩ := by
        refine ⟨hlater, hkept, fun hok => ?_⟩
        rename_i hfar
        have hr : ¬s.source.reports = 0 := by
          omega
        rw [hcdef, if_neg hr]
        exact hok
      exact ⟨hkept'.trans (failLocked_spec _ 7).1, .inl ⟨rfl, (failLocked_spec _ 7).2⟩⟩
    · rename_i hnear
      refine ⟨haccepted, .inr (.inr ⟨rfl, hclosed'.trans hclosed, by rw [hpublisher]; exact hc,
        by rw [hpublisher]; exact ha, hlast, hpos, fun hok _ => ?_⟩)⟩
      have hmap : (SharedClock.accept ⟨p, c⟩ report elapsed t).source.sampleAt elapsed
          = c.sampleAt elapsed := by
        rw [SourceMediaClock.sampleAt, SourceMediaClock.sampleAt, hanchor', hrate']
      rw [Near, helapsed, hpublisher, hmap, ← hsample]
      by_cases hr : s.source.reports = 0
      · rcases continuity_continues hcontinues with ⟨-, rfl⟩ | ⟨hpos', -⟩
        · have hzero := hok.start hr
          have hanchor : c.anchor = sample := by rw [hcdef, if_pos hr]
          rw [SourceMediaClock.sampleAt, hzero, hanchor]
          simp
        · omega
      · constructor <;> by_contra hfar <;> exact hnear ⟨by omega, by omega⟩

/-- **A sender report.** Whatever it does is kept; a denied one closes the
source, an ignored one or an outlier leaves a fixed map as it was, and an
accepted one is the new last report, near the reference. -/
theorem sourceSenderReport_spec (s : SharedClock) (report : SourceSenderReport)
    (entered now : Int) (fits : Bool) :
    s.Kept (s.sourceSenderReport report entered now fits).1
    ∧ ((s.sourceSenderReport report entered now fits).2 = .denied →
      (s.sourceSenderReport report entered now fits).1.source.closed = true)
    ∧ ((s.sourceSenderReport report entered now fits).2 = .ignored
        ∨ (s.sourceSenderReport report entered now fits).2 = .outlier →
      s.source.adaptive = false →
      SameMap s.source (s.sourceSenderReport report entered now fits).1.source)
    ∧ ((s.sourceSenderReport report entered now fits).2 = .accepted →
      (s.sourceSenderReport report entered now fits).1.source.closed = false
      ∧ (s.sourceSenderReport report entered now fits).1.publisher.closed = false
      ∧ (s.sourceSenderReport report entered now fits).1.publisher.anchored = true
      ∧ (s.sourceSenderReport report entered now fits).1.source.last = report
      ∧ 0 < (s.sourceSenderReport report entered now fits).1.source.reports
      ∧ (s.source.OK → s.source.adaptive = false →
        Near (s.sourceSenderReport report entered now fits).1 report.ntp)) := by
  unfold sourceSenderReport
  rcases s.currentLocked_cases entered with ⟨hopen, hpublisher, heq⟩ | ⟨s', heq, hkept, hclosed⟩
  case inr =>
    rw [heq]
    obtain ⟨hfail, hshut⟩ := failLocked_spec s' 4
    exact ⟨hkept.trans hfail, fun _ => hshut, fun h => by simp at h, fun h => by cases h⟩
  rw [heq]
  have hread : s.Kept ⟨{ s.publisher with last := entered }, s.source⟩ :=
    .of_publisher (.read hpublisher entered)
  simp only
  by_cases hscope : s.source.bound = false ∨ report.ssrc ≠ s.source.ssrc ∨ report.ntp = 0
  · rw [if_pos hscope]
    obtain ⟨hfail, hshut⟩ := failLocked_spec ⟨{ s.publisher with last := entered }, s.source⟩ 4
    exact ⟨hread.trans hfail, fun _ => hshut, fun h => by simp at h, fun h => by cases h⟩
  rw [if_neg hscope]
  have hbound : s.source.bound = true := by
    by_contra hb
    exact hscope (.inl (by simpa using hb))
  rcases hcont : s.source.continuity report with _ | ⟨invalidShape, interval, skew⟩ | elapsed
  · exact ⟨hread, fun h => (by cases h), fun _ _ => ⟨rfl, rfl, rfl, rfl, rfl, rfl, rfl⟩,
      fun h => (by cases h)⟩
  · obtain ⟨hsuspend, hout⟩ := suspend_spec ⟨{ s.publisher with last := entered }, s.source⟩
      invalidShape interval skew entered hopen
    refine ⟨hread.trans hsuspend, fun h => ?_, fun h _ => ?_, fun h => ?_⟩
    · rcases hout with ⟨-, hshut⟩ | ⟨hout, -⟩
      · exact hshut
      · rw [hout] at h
        cases h
    · rcases hout with ⟨hout, -⟩ | ⟨-, hsame⟩
      · rw [hout] at h
        simp at h
      · exact hsame
    · rcases hout with ⟨hout, -⟩ | ⟨hout, -⟩
      · rw [hout] at h
        cases h
      · rw [hout] at h
        cases h
  · obtain ⟨hplace, hout⟩ := place_spec ⟨{ s.publisher with last := entered }, s.source⟩ report
      elapsed entered now fits hopen hbound hcont
    refine ⟨hread.trans hplace, fun h => ?_, fun h hnot => ?_, fun h => ?_⟩
    · rcases hout with ⟨-, hshut⟩ | ⟨hout, -⟩ | ⟨hout, -⟩
      · exact hshut
      · rw [hout] at h
        cases h
      · rw [hout] at h
        cases h
    · rcases hout with ⟨hout, -⟩ | ⟨-, hadaptive⟩ | ⟨hout, -⟩
      · rw [hout] at h
        simp at h
      · rw [hadaptive] at hnot
        cases hnot
      · rw [hout] at h
        simp at h
    · rcases hout with ⟨hout, -⟩ | ⟨hout, -⟩ | ⟨-, haccepted⟩
      · rw [hout] at h
        cases h
      · rw [hout] at h
        cases h
      · exact haccepted

/-! ### Mapped samples -/

/-- A sample a call on the source returned for a timestamp: from `Map`, or
from `MapVideo` with a state other than denied and a report to map by. -/
def Mapped (s : SharedClock) (timestamp : BitVec 32) (now : Int) (sample : Int) : Prop :=
  (s.map timestamp now).2 = some sample
  ∨ ((s.mapVideo timestamp now).2.1 = sample ∧ (s.mapVideo timestamp now).2.2.state ≠ .denied
    ∧ 0 < s.source.reports)

/-- A mapped sample is the affine map of the unwrapped timestamp. -/
theorem Mapped.eq_sampleAt {s : SharedClock} {timestamp : BitVec 32} {now sample : Int}
    (h : s.Mapped timestamp now sample) :
    s.source.closed = false ∧ 0 < s.source.reports
    ∧ sample = s.source.sampleAt (s.source.unwrap timestamp) := by
  rcases h with hmap | ⟨hsample, hstate, hreports⟩
  · unfold map at hmap
    rcases s.currentLocked_cases now with ⟨hopen, -, heq⟩ | ⟨s', heq, -, -⟩
    · rw [heq] at hmap
      simp only at hmap
      split at hmap
      · cases hmap
      · split at hmap
        · cases hmap
          exact ⟨hopen, by omega, rfl⟩
        · cases hmap
    · rw [heq] at hmap
      cases hmap
  · have hvideo : s.source.closed = false ∧ ((s.videoTimeLocked now).2.state ≠ .denied →
          (s.videoTimeLocked now).1.source = s.source)
        ∨ (s.videoTimeLocked now).2.state = .denied := by
      unfold videoTimeLocked
      rcases s.currentLocked_cases now with ⟨hopen, -, heq⟩ | ⟨s', heq, -, -⟩
      · left
        rw [heq]
        refine ⟨hopen, fun _ => ?_⟩
        simp only
        split_ifs <;> rfl
      · right
        rw [heq]
    unfold mapVideo at hsample hstate
    rcases hsnapshot : s.videoTimeLocked now with ⟨s', snapshot⟩
    rw [hsnapshot] at hsample hstate hvideo
    simp only at hsample hstate hvideo
    by_cases hdenied : snapshot.state = .denied
    · rw [if_pos (.inl hdenied)] at hstate
      exact absurd hdenied hstate
    rcases hvideo with ⟨hopen, hsource⟩ | hbad
    · have hs := hsource hdenied
      have hready : ¬(snapshot.state = .denied ∨ s'.source.reports = 0) := by
        rw [hs]
        rintro (hbad | hzero)
        · exact hdenied hbad
        · omega
      refine ⟨hopen, hreports, ?_⟩
      rw [← hsample, ← hs]
      split_ifs <;> rfl
    · exact absurd hbad hdenied

end SharedClock

/-! ## Whole runs -/

namespace ClockGroup

variable {g g' g'' : ClockGroup} {i : Nat}

/-- What a call on a publisher's clocks keeps. -/
structure Kept (g g' : ClockGroup) : Prop where
  publisher : g.publisher.Later g'.publisher
  sources : ∀ (i : Nat) (c : SourceMediaClock), g.sources[i]? = some c →
    ∃ c', g'.sources[i]? = some c' ∧ c.Later c'

theorem Kept.refl (g : ClockGroup) : g.Kept g := ⟨.refl _, fun _ c h => ⟨c, h, .refl c⟩⟩

theorem Kept.trans (h : g.Kept g') (h' : g'.Kept g'') : g.Kept g'' := by
  refine ⟨h.publisher.trans h'.publisher, fun i c hc => ?_⟩
  obtain ⟨c', hc', hlater⟩ := h.sources i c hc
  obtain ⟨c'', hc'', hlater'⟩ := h'.sources i c' hc'
  exact ⟨c'', hc'', hlater.trans hlater'⟩

def OK (g : ClockGroup) : Prop :=
  ∀ (i : Nat) (c : SourceMediaClock), g.sources[i]? = some c → c.OK

theorem shared_eq_some {s : SharedClock} :
    g.shared i = some s ↔ g.sources[i]? = some s.source ∧ s.publisher = g.publisher := by
  unfold shared
  cases g.sources[i]? with
  | none => simp
  | some c =>
      simp only [map_some, some.injEq]
      constructor
      · rintro rfl
        exact ⟨rfl, rfl⟩
      · rintro ⟨rfl, hp⟩
        rw [← hp]

theorem apply_kept {f : SharedClock → SharedClock} (hf : ∀ s : SharedClock, s.Kept (f s)) :
    g.Kept (g.apply i f) ∧ (g.OK → (g.apply i f).OK) := by
  unfold apply
  rcases hs : g.shared i with _ | s
  · exact ⟨.refl g, id⟩
  obtain ⟨hsource, hpublisher⟩ := shared_eq_some.mp hs
  have hkept := hf s
  have hlt : i < g.sources.length := by
    obtain ⟨hlt, -⟩ := List.getElem?_eq_some_iff.mp hsource
    exact hlt
  refine ⟨⟨by rw [← hpublisher]; exact hkept.publisher, fun j c hc => ?_⟩, fun hok j c hc => ?_⟩
  · by_cases hij : i = j
    · subst hij
      rw [hsource, some.injEq] at hc
      subst hc
      exact ⟨_, by simp [hlt], hkept.source⟩
    · exact ⟨c, by simpa [getElem?_set, hij] using hc, .refl c⟩
  · by_cases hij : i = j
    · subst hij
      have heq : (f s).source = c := by simpa [hlt] using hc
      rw [← heq]
      exact hkept.ok (hok i s.source hsource)
    · exact hok j c (by simpa [getElem?_set, hij] using hc)

theorem newSource_kept (g : ClockGroup) (adaptive : Bool) (now : Int) :
    g.Kept (g.newSource adaptive now) ∧ (g.OK → (g.newSource adaptive now).OK) := by
  unfold newSource
  rcases g.publisher.timeLocked_cases now with ⟨hopen, -, -, heq⟩ | ⟨p, heq, hclosed⟩
  · rw [heq]
    have hread := SourcePublisherClock.Later.read hopen now
    simp only
    split
    · exact ⟨⟨hread, fun _ c h => ⟨c, h, .refl c⟩⟩, fun hok => hok⟩
    · have hcounted : g.publisher.Later
          { g.publisher with last := now, sources := g.publisher.sources + 1 } :=
        .inr ⟨hopen, fun ha => ⟨ha, rfl, rfl⟩⟩
      refine ⟨⟨hcounted, fun j c hc => ⟨c, ?_, .refl c⟩⟩, fun hok j c hc => ?_⟩
      · obtain ⟨hlt, -⟩ := List.getElem?_eq_some_iff.mp hc
        rwa [getElem?_append_left hlt]
      · rcases Nat.lt_trichotomy j g.sources.length with hlt | rfl | hgt
        · rw [getElem?_append_left hlt] at hc
          exact hok j c hc
        · simp only [getElem?_concat_length, some.injEq] at hc
          rw [← hc]
          exact fresh_ok adaptive
        · rw [getElem?_eq_none (by simp; omega)] at hc
          cases hc
  · rw [heq]
    exact ⟨⟨.inl hclosed, fun _ c h => ⟨c, h, .refl c⟩⟩, fun hok => hok⟩

/-- **Step lemma.** -/
theorem next_kept (g : ClockGroup) (call : ClockCall) :
    g.Kept (g.next call) ∧ (g.OK → (g.next call).OK) := by
  cases call with
  | newSource adaptive now => exact newSource_kept g adaptive now
  | bind i ssrc rate now => exact apply_kept fun s => s.bindSourceClock_kept ssrc rate now
  | tick i now => exact apply_kept fun s => s.currentLocked_kept now
  | report i report entered now fits =>
      exact apply_kept fun s => (s.sourceSenderReport_spec report entered now fits).1
  | map i timestamp now => exact apply_kept fun s => s.map_kept timestamp now
  | videoTime i now => exact apply_kept fun s => s.videoTimeLocked_kept now
  | mapVideo i timestamp now => exact apply_kept fun s => s.mapVideo_kept timestamp now
  | closeSource i => exact apply_kept fun s => s.closeLocked_spec.1
  | closePublisher => exact ⟨⟨.inl rfl, fun _ c h => ⟨c, h, .refl c⟩⟩, fun hok => hok⟩

/-- **Run lemma.** -/
theorem run_kept {es : List ClockCall} (hp : Path Step g es g') : g.Kept g' :=
  rel Kept.refl Kept.trans (fun {s e t} (h : s.next e = t) => h ▸ (next_kept s e).1) hp

theorem run_ok {es : List ClockCall} (hp : Path Step g es g') (h : g.OK) : g'.OK :=
  inv (fun {s e t} (hstep : s.next e = t) hok => hstep ▸ (next_kept s e).2 hok) hp h

theorem new_ok {start delay now : Int}
    (hnew : newSourcePublisherClock start delay now = some g) : g.OK := by
  unfold newSourcePublisherClock at hnew
  split at hnew
  · cases hnew
  · simp only at hnew
    split at hnew
    · cases hnew
    · cases hnew
      intro i c hc
      cases hc

theorem shared_later {es : List ClockCall} (hp : Path Step g es g') {s s' : SharedClock}
    (hs : g.shared i = some s) (hs' : g'.shared i = some s') : s.source.Later s'.source := by
  obtain ⟨hsource, -⟩ := shared_eq_some.mp hs
  obtain ⟨hsource', -⟩ := shared_eq_some.mp hs'
  obtain ⟨c, hc, hlater⟩ := (run_kept hp).sources i s.source hsource
  rw [hsource', some.injEq] at hc
  rwa [hc]

/-- **One affine map.** For a source that is not adaptive, in any state of any
run: the last timestamp is congruent to the first and the unwrapped time;
what `Map` and `MapVideo` return now and at any later time are values of one
map of the unwrapped timestamps, and in their order; an ignored report or an
outlier changes neither map nor deadline; and an accepted one leaves the map
within 4800 samples of the reference position. -/
theorem source_clock_affine {start delay now : Int} {g₀ : ClockGroup}
    (hnew : newSourcePublisherClock start delay now = some g₀) {es : List ClockCall}
    (hrun : Path Step g₀ es g) {s : SharedClock} (hs : g.shared i = some s)
    (hadaptive : s.source.adaptive = false) :
    s.source.last.rtp = s.source.first.rtp + BitVec.ofInt 32 s.source.elapsedRTP
    ∧ (∀ fs g' s', Path Step g fs g' → g'.shared i = some s' →
      ∀ τ τ' t t' x x', s.Mapped τ t x → s'.Mapped τ' t' x' →
        τ = s.source.first.rtp + BitVec.ofInt 32 (s.source.unwrap τ)
        ∧ τ' = s.source.first.rtp + BitVec.ofInt 32 (s'.source.unwrap τ')
        ∧ x = s.source.anchor + (s.source.unwrap τ * 48000).tdiv s.source.rate
        ∧ x' = s.source.anchor + (s'.source.unwrap τ' * 48000).tdiv s.source.rate
        ∧ (s.source.unwrap τ ≤ s'.source.unwrap τ' → x ≤ x')
        ∧ (s'.source.unwrap τ' ≤ s.source.unwrap τ → x' ≤ x))
    ∧ (∀ report entered t fits, let out := s.sourceSenderReport report entered t fits
      (out.2 = .ignored ∨ out.2 = .outlier → SharedClock.SameMap s.source out.1.source)
      ∧ (out.2 = .accepted → out.1.source.last = report
        ∧ out.1.source.sampleAt out.1.source.elapsedRTP - out.1.publisher.position report.ntp ≤ 4800
        ∧ out.1.publisher.position report.ntp - out.1.source.sampleAt out.1.source.elapsedRTP
          ≤ 4800)) := by
  obtain ⟨hsource, -⟩ := shared_eq_some.mp hs
  have hok : s.source.OK := run_ok hrun (new_ok hnew) i s.source hsource
  refine ⟨hok.rtp hadaptive, ?_, fun report entered t fits => ⟨fun h => ?_, fun h => ?_⟩⟩
  · intro fs g' s' hfs hs' τ τ' t t' x x' hx hx'
    obtain ⟨hopen, hr, hval⟩ := hx.eq_sampleAt
    obtain ⟨hopen', hr', hval'⟩ := hx'.eq_sampleAt
    have hlater := shared_later hfs hs hs'
    obtain ⟨hsource', -⟩ := shared_eq_some.mp hs'
    have hok' : s'.source.OK := run_ok hfs (run_ok hrun (new_ok hnew)) i s'.source hsource'
    obtain ⟨hmap, -, -, hfirst⟩ := hlater.sampleAt_eq hok hopen' hr (s'.source.unwrap τ')
    have hadaptive' : s'.source.adaptive = false := hlater.1.trans hadaptive
    rw [hmap] at hval'
    refine ⟨hok.unwrap_rtp hadaptive τ, ?_, hval, hval', fun hle => ?_, fun hle => ?_⟩
    · rw [← hfirst]
      exact hok'.unwrap_rtp hadaptive' τ'
    · rw [hval, hval']
      exact hok.sampleAt_mono hr hle
    · rw [hval, hval']
      exact hok.sampleAt_mono hr hle
  · exact (s.sourceSenderReport_spec report entered t fits).2.2.1 h hadaptive
  · obtain ⟨-, -, -, hlast, -, hnear⟩ := (s.sourceSenderReport_spec report entered t fits).2.2.2 h
    exact ⟨hlast, hnear hok hadaptive⟩

/-! ### An audio source with two reports -/

/-- Seconds in nanoseconds. -/
def sampleCalls : List ClockCall :=
  [.newSource false 0, .bind 0 7 48000 0, .report 0 ⟨7, 4294967296, 4294967000⟩ 0 0 true,
    .report 0 ⟨7, 25769803776, 239704⟩ 5000000000 5000000000 true]

def sampleStart : ClockGroup :=
  ⟨⟨0, 0, 0, 14400, 0, 0, false, false, 0⟩, []⟩

def sampleGroup : ClockGroup :=
  sampleCalls.foldl next sampleStart

def sampleShared : SharedClock :=
  ⟨sampleGroup.publisher, (sampleGroup.sources[0]?).getD (.fresh false)⟩

theorem sampleCalls_run : Path Step sampleStart sampleCalls sampleGroup :=
  (foldl next sampleCalls sampleStart).mono fun h => h.symm

/-- Across the wrap of the RTP timestamp, the sample of the second report is
five seconds after the anchor. -/
theorem source_clock_affine_sample : sampleShared.Mapped 239704 5000000000 254400
    ∧ 254400 = sampleShared.source.anchor
      + (sampleShared.source.unwrap 239704 * 48000).tdiv sampleShared.source.rate := by
  have hshared : sampleGroup.shared 0 = some sampleShared := by decide
  have hmapped : sampleShared.Mapped 239704 5000000000 254400 := .inl (by decide)
  have hnew : newSourcePublisherClock 0 14400 0 = some sampleStart := by decide
  refine ⟨hmapped, ?_⟩
  exact ((source_clock_affine hnew sampleCalls_run hshared (by decide)).2.1 []
    sampleGroup sampleShared (.nil _) hshared _ _ _ _ _ _ hmapped hmapped).2.2.1

/-! ## Two sources of a publisher -/

theorem next_report_publisher {s : SharedClock} (hs : g.shared i = some s)
    (report : SourceSenderReport) (entered now : Int) (fits : Bool) :
    (g.next (.report i report entered now fits)).publisher
      = (s.sourceSenderReport report entered now fits).1.publisher := by
  simp only [next, apply, hs]

def pairCalls : List ClockCall :=
  [.newSource false 0, .newSource false 0, .bind 0 7 48000 0, .bind 1 9 90000 0]

def pairGroup : ClockGroup :=
  pairCalls.foldl next sampleStart

/-- The first report of the audio source. -/
def audioReport : SourceSenderReport := ⟨7, 4294967296, 100⟩

/-- The first report of the video source, of the same NTP time and 0.4 s later. -/
def videoReport : SourceSenderReport := ⟨9, 4294967296, 4294967295⟩

def pairAudio : SharedClock :=
  ⟨pairGroup.publisher, (pairGroup.sources[0]?).getD (.fresh false)⟩

def reportedGroup : ClockGroup :=
  pairGroup.next (.report 0 audioReport 0 0 true)

def pairVideo : SharedClock :=
  ⟨reportedGroup.publisher, (reportedGroup.sources[1]?).getD (.fresh false)⟩

end ClockGroup

end Packager

end WebrtcMinimize
