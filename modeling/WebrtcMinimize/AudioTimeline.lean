import WebrtcMinimize.AudioMix

/-!
# The mixer plays the program timeline

`heard` is what an input wrote for a position before the position was
played. `MixerOK` says that the ring of every open input holds `heard` on
the window from the cursor on, that the writes of an input follow each other
and end inside the window, and that the blocks so far follow each other from
the first sample on.

Most calls leave the rings alone (`Quiet`). A write extends `heard` exactly
where it is stored, and a render drains the front of every ring: what it
reads is `heard`, and the window moves on by one block.
-/

namespace WebrtcMinimize

namespace Packager

open Runs RingWindow AudioWrite List Nat AudioBlock

/-! ## What was written for a position -/

/-- The frame of this write for position `p` of input `h`. -/
def AudioWrite.sample? (w : AudioWrite) (h p : Nat) : Option Frame :=
  if w.input = h ∧ w.cursor ≤ p ∧ w.start ≤ p then w.frames[p - w.start]? else none

/-- What input `h` wrote for position `p` before it was played. -/
def heard (written : List AudioWrite) (h p : Nat) : Frame :=
  (written.findSome? fun w => w.sample? h p).getD silence

variable {h p : Nat} {w : AudioWrite}

theorem AudioWrite.sample?_eq_none_of_ge
    (hp : w.start + w.frames.length ≤ p) : w.sample? h p = none := by
  rw [sample?]
  split
  · exact getElem?_eq_none (by omega)
  · rfl

theorem AudioWrite.sample?_other (hw : w.input ≠ h) : w.sample? h p = none :=
  if_neg fun hc => hw hc.1

variable {written : List AudioWrite}

theorem heard_of_none
    (hnone : ∀ w ∈ written, w.sample? h p = none) : heard written h p = silence := by
  rw [heard, findSome?_eq_none_iff.mpr hnone]
  rfl

theorem heard_append_of_none
    (hnone : w.sample? h p = none) : heard (written ++ [w]) h p = heard written h p := by
  simp [heard, findSome?_append, hnone]

theorem heard_append_other (hw : w.input ≠ h) : heard (written ++ [w]) h = heard written h :=
  funext fun _ => heard_append_of_none (sample?_other hw)

/-- A write after all earlier ones of its input is heard where it is stored. -/
theorem heard_append
    (hbefore : ∀ v ∈ written, v.input = w.input → v.start + v.frames.length ≤ w.start) (p : Nat) :
    heard (written ++ [w]) w.input p = overwrite (heard written w.input) (max w.start w.cursor)
          (w.frames.drop (max w.start w.cursor - w.start)) p := by
  by_cases hp : max w.start w.cursor ≤ p
  · have hnone : ∀ v ∈ written, v.sample? w.input p = none := by
      intro v hv
      by_cases hin : v.input = w.input
      · have := hbefore v hv hin
        exact sample?_eq_none_of_ge (by omega)
      · exact sample?_other hin
    have hindex : max w.start w.cursor - w.start + (p - max w.start w.cursor) = p - w.start := by
      omega
    have hcovered : w.input = w.input ∧ w.cursor ≤ p ∧ w.start ≤ p := ⟨rfl, by omega, by omega⟩
    have hlast : heard (written ++ [w]) w.input p = (w.frames[p - w.start]?).getD silence := by
      have hsample : w.sample? w.input p = w.frames[p - w.start]? := if_pos hcovered
      rw [heard, findSome?_append, findSome?_eq_none_iff.mpr hnone]
      simp only [Option.none_or, findSome?_cons, findSome?_nil, hsample]
      cases w.frames[p - w.start]? <;> rfl
    rw [hlast, overwrite, if_pos hp, getElem?_drop, hindex, heard_of_none hnone]
  · rw [overwrite_of_lt _ _ (by omega)]
    apply heard_append_of_none
    rw [sample?, if_neg (by omega)]

/-- The writes of one input follow each other. -/
def InOrder (written : List AudioWrite) : Prop :=
  written.Pairwise fun v w => v.input = w.input → v.start + v.frames.length ≤ w.start

/-- No position is written twice: whichever write has a sample for it, that
sample is heard. -/
theorem InOrder.heard_eq (horder : InOrder written)
    (hw : w ∈ written) {x : Frame} (hx : w.sample? h p = some x) :
    heard written h p = x := by
  obtain ⟨before, after, rfl⟩ := append_of_mem hw
  have hcovered : w.input = h ∧ w.cursor ≤ p ∧ w.start ≤ p := by
    by_contra hc
    rw [sample?, if_neg hc] at hx
    cases hx
  have hnone : ∀ v ∈ before, v.sample? h p = none := by
    intro v hv
    have hfollows := (pairwise_append.mp horder).2.2 v hv w mem_cons_self
    by_cases hin : v.input = h
    · exact sample?_eq_none_of_ge (by omega)
    · exact sample?_other hin
  rw [heard, findSome?_append, findSome?_eq_none_iff.mpr hnone]
  simp [hx]

/-! ## PCM -/

theorem decodePCM_length : ∀ (n : Nat) (pcm : List UInt8), pcm.length = 4 * n →
    (decodePCM pcm).length = n
  | 0, pcm, h => by
      rw [length_eq_zero_iff.mp h]
      rfl
  | n + 1, pcm, h => by
      match pcm, h with
      | a :: b :: c :: d :: rest, h =>
          have hrest : rest.length = 4 * n := by
            simp only [length_cons] at h
            omega
          rw [decodePCM, length_cons, decodePCM_length n rest hrest]
      | [], h => simp at h
      | [_], h => simp only [length_cons, length_nil] at h; omega
      | [_, _], h => simp only [length_cons, length_nil] at h; omega
      | [_, _, _], h => simp only [length_cons, length_nil] at h; omega

theorem int16_putInt16 {v : Int} (h : -32768 ≤ v) (h' : v ≤ 32767) :
    putInt16 v = [UInt8.ofNat (v.emod 65536).toNat, UInt8.ofNat ((v.emod 65536).toNat / 256)]
    ∧ int16 (UInt8.ofNat (v.emod 65536).toNat) (UInt8.ofNat ((v.emod 65536).toNat / 256)) = v := by
  refine ⟨rfl, ?_⟩
  obtain ⟨u, hu⟩ := Int.eq_ofNat_of_zero_le (Int.emod_nonneg v (show (65536 : Int) ≠ 0 by decide))
  have hemod : v.emod 65536 = (u : Int) := hu
  have hbytes : (UInt8.ofNat u).toNat + 256 * (UInt8.ofNat (u / 256)).toNat = u := by
    simp only [UInt8.toNat_ofNat']
    omega
  rw [hemod, Int.toNat_natCast, int16, hbytes, BitVec.toInt_ofNat', Int.bmod_def]
  split <;> omega

theorem outputSample_range (sum : Int) : -32768 ≤ outputSample sum ∧ outputSample sum ≤ 32767 := by
  rw [outputSample]
  omega

theorem decodePCM_encodePCM (sums : List Frame) :
    decodePCM (encodePCM sums) = sums.map fun s => (outputSample s.1, outputSample s.2) := by
  induction sums with
  | nil => rfl
  | cons s sums ih =>
      have hl := int16_putInt16 (outputSample_range s.1).1 (outputSample_range s.1).2
      have hr := int16_putInt16 (outputSample_range s.2).1 (outputSample_range s.2).2
      rw [encodePCM, flatMap_cons, hl.1, hr.1]
      simp only [cons_append, nil_append, decodePCM, map_cons, hl.2, hr.2]
      exact congrArg _ ih

theorem decodePCM_zeros : ∀ n, decodePCM (replicate (4 * n) 0) = replicate n silence
  | 0 => rfl
  | n + 1 => by
      rw [show 4 * (n + 1) = 4 * n + 1 + 1 + 1 + 1 by ring]
      simp only [replicate_succ, decodePCM, decodePCM_zeros n]
      rfl

namespace SourceAudioMixer

/-! ## Calls that leave the rings alone -/

/-- An open input as far as the timeline goes. -/
structure Untouched (s s' : AudioMixInput) : Prop where
  opened : s.closed = false
  pcm : s'.pcm = s.pcm
  lastEnd : s'.lastEnd = s.lastEnd
  started : s'.started = s.started

/-- Inputs may have been closed, levels may have changed. -/
structure Quiet (m m' : SourceAudioMixer) : Prop where
  cfg : m'.cfg = m.cfg
  cursor : m'.cursor = m.cursor
  written : m'.written = m.written
  blocks : m'.blocks = m.blocks
  length : m'.inputs.length = m.inputs.length
  kept : ∀ (h : Nat) (s' : AudioMixInput), m'.inputs[h]? = some s' → s'.closed = false →
    ∃ s, m.inputs[h]? = some s ∧ Untouched s s'
  stays : m.closed = true → m'.closed = true
  shut : m'.closed = true → m.closed = true ∨ ∀ s ∈ m'.inputs, s.closed = true

theorem Quiet.refl (m : SourceAudioMixer) : Quiet m m :=
  ⟨rfl, rfl, rfl, rfl, rfl, fun _ s' hs hopen => ⟨s', hs, hopen, rfl, rfl, rfl⟩, id, .inl⟩

theorem Quiet.trans {m m' m'' : SourceAudioMixer} (h : Quiet m m') (h' : Quiet m' m'') :
    Quiet m m'' where
  cfg := h'.cfg.trans h.cfg
  cursor := h'.cursor.trans h.cursor
  written := h'.written.trans h.written
  blocks := h'.blocks.trans h.blocks
  length := h'.length.trans h.length
  kept := by
    intro k s'' hs'' hopen
    obtain ⟨s', hs', hsame'⟩ := h'.kept k s'' hs'' hopen
    obtain ⟨s, hs, hsame⟩ := h.kept k s' hs' hsame'.opened
    exact ⟨s, hs, hsame.opened, hsame'.pcm.trans hsame.pcm, hsame'.lastEnd.trans hsame.lastEnd,
      hsame'.started.trans hsame.started⟩
  stays := fun hc => h'.stays (h.stays hc)
  shut := by
    intro hc
    rcases h'.shut hc with hmid | hall
    · rcases h.shut hmid with hc | hall
      · exact .inl hc
      · refine .inr fun s'' hs'' => ?_
        obtain ⟨k, hk⟩ := mem_iff_getElem?.mp hs''
        by_contra hopen
        obtain ⟨s', hs', hsame'⟩ := h'.kept k s'' hk (by simpa using hopen)
        have := hall s' (mem_of_getElem? hs')
        rw [hsame'.opened] at this
        cases this
    · exact .inr hall

variable (m : SourceAudioMixer)

theorem closeLocked_quiet : Quiet m m.closeLocked := by
  rw [closeLocked]
  split
  · exact Quiet.refl m
  · refine ⟨rfl, rfl, rfl, rfl, length_map .., ?_, fun _ => rfl, fun _ => .inr ?_⟩
    · intro k s' hs' hopen
      rw [getElem?_map] at hs'
      obtain ⟨s, -, rfl⟩ := Option.map_eq_some_iff.mp hs'
      cases hopen
    · intro s' hs'
      obtain ⟨s, -, rfl⟩ := mem_map.mp hs'
      rfl

theorem closeLocked_closed : m.closeLocked.closed = true := by
  rw [closeLocked]
  split
  · assumption
  · rfl

variable {s : AudioMixInput}

theorem set_quiet {i : Nat} {t : AudioMixInput} (b : Nat) (hs : m.inputs[i]? = some s)
    (hsame : t.closed = false → Untouched s t) :
    Quiet m { m with inputs := m.inputs.set i t, pcmBytes := b } := by
  refine ⟨rfl, rfl, rfl, rfl, List.length_set .., ?_, id, .inl⟩
  intro k s' hs' hopen
  have hlt := (List.getElem?_eq_some_iff.mp hs).1
  by_cases hk : i = k
  · subst hk
    have heq : t = s' := by simpa [hlt] using hs'
    subst heq
    exact ⟨s, hs, hsame hopen⟩
  · refine ⟨s', ?_, hopen, rfl, rfl, rfl⟩
    simpa [hk] using hs'

theorem advanceRevisionLocked_quiet : Quiet m m.advanceRevisionLocked.1 := by
  rw [advanceRevisionLocked]
  split
  · exact m.closeLocked_quiet
  · exact ⟨rfl, rfl, rfl, rfl, rfl, fun _ s' hs hopen => ⟨s', hs, hopen, rfl, rfl, rfl⟩, id, .inl⟩

theorem closeInput_quiet (i : Nat) : Quiet m (m.closeInput i) := by
  rw [closeInput]
  split
  · exact Quiet.refl m
  · next s hs =>
      split
      · exact Quiet.refl m
      · have hset := m.set_quiet (m.pcmBytes - m.cfg.queueSamples * 4) hs (t := s.shut)
          (fun hopen => by cases hopen)
        dsimp only
        split
        · exact hset
        · exact hset.trans (advanceRevisionLocked_quiet _)

theorem closeUnauthorized_quiet (authorized : Nat → Bool) :
    Quiet m (m.closeUnauthorized authorized) := by
  have hgo : ∀ (is : List Nat) (m : SourceAudioMixer),
      Quiet m (is.foldl (fun m i => if authorized i then m else m.closeInput i) m) := by
    intro is
    induction is with
    | nil => exact Quiet.refl
    | cons i is ih =>
        intro m
        rw [foldl_cons]
        refine Quiet.trans ?_ (ih _)
        split
        · exact Quiet.refl m
        · exact m.closeInput_quiet i
  exact hgo _ m

theorem setGain_quiet (i : Nat) (left right : Int) (a : Authority) :
    Quiet m (m.setGain i left right a) := by
  rw [setGain]
  split
  · exact m.closeLocked_quiet
  · split
    · exact Quiet.refl m
    · next s hs =>
        split_ifs with hdenied hgain hchanged
        · exact m.closeInput_quiet i
        · exact Quiet.refl m
        · have hadvance := m.advanceRevisionLocked_quiet
          dsimp only
          split
          · next hok =>
              refine hadvance.trans ?_
              have hinputs : m.advanceRevisionLocked.1.inputs = m.inputs := by
                rw [advanceRevisionLocked] at hok ⊢
                split <;> rename_i hfull
                · rw [if_pos hfull] at hok
                  cases hok
                · rfl
              refine set_quiet _ _ (s := s) (by rw [hinputs]; exact hs) fun hopen => ?_
              exact ⟨hopen, rfl, rfl, rfl⟩
          · exact hadvance
        · exact Quiet.refl m

theorem change_quiet (c : LevelChange) : Quiet m (m.change c) := by
  rw [change]
  split
  · exact Quiet.refl m
  · next s hs => exact m.set_quiet m.pcmBytes hs fun hopen => ⟨hopen, rfl, rfl, rfl⟩

theorem currentLevelsLocked_quiet (a : LevelAuthority) : Quiet m (m.currentLevelsLocked a) := by
  rw [currentLevelsLocked]
  split
  · exact m.closeLocked_quiet
  · exact m.closeUnauthorized_quiet a.inputs

theorem setLevels_quiet (expected : Nat) (changes : List LevelChange) (a : LevelAuthority) :
    Quiet m (m.setLevels expected changes a) := by
  have hcurrent := m.currentLevelsLocked_quiet a
  have hchanges : ∀ (cs : List LevelChange) (m : SourceAudioMixer), Quiet m (cs.foldl change m) := by
    intro cs
    induction cs with
    | nil => exact Quiet.refl
    | cons c cs ih => exact fun m => (m.change_quiet c).trans (ih _)
  rw [setLevels]
  dsimp only
  split_ifs
  · exact hcurrent
  · exact hcurrent
  · exact hcurrent
  · exact (hcurrent.trans (advanceRevisionLocked_quiet _)).trans (hchanges changes _)
  · exact hcurrent.trans (advanceRevisionLocked_quiet _)

/-! ## The invariant -/

/-- An open input: its ring has what it wrote on the window from the cursor
on, and its writes end inside that window. -/
structure InputOK (m : SourceAudioMixer) (h : Nat) (s : AudioMixInput) : Prop where
  length : s.pcm.length = m.cfg.queueSamples
  holds : Holds s.pcm m.cursor (heard m.written h)
  ends : ∀ w ∈ m.written, w.input = h →
    s.started = true ∧ w.start + w.frames.length ≤ s.lastEnd
  window : s.lastEnd ≤ m.cursor + m.cfg.queueSamples

variable {h : Nat}

theorem InputOK.beyond {m : SourceAudioMixer}
    (hok : InputOK m h s) (p : Nat) (hp : m.cursor + s.pcm.length ≤ p) :
    heard m.written h p = silence := by
  refine heard_of_none fun w hw => ?_
  by_cases hin : w.input = h
  · have hend := (hok.ends w hw hin).2
    have hwindow := hok.window
    have hlength := hok.length
    exact sample?_eq_none_of_ge (by omega)
  · exact sample?_other hin

structure MixerOK (m : SourceAudioMixer) : Prop where
  queue : 960 ≤ m.cfg.queueSamples
  inputs : ∀ (h : Nat) (s : AudioMixInput), m.inputs[h]? = some s → s.closed = false →
    InputOK m h s
  known : ∀ w ∈ m.written, w.input < m.inputs.length
  inOrder : InOrder m.written
  shut : m.closed = true → ∀ s ∈ m.inputs, s.closed = true
  cursor : m.closed = false → m.cursor = m.cfg.startSample + 960 * m.blocks.length
  times : m.blocks.map time
    = (range m.blocks.length).map fun k => m.cfg.startSample + 960 * k

variable {m}

variable {m' : SourceAudioMixer}

theorem Quiet.keeps_shut (hquiet : Quiet m m')
    (hshut : m.closed = true → ∀ s ∈ m.inputs, s.closed = true) (hclosed : m'.closed = true) :
    ∀ s ∈ m'.inputs, s.closed = true := by
  intro s' hs'
  rcases hquiet.shut hclosed with hbefore | hall
  · by_contra hopen
    obtain ⟨h, hh⟩ := mem_iff_getElem?.mp hs'
    obtain ⟨s, hs, hsame⟩ := hquiet.kept h s' hh (by simpa using hopen)
    have := hshut hbefore s (mem_of_getElem? hs)
    rw [hsame.opened] at this
    cases this
  · exact hall s' hs'

theorem InputOK.untouched {s' : AudioMixInput}
    (hok : InputOK m h s) (hquiet : Quiet m m') (hsame : Untouched s s') : InputOK m' h s' where
  length := by rw [hsame.pcm, hquiet.cfg]; exact hok.length
  holds := by rw [hsame.pcm, hquiet.cursor, hquiet.written]; exact hok.holds
  ends := by rw [hsame.started, hsame.lastEnd, hquiet.written]; exact hok.ends
  window := by rw [hsame.lastEnd, hquiet.cursor, hquiet.cfg]; exact hok.window

theorem MixerOK.quiet (hok : MixerOK m) (hquiet : Quiet m m') : MixerOK m' where
  queue := by rw [hquiet.cfg]; exact hok.queue
  inputs := by
    intro h s' hs' hopen
    obtain ⟨s, hs, hsame⟩ := hquiet.kept h s' hs' hopen
    exact (hok.inputs h s hs hsame.opened).untouched hquiet hsame
  known := by rw [hquiet.written, hquiet.length]; exact hok.known
  inOrder := by rw [hquiet.written]; exact hok.inOrder
  shut := hquiet.keeps_shut hok.shut
  cursor := by
    intro hopen
    rw [hquiet.cursor, hquiet.cfg, hquiet.blocks]
    refine hok.cursor ?_
    by_contra hclosed
    rw [hquiet.stays (by simpa using hclosed)] at hopen
    cases hopen
  times := by rw [hquiet.blocks, hquiet.cfg]; exact hok.times

theorem newSourceAudioMixer_ok {cfg : AudioMixConfig} {authorized : Bool}
    (h : newSourceAudioMixer cfg authorized = some m) :
    MixerOK m ∧ m.cfg = cfg ∧ m.blocks = [] ∧ m.written = [] := by
  rw [newSourceAudioMixer] at h
  split at h
  · cases h
  · next haccepted =>
      cases h
      refine ⟨⟨?_, ?_, ?_, List.Pairwise.nil, ?_, fun _ => rfl, rfl⟩, rfl, rfl, rfl⟩
      · show 960 ≤ cfg.queueSamples
        omega
      · intro _ s hs
        cases hs
      · intro w hw
        cases hw
      · intro hclosed
        cases hclosed

/-! ## A new input -/

theorem MixerOK.heard_new (hok : MixerOK m) (p : Nat) :
    heard m.written m.inputs.length p = silence := by
  refine heard_of_none fun w hw => sample?_other ?_
  have := hok.known w hw
  omega

theorem MixerOK.add (hok : MixerOK m) (cfg : Admission) (a : Authority) :
    MixerOK (m.add cfg a) := by
  rw [SourceAudioMixer.add]
  split_ifs with hclosed hdenied
  · exact hok.quiet m.closeLocked_quiet
  · exact hok
  · have hadvance := hok.quiet m.advanceRevisionLocked_quiet
    dsimp only
    split
    · next hgo =>
        have hopen : m.advanceRevisionLocked.1.closed = false := by
          rw [advanceRevisionLocked] at hgo ⊢
          split <;> rename_i hfull
          · rw [if_pos hfull] at hgo
            cases hgo
          · have := not_or.mp hclosed
            simpa using this.1
        generalize m.advanceRevisionLocked.1 = m₁ at hadvance hopen
        refine ⟨hadvance.queue, ?_, ?_, hadvance.inOrder, ?_, hadvance.cursor, hadvance.times⟩
        · intro h s hs hs'
          rcases lt_trichotomy h m₁.inputs.length with hlt | rfl | hgt
          · rw [getElem?_append_left hlt] at hs
            obtain ⟨hlength, hholds, hends, hwindow⟩ := hadvance.inputs h s hs hs'
            exact ⟨hlength, hholds, hends, hwindow⟩
          · rw [getElem?_append_right (Nat.le_refl _), Nat.sub_self] at hs
            cases hs
            refine ⟨?_, ?_, ?_, zero_le _⟩
            · exact length_replicate
            · exact (holds_replicate _ m₁.cursor silence).congr
                fun p _ => (hadvance.heard_new p).symm
            · intro w hw hin
              have := hadvance.known w hw
              omega
          · rw [getElem?_eq_none (by rw [length_append, length_singleton]; omega)] at hs
            cases hs
        · intro w hw
          have := hadvance.known w hw
          rw [length_append]
          omega
        · intro hclosed'
          exact absurd (hopen.symm.trans hclosed') (by decide)
    · exact hadvance

/-! ## A write -/

theorem MixerOK.take (hok : MixerOK m) {i : Nat} {s : AudioMixInput} (hs : m.inputs[i]? = some s)
    (hopen : s.closed = false) {start : Nat} {frames : List Frame}
    (hafter : s.started = true → s.lastEnd ≤ start)
    (hends : start + frames.length ≤ m.cursor + m.cfg.queueSamples) :
    MixerOK (m.take i s start frames) := by
  have hinput := hok.inputs i s hs hopen
  have hlt := (List.getElem?_eq_some_iff.mp hs).1
  have hbefore : ∀ v ∈ m.written, v.input = i → v.start + v.frames.length ≤ start := by
    intro v hv hin
    obtain ⟨hstarted, hend⟩ := hinput.ends v hv hin
    exact hend.trans (hafter hstarted)
  refine ⟨hok.queue, ?_, ?_, ?_, ?_, hok.cursor, hok.times⟩
  · intro h t ht htopen
    by_cases hh : h = i
    · subst hh
      have heq : t = { s with
          started := true
          lastEnd := start + frames.length
          pcm := store s.pcm (max start m.cursor) (frames.drop (max start m.cursor - start)) } := by
        simpa [SourceAudioMixer.take, hlt] using ht.symm
      subst heq
      refine ⟨(store_length ..).trans hinput.length, ?_, ?_, hends⟩
      · refine Holds.congr (hinput.holds.store (le_max_right _ _) ?_) fun p _ => ?_
        · rw [List.length_drop, hinput.length]
          omega
        · exact (heard_append (w := ⟨h, start, m.cursor, frames⟩) hbefore p).symm
      · intro w hw hin
        refine ⟨rfl, ?_⟩
        rcases List.mem_append.mp hw with hw | hw
        · have := hbefore w hw hin
          exact this.trans (le_add_right _ _)
        · obtain rfl := List.mem_singleton.mp hw
          exact le_refl _
    · have ht' : m.inputs[h]? = some t := by
        simpa [SourceAudioMixer.take, Ne.symm hh] using ht
      obtain ⟨hlength, hholds, hold, hwindow⟩ := hok.inputs h t ht' htopen
      refine ⟨hlength, ?_, ?_, hwindow⟩
      · show Holds t.pcm m.cursor (heard (m.written ++ [⟨i, start, m.cursor, frames⟩]) h)
        rw [heard_append_other (Ne.symm hh)]
        exact hholds
      · intro w hw hin
        rcases List.mem_append.mp hw with hw | hw
        · exact hold w hw hin
        · obtain rfl := List.mem_singleton.mp hw
          exact absurd hin.symm hh
  · intro w hw
    rw [SourceAudioMixer.take, List.length_set]
    rcases List.mem_append.mp hw with hw | hw
    · exact hok.known w hw
    · obtain rfl := List.mem_singleton.mp hw
      exact hlt
  · refine List.pairwise_append.mpr ⟨hok.inOrder, List.pairwise_singleton _ _, ?_⟩
    intro v hv w hw hin
    obtain rfl := List.mem_singleton.mp hw
    exact hbefore v hv hin
  · intro hclosed
    have := hok.shut hclosed s (List.mem_of_getElem? hs)
    rw [hopen] at this
    cases this

/-! ## A render -/

variable (m)

/-- The source is live at a render: open, and authorized when its turn comes. -/
def live (a : RenderAnswers) (h : Nat) : Bool :=
  (m.inputs[h]?).any (fun s => !s.closed) && a.inputs h

/-- What an input adds at a position. -/
def gained (h p : Nat) : Frame :=
  match m.inputs[h]? with
  | none => silence
  | some s => if s.muted then silence else addFrame s silence (heard m.written h p)

/-- The program timeline: the sum over the live sources that are not muted. -/
def timelineSum (a : RenderAnswers) (p : Nat) : Frame :=
  ∑ h ∈ (Finset.range m.inputs.length).filter (fun h => m.live a h), m.gained h p

/-- An input after its turn. -/
def visited (a : RenderAnswers) (cursor h : Nat) (s : AudioMixInput) : AudioMixInput :=
  if s.closed then s
  else if a.inputs h = false then s.shut
  else { s with pcm := (drain silence 960 cursor s.pcm).2 }

/-- The state of the mixing after the first `k` inputs. -/
structure MixedTo (a : RenderAnswers) (k : Nat) (state : SourceAudioMixer × List Frame) :
    Prop where
  cfg : state.1.cfg = m.cfg
  cursor : state.1.cursor = m.cursor
  written : state.1.written = m.written
  blocks : state.1.blocks = m.blocks
  length : state.1.inputs.length = m.inputs.length
  shut : state.1.closed = true → ∀ s ∈ state.1.inputs, s.closed = true
  inputs : state.1.closed = false → ∀ h : Nat, state.1.inputs[h]?
    = if h < k then (m.inputs[h]?).map (visited a m.cursor h) else m.inputs[h]?
  sums : state.1.closed = false → state.2 = (range 960).map fun i =>
    ∑ h ∈ (Finset.range k).filter (fun h => m.live a h), m.gained h (m.cursor + i)

variable {m}

/-- Closing an open input of an open mixer closes this input, or everything. -/
theorem closeInput_open {i : Nat} (hs : m.inputs[i]? = some s)
    (hopen : s.closed = false) (hm : m.closed = false) :
    (m.closeInput i).closed = true ∨ (m.closeInput i).inputs = m.inputs.set i s.shut := by
  rw [closeInput, hs]
  dsimp only
  rw [if_neg (by simp [hopen]), if_neg (by simp [hm]), advanceRevisionLocked]
  split
  · exact .inl (closeLocked_closed _)
  · exact .inr rfl

theorem gained_of_muted {p : Nat} (hs : m.inputs[h]? = some s)
    (hmuted : s.muted = true) : m.gained h p = silence := by
  rw [gained, hs]
  exact if_pos hmuted

theorem gained_of_heard {p : Nat} (hs : m.inputs[h]? = some s)
    (hmuted : s.muted = false) : m.gained h p = addFrame s silence (heard m.written h p) := by
  rw [gained, hs]
  exact if_neg (by simp [hmuted])

theorem addFrame_eq (s : AudioMixInput) (sum frame : Frame) :
    addFrame s sum frame = sum + addFrame s silence frame := by
  simp [addFrame, silence, Prod.add_def]

theorem sums_succ (a : RenderAnswers) (k p : Nat) :
    (∑ h ∈ (Finset.range (k + 1)).filter (fun h => m.live a h), m.gained h p)
      = (∑ h ∈ (Finset.range k).filter (fun h => m.live a h), m.gained h p)
        + (if m.live a k then m.gained k p else 0) := by
  rw [Finset.sum_filter, Finset.sum_filter, Finset.sum_range_succ]

variable {a : RenderAnswers} {state : SourceAudioMixer × List Frame}

theorem MixedTo.stay {k : Nat} (hmixed : MixedTo m a k state)
    (hsame : state.1.closed = false → (m.inputs[k]?).map (visited a m.cursor k) = m.inputs[k]?
      ∧ m.live a k = false) :
    MixedTo m a (k + 1) state := by
  refine { hmixed with inputs := fun hopen h => ?_, sums := fun hopen => ?_ }
  · rw [hmixed.inputs hopen h]
    rcases lt_trichotomy h k with hlt | rfl | hgt
    · rw [if_pos hlt, if_pos (by omega)]
    · rw [if_neg (lt_irrefl h), if_pos (lt_succ_self h), (hsame hopen).1]
    · rw [if_neg (by omega), if_neg (by omega)]
  · rw [hmixed.sums hopen]
    refine map_congr_left fun i _ => ?_
    rw [sums_succ, (hsame hopen).2]
    exact (add_zero _).symm

theorem MixedTo.set {a : RenderAnswers} {k : Nat} {state : SourceAudioMixer × List Frame}
    (hmixed : MixedTo m a k state) (hopen : state.1.closed = false) {s s' : AudioMixInput}
    (hs : state.1.inputs[k]? = some s) (hvisited : visited a m.cursor k s = s') (h : Nat) :
    (state.1.inputs.set k s')[h]?
      = if h < k + 1 then (m.inputs[h]?).map (visited a m.cursor h) else m.inputs[h]? := by
  have hlt := (List.getElem?_eq_some_iff.mp hs).1
  have hk := hmixed.inputs hopen k
  rw [hs, if_neg (lt_irrefl k)] at hk
  rcases lt_trichotomy h k with hbelow | rfl | habove
  · rw [List.getElem?_set_ne (by omega), hmixed.inputs hopen h, if_pos hbelow, if_pos (by omega)]
  · rw [List.getElem?_set_self hlt, if_pos (lt_succ_self h), ← hk, Option.map_some, hvisited]
  · rw [List.getElem?_set_ne (by omega), hmixed.inputs hopen h, if_neg (by omega),
      if_neg (by omega)]

theorem MixedTo.step (hok : MixerOK m) {k : Nat} (hmixed : MixedTo m a k state) :
    MixedTo m a (k + 1) (mixInput a state k) := by
  rw [mixInput]
  split
  · next hnone =>
      refine hmixed.stay fun hopen => ?_
      have hk := hmixed.inputs hopen k
      rw [hnone, if_neg (lt_irrefl k)] at hk
      rw [live, ← hk]
      exact ⟨rfl, rfl⟩
  · next s hs =>
      have hk : state.1.closed = false → m.inputs[k]? = some s := by
        intro hopen
        have hk := hmixed.inputs hopen k
        rw [hs, if_neg (lt_irrefl k)] at hk
        exact hk.symm
      split
      · next hclosed =>
          refine hmixed.stay fun hopen => ?_
          rw [live, hk hopen]
          simp [visited, hclosed]
      · next hclosed =>
          have hsopen : s.closed = false := by simpa using hclosed
          -- a closed mixer has no open input
          have hopen : state.1.closed = false := by
            by_contra hc
            have := hmixed.shut (by simpa using hc) s (mem_of_getElem? hs)
            rw [hsopen] at this
            cases this
          split
          · next hdenied =>
              have hquiet := state.1.closeInput_quiet k
              refine ⟨hquiet.cfg.trans hmixed.cfg, hquiet.cursor.trans hmixed.cursor,
                hquiet.written.trans hmixed.written, hquiet.blocks.trans hmixed.blocks,
                hquiet.length.trans hmixed.length, hquiet.keeps_shut hmixed.shut, ?_, ?_⟩
              · intro hopen' h
                rcases closeInput_open hs hsopen hopen with hall | hset
                · rw [hall] at hopen'
                  cases hopen'
                · rw [hset]
                  exact hmixed.set hopen hs (by simp [visited, hsopen, hdenied]) h
              · intro _
                rw [hmixed.sums hopen]
                refine map_congr_left fun i _ => ?_
                rw [sums_succ, live, hdenied]
                simp
          · next hallowed =>
              refine ⟨hmixed.cfg, hmixed.cursor, hmixed.written, hmixed.blocks,
                (length_set ..).trans hmixed.length, ?_, ?_, ?_⟩
              · intro hc
                exact absurd (hopen.symm.trans hc) (by decide)
              · intro _ h
                exact hmixed.set hopen hs (by simp [visited, hsopen, hallowed, hmixed.cursor]) h
              · intro _
                have hinput := hok.inputs k s (hk hopen) hsopen
                have hread := (hinput.holds.drain (hinput.length ▸ hok.queue) silence
                  hinput.beyond).1
                have hlive : m.live a k = true := by
                  rw [live, hk hopen]
                  simpa [hsopen] using hallowed
                dsimp only
                rw [hmixed.cursor, hread, hmixed.sums hopen]
                cases hmuted : s.muted
                · rw [if_neg (by decide), zipWith_map, zipWith_self]
                  refine map_congr_left fun i _ => ?_
                  rw [sums_succ, if_pos hlive, gained_of_heard (hk hopen) hmuted]
                  exact addFrame_eq s _ _
                · refine map_congr_left fun i _ => ?_
                  rw [sums_succ, if_pos hlive, gained_of_muted (hk hopen) hmuted]
                  exact (add_zero _).symm

theorem MixerOK.mixInputs (hok : MixerOK m) (a : RenderAnswers) :
    MixedTo m a m.inputs.length (m.mixInputs a) := by
  have hgo : ∀ k, MixedTo m a k ((range k).foldl (mixInput a) (m, replicate 960 silence)) := by
    intro k
    induction k with
    | zero =>
        refine ⟨rfl, rfl, rfl, rfl, rfl, hok.shut, fun _ h => (if_neg (not_lt_zero h)).symm,
          fun _ => ?_⟩
        simp only [Finset.range_zero, Finset.filter_empty, Finset.sum_empty, map_const',
          length_range]
        rfl
    | succ k ih =>
        rw [range_succ, foldl_append]
        exact ih.step hok
  exact hgo m.inputs.length

theorem visited_opened {c : Nat} :
    (visited a c h s).closed = false ↔ s.closed = false ∧ a.inputs h = true := by
  rw [visited]
  cases hclosed : s.closed <;> cases hallowed : a.inputs h <;> simp [hclosed, AudioMixInput.shut]

theorem MixedTo.opened
    (hmixed : MixedTo m a m.inputs.length state) (hopen : state.1.closed = false) (h : Nat) :
    (state.1.inputs[h]?).any (fun s => !s.closed) = m.live a h := by
  rw [hmixed.inputs hopen h, live]
  cases hs : m.inputs[h]? with
  | none => simp
  | some s =>
      have hlt := (List.getElem?_eq_some_iff.mp hs).1
      have hiff := visited_opened (a := a) (c := m.cursor) (h := h) (s := s)
      cases hv : (visited a m.cursor h s).closed <;> cases hc : s.closed <;>
        cases hallowed : a.inputs h <;> simp_all

theorem MixedTo.revoked_iff
    (hmixed : MixedTo m a m.inputs.length state) (hopen : state.1.closed = false) :
    state.1.revoked a = true ↔ ∃ h, m.live a h = true ∧ a.still h = false := by
  rw [revoked, any_eq_true]
  constructor
  · rintro ⟨h, -, hh⟩
    rw [hmixed.opened hopen h] at hh
    exact ⟨h, by simpa using hh⟩
  · rintro ⟨h, hlive, hstill⟩
    have hlt : h < m.inputs.length := by
      by_contra hge
      rw [live, getElem?_eq_none (by omega)] at hlive
      cases hlive
    refine ⟨h, mem_range.mpr (by rw [hmixed.length]; exact hlt), ?_⟩
    rw [hmixed.opened hopen h, hlive, hstill]
    rfl

/-- The mixer when the block is handed off, and the block. -/
def checked (m : SourceAudioMixer) (a : RenderAnswers) : SourceAudioMixer :=
  (m.mixInputs a).1.closeUnauthorized a.still

def handed (m : SourceAudioMixer) (a : RenderAnswers) : AudioBlock :=
  ⟨(m.checked a).cursor,
    if (m.mixInputs a).1.revoked a then replicate 3840 0 else encodePCM (m.mixInputs a).2⟩

theorem renderGuarded_cases (m : SourceAudioMixer) (a : RenderAnswers) :
    m.renderGuarded a = (m.closeLocked, none)
    ∨ m.closed = false ∧ m.renderGuarded a = ((m.checked a).closeLocked, none)
    ∨ m.closed = false ∧ (m.checked a).closed = false ∧ (m.renderGuarded a = ({ m.checked a with
            blocks := (m.checked a).blocks ++ [m.handed a]
            cursor := (m.checked a).cursor + 960 }, some (m.handed a))
        ∨ m.renderGuarded a = ({ m.checked a with
            blocks := (m.checked a).blocks ++ [m.handed a] }.closeLocked, some (m.handed a))) := by
  rw [renderGuarded]
  split
  · exact .inl rfl
  · next hopen =>
      have hm : m.closed = false := by
        have := not_or.mp hopen
        simpa using this.1
      dsimp only
      split
      · exact .inr (.inl ⟨hm, rfl⟩)
      · next hdone =>
          have hchecked : (m.checked a).closed = false := by
            have := not_or.mp hdone
            simpa [checked] using this.1
          refine .inr (.inr ⟨hm, hchecked, ?_⟩)
          split
          · exact .inl rfl
          · exact .inr rfl

theorem checked_quiet (m : SourceAudioMixer) (a : RenderAnswers) :
    Quiet (m.mixInputs a).1 (m.checked a) :=
  closeUnauthorized_quiet _ a.still

/-- A mixer that is open at the handoff was open after the mixing. -/
theorem mixed_open (hchecked : (m.checked a).closed = false) :
    (m.mixInputs a).1.closed = false := by
  by_contra hc
  rw [(m.checked_quiet a).stays (by simpa using hc)] at hchecked
  cases hchecked

section

variable (hok : MixerOK m)

include hok

theorem MixerOK.handed_time (a : RenderAnswers) : (m.handed a).time = m.cursor :=
  (m.checked_quiet a).cursor.trans (hok.mixInputs a).cursor

/-- **The block.** It is the timeline from the cursor on, or silence. -/
theorem MixerOK.handed_frames (hchecked : (m.checked a).closed = false) :
    ((∀ h, m.live a h = true → a.still h = true) →
      decodePCM (m.handed a).pcm = (range 960).map fun i =>
        (outputSample (m.timelineSum a (m.cursor + i)).1,
          outputSample (m.timelineSum a (m.cursor + i)).2))
    ∧ ((∃ h, m.live a h = true ∧ a.still h = false) →
      decodePCM (m.handed a).pcm = replicate 960 silence) := by
  have hmixed := hok.mixInputs a
  have hopen := mixed_open hchecked
  have hrevoked := hmixed.revoked_iff hopen
  constructor
  · intro hstill
    have hnot : ¬(m.mixInputs a).1.revoked a = true := by
      intro hr
      obtain ⟨h, hlive, hgone⟩ := hrevoked.mp hr
      rw [hstill h hlive] at hgone
      cases hgone
    rw [handed, if_neg hnot, decodePCM_encodePCM, hmixed.sums hopen, map_map]
    rfl
  · intro hgone
    rw [handed, if_pos (hrevoked.mpr hgone)]
    exact decodePCM_zeros 960

theorem MixerOK.closed_after (hcfg : m'.cfg = m.cfg)
    (hwritten : m'.written = m.written) (hlength : m'.inputs.length = m.inputs.length)
    (hshut : m'.closed = true → ∀ s ∈ m'.inputs, s.closed = true)
    (htimes : m'.blocks.map time
      = (range m'.blocks.length).map fun k => m.cfg.startSample + 960 * k) :
    MixerOK m'.closeLocked := by
  have hquiet := m'.closeLocked_quiet
  have hall := hquiet.keeps_shut hshut m'.closeLocked_closed
  refine ⟨?_, ?_, ?_, ?_, fun _ => hall, ?_, ?_⟩
  · rw [hquiet.cfg, hcfg]
    exact hok.queue
  · intro h s hs hopen
    have := hall s (mem_of_getElem? hs)
    rw [hopen] at this
    cases this
  · rw [hquiet.written, hwritten, hquiet.length, hlength]
    exact hok.known
  · rw [hquiet.written, hwritten]
    exact hok.inOrder
  · intro hopen
    rw [m'.closeLocked_closed] at hopen
    cases hopen
  · rw [hquiet.blocks, hquiet.cfg, hcfg]
    exact htimes

theorem MixerOK.times_append (hopen : m.closed = false) {block : AudioBlock}
    (htime : block.time = m.cursor) :
    (m.blocks ++ [block]).map time
      = (range (m.blocks ++ [block]).length).map fun k => m.cfg.startSample + 960 * k := by
  rw [map_append, length_append, length_singleton, range_succ, map_append,
    hok.times, map_singleton, map_singleton, htime, hok.cursor hopen]

theorem MixerOK.render (a : RenderAnswers) : MixerOK (m.renderGuarded a).1 := by
  have hmixed := hok.mixInputs a
  have hquiet := m.checked_quiet a
  have hcfg : (m.checked a).cfg = m.cfg := hquiet.cfg.trans hmixed.cfg
  have hcursor : (m.checked a).cursor = m.cursor := hquiet.cursor.trans hmixed.cursor
  have hwritten : (m.checked a).written = m.written := hquiet.written.trans hmixed.written
  have hblocks : (m.checked a).blocks = m.blocks := hquiet.blocks.trans hmixed.blocks
  have hlength : (m.checked a).inputs.length = m.inputs.length := hquiet.length.trans hmixed.length
  have hshut := hquiet.keeps_shut hmixed.shut
  rcases m.renderGuarded_cases a with hr | ⟨-, hr⟩ | ⟨hopen, hchecked, hr⟩
  · rw [hr]
    exact hok.quiet m.closeLocked_quiet
  · rw [hr]
    refine hok.closed_after hcfg hwritten hlength hshut ?_
    rw [hblocks]
    exact hok.times
  · have htimes := hok.times_append hopen (hok.handed_time a)
    rcases hr with hr | hr
    · rw [hr]
      refine ⟨?_, ?_, ?_, ?_, hshut, fun _ => ?_, ?_⟩
      · rw [hcfg]
        exact hok.queue
      · intro h s hs hsopen
        obtain ⟨t, ht, hsame⟩ := hquiet.kept h s hs hsopen
        rw [hmixed.inputs (mixed_open hchecked) h] at ht
        have hlt : h < m.inputs.length := by
          rw [← hlength]
          exact (List.getElem?_eq_some_iff.mp hs).1
        rw [if_pos hlt] at ht
        obtain ⟨s₀, hs₀, rfl⟩ := Option.map_eq_some_iff.mp ht
        obtain ⟨hs₀open, hallowed⟩ := visited_opened.mp hsame.opened
        have hinput := hok.inputs h s₀ hs₀ hs₀open
        have hvisited : visited a m.cursor h s₀
            = { s₀ with pcm := (drain silence 960 m.cursor s₀.pcm).2 } := by
          simp [visited, hs₀open, hallowed]
        obtain ⟨-, hpcm, hend, hstarted⟩ := hsame
        rw [hvisited] at hpcm hend hstarted
        dsimp only at hpcm hend hstarted
        have hdrained := (hinput.holds.drain (hinput.length ▸ hok.queue) silence hinput.beyond).2
        refine ⟨?_, ?_, ?_, ?_⟩
        · rw [hpcm, hcfg, drain_length]
          exact hinput.length
        · rw [hpcm, hcursor, hwritten]
          exact hdrained
        · rw [hwritten, hstarted, hend]
          exact hinput.ends
        · show s.lastEnd ≤ (m.checked a).cursor + 960 + (m.checked a).cfg.queueSamples
          rw [hend, hcursor, hcfg]
          have hwindow : s₀.lastEnd ≤ m.cursor + m.cfg.queueSamples := hinput.window
          exact hwindow.trans (by omega)
      · rw [hwritten, hlength]
        exact hok.known
      · rw [hwritten]
        exact hok.inOrder
      · rw [hcursor, hcfg, hblocks, length_append, length_singleton, hok.cursor hopen]
        ring
      · rw [hblocks, hcfg]
        exact htimes
    · rw [hr]
      refine hok.closed_after hcfg hwritten hlength hshut ?_
      rw [hblocks]
      exact htimes

end

/-! ## Every call -/

theorem MixerOK.writeProgram (hok : MixerOK m) (i : Nat) (start : Int) (pcm : List UInt8)
    (mapped : Bool) (a : Authority) : MixerOK (m.writeProgramLocked i start pcm mapped a) := by
  rw [writeProgramLocked]
  split
  · exact hok.quiet m.closeLocked_quiet
  · split
    · exact hok
    · next s hs =>
        split
        · exact hok.quiet (m.closeInput_quiet i)
        · next hgo =>
            obtain ⟨hopen, -, hgranted⟩ := by simpa only [not_or] using hgo
            simp only [writeDenied, decide_eq_true_eq, not_or, not_and, not_lt, gt_iff_lt,
              ne_eq, not_not, Bool.not_eq_false] at hgranted
            obtain ⟨-, hmod, -, -, hstart, -, hafter, hends⟩ := hgranted
            have hlength : (decodePCM pcm).length = pcm.length / 4 :=
              decodePCM_length _ pcm (by omega)
            refine hok.take hs (by simpa using hopen) (fun hstarted => ?_) ?_
            · have := hafter hstarted
              omega
            · omega

theorem MixerOK.writePCM (hok : MixerOK m) (i : Nat) (rate channels : Int) (mapped : Option Int)
    (pcm : List UInt8) (a a' : Authority) :
    MixerOK (m.writePCM i rate channels mapped pcm a a') := by
  rw [SourceAudioMixer.writePCM]
  split
  · exact hok.quiet m.closeLocked_quiet
  · split
    · exact hok
    · split
      · exact hok.quiet (m.closeInput_quiet i)
      · exact hok.writeProgram ..

/-- One call keeps the invariant. -/
theorem MixerOK.next (hok : MixerOK m) (call : MixerCall) : MixerOK (m.next call) := by
  cases call with
  | add cfg a => exact hok.add cfg a
  | writePCM i rate channels mapped pcm a a' => exact hok.writePCM i rate channels mapped pcm a a'
  | writeProgramPCM i start pcm a => exact hok.writeProgram i start pcm true a
  | setGain i left right a => exact hok.quiet (m.setGain_quiet i left right a)
  | setLevels expected changes a => exact hok.quiet (m.setLevels_quiet expected changes a)
  | closeInput i => exact hok.quiet (m.closeInput_quiet i)
  | close => exact hok.quiet m.closeLocked_quiet
  | render a => exact hok.render a

theorem writeProgramLocked_cfg (i : Nat) (start : Int) (pcm : List UInt8) (mapped : Bool)
    (a : Authority) : (m.writeProgramLocked i start pcm mapped a).cfg = m.cfg := by
  rw [writeProgramLocked]
  split
  · exact m.closeLocked_quiet.cfg
  · split
    · rfl
    · split
      · exact (m.closeInput_quiet i).cfg
      · rfl

theorem MixerOK.next_cfg (hok : MixerOK m) (call : MixerCall) : (m.next call).cfg = m.cfg := by
  cases call with
  | add cfg a =>
      rw [SourceAudioMixer.next, SourceAudioMixer.add]
      have hadvance := m.advanceRevisionLocked_quiet.cfg
      split_ifs
      · exact m.closeLocked_quiet.cfg
      · rfl
      · dsimp only
        split <;> exact hadvance
  | writePCM i rate channels mapped pcm a a' =>
      rw [SourceAudioMixer.next, SourceAudioMixer.writePCM]
      split
      · exact m.closeLocked_quiet.cfg
      · split
        · rfl
        · split
          · exact (m.closeInput_quiet i).cfg
          · exact writeProgramLocked_cfg ..
  | writeProgramPCM i start pcm a => exact writeProgramLocked_cfg ..
  | setGain i left right a => exact (m.setGain_quiet i left right a).cfg
  | setLevels expected changes a => exact (m.setLevels_quiet expected changes a).cfg
  | closeInput i => exact (m.closeInput_quiet i).cfg
  | close => exact m.closeLocked_quiet.cfg
  | render a =>
      have hchecked : (m.checked a).cfg = m.cfg :=
        (m.checked_quiet a).cfg.trans (hok.mixInputs a).cfg
      rw [SourceAudioMixer.next]
      rcases m.renderGuarded_cases a with hr | ⟨-, hr⟩ | ⟨-, -, hr | hr⟩ <;> rw [hr]
      · exact m.closeLocked_quiet.cfg
      · exact ((m.checked a).closeLocked_quiet).cfg.trans hchecked
      · exact hchecked
      · exact (closeLocked_quiet _).cfg.trans hchecked

theorem MixerOK.run {calls : List MixerCall} (hok : MixerOK m)
    (hrun : Path Step m calls m') : MixerOK m' ∧ m'.cfg = m.cfg := by
  refine hrun.inv (I := fun x => MixerOK x ∧ x.cfg = m.cfg) ?_ ⟨hok, rfl⟩
  rintro s call t rfl ⟨hs, hcfg⟩
  exact ⟨hs.next call, (hs.next_cfg call).trans hcfg⟩

/-- **The mixer plays the program timeline.** Blocks follow each other from
the first sample on; what is heard at a position is the one sample written
for it; and a block is, frame by frame, the limited sum over the sources
that are live at the render, unless one of them is revoked before the block
is handed off: then all of it is silence. -/
theorem renders_timeline {cfg : AudioMixConfig} {authorized : Bool} {m₀ m : SourceAudioMixer}
    {calls : List MixerCall} (hnew : newSourceAudioMixer cfg authorized = some m₀)
    (hrun : Path Step m₀ calls m) :
    m.blocks.map time = (range m.blocks.length).map (fun k => cfg.startSample + 960 * k)
    ∧ (∀ w ∈ m.written, ∀ (h p : Nat) (x : Frame), w.sample? h p = some x → heard m.written h p = x)
    ∧ ∀ (a : RenderAnswers) (block : AudioBlock), (m.renderGuarded a).2 = some block →
        block.time = m.cursor ∧ m.cursor = cfg.startSample + 960 * m.blocks.length
        ∧ ((∀ h, m.live a h = true → a.still h = true) →
          decodePCM block.pcm = (range 960).map fun i =>
            (outputSample (m.timelineSum a (m.cursor + i)).1,
              outputSample (m.timelineSum a (m.cursor + i)).2))
        ∧ ((∃ h, m.live a h = true ∧ a.still h = false) →
          decodePCM block.pcm = replicate 960 silence) := by
  obtain ⟨hok₀, hcfg₀, -, -⟩ := newSourceAudioMixer_ok hnew
  obtain ⟨hok, hcfg⟩ := hok₀.run hrun
  rw [hcfg₀] at hcfg
  refine ⟨?_, ?_, ?_⟩
  · have := hok.times
    rwa [hcfg] at this
  · intro w hw h p x hx
    exact hok.inOrder.heard_eq hw hx
  · intro a block hblock
    rcases m.renderGuarded_cases a with hr | ⟨-, hr⟩ | ⟨hopen, hchecked, hr⟩
    · rw [hr] at hblock
      cases hblock
    · rw [hr] at hblock
      cases hblock
    · have hhanded : block = m.handed a := by
        rcases hr with hr | hr <;> rw [hr] at hblock <;> exact (Option.some.inj hblock).symm
      have hcursor := hok.cursor hopen
      rw [hcfg] at hcursor
      rw [hhanded]
      exact ⟨hok.handed_time a, hcursor, hok.handed_frames hchecked⟩

/-! ### Two sources, the second of which has written one frame -/

def sampleConfig : AudioMixConfig := ⟨2, 960, 7680, 0⟩

def sampleMixer : SourceAudioMixer := ⟨sampleConfig, [], 0, 0, false, 1, [], []⟩

def sampleCalls : List MixerCall :=
  [.add ⟨32768, 32768, true, true⟩ ⟨true, true⟩, .add ⟨32768, 16384, true, true⟩ ⟨true, true⟩,
    .writeProgramPCM 1 0 [0, 1, 0, 2] ⟨true, true⟩]

def sampleState : SourceAudioMixer := sampleCalls.foldl next sampleMixer

theorem sampleState_run : Path Step sampleMixer sampleCalls sampleState :=
  .cons rfl (.cons rfl (.cons rfl (.nil _)))

/-- Every source stays authorized. -/
def sampleRender : RenderAnswers := ⟨true, fun _ => true, fun _ => true, true, true⟩

/-- The first source is revoked while the block is mixed. -/
def revokedRender : RenderAnswers := ⟨true, fun _ => true, fun h => h != 0, true, true⟩

theorem renders_timeline_sample : ∃ block, (sampleState.renderGuarded sampleRender).2 = some block
      ∧ block.time = 0
      ∧ outputSample (sampleState.timelineSum sampleRender (sampleState.cursor + 0)).1 = 256
      ∧ decodePCM block.pcm = (range 960).map fun i =>
        (outputSample (sampleState.timelineSum sampleRender (sampleState.cursor + i)).1,
          outputSample (sampleState.timelineSum sampleRender (sampleState.cursor + i)).2) := by
  have hblock : ((sampleState.renderGuarded sampleRender).2).isSome = true := by decide
  obtain ⟨block, hblock⟩ := Option.isSome_iff_exists.mp hblock
  obtain ⟨htime, hcursor, hframes, -⟩ :=
    (renders_timeline (show newSourceAudioMixer sampleConfig true = some sampleMixer by decide)
      sampleState_run).2.2 sampleRender block hblock
  have hzero : sampleState.cursor = 0 := by decide
  exact ⟨block, hblock, htime.trans hzero, by decide, hframes fun _ _ => rfl⟩

/-- The second source stays live throughout and has a sample at the cursor,
and the block is silence there. -/
theorem revoked_block_silent : newSourceAudioMixer sampleConfig true = some sampleMixer
    ∧ Path Step sampleMixer sampleCalls sampleState
    ∧ ∃ block, (sampleState.renderGuarded revokedRender).2 = some block
      ∧ block.time = sampleState.cursor
      ∧ decodePCM block.pcm = replicate 960 silence
      ∧ sampleState.live revokedRender 1 = true ∧ revokedRender.still 1 = true
      ∧ sampleState.gained 1 (sampleState.cursor + 0) = (8388608, 8388608)
      ∧ sampleState.gained 0 (sampleState.cursor + 0) = silence
      ∧ outputSample (sampleState.timelineSum revokedRender (sampleState.cursor + 0)).1 = 256 := by
  refine ⟨by decide, sampleState_run, ?_⟩
  have hnew : newSourceAudioMixer sampleConfig true = some sampleMixer := by decide
  have hok := ((newSourceAudioMixer_ok hnew).1.run sampleState_run).1
  have hchecked : (sampleState.checked revokedRender).closed = false := by decide
  have hblock : ((sampleState.renderGuarded revokedRender).2).isSome = true := by decide
  have hhanded : (sampleState.renderGuarded revokedRender).2
      = some (sampleState.handed revokedRender) := by
    rcases sampleState.renderGuarded_cases revokedRender with hr | ⟨-, hr⟩ | ⟨-, -, hr | hr⟩
    · rw [hr] at hblock
      cases hblock
    · rw [hr] at hblock
      cases hblock
    · rw [hr]
    · rw [hr]
  exact ⟨_, hhanded, hok.handed_time revokedRender,
    (hok.handed_frames hchecked).2 ⟨0, by decide, by decide⟩, by decide, rfl,
    by decide, by decide, by decide⟩

end SourceAudioMixer

end Packager

end WebrtcMinimize
