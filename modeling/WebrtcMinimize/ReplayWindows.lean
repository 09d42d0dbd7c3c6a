import WebrtcMinimize.SlidingWindow
import WebrtcMinimize.TrustedDecoder

/-!
# The two replay windows

The browser keeps the last 128 counters as the bits of one big integer, the
packager as two 64-bit words. Both are sliding windows of that size: `bit` reads
a window as its bits, and each operation is followed on them, so that the two
decide alike whatever is offered, and exactly by the counters they accepted.
-/

namespace WebrtcMinimize

open Checks SlidingWindow UInt64 Nat SFrame

namespace SFrame

/-- `SFRAME_REPLAY_WINDOW` -/
def replayWindow : Nat := 128

structure SFrameReplayWindow where
  /-- -1 before the first counter -/
  highest : Int
  seen : Nat
deriving DecidableEq

namespace SFrameReplayWindow

def new : SFrameReplayWindow := ⟨-1, 0⟩

def canAccept (w : SFrameReplayWindow) (counter : Nat) : Except String Bool := do
  assertUint64 counter "counter"
  if w.highest < 0 ∨ w.highest < counter then .ok true
  else
    let distance := (w.highest - counter).toNat
    .ok (decide (distance < replayWindow) && (w.seen >>> distance) &&& 1 == 0)

/-- What `accept` makes of a window that can accept the counter. -/
def accepted (w : SFrameReplayWindow) (counter : Nat) : SFrameReplayWindow :=
  if w.highest < 0 then { highest := counter, seen := 1 }
  else if w.highest < counter then
    let distance := (counter - w.highest).toNat
    { highest := counter
      seen := if replayWindow ≤ distance then 1
        else (w.seen <<< distance ||| 1) &&& (1 <<< replayWindow - 1) }
  else { w with seen := w.seen ||| 1 <<< (w.highest - counter).toNat }

def accept (w : SFrameReplayWindow) (counter : Nat) :
    Except String (Bool × SFrameReplayWindow) := do
  let taken ← w.canAccept counter
  return if taken then (true, w.accepted counter) else (false, w)

/-- The results of a sequence of calls. -/
def decisions : SFrameReplayWindow → List Nat → Except String (List Bool)
  | _, [] => .ok []
  | w, counter :: counters => do
      let taken ← w.accept counter
      let rest ← decisions taken.2 counters
      return taken.1 :: rest

def bit (w : SFrameReplayWindow) (d : Nat) : Bool := w.seen.testBit d

/-- The window knows what it accepted. -/
def Knows (w : SFrameReplayWindow) (taken : List Nat) : Prop :=
  (w = new ∧ taken = []) ∨
    ∃ highest : Nat, w.highest = highest ∧ Tracks replayWindow w.bit highest taken

theorem knows_new : new.Knows [] := .inl ⟨rfl, rfl⟩

theorem shiftRight_and_one (seen d : Nat) : (seen >>> d &&& 1 == 0) = !seen.testBit d := by
  rw [Nat.testBit, Nat.and_comm, bne, Bool.not_not]

theorem canAccept_spec {w : SFrameReplayWindow} {taken : List Nat} (h : w.Knows taken)
    {counter : Nat} (hcounter : counter < 2 ^ 64) :
    w.canAccept counter = .ok (decide (Admits replayWindow taken counter)) := by
  rw [canAccept, assertUint64, failIf_of_not _ (by omega), ok_bind]
  rcases h with ⟨rfl, rfl⟩ | ⟨highest, hhighest, htracks⟩
  · rfl
  · rw [hhighest]
    by_cases hlt : highest < counter
    · rw [if_pos (by omega), decide_eq_true (htracks.admits_of_lt hlt)]
    · have hle : counter ≤ highest := not_lt.mp hlt
      have hdistance : ((highest : Int) - counter).toNat = highest - counter := by omega
      have hbit : w.seen.testBit (highest - counter) = w.bit (highest - counter) := rfl
      rw [if_neg (by omega)]
      simp only [hdistance, shiftRight_and_one, hbit, htracks.admits_iff hle, Bool.decide_and,
        Bool.decide_eq_false]

/-- The bits of a window that moves up. -/
theorem testBit_moved (seen distance : Nat) {d : Nat} (hd : d < replayWindow) :
    (if replayWindow ≤ distance then 1
      else (seen <<< distance ||| 1) &&& (1 <<< replayWindow - 1)).testBit d = true
      ↔ d = 0 ∨ (distance ≤ d ∧ seen.testBit (d - distance) = true) := by
  split
  · rw [testBit_one_eq_true_iff_self_eq_zero]
    omega
  · rw [one_shiftLeft, testBit_and, testBit_or, testBit_two_pow_sub_one,
      testBit_shiftLeft]
    simp only [Bool.and_eq_true, Bool.or_eq_true, decide_eq_true_eq, hd, and_true,
      testBit_one_eq_true_iff_self_eq_zero, ge_iff_le]
    exact or_comm

theorem knows_accepted {w : SFrameReplayWindow} {taken : List Nat} (h : w.Knows taken)
    (counter : Nat) : (w.accepted counter).Knows (counter :: taken) := by
  rcases h with ⟨rfl, rfl⟩ | ⟨highest, hhighest, htracks⟩
  · refine .inr ⟨counter, rfl, Tracks.first fun d _ => ?_⟩
    exact testBit_one_eq_true_iff_self_eq_zero
  · rw [accepted, hhighest, if_neg (by omega)]
    by_cases hlt : highest < counter
    · rw [if_pos (by omega)]
      refine .inr ⟨counter, rfl, htracks.move hlt fun d hd => ?_⟩
      rw [show counter - highest = ((counter : Int) - highest).toNat by omega]
      exact testBit_moved w.seen _ hd
    · have hle : counter ≤ highest := not_lt.mp hlt
      rw [if_neg (by omega)]
      refine .inr ⟨highest, rfl, htracks.mark hle fun d _ => ?_⟩
      rw [bit, show ((highest : Int) - counter).toNat = highest - counter by omega,
        testBit_or, one_shiftLeft, testBit_two_pow, Bool.or_eq_true, decide_eq_true_eq,
        or_comm, eq_comm]
      rfl

/-- The browser's window takes what a sliding window takes. -/
theorem decisions_spec (counters : List UInt64) :
    ∀ {w : SFrameReplayWindow} {taken : List Nat}, w.Knows taken →
      w.decisions (counters.map toNat)
        = .ok (SlidingWindow.decisions replayWindow taken (counters.map toNat)) := by
  induction counters with
  | nil =>
      intro w taken _
      rfl
  | cons counter counters ih =>
      intro w taken h
      rw [List.map_cons, decisions, accept, canAccept_spec h counter.toNat_lt, ok_bind,
        SlidingWindow.decisions]
      by_cases hadmits : Admits replayWindow taken counter.toNat
      · rw [if_pos hadmits, decide_eq_true hadmits]
        show (decisions (w.accepted counter.toNat) _ >>= _) = _
        rw [ih (knows_accepted h counter.toNat)]
        rfl
      · rw [if_neg hadmits, decide_eq_false hadmits]
        show (decisions w _ >>= _) = _
        rw [ih h]
        rfl

end SFrameReplayWindow

end SFrame

/-! ## Two words -/

namespace TrustedSFrame

namespace ReplayWindow

/-- A counter offered to the window: it is accepted where it can be. -/
def offer (w : ReplayWindow) (counter : UInt64) : Bool × ReplayWindow :=
  if w.canAccept counter then (true, w.accept counter) else (false, w)

def decisions : ReplayWindow → List UInt64 → List Bool
  | _, [] => []
  | w, counter :: counters => (w.offer counter).1 :: decisions (w.offer counter).2 counters

def bit (w : ReplayWindow) (d : Nat) : Bool :=
  if d < 64 then w.low.toNat.testBit d else w.high.toNat.testBit (d - 64)

def Knows (w : ReplayWindow) (taken : List Nat) : Prop :=
  (w = fresh ∧ taken = []) ∨
    w.initialized = true ∧ Tracks replayWindow w.bit w.highest.toNat taken

theorem knows_fresh : fresh.Knows [] := .inl ⟨rfl, rfl⟩

/-- The bits of a word with one bit alone. -/
theorem testBit_one_shiftLeft {k : UInt64} (hk : k.toNat < 64) (d : Nat) :
    ((1 : UInt64) <<< k).toNat.testBit d = decide (k.toNat = d) := by
  have hpow : 2 ^ k.toNat < 2 ^ 64 := Nat.pow_lt_pow_right (by decide) hk
  rw [UInt64.toNat_shiftLeft, mod_eq_of_lt hk, show (1 : UInt64).toNat = 1 from rfl,
    one_shiftLeft, mod_eq_of_lt hpow, testBit_two_pow]

theorem and_bit_eq_zero (a : UInt64) {k : UInt64} (hk : k.toNat < 64) :
    (a &&& (1 <<< k) == 0) = !a.toNat.testBit k.toNat := by
  rw [Bool.eq_iff_iff, beq_iff_eq, ← UInt64.toNat_inj, UInt64.toNat_and, Bool.not_eq_true']
  show _ = 0 ↔ _
  constructor
  · intro hzero
    have hbit := congrArg (testBit · k.toNat) hzero
    simp only [testBit_and, testBit_one_shiftLeft hk, decide_true, Bool.and_true,
      zero_testBit] at hbit
    exact hbit
  · intro hbit
    refine eq_of_testBit_eq fun d => ?_
    rw [testBit_and, testBit_one_shiftLeft hk, zero_testBit]
    by_cases hd : k.toNat = d
    · rw [← hd, hbit, Bool.false_and]
    · rw [decide_eq_false hd, Bool.and_false]

theorem toNat_div (d : UInt64) : (d / 64).toNat = d.toNat / 64 := by
  rfl

theorem toNat_mod (d : UInt64) : (d % 64).toNat = d.toNat % 64 := by
  rfl

theorem div_eq_zero_iff (d : UInt64) : d / 64 = 0 ↔ d.toNat < 64 := by
  rw [← UInt64.toNat_inj, toNat_div]
  show _ = 0 ↔ _
  omega

/-- The bit that a window is asked for. -/
theorem bits_and_eq_zero (w : ReplayWindow) {distance : UInt64} (h : distance.toNat < 128) :
    (w.bits (distance / 64) &&& (1 <<< (distance % 64)) == 0) = !w.bit distance.toNat := by
  have hmod : (distance % 64).toNat < 64 := by
    rw [toNat_mod]
    omega
  rw [and_bit_eq_zero _ hmod, bits, bit, toNat_mod]
  by_cases hlow : distance.toNat < 64
  · rw [if_pos ((div_eq_zero_iff distance).mpr hlow), if_pos hlow, mod_eq_of_lt hlow]
  · rw [if_neg (fun hdiv => hlow ((div_eq_zero_iff distance).mp hdiv)), if_neg hlow,
      show distance.toNat % 64 = distance.toNat - 64 by omega]

theorem bit_mark (w : ReplayWindow) {distance : UInt64} (h : distance.toNat < 128) {d : Nat}
    (hd : d < 128) :
    (w.mark distance).bit d = true ↔ d = distance.toNat ∨ w.bit d = true := by
  have hmod : (distance % 64).toNat < 64 := by
    rw [toNat_mod]
    omega
  rw [mark]
  by_cases hlow : distance.toNat < 64
  · rw [if_pos ((div_eq_zero_iff distance).mpr hlow)]
    simp only [bit, UInt64.toNat_or, testBit_or, testBit_one_shiftLeft hmod, toNat_mod]
    split
    · rw [Bool.or_eq_true, decide_eq_true_eq, or_comm]
      exact or_congr (by omega) Iff.rfl
    · exact (or_iff_right (by omega)).symm
  · rw [if_neg (fun hdiv => hlow ((div_eq_zero_iff distance).mp hdiv))]
    simp only [bit, UInt64.toNat_or, testBit_or, testBit_one_shiftLeft hmod, toNat_mod]
    split
    · exact (or_iff_right (by omega)).symm
    · rw [Bool.or_eq_true, decide_eq_true_eq, or_comm]
      exact or_congr (by omega) Iff.rfl

/-- The bits of a word that is shifted up. -/
theorem testBit_shiftLeft (a : UInt64) {k : UInt64} (hk : k.toNat < 64) (d : Nat) :
    (a <<< k).toNat.testBit d = (decide (d < 64) && (decide (k.toNat ≤ d)
      && a.toNat.testBit (d - k.toNat))) := by
  rw [UInt64.toNat_shiftLeft, Nat.mod_eq_of_lt hk, Nat.testBit_mod_two_pow, Nat.testBit_shiftLeft]

theorem testBit_shiftRight (a : UInt64) {k : UInt64} (hk : k.toNat < 64) (d : Nat) :
    (a >>> k).toNat.testBit d = a.toNat.testBit (k.toNat + d) := by
  rw [UInt64.toNat_shiftRight, Nat.mod_eq_of_lt hk, Nat.testBit_shiftRight]

/-- A word has no bits above its sixty-fourth. -/
theorem testBit_of_le (a : UInt64) {d : Nat} (hd : 64 ≤ d) : a.toNat.testBit d = false :=
  Nat.testBit_lt_two_pow (a.toNat_lt.trans_le (Nat.pow_le_pow_right (by decide) hd))

/-- The two words move up by the distance together. -/
theorem bit_advance (w : ReplayWindow) {counter : UInt64} (hlt : w.highest.toNat < counter.toNat)
    {d : Nat} (hd : d < 128) :
    (w.advance counter).bit d = true ↔ counter.toNat - w.highest.toNat ≤ d
      ∧ w.bit (d - (counter.toNat - w.highest.toNat)) = true := by
  have hk : (counter - w.highest).toNat = counter.toNat - w.highest.toNat :=
    UInt64.toNat_sub_of_le _ _ (UInt64.le_iff_toNat_le.mpr hlt.le)
  have hfar : 128 ≤ counter - w.highest ↔ 128 ≤ counter.toNat - w.highest.toNat := by
    rw [UInt64.le_iff_toNat_le, hk]
    rfl
  have hword : 64 ≤ counter - w.highest ↔ 64 ≤ counter.toNat - w.highest.toNat := by
    rw [UInt64.le_iff_toNat_le, hk]
    rfl
  rw [advance]
  simp only [hfar, hword]
  split
  · simp only [bit, UInt64.toNat_zero, zero_testBit, ite_self, Bool.false_eq_true, false_iff]
    omega
  split
  · rename_i hnear hup
    have hsub : (counter - w.highest - 64).toNat = counter.toNat - w.highest.toNat - 64 := by
      rw [UInt64.toNat_sub_of_le _ _ (hword.mpr hup), hk]
      rfl
    have hshift : (counter - w.highest - 64).toNat < 64 := by omega
    simp only [bit, testBit_shiftLeft _ hshift, hsub, UInt64.toNat_zero, zero_testBit]
    by_cases hd64 : d < 64
    · rw [if_pos hd64]
      simp only [Bool.false_eq_true, false_iff]
      omega
    · rw [if_neg hd64, if_pos (by omega), show d - 64 - (counter.toNat - w.highest.toNat - 64)
          = d - (counter.toNat - w.highest.toNat) by omega]
      simp only [Bool.and_eq_true, decide_eq_true_eq]
      constructor
      · rintro ⟨-, hle, hbit⟩
        exact ⟨by omega, hbit⟩
      · rintro ⟨hle, hbit⟩
        exact ⟨by omega, by omega, hbit⟩
  · have hshift : (counter - w.highest).toNat < 64 := by omega
    have hsub : (64 - (counter - w.highest)).toNat = 64 - (counter.toNat - w.highest.toNat) := by
      rw [UInt64.toNat_sub_of_le _ _ (UInt64.le_iff_toNat_le.mpr hshift.le), hk]
      rfl
    have hback : (64 - (counter - w.highest)).toNat < 64 := by omega
    simp only [bit, UInt64.toNat_or, testBit_or, testBit_shiftLeft _ hshift,
      testBit_shiftRight _ hback, hsub, hk]
    by_cases hd64 : d < 64
    · rw [if_pos hd64, if_pos (by omega)]
      simp [hd64]
    · rw [if_neg hd64]
      by_cases hlow : d - (counter.toNat - w.highest.toNat) < 64
      · -- the bit comes over from the low word
        rw [if_pos hlow, decide_eq_false (p := counter.toNat - w.highest.toNat ≤ d - 64) (by omega)]
        rw [show 64 - (counter.toNat - w.highest.toNat) + (d - 64)
          = d - (counter.toNat - w.highest.toNat) by omega]
        simp only [Bool.false_and, Bool.and_false, Bool.false_or]
        exact (and_iff_right (by omega)).symm
      · rw [if_neg hlow, testBit_of_le w.low (by omega), Bool.or_false,
          show d - 64 - (counter.toNat - w.highest.toNat)
            = d - (counter.toNat - w.highest.toNat) - 64 by omega]
        simp only [Bool.and_eq_true, decide_eq_true_eq]
        constructor
        · rintro ⟨-, hle, hbit⟩
          exact ⟨by omega, hbit⟩
        · rintro ⟨hle, hbit⟩
          exact ⟨by omega, by omega, hbit⟩

theorem canAccept_spec {w : ReplayWindow} {taken : List Nat} (h : w.Knows taken)
    (counter : UInt64) :
    w.canAccept counter = decide (Admits replayWindow taken counter.toNat) := by
  rcases h with ⟨rfl, rfl⟩ | ⟨hinit, htracks⟩
  · rw [canAccept_fresh, decide_eq_true (admits_nil _ _)]
  · rw [canAccept, hinit]
    by_cases hlt : w.highest < counter
    · rw [decide_eq_true (htracks.admits_of_lt (lt_iff_toNat_lt.mp hlt)), decide_eq_true hlt]
      rfl
    · have hle : counter ≤ w.highest := UInt64.not_lt.mp hlt
      have hle' : counter.toNat ≤ w.highest.toNat := le_iff_toNat_le.mp hle
      have hsub : (w.highest - counter).toNat = w.highest.toNat - counter.toNat :=
        UInt64.toNat_sub_of_le _ _ hle
      rw [decide_eq_false hlt, Bool.not_true, Bool.or_false, if_neg Bool.false_ne_true]
      show (decide (w.highest - counter < 128) && _) = _
      by_cases hnear : w.highest.toNat - counter.toNat < 128
      · have hdistance : (w.highest - counter).toNat < 128 := by omega
        rw [bits_and_eq_zero w hdistance, hsub, Bool.eq_iff_iff, Bool.and_eq_true,
          decide_eq_true_eq, decide_eq_true_eq, htracks.admits_iff hle', lt_iff_toNat_lt,
          hsub, Bool.not_eq_true']
        rfl
      · rw [decide_eq_false, Bool.false_and, eq_comm, decide_eq_false_iff_not,
          htracks.admits_iff hle']
        · exact fun hadmits => hnear hadmits.1
        · rw [lt_iff_toNat_lt, hsub]
          exact hnear

theorem bit_first (w : ReplayWindow) (hlow : w.low = 1) (hhigh : w.high = 0) (d : Nat) :
    w.bit d = true ↔ d = 0 := by
  rw [bit, hlow, hhigh]
  split
  · exact testBit_one_eq_true_iff_self_eq_zero
  · rw [UInt64.toNat_zero, zero_testBit]
    simp only [Bool.false_eq_true, false_iff]
    omega

theorem mark_frame (w : ReplayWindow) (distance : UInt64) :
    (w.mark distance).highest = w.highest ∧ (w.mark distance).initialized = w.initialized := by
  rw [mark]
  split <;> exact ⟨rfl, rfl⟩

theorem advance_frame (w : ReplayWindow) (counter : UInt64) : (w.advance counter).highest = counter
      ∧ (w.advance counter).initialized = w.initialized := by
  simp only [advance]
  split
  · exact ⟨rfl, rfl⟩
  split <;> exact ⟨rfl, rfl⟩

theorem knows_accept {w : ReplayWindow} {taken : List Nat} (h : w.Knows taken) {counter : UInt64}
    (hadmits : Admits replayWindow taken counter.toNat) :
    (w.accept counter).Knows (counter.toNat :: taken) := by
  rcases h with ⟨rfl, rfl⟩ | ⟨hinit, htracks⟩
  · exact .inr ⟨rfl, Tracks.first fun d _ => bit_first _ rfl rfl d⟩
  · rw [accept, hinit, if_neg (by simp)]
    obtain ⟨hhighest, hstays⟩ := advance_frame w counter
    by_cases hlt : w.highest < counter
    · have hlt' := UInt64.lt_iff_toNat_lt.mp hlt
      simp only [if_pos hlt, hhighest, UInt64.sub_self]
      obtain ⟨hmarked, hkept⟩ := mark_frame (w.advance counter) 0
      refine .inr ⟨hkept.trans (hstays.trans hinit), ?_⟩
      rw [hmarked, hhighest]
      refine htracks.move hlt' fun d hd => ?_
      rw [bit_mark _ (by decide) hd, bit_advance w hlt' hd]
      rfl
    · have hle : counter ≤ w.highest := UInt64.not_lt.mp hlt
      have hle' := UInt64.le_iff_toNat_le.mp hle
      have hsub : (w.highest - counter).toNat = w.highest.toNat - counter.toNat :=
        UInt64.toNat_sub_of_le _ _ hle
      have hnear := ((htracks.admits_iff hle').mp hadmits).1
      simp only [if_neg hlt]
      obtain ⟨hmarked, hkept⟩ := mark_frame w (w.highest - counter)
      refine .inr ⟨hkept.trans hinit, ?_⟩
      rw [hmarked]
      refine htracks.mark hle' fun d hd => ?_
      rw [bit_mark w (hsub.trans_lt hnear) hd, hsub]

/-- The packager's window takes what a sliding window takes. -/
theorem decisions_spec (counters : List UInt64) :
    ∀ {w : ReplayWindow} {taken : List Nat}, w.Knows taken → w.decisions counters
        = SlidingWindow.decisions replayWindow taken (counters.map toNat) := by
  induction counters with
  | nil =>
      intro w taken _
      rfl
  | cons counter counters ih =>
      intro w taken h
      rw [List.map_cons, decisions, offer, canAccept_spec h, SlidingWindow.decisions]
      by_cases hadmits : Admits replayWindow taken counter.toNat
      · rw [if_pos hadmits, decide_eq_true hadmits, if_pos rfl, ih (knows_accept h hadmits)]
      · rw [if_neg hadmits, decide_eq_false hadmits, if_neg Bool.false_ne_true, ih h]

/-- **The replay windows.** Whatever counters are offered, the two windows decide
alike at every step: a counter is accepted if and only if it was never accepted
before and nothing was, or it is above the highest accepted one less 128. -/
theorem replay_windows_exact (counters : List UInt64) :
    SFrame.SFrameReplayWindow.new.decisions (counters.map toNat)
        = .ok (fresh.decisions counters)
      ∧ fresh.decisions counters
        = SlidingWindow.decisions replayWindow [] (counters.map toNat) := by
  have hgo := decisions_spec counters knows_fresh
  refine ⟨?_, hgo⟩
  rw [hgo]
  exact SFrame.SFrameReplayWindow.decisions_spec counters SFrame.SFrameReplayWindow.knows_new

end ReplayWindow

end TrustedSFrame

end WebrtcMinimize
