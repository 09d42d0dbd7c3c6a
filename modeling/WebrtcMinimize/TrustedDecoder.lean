import WebrtcMinimize.Attempts
import WebrtcMinimize.Maps
import WebrtcMinimize.Runs
import WebrtcMinimize.SFrameModel

/-!
# The trusted decoder

The packager's receive side for one authorized source: up to four keys, each
with its own expiry and replay window, and the history of every key id that
was ever installed. Times are readings the caller passes in; `current` looks
at each of them first, closes the decoder for good where the clock ran
backwards or the consent is over, and drops the keys that expired.

What a call can do to the keys is said once (`Kept`): a key is as it was, up
to its replay window, or it is gone and its id stays in the history.
-/

namespace WebrtcMinimize

open Attempts Bytes Checks Runs

namespace TrustedSFrame

open SFrame (Suite)
open SFrame

def errClosed : String := "trusted_sframe_closed"
def errKey : String := "trusted_sframe_key"
def errFrame : String := "trusted_sframe_frame"
def errReplay : String := "trusted_sframe_replay"
def errAuthentication : String := "trusted_sframe_authentication"

def maxFrameBytes : Nat := 4 * 1024 * 1024

def maxKeys : Nat := 4

inductive Codec
  | vp8
  | opus
deriving DecidableEq

/-! ## The replay window -/

structure ReplayWindow where
  highest : UInt64
  /-- `bits[0]` and `bits[1]` -/
  low : UInt64
  high : UInt64
  initialized : Bool
deriving DecidableEq

def ReplayWindow.fresh : ReplayWindow := ⟨0, 0, 0, false⟩

def ReplayWindow.bits (w : ReplayWindow) (i : UInt64) : UInt64 := if i = 0 then w.low else w.high

def ReplayWindow.canAccept (w : ReplayWindow) (counter : UInt64) : Bool :=
  if !w.initialized || decide (w.highest < counter) then true
  else
    let distance := w.highest - counter
    decide (distance < 128) && w.bits (distance / 64) &&& (1 <<< (distance % 64)) == 0

def ReplayWindow.mark (w : ReplayWindow) (distance : UInt64) : ReplayWindow :=
  if distance / 64 = 0 then { w with low := w.low ||| (1 <<< (distance % 64)) }
  else { w with high := w.high ||| (1 <<< (distance % 64)) }

/-- The window moved up so that `counter` is the highest. -/
def ReplayWindow.advance (w : ReplayWindow) (counter : UInt64) : ReplayWindow :=
  let distance := counter - w.highest
  if 128 ≤ distance then { w with highest := counter, low := 0, high := 0 }
  else if 64 ≤ distance then { w with highest := counter, low := 0, high := w.low <<< (distance - 64) }
  else { w with
    highest := counter
    low := w.low <<< distance
    high := w.high <<< distance ||| w.low >>> (64 - distance) }

def ReplayWindow.accept (w : ReplayWindow) (counter : UInt64) : ReplayWindow :=
  if !w.initialized then { w with highest := counter, low := 1, initialized := true }
  else
    let w := if w.highest < counter then w.advance counter else w
    w.mark (w.highest - counter)

@[simp] theorem ReplayWindow.canAccept_fresh (counter : UInt64) :
    ReplayWindow.fresh.canAccept counter = true := rfl

/-! ## The decoder -/

structure Key where
  base : List UInt8
  salt : List UInt8
  aead : List UInt8
  expiresAt : Int
  replay : ReplayWindow
deriving DecidableEq

structure Decoder where
  keys : KeyedMap UInt64 Key
  seen : List UInt64
  expiresAt : Int
  lastNow : Int
  closed : Bool
  codec : Codec

def codecOf : String → Option Codec
  | "video/vp8" => some .vp8
  | "audio/opus" => some .opus
  | _ => none

def new (envelope codec : String) (now expiresAt : Int) : Except String Decoder :=
  match codecOf codec with
  | none => .error errKey
  | some kind => do
      failIf (envelope ≠ "codec-prefix-v1" ∨ now ≤ 0 ∨ expiresAt ≤ now ∨ 600000 < expiresAt - now)
        errKey
      return {
        keys := .empty
        seen := []
        expiresAt := expiresAt
        lastNow := now
        closed := false
        codec := kind
      }

namespace Decoder

def remove (d : Decoder) (kid : UInt64) : Decoder := { d with keys := d.keys.erase kid }

def destroy (d : Decoder) : Decoder := { d with closed := true, keys := .empty, seen := [] }

/-- The clock at `now`, and the keys that are live then. -/
def ticked (d : Decoder) (now : Int) : Decoder :=
  { d with lastNow := now, keys := d.keys.keep fun _ entry => decide (now < entry.expiresAt) }

end Decoder

def current (now : Int) : Stateful Decoder Unit := fun d =>
  if d.closed then .error errClosed d
  else if now < d.lastNow ∨ d.expiresAt ≤ now then .error errClosed d.destroy
  else .ok () (d.ticked now)

/-- The key a base makes for one key id. -/
def Key.of (suite : Suite) (kid : UInt64) (base : List UInt8) (expiresAt : Int) : Key :=
  let suffix := bigEndian 8 kid.toNat ++ bigEndian 2 4
  { base := base
    salt := suite.hkdf base (saltLabel ++ suffix) 12
    aead := suite.hkdf base (keyLabel ++ suffix) 16
    expiresAt := expiresAt
    replay := .fresh }

/-- What an installation needs of its arguments alone, at a current decoder. -/
def badInstall (d : Decoder) (base : List UInt8) (now expiresAt : Int) : Prop :=
  base.length ≠ 16 ∨ expiresAt ≤ now ∨ d.expiresAt < expiresAt ∨ 60000 < expiresAt - now

instance (d : Decoder) (base : List UInt8) (now expiresAt : Int) :
    Decidable (badInstall d base now expiresAt) := inferInstanceAs (Decidable (_ ∨ _))

def install (suite : Suite) (kid : UInt64) (base : List UInt8) (now expiresAt : Int) :
    Stateful Decoder Unit := do
  current now
  let d ← get
  failWhen (badInstall d base now expiresAt) errKey
  match d.keys.get kid with
  | some existing => failWhen (existing.expiresAt ≠ expiresAt ∨ existing.base ≠ base) errKey
  | none => do
      failWhen (kid ∈ d.seen) errKey
      failWhen (maxKeys ≤ d.keys.size ∨ 512 ≤ d.seen.length) errKey
      modify fun d => { d with
        keys := d.keys.set kid (Key.of suite kid base expiresAt)
        seen := kid :: d.seen }

/-! ### Frames -/

structure Header where
  kid : UInt64
  counter : UInt64
  size : Nat
deriving DecidableEq

/-- A long field: too small for one, or with a zero in front. -/
def badField (field : List UInt8) : Prop :=
  read64 field ≤ 7 ∨ (1 < field.length ∧ field.head? = some 0)

instance (field : List UInt8) : Decidable (badField field) :=
  inferInstanceAs (Decidable (_ ∨ _))

def kw (config : UInt8) : Nat :=
  if config &&& 0x80 ≠ 0 then ((config >>> 4) &&& 7).toNat + 1 else 0

def cw (config : UInt8) : Nat :=
  if config &&& 8 ≠ 0 then (config &&& 7).toNat + 1 else 0

def header : List UInt8 → Except String Header
  | [] => .error errFrame
  | config :: wire => do
      let size := 1 + kw config + cw config
      failIf ((config :: wire).length < size) errFrame
      let kidField := slice wire 0 (kw config)
      failIf (0 < kw config ∧ badField kidField) errFrame
      let counterField := slice wire (kw config) (cw config)
      failIf (0 < cw config ∧ badField counterField) errFrame
      return {
        kid := if 0 < kw config then read64 kidField else ((config >>> 4) &&& 7).toUInt64
        counter := if 0 < cw config then read64 counterField else (config &&& 7).toUInt64
        size := size
      }

/-- How many bytes of a frame are in the clear. -/
def prefixBytes (codec : Codec) (frame : List UInt8) : Nat :=
  match codec with
  | .vp8 => if (frame.headD 0) &&& 1 = 0 then 10 else 3
  | .opus => 1

def codecID : Codec → UInt8
  | .vp8 => 1
  | .opus => 2

/-- The salt with the counter in its last eight bytes. -/
def nonce (salt : List UInt8) (counter : UInt64) : List UInt8 :=
  salt.take 4 ++ xor (salt.drop 4) (bigEndian 8 counter.toNat)

/-- A frame that was authenticated under one of the keys. -/
structure Opened where
  header : Header
  entry : Key
  output : List UInt8
deriving DecidableEq

/-- Everything `Decrypt` does before its replay window moves. -/
def opened (suite : Suite) (d : Decoder) (frame : List UInt8) : Except String Opened := do
  failIf (frame.length = 0 ∨ maxFrameBytes < frame.length) errFrame
  let bytes := prefixBytes d.codec frame
  failIf (frame.length < bytes + 4 + 1 + 16
    ∨ slice frame bytes 4 ≠ [0x53, 0x46, 1, codecID d.codec]) errFrame
  let wire := frame.drop (bytes + 4)
  let h ← header wire
  failIf (wire.length - h.size < 16) errFrame
  match d.keys.get h.kid with
  | none => .error errKey
  | some entry => do
      failIf (entry.replay.canAccept h.counter = false) errReplay
      let aad := wire.take h.size ++ slice frame bytes 4 ++ frame.take bytes
      match suite.decrypt entry.aead (nonce entry.salt h.counter) aad (wire.drop h.size) with
      | none => .error errAuthentication
      | some plaintext => .ok { header := h, entry := entry, output := frame.take bytes ++ plaintext }

def decrypt (suite : Suite) (frame : List UInt8) (now : Int) : Stateful Decoder (List UInt8) := do
  current now
  let d ← get
  let o ← check (opened suite d frame)
  modify fun d => { d with
    keys := d.keys.set o.header.kid { o.entry with replay := o.entry.replay.accept o.header.counter } }
  return o.output

/-! ## Runs -/

inductive Call
  | install (kid : UInt64) (base : List UInt8) (now expiresAt : Int)
  | decrypt (frame : List UInt8) (now : Int)
  | remove (kid : UInt64)
  | destroy

/-- The reading a call passes in. -/
def Call.reading : Call → Option Int
  | .install _ _ now _ => some now
  | .decrypt _ now => some now
  | .remove _ => none
  | .destroy => none

/-- The decoder after a call. -/
def Call.next (suite : Suite) (d : Decoder) : Call → Decoder
  | .install kid base now expiresAt => after (TrustedSFrame.install suite kid base now expiresAt d)
  | .decrypt frame now => after (TrustedSFrame.decrypt suite frame now d)
  | .remove kid => d.remove kid
  | .destroy => d.destroy

def Step (suite : Suite) (d : Decoder) (call : Call) (t : Decoder) : Prop :=
  t = call.next suite d

/-! ## What each call does -/

/-- The decoder takes the reading. -/
structure Current (d : Decoder) (now : Int) : Prop where
  live : d.closed = false
  clock : d.lastNow ≤ now
  consent : now < d.expiresAt

theorem current_ok_iff {d t : Decoder} {now : Int} {u : Unit} :
    current now d = .ok u t ↔ Current d now ∧ t = d.ticked now := by
  rw [current]
  split
  · rename_i hclosed
    simp only [reduceCtorEq, false_iff]
    rintro ⟨hcurrent, -⟩
    rw [hcurrent.live] at hclosed
    cases hclosed
  · rename_i hclosed
    split
    · simp only [reduceCtorEq, false_iff]
      rintro ⟨hcurrent, -⟩
      have hclock := hcurrent.clock
      have hconsent := hcurrent.consent
      omega
    · simp only [EStateM.Result.ok.injEq, true_and]
      constructor
      · rintro rfl
        exact ⟨⟨Bool.eq_false_iff.mpr hclosed, by omega, by omega⟩, rfl⟩
      · rintro ⟨-, rfl⟩
        rfl

/-- The decoder was closed, or is closed now. -/
structure Shut (d t : Decoder) : Prop where
  closed : t.closed = true
  left : t = d ∨ t = d.destroy

theorem current_error {d t : Decoder} {now : Int} {code : String}
    (h : current now d = .error code t) : Shut d t := by
  rw [current] at h
  split at h
  · rename_i hclosed
    cases h
    exact ⟨hclosed, .inl rfl⟩
  · split at h
    · cases h
      exact ⟨rfl, .inr rfl⟩
    · cases h

/-- The decoder with a new key. -/
def Decoder.added (d : Decoder) (suite : Suite) (kid : UInt64) (base : List UInt8)
    (expiresAt : Int) : Decoder :=
  { d with
    keys := d.keys.set kid (Key.of suite kid base expiresAt)
    seen := kid :: d.seen }

/-- The decoder after an authenticated frame. -/
def Decoder.accepted (d : Decoder) (o : Opened) : Decoder :=
  { d with
    keys := d.keys.set o.header.kid
      { o.entry with replay := o.entry.replay.accept o.header.counter } }

/-- A new key has a place and no history. -/
structure Fresh (d : Decoder) (kid : UInt64) : Prop where
  absent : d.keys.get kid = none
  unseen : kid ∉ d.seen
  keys : d.keys.size < maxKeys
  seen : d.seen.length < 512

theorem install_ok {suite : Suite} {d t : Decoder} {kid : UInt64} {base : List UInt8}
    {now expiresAt : Int} {u : Unit} (h : install suite kid base now expiresAt d = .ok u t) :
    Current d now ∧ ¬badInstall d base now expiresAt ∧
      ((∃ entry, (d.ticked now).keys.get kid = some entry ∧ entry.expiresAt = expiresAt
          ∧ entry.base = base ∧ t = d.ticked now) ∨
        (Fresh (d.ticked now) kid ∧ t = (d.ticked now).added suite kid base expiresAt)) := by
  obtain ⟨_, t₁, hrun, hrest⟩ := bind_ok_iff.mp h
  obtain ⟨hcurrent, rfl⟩ := current_ok_iff.mp hrun
  obtain ⟨_, _, hget, hrest⟩ := bind_ok_iff.mp hrest
  cases hget
  obtain ⟨_, _, hrun, hrest⟩ := bind_ok_iff.mp hrest
  obtain ⟨hbad, rfl⟩ := failWhen_ok_iff.mp hrun
  refine ⟨hcurrent, hbad, ?_⟩
  cases hget : (d.ticked now).keys.get kid with
  | some entry =>
    rw [hget] at hrest
    obtain ⟨hsame, rfl⟩ := failWhen_ok_iff.mp hrest
    rw [not_or, not_not, not_not] at hsame
    exact .inl ⟨entry, rfl, hsame.1, hsame.2, rfl⟩
  | none =>
    rw [hget] at hrest
    obtain ⟨_, _, hrun, hrest⟩ := bind_ok_iff.mp hrest
    obtain ⟨hseen, rfl⟩ := failWhen_ok_iff.mp hrun
    obtain ⟨_, _, hrun, hrest⟩ := bind_ok_iff.mp hrest
    obtain ⟨hsize, rfl⟩ := failWhen_ok_iff.mp hrun
    cases hrest
    exact .inr ⟨⟨hget, hseen, by omega, by omega⟩, rfl⟩

/-- A failed installation only moved the clock, or closed the decoder. -/
theorem install_error {suite : Suite} {d t : Decoder} {kid : UInt64} {base : List UInt8}
    {now expiresAt : Int} {code : String}
    (h : install suite kid base now expiresAt d = .error code t) :
    Shut d t ∨ (Current d now ∧ t = d.ticked now) := by
  have hensures : Ensures (· = d) (install suite kid base now expiresAt) (fun _ _ => True)
      (fun t => Shut d t ∨ (Current d now ∧ t = d.ticked now)) := by
    refine .bind (Q := fun _ t => Current d now ∧ t = d.ticked now) ?_ fun _ => ?_
    · rintro s rfl
      split
      · rename_i hok
        exact current_ok_iff.mp hok
      · rename_i herr
        exact .inl (current_error herr)
    · refine .get_bind fun s hs => ?_
      have hkept : ∀ t, t = s → Shut d t ∨ (Current d now ∧ t = d.ticked now) := by
        rintro t rfl
        exact .inr hs
      refine .failWhen_bind hkept fun _ => ?_
      split
      · exact .checked hkept fun _ _ _ _ => trivial
      · refine .failWhen_bind hkept fun _ => ?_
        refine .failWhen_bind hkept fun _ => ?_
        exact .write fun _ _ => trivial
  exact hensures.of_error rfl h

theorem decrypt_ok {suite : Suite} {d t : Decoder} {frame output : List UInt8} {now : Int}
    (h : decrypt suite frame now d = .ok output t) :
    Current d now ∧ ∃ o, opened suite (d.ticked now) frame = .ok o ∧ output = o.output
      ∧ t = (d.ticked now).accepted o := by
  obtain ⟨_, t₁, hrun, hrest⟩ := bind_ok_iff.mp h
  obtain ⟨hcurrent, rfl⟩ := current_ok_iff.mp hrun
  obtain ⟨_, _, hget, hrest⟩ := bind_ok_iff.mp hrest
  cases hget
  obtain ⟨o, _, hrun, hrest⟩ := bind_ok_iff.mp hrest
  obtain ⟨ho, rfl⟩ := check_ok_iff.mp hrun
  obtain ⟨_, _, hmod, hrest⟩ := bind_ok_iff.mp hrest
  cases hmod
  cases hrest
  exact ⟨hcurrent, o, ho, rfl, rfl⟩

/-- The other way round: a frame that opens at a taken reading is returned. -/
theorem decrypt_of_opened {suite : Suite} {d : Decoder} {frame : List UInt8} {now : Int}
    {o : Opened} (hcurrent : Current d now) (ho : opened suite (d.ticked now) frame = .ok o) :
    decrypt suite frame now d = .ok o.output ((d.ticked now).accepted o) := by
  refine bind_ok_iff.mpr ⟨(), _, current_ok_iff.mpr ⟨hcurrent, rfl⟩, ?_⟩
  refine bind_ok_iff.mpr ⟨_, _, rfl, ?_⟩
  exact bind_ok_iff.mpr ⟨o, _, check_ok_iff.mpr ⟨ho, rfl⟩, rfl⟩

theorem decrypt_error {suite : Suite} {d t : Decoder} {frame : List UInt8} {now : Int}
    {code : String} (h : decrypt suite frame now d = .error code t) :
    Shut d t ∨ (Current d now ∧ t = d.ticked now) := by
  have hensures : Ensures (· = d) (decrypt suite frame now) (fun _ _ => True)
      (fun t => Shut d t ∨ (Current d now ∧ t = d.ticked now)) := by
    refine .bind (Q := fun _ t => Current d now ∧ t = d.ticked now) ?_ fun _ => ?_
    · rintro s rfl
      split
      · rename_i hok
        exact current_ok_iff.mp hok
      · rename_i herr
        exact .inl (current_error herr)
    · refine .get_bind fun s hs => ?_
      refine .check_bind (fun t ht => ?_) fun _ _ => ?_
      · subst ht
        exact .inr hs
      · exact .write_bind (Q := fun _ => True) (fun _ _ => trivial) (.ret fun _ _ => trivial)
  exact hensures.of_error rfl h

theorem opened_ok {suite : Suite} {d : Decoder} {frame : List UInt8} {o : Opened}
    (h : opened suite d frame = .ok o) :
    d.keys.get o.header.kid = some o.entry ∧ o.entry.replay.canAccept o.header.counter = true := by
  simp only [opened, Checks.bind_ok_iff, failIf_ok_iff] at h
  obtain ⟨_, -, _, -, hd, -, _, -, hrest⟩ := h
  split at hrest
  · cases hrest
  · rename_i entry hentry
    simp only [Checks.bind_ok_iff, failIf_ok_iff] at hrest
    obtain ⟨_, haccept, hrest⟩ := hrest
    split at hrest
    · cases hrest
    · cases hrest
      exact ⟨hentry, by simpa using haccept⟩

theorem step_cases {suite : Suite} {d t : Decoder} {call : Call} (h : Step suite d call t) :
    Shut d t ∨ (∃ now, call.reading = some now ∧ Current d now ∧ (t = d.ticked now ∨
          (∃ kid base expiresAt, call = .install kid base now expiresAt
            ∧ ¬badInstall d base now expiresAt ∧ Fresh (d.ticked now) kid
            ∧ t = (d.ticked now).added suite kid base expiresAt) ∨
          (∃ frame o, call = .decrypt frame now ∧ opened suite (d.ticked now) frame = .ok o
            ∧ t = (d.ticked now).accepted o))) ∨
      (∃ kid, call = .remove kid ∧ t = d.remove kid) := by
  cases call with
  | install kid base now expiresAt =>
      rw [Step, Call.next] at h
      cases hrun : install suite kid base now expiresAt d with
      | ok u t₁ =>
          rw [hrun, after_ok] at h
          subst h
          obtain ⟨hcurrent, hbad, hdone⟩ := install_ok hrun
          refine .inr (.inl ⟨now, rfl, hcurrent, ?_⟩)
          rcases hdone with ⟨_, _, _, _, heq⟩ | ⟨hfresh, heq⟩
          · exact .inl heq
          · exact .inr (.inl ⟨kid, base, expiresAt, rfl, hbad, hfresh, heq⟩)
      | error code t₁ =>
          rw [hrun, after_error] at h
          subst h
          rcases install_error hrun with hclosed | ⟨hcurrent, heq⟩
          · exact .inl hclosed
          · exact .inr (.inl ⟨now, rfl, hcurrent, .inl heq⟩)
  | decrypt frame now =>
      rw [Step, Call.next] at h
      cases hrun : decrypt suite frame now d with
      | ok output t₁ =>
          rw [hrun, after_ok] at h
          subst h
          obtain ⟨hcurrent, o, ho, -, heq⟩ := decrypt_ok hrun
          exact .inr (.inl ⟨now, rfl, hcurrent, .inr (.inr ⟨frame, o, rfl, ho, heq⟩)⟩)
      | error code t₁ =>
          rw [hrun, after_error] at h
          subst h
          rcases decrypt_error hrun with hclosed | ⟨hcurrent, heq⟩
          · exact .inl hclosed
          · exact .inr (.inl ⟨now, rfl, hcurrent, .inl heq⟩)
  | remove kid => exact .inr (.inr ⟨kid, rfl, h⟩)
  | destroy =>
      rw [h]
      exact .inl ⟨rfl, .inr rfl⟩

end TrustedSFrame

end WebrtcMinimize
