import Mathlib.Algebra.BigOperators.Group.List.Basic
import Mathlib.Algebra.Order.Ring.Nat
import Mathlib.Data.List.SplitLengths

/-!
# Framing of Opus packets

`sourceOpusSamples` reads the framing of a packet of RFC 6716 section 3 and gives its
duration in samples of 48 kHz. The slice between the source's `offset` and `end` is the
list of the bytes still to be read. `Packet.encode` is a reference packer: a packet is
accepted exactly when it packs some frames and padding (`sourceOpusSamples_ok_iff`).
-/

namespace WebrtcMinimize

namespace OpusPackets

open List UInt8 Option

def fail {α : Type} : Except String α := .error "source opus packet format"

/-- Samples of one frame of the configuration. -/
def frameSamples (config : Nat) : Nat :=
  if config < 12 then [480, 960, 1920, 2880].getD (config % 4) 0
  else if config < 16 then [480, 960].getD (config % 2) 0
  else [120, 240, 480, 960].getD (config % 4) 0

/-- The loop over the bytes of the padding's length: what is left, and the padding. -/
def readPadding : List UInt8 → Nat → Option (List UInt8 × Nat)
  | [], _ => none
  | n :: rest, padding =>
      let padding := padding + if n.toNat = 255 then 254 else n.toNat
      if rest.length < padding then none
      else if n.toNat = 255 then readPadding rest padding
      else some (rest, padding)

/-- The loop over the lengths of all frames but the last: what is left, and their sum. -/
def readLengths : Nat → List UInt8 → Nat → Option (List UInt8 × Nat)
  | 0, rest, specified => some (rest, specified)
  | _ + 1, [], _ => none
  | count + 1, length :: rest, specified =>
      if length.toNat < 252 then readLengths count rest (specified + length.toNat)
      else
        match rest with
        | [] => none
        | more :: rest => readLengths count rest (specified + (length.toNat + more.toNat * 4))

/-- The count of the frames, whether their lengths are coded, and the bytes after the
header without the padding. -/
def readHeader (code : Nat) (rest : List UInt8) : Option (Nat × Bool × List UInt8) :=
  match code with
  | 0 => some (1, false, rest)
  | 1 => some (2, false, rest)
  | 2 => some (2, true, rest)
  | _ =>
      match rest with
      | [] => none
      | b :: rest =>
          let count := b.toNat % 64
          let vbr := decide (128 ≤ b.toNat)
          if b.toNat / 64 % 2 = 1 then
            match readPadding rest 0 with
            | none => none
            | some (rest, padding) => some (count, vbr, rest.take (rest.length - padding))
          else some (count, vbr, rest)

/-- What is left to check once the header is read. -/
def checkFrames (duration count : Nat) (vbr : Bool) (rest : List UInt8) : Except String Nat :=
  if count < 1 ∨ 48 < count ∨ 5760 < duration * count then fail
  else if vbr then
    match readLengths (count - 1) rest 0 with
    | none => fail
    | some (rest, specified) =>
        if rest.length < specified ∨ 1275 < rest.length - specified then fail
        else .ok (duration * count)
  else if rest.length % count ≠ 0 ∨ 1275 < rest.length / count then fail
  else .ok (duration * count)

def sourceOpusSamples (packet : List UInt8) : Except String Nat :=
  match packet with
  | [] => fail
  | toc :: rest =>
      if 65535 < packet.length then fail
      else
        match readHeader (toc.toNat % 4) rest with
        | none => fail
        | some (count, vbr, rest) => checkFrames (frameSamples (toc.toNat / 8)) count vbr rest

/-! ## The reference packer -/

/-- The padding: how many full length bytes there are, the last one, and the padding
itself, of any values. -/
structure Padding where
  full : Nat
  last : Nat
  bytes : List UInt8
deriving DecidableEq

structure Padding.WellFormed (padding : Padding) : Prop where
  last : padding.last < 255
  size : padding.bytes.length = 254 * padding.full + padding.last

def Padding.lengthBytes (padding : Padding) : List UInt8 :=
  replicate padding.full 255 ++ [ofNat padding.last]

inductive Framing
  | single
  | pair
  | pairVbr
  | many (vbr : Bool) (padding : Option Padding)
deriving DecidableEq

structure Packet where
  config : Nat
  stereo : Bool
  framing : Framing
  frames : List (List UInt8)
deriving DecidableEq

/-- A frame's length, in one byte or two. -/
def encodeLength (n : Nat) : List UInt8 :=
  if n < 252 then [ofNat n]
  else [ofNat (252 + n % 4), ofNat ((n - (252 + n % 4)) / 4)]

def lengthsOf (frames : List (List UInt8)) : List UInt8 :=
  frames.dropLast.flatMap fun frame => encodeLength frame.length

def Packet.toc (p : Packet) (code : Nat) : UInt8 :=
  ofNat (p.config * 8 + (if p.stereo then 4 else 0) + code)

/-- The byte with the count of the frames. -/
def countByte (count : Nat) (vbr padded : Bool) : UInt8 :=
  ofNat (count + (if vbr then 128 else 0) + if padded then 64 else 0)

def Packet.encode (p : Packet) : List UInt8 :=
  match p.framing with
  | .single => p.toc 0 :: p.frames.flatten
  | .pair => p.toc 1 :: p.frames.flatten
  | .pairVbr => p.toc 2 :: (lengthsOf p.frames ++ p.frames.flatten)
  | .many vbr padding =>
      p.toc 3 :: countByte p.frames.length vbr padding.isSome
        :: ((padding.elim [] Padding.lengthBytes) ++ ((if vbr then lengthsOf p.frames else [])
          ++ p.frames.flatten) ++ padding.elim [] Padding.bytes)

def Packet.duration (p : Packet) : Nat := frameSamples p.config * p.frames.length

/-- All frames are equally long. -/
def Even (frames : List (List UInt8)) : Prop := ∃ n, ∀ frame ∈ frames, frame.length = n

/-- What the framing asks of the frames. -/
def Framing.Frames (frames : List (List UInt8)) : Framing → Prop
  | .single => frames.length = 1
  | .pair => frames.length = 2 ∧ Even frames
  | .pairVbr => frames.length = 2
  | .many vbr padding => (vbr = false → Even frames) ∧ ∀ p ∈ padding, p.WellFormed

structure Packet.WellFormed (p : Packet) : Prop where
  config : p.config < 32
  nonempty : 1 ≤ p.frames.length
  count : p.frames.length ≤ 48
  size : ∀ frame ∈ p.frames, frame.length ≤ 1275
  /-- 120 ms -/
  duration : p.duration ≤ 5760
  frames : p.framing.Frames p.frames

/-! ## The loops -/

theorem readPadding_eq_some_iff {bytes : List UInt8} : ∀ {acc padding : Nat} {rest : List UInt8},
    readPadding bytes acc = some (rest, padding) ↔ ∃ full last, last < 255
      ∧ bytes = replicate full 255 ++ ofNat last :: rest
      ∧ padding = acc + (254 * full + last) ∧ padding ≤ rest.length := by
  induction bytes with
  | nil => simp [readPadding]
  | cons n bytes ih =>
      intro acc padding rest
      simp only [readPadding]
      by_cases hn : n.toNat = 255
      · have hfull : n = 255 := UInt8.toNat_inj.mp hn
        subst hfull
        simp only [hn, if_true]
        split
        · refine iff_of_false (nomatch ·) ?_
          rintro ⟨full, last, hlast, hbytes, rfl, hle⟩
          cases full with
          | zero =>
              have := congrArg toNat (cons.inj hbytes).1
              simp at this
              omega
          | succ full =>
              obtain ⟨-, hrest⟩ := cons.inj hbytes
              have := congrArg length hrest
              simp at this
              omega
        · rw [ih]
          constructor
          · rintro ⟨full, last, hlast, rfl, rfl, hle⟩
            exact ⟨full + 1, last, hlast, rfl, by omega, hle⟩
          · rintro ⟨full, last, hlast, hbytes, rfl, hle⟩
            cases full with
            | zero =>
                have := congrArg toNat (cons.inj hbytes).1
                simp at this
                omega
            | succ full => exact ⟨full, last, hlast, (cons.inj hbytes).2, by omega, hle⟩
      · simp only [hn, if_false]
        constructor
        · intro h
          split at h
          · cases h
          · obtain ⟨rfl, rfl⟩ := h
            have hlt := n.toNat_lt
            exact ⟨0, n.toNat, by omega, by simp, by omega, by omega⟩
        · rintro ⟨full, last, hlast, hbytes, rfl, hle⟩
          cases full with
          | zero =>
              obtain ⟨rfl, rfl⟩ := cons.inj hbytes
              have hvalue : (ofNat last).toNat = last := by
                simp
                omega
              rw [hvalue, if_neg (by omega)]
              simp
          | succ full =>
              obtain ⟨rfl, -⟩ := cons.inj hbytes
              exact absurd rfl hn

theorem readLengths_eq_some_iff {count : Nat} : ∀ {bytes rest : List UInt8} {acc sum : Nat},
    readLengths count bytes acc = some (rest, sum) ↔ ∃ lengths : List Nat, lengths.length = count
      ∧ (∀ n ∈ lengths, n ≤ 1275) ∧ bytes = lengths.flatMap encodeLength ++ rest
      ∧ sum = acc + lengths.sum := by
  induction count with
  | zero =>
      intro bytes rest acc sum
      simp only [readLengths, some.injEq, Prod.mk.injEq, length_eq_zero_iff,
        exists_eq_left, flatMap_nil, nil_append, sum_nil, not_mem_nil,
        false_implies, implies_true, true_and, Nat.add_zero]
      exact ⟨fun h => ⟨h.1, h.2.symm⟩, fun h => ⟨h.1, h.2.symm⟩⟩
  | succ count ih =>
      intro bytes rest acc sum
      -- the first length is coded by one byte or by two
      have hsplit : (∃ lengths : List Nat, lengths.length = count + 1 ∧ (∀ n ∈ lengths, n ≤ 1275)
            ∧ bytes = lengths.flatMap encodeLength ++ rest ∧ sum = acc + lengths.sum)
          ↔ ∃ n bytes', n ≤ 1275 ∧ bytes = encodeLength n ++ bytes'
            ∧ readLengths count bytes' (acc + n) = some (rest, sum) := by
        simp only [ih]
        constructor
        · rintro ⟨lengths, hlength, hsmall, rfl, rfl⟩
          cases lengths with
          | nil => cases hlength
          | cons n lengths =>
              obtain ⟨hn, hsmall⟩ := forall_mem_cons.mp hsmall
              exact ⟨n, _, hn, by rw [flatMap_cons, append_assoc], lengths,
                Nat.succ.inj hlength, hsmall, rfl, by rw [sum_cons, Nat.add_assoc]⟩
        · rintro ⟨n, _, hn, rfl, lengths, rfl, hsmall, rfl, rfl⟩
          exact ⟨n :: lengths, rfl, forall_mem_cons.mpr ⟨hn, hsmall⟩,
            by rw [flatMap_cons, append_assoc], by rw [sum_cons, Nat.add_assoc]⟩
      rw [hsplit]
      constructor
      · intro h
        cases bytes with
        | nil => cases h
        | cons b bytes =>
            have hb := b.toNat_lt
            unfold readLengths at h
            split at h
            · rename_i hsmall
              exact ⟨b.toNat, bytes, by omega, by simp [encodeLength, hsmall], h⟩
            · split at h
              · cases h
              · rename_i more bytes
                have hmore := more.toNat_lt
                refine ⟨b.toNat + more.toNat * 4, bytes, by omega, ?_, h⟩
                have hmod : (b.toNat + more.toNat * 4) % 4 = b.toNat - 252 := by omega
                have hdiv : (b.toNat + more.toNat * 4 - (252 + (b.toNat - 252))) / 4 = more.toNat := by
                  omega
                rw [encodeLength, if_neg (by omega), hmod, hdiv]
                simp [show 252 + (b.toNat - 252) = b.toNat by omega]
      · rintro ⟨n, bytes', hn, rfl, h⟩
        rw [encodeLength]
        split
        · rename_i hsmall
          have hvalue : (ofNat n).toNat = n := by
            simp
            omega
          rw [singleton_append]
          unfold readLengths
          rwa [hvalue, if_pos hsmall]
        · have hfirst : (ofNat (252 + n % 4)).toNat = 252 + n % 4 := by
            simp
            omega
          have hsecond : (ofNat ((n - (252 + n % 4)) / 4)).toNat = (n - (252 + n % 4)) / 4 := by
            simp
            omega
          simp only [cons_append, nil_append, readLengths, hfirst, hsecond]
          rw [if_neg (by omega), show 252 + n % 4 + (n - (252 + n % 4)) / 4 * 4 = n by omega]
          exact h

/-! ## Frames -/

/-- Frames of given lengths can be read off any bytes of their total length. -/
theorem exists_frames {lengths : List Nat} {bytes : List UInt8} (h : lengths.sum = bytes.length) :
    ∃ frames : List (List UInt8), frames.flatten = bytes ∧ frames.map length = lengths :=
  ⟨lengths.splitLengths bytes, flatten_splitLengths _ _ h.ge, map_splitLengths_length _ _ h.le⟩

/-- The frames of equal length. -/
theorem even_iff {count : Nat} (bytes : List UInt8) (hcount : 1 ≤ count) :
    bytes.length % count = 0 ∧ bytes.length / count ≤ 1275 ↔ ∃ frames : List (List UInt8),
      frames.length = count ∧ frames.flatten = bytes ∧ Even frames
        ∧ ∀ frame ∈ frames, frame.length ≤ 1275 := by
  constructor
  · rintro ⟨hmod, hsize⟩
    have hsum : (replicate count (bytes.length / count)).sum = bytes.length := by
      rw [sum_replicate_nat, Nat.mul_div_cancel' (Nat.dvd_of_mod_eq_zero hmod)]
    obtain ⟨frames, hflatten, hlengths⟩ := exists_frames hsum
    have hall : ∀ frame ∈ frames, frame.length = bytes.length / count := fun frame hframe =>
      eq_of_mem_replicate (hlengths ▸ mem_map_of_mem hframe)
    refine ⟨frames, ?_, hflatten, ⟨_, hall⟩, fun frame hframe => (hall frame hframe).le.trans hsize⟩
    rw [← length_map, hlengths, length_replicate]
  · rintro ⟨frames, rfl, rfl, ⟨n, hall⟩, hsize⟩
    have hlength : frames.flatten.length = frames.length * n := by
      rw [length_flatten, map_congr_left hall, map_const', sum_replicate_nat]
    rw [hlength, Nat.mul_mod_right, Nat.mul_div_cancel_left _ hcount]
    cases frames with
    | nil => cases hcount
    | cons frame frames =>
        exact ⟨rfl, hall frame mem_cons_self ▸ hsize frame mem_cons_self⟩

/-- The frames whose lengths are coded, but for the last. -/
theorem vbr_iff {count : Nat} (bytes : List UInt8) (hcount : 1 ≤ count) :
    (∃ rest sum, readLengths (count - 1) bytes 0 = some (rest, sum)
        ∧ sum ≤ rest.length ∧ rest.length - sum ≤ 1275) ↔ ∃ frames : List (List UInt8),
      frames.length = count ∧ lengthsOf frames ++ frames.flatten = bytes
        ∧ ∀ frame ∈ frames, frame.length ≤ 1275 := by
  simp only [readLengths_eq_some_iff, lengthsOf]
  constructor
  · rintro ⟨rest, _, ⟨lengths, hlength, hsmall, rfl, rfl⟩, hle, hlast⟩
    rw [Nat.zero_add] at hle hlast
    have hsum : (lengths ++ [rest.length - lengths.sum]).sum = rest.length := by simp; omega
    obtain ⟨frames, rfl, hlengths⟩ := exists_frames hsum
    have hdrop : frames.dropLast.flatMap (fun frame => encodeLength frame.length)
        = lengths.flatMap encodeLength := by
      have hmap := congrArg dropLast hlengths
      rw [dropLast_concat, ← map_dropLast] at hmap
      rw [← hmap, flatMap_map]
    refine ⟨frames, ?_, by rw [hdrop], fun frame hframe => ?_⟩
    · have := congrArg length hlengths
      simp at this
      omega
    · have hmem : frame.length ∈ lengths ++ [frames.flatten.length - lengths.sum] :=
        hlengths ▸ mem_map_of_mem hframe
      rcases mem_append.mp hmem with hmem | hmem
      · exact hsmall _ hmem
      · exact (mem_singleton.mp hmem).le.trans hlast
  · rintro ⟨frames, rfl, rfl, hsize⟩
    have hne : frames ≠ [] := ne_nil_of_length_pos hcount
    have hparts : frames.flatten.length
        = (frames.dropLast.map length).sum + (frames.getLast hne).length := by
      conv_lhs => rw [← dropLast_concat_getLast hne]
      simp
    refine ⟨_, _, ⟨frames.dropLast.map length, by simp, ?_, by rw [flatMap_map], rfl⟩, ?_⟩
    · intro n hn
      obtain ⟨frame, hframe, rfl⟩ := mem_map.mp hn
      exact hsize frame (dropLast_subset _ hframe)
    · have := hsize _ (getLast_mem hne)
      omega

/-- The frames that the bytes after the header may hold. -/
def Holds (count : Nat) (vbr : Bool) (bytes : List UInt8) (frames : List (List UInt8)) : Prop :=
  frames.length = count ∧ (if vbr then lengthsOf frames else []) ++ frames.flatten = bytes
    ∧ (vbr = false → Even frames) ∧ ∀ frame ∈ frames, frame.length ≤ 1275

theorem eq_countByte_iff {b : UInt8} {count : Nat} {vbr padded : Bool} (hcount : count < 64) :
    b = countByte count vbr padded ↔ b.toNat % 64 = count ∧ decide (128 ≤ b.toNat) = vbr
      ∧ decide (b.toNat / 64 % 2 = 1) = padded := by
  have hb := b.toNat_lt
  rw [← UInt8.toNat_inj, countByte, UInt8.toNat_ofNat']
  cases vbr <;> cases padded <;>
    simp only [decide_eq_true_eq, decide_eq_false_iff_not, Bool.false_eq_true, if_true, if_false] <;>
    omega

/-- A header, with its padding. -/
theorem readHeader_many_iff {count : Nat} {rest bytes : List UInt8} {vbr : Bool} (hcount : count < 64) :
    readHeader 3 rest = some (count, vbr, bytes) ↔
      ∃ padding : Option Padding, (∀ p ∈ padding, p.WellFormed)
        ∧ rest = countByte count vbr padding.isSome :: (padding.elim [] Padding.lengthBytes
          ++ bytes ++ padding.elim [] Padding.bytes) := by
  cases rest with
  | nil => simp [readHeader]
  | cons b rest =>
      simp only [readHeader, cons.injEq, eq_countByte_iff hcount]
      by_cases hpadded : b.toNat / 64 % 2 = 1
      · rw [if_pos hpadded]
        constructor
        · intro h
          cases hread : readPadding rest 0 with
          | none =>
              rw [hread] at h
              cases h
          | some r =>
              obtain ⟨after, size⟩ := r
              rw [hread] at h
              simp only [some.injEq, Prod.mk.injEq] at h
              obtain ⟨hvalue, hvbr, rfl⟩ := h
              obtain ⟨full, last, hlast, rfl, rfl, hle⟩ := readPadding_eq_some_iff.mp hread
              refine ⟨some ⟨full, last, after.drop (after.length - (0 + (254 * full + last)))⟩, ?_,
                ⟨hvalue, hvbr, by simp [hpadded]⟩, ?_⟩
              · rintro _ ⟨⟩
                refine ⟨hlast, ?_⟩
                show (after.drop _).length = 254 * full + last
                rw [length_drop]
                omega
              · simp [Padding.lengthBytes]
        · rintro ⟨padding, hpadding, ⟨hvalue, hvbr, hsome⟩, hrest⟩
          rw [decide_eq_true hpadded] at hsome
          obtain ⟨⟨full, last, tail⟩, rfl⟩ := isSome_iff_exists.mp hsome.symm
          obtain ⟨hlast, hsize⟩ := hpadding _ rfl
          have hread : readPadding rest 0 = some (bytes ++ tail, tail.length) := by
            refine readPadding_eq_some_iff.mpr ⟨full, last, hlast, ?_, by simp only at hsize; omega, ?_⟩
            · simpa [Padding.lengthBytes] using hrest
            · rw [length_append]
              omega
          simp [hread, hvalue, hvbr]
      · rw [if_neg hpadded, some.injEq, Prod.mk.injEq, Prod.mk.injEq]
        constructor
        · rintro ⟨hvalue, hvbr, rfl⟩
          exact ⟨none, by simp, ⟨hvalue, hvbr, by simp [hpadded]⟩, by simp⟩
        · rintro ⟨padding, -, ⟨hvalue, hvbr, hsome⟩, hrest⟩
          cases padding with
          | none => exact ⟨hvalue, hvbr, by simpa using hrest⟩
          | some p => simp [hpadded] at hsome

theorem checkFrames_ok_iff {duration count : Nat} {vbr : Bool} {bytes : List UInt8} {d : Nat} :
    checkFrames duration count vbr bytes = .ok d ↔ 1 ≤ count ∧ count ≤ 48 ∧ duration * count ≤ 5760
      ∧ d = duration * count ∧ ∃ frames, Holds count vbr bytes frames := by
  rw [checkFrames]
  split
  · exact iff_of_false (nomatch ·) (by omega)
  · rename_i hgood
    simp only [not_or, not_lt] at hgood
    obtain ⟨hmin, hmax, hshort⟩ := hgood
    simp only [hmin, hmax, hshort, true_and, Holds]
    cases vbr with
    | true =>
        have hvbr := vbr_iff bytes hmin
        simp only [if_true, Bool.true_eq_false, false_implies, true_and]
        rw [← hvbr]
        cases readLengths (count - 1) bytes 0 with
        | none => simp [fail]
        | some r =>
            obtain ⟨rest, sum⟩ := r
            dsimp only
            by_cases hroom : rest.length < sum ∨ 1275 < rest.length - sum
            · rw [if_pos hroom]
              refine iff_of_false (nomatch ·) ?_
              rintro ⟨-, rest', sum', heq, hle, hsize⟩
              cases heq
              omega
            · rw [if_neg hroom]
              simp only [Except.ok.injEq, not_or, not_lt] at hroom ⊢
              exact ⟨fun h => ⟨h.symm, rest, sum, rfl, hroom.1, hroom.2⟩, fun h => h.1.symm⟩
    | false =>
        have heven := even_iff bytes hmin
        simp only [Bool.false_eq_true, if_false, nil_append, true_implies]
        rw [← heven]
        split
        · exact iff_of_false (nomatch ·) (by omega)
        · simp only [Except.ok.injEq]
          exact ⟨fun h => ⟨h.symm, by omega⟩, fun h => h.1.symm⟩

/-! ## The parser and the packer -/

def Framing.code : Framing → Nat
  | .single => 0
  | .pair => 1
  | .pairVbr => 2
  | .many _ _ => 3

def Framing.vbr : Framing → Bool
  | .single | .pair => false
  | .pairVbr => true
  | .many vbr _ => vbr

theorem toc_value {p : Packet} {code : Nat} (hconfig : p.config < 32) (hcode : code < 4) :
    (p.toc code).toNat / 8 = p.config ∧ (p.toc code).toNat % 4 = code := by
  rw [Packet.toc, toNat_ofNat']
  cases p.stereo <;> simp <;> omega

theorem toc_eq {toc : UInt8} {p : Packet} (hconfig : p.config = toc.toNat / 8)
    (hstereo : p.stereo = decide (toc.toNat / 4 % 2 = 1)) : p.toc (toc.toNat % 4) = toc := by
  have htoc := toc.toNat_lt
  rw [← UInt8.toNat_inj, Packet.toc, UInt8.toNat_ofNat', hconfig, hstereo]
  by_cases hbit : toc.toNat / 4 % 2 = 1 <;> simp [hbit] <;> omega

/-- What the packer writes is read back. -/
theorem Packet.WellFormed.read {p : Packet} (h : p.WellFormed) : ∃ rest bytes,
    p.encode = p.toc p.framing.code :: rest
      ∧ readHeader p.framing.code rest = some (p.frames.length, p.framing.vbr, bytes)
      ∧ Holds p.frames.length p.framing.vbr bytes p.frames := by
  have hframes := h.frames
  have hcount := h.count
  rw [Packet.encode]
  cases hframing : p.framing with
  | single =>
      rw [hframing] at hframes
      obtain ⟨frame, hone⟩ := length_eq_one_iff.mp hframes
      refine ⟨_, p.frames.flatten, rfl, by rw [hframes]; rfl, rfl, rfl, fun _ => ?_, h.size⟩
      exact ⟨frame.length, by simp [hone]⟩
  | pair =>
      rw [hframing] at hframes
      exact ⟨_, p.frames.flatten, rfl, by rw [hframes.1]; rfl, rfl, rfl, fun _ => hframes.2, h.size⟩
  | pairVbr =>
      rw [hframing] at hframes
      refine ⟨_, _, rfl, ?_, rfl, rfl, (nomatch ·), h.size⟩
      rw [show p.frames.length = 2 from hframes]
      rfl
  | many vbr padding =>
      rw [hframing] at hframes
      refine ⟨_, _, rfl, ?_, rfl, rfl, hframes.1, h.size⟩
      exact (readHeader_many_iff (by omega)).mpr ⟨padding, hframes.2, by cases vbr <;> rfl⟩

/-- What is read is what the packer writes for some framing. -/
theorem exists_framing {code count : Nat} {rest bytes : List UInt8} {vbr : Bool}
    {frames : List (List UInt8)} (hcode : code < 4) (hcount : count < 64)
    (hread : readHeader code rest = some (count, vbr, bytes)) (hframes : Holds count vbr bytes frames) :
    ∃ framing : Framing, framing.code = code ∧ framing.Frames frames
      ∧ ∀ config stereo, (⟨config, stereo, framing, frames⟩ : Packet).encode
        = (⟨config, stereo, framing, frames⟩ : Packet).toc code :: rest := by
  obtain ⟨hlength, hbytes, heven, -⟩ := hframes
  match code, hcode with
  | 0, _ =>
      cases hread
      exact ⟨.single, rfl, hlength, fun _ _ => by rw [← hbytes]; rfl⟩
  | 1, _ =>
      cases hread
      exact ⟨.pair, rfl, ⟨hlength, heven rfl⟩, fun _ _ => by rw [← hbytes]; rfl⟩
  | 2, _ =>
      cases hread
      exact ⟨.pairVbr, rfl, hlength, fun _ _ => by rw [← hbytes]; rfl⟩
  | 3, _ =>
      obtain ⟨padding, hpadding, rfl⟩ := (readHeader_many_iff hcount).mp hread
      refine ⟨.many vbr padding, rfl, ⟨heven, hpadding⟩, fun _ _ => ?_⟩
      rw [← hbytes, ← hlength]
      cases vbr <;> rfl

/-- **The parser is exact.** A byte string is accepted exactly when it packs some frames
and padding, and then the duration is that of its frames. -/
theorem sourceOpusSamples_ok_iff (bytes : List UInt8) (d : Nat) :
    sourceOpusSamples bytes = .ok d ↔ bytes.length ≤ 65535
      ∧ ∃ p : Packet, p.WellFormed ∧ p.encode = bytes ∧ p.duration = d := by
  cases bytes with
  | nil =>
      refine iff_of_false (nomatch ·) ?_
      rintro ⟨-, p, h, hencode, -⟩
      obtain ⟨rest, bytes, hcons, -⟩ := h.read
      cases hcons.symm.trans hencode
  | cons toc rest =>
      have htoc := toc.toNat_lt
      rw [sourceOpusSamples]
      split
      · rename_i hlong
        exact iff_of_false (nomatch ·) fun h => absurd h.1 (not_le.mpr hlong)
      · rename_i hlength
        rw [and_iff_right (not_lt.mp hlength)]
        constructor
        · intro h
          cases hread : readHeader (toc.toNat % 4) rest with
          | none =>
              rw [hread] at h
              cases h
          | some r =>
              obtain ⟨count, vbr, body⟩ := r
              rw [hread] at h
              obtain ⟨hmin, hmax, hshort, rfl, frames, hframes⟩ := checkFrames_ok_iff.mp h
              obtain ⟨framing, -, hkind, hencode⟩ :=
                exists_framing (by omega) (by omega) hread hframes
              obtain ⟨hcount, -, -, hsize⟩ := hframes
              subst hcount
              refine ⟨⟨toc.toNat / 8, decide (toc.toNat / 4 % 2 = 1), framing, frames⟩,
                ⟨Nat.div_lt_of_lt_mul htoc, hmin, hmax, hsize, hshort, hkind⟩, ?_, rfl⟩
              rw [hencode, toc_eq rfl rfl]
        · rintro ⟨p, h, hencode, rfl⟩
          obtain ⟨rest', body, hcons, hread, hframes⟩ := h.read
          obtain ⟨rfl, rfl⟩ := cons.inj (hcons.symm.trans hencode)
          have hcode : p.framing.code < 4 := by cases p.framing <;> simp [Framing.code]
          obtain ⟨hconfig, hmod⟩ := toc_value h.config hcode
          rw [hmod, hread, hconfig]
          exact checkFrames_ok_iff.mpr ⟨h.nonempty, h.count, h.duration, rfl, p.frames, hframes⟩

end OpusPackets

end WebrtcMinimize
