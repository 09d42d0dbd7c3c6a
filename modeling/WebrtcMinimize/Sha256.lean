import WebrtcMinimize.Checks

/-!
# SHA-256

The hash function of FIPS 180-4 on byte lists, with words as natural
numbers below `2 ^ 32`, and the two texts a digest is written in: lower-case
hexadecimal and unpadded base64url. The definitions run; the theorems are
the shape of the texts, which is all a caller that treats the function as
opaque relies on.
-/

namespace Sha256

open List Nat

/-! ## Words -/

def wordBound : Nat := 0x100000000

/-- `ROTR` on 32-bit words. -/
def rotr (n x : Nat) : Nat := (x >>> n ||| x <<< (32 - n)) % wordBound

def bigSigma0 (x : Nat) : Nat := rotr 2 x ^^^ rotr 13 x ^^^ rotr 22 x

def bigSigma1 (x : Nat) : Nat := rotr 6 x ^^^ rotr 11 x ^^^ rotr 25 x

def smallSigma0 (x : Nat) : Nat := rotr 7 x ^^^ rotr 18 x ^^^ x >>> 3

def smallSigma1 (x : Nat) : Nat := rotr 17 x ^^^ rotr 19 x ^^^ x >>> 10

def ch (x y z : Nat) : Nat := (x &&& y) ^^^ ((wordBound - 1 - x) &&& z)

def maj (x y z : Nat) : Nat := (x &&& y) ^^^ (x &&& z) ^^^ (y &&& z)

/-- The round constants. -/
def roundConstants : List Nat := [
  0x428a2f98, 0x71374491, 0xb5c0fbcf, 0xe9b5dba5, 0x3956c25b, 0x59f111f1, 0x923f82a4, 0xab1c5ed5,
  0xd807aa98, 0x12835b01, 0x243185be, 0x550c7dc3, 0x72be5d74, 0x80deb1fe, 0x9bdc06a7, 0xc19bf174,
  0xe49b69c1, 0xefbe4786, 0x0fc19dc6, 0x240ca1cc, 0x2de92c6f, 0x4a7484aa, 0x5cb0a9dc, 0x76f988da,
  0x983e5152, 0xa831c66d, 0xb00327c8, 0xbf597fc7, 0xc6e00bf3, 0xd5a79147, 0x06ca6351, 0x14292967,
  0x27b70a85, 0x2e1b2138, 0x4d2c6dfc, 0x53380d13, 0x650a7354, 0x766a0abb, 0x81c2c92e, 0x92722c85,
  0xa2bfe8a1, 0xa81a664b, 0xc24b8b70, 0xc76c51a3, 0xd192e819, 0xd6990624, 0xf40e3585, 0x106aa070,
  0x19a4c116, 0x1e376c08, 0x2748774c, 0x34b0bcb5, 0x391c0cb3, 0x4ed8aa4a, 0x5b9cca4f, 0x682e6ff3,
  0x748f82ee, 0x78a5636f, 0x84c87814, 0x8cc70208, 0x90befffa, 0xa4506ceb, 0xbef9a3f7, 0xc67178f2]

/-! ## Compression -/

structure State where
  (a b c d e f g h : Nat)
deriving Repr, DecidableEq

def initial : State :=
  ⟨0x6a09e667, 0xbb67ae85, 0x3c6ef372, 0xa54ff53a, 0x510e527f, 0x9b05688c, 0x1f83d9ab, 0x5be0cd19⟩

/-- Hand a word on in evaluated form, so that its uses share the work. -/
def strict {α : Type} (n : Nat) (k : Nat → α) : α :=
  match n with
  | 0 => k 0
  | m + 1 => k (m + 1)

def round (s : State) (k w : Nat) : State :=
  let t1 := (s.h + bigSigma1 s.e + ch s.e s.f s.g + k + w) % wordBound
  let t2 := (bigSigma0 s.a + maj s.a s.b s.c) % wordBound
  strict ((t1 + t2) % wordBound) fun a =>
  strict ((s.d + t1) % wordBound) fun e =>
  ⟨a, s.a, s.b, s.c, e, s.e, s.f, s.g⟩

/-- The next word of the message schedule; the newest word comes first. -/
def nextWord (schedule : List Nat) : Nat :=
  let from1 := schedule.drop 1
  let from6 := from1.drop 5
  let from14 := from6.drop 8
  (smallSigma1 (from1.headD 0) + from6.headD 0 + smallSigma0 (from14.headD 0)
    + from14.tail.headD 0) % wordBound

/-- The rounds. The schedule runs sixteen words ahead of the round. -/
def rounds : List Nat → List Nat → State → State
  | [], _, s => s
  | k :: ks, schedule, s =>
      strict (nextWord schedule) fun w =>
      rounds ks (w :: schedule) (round s k ((schedule.drop 15).headD 0))

def State.add (s t : State) : State :=
  strict ((s.a + t.a) % wordBound) fun a =>
  strict ((s.b + t.b) % wordBound) fun b =>
  strict ((s.c + t.c) % wordBound) fun c =>
  strict ((s.d + t.d) % wordBound) fun d =>
  strict ((s.e + t.e) % wordBound) fun e =>
  strict ((s.f + t.f) % wordBound) fun f =>
  strict ((s.g + t.g) % wordBound) fun g =>
  strict ((s.h + t.h) % wordBound) fun h =>
  ⟨a, b, c, d, e, f, g, h⟩

def compress (s : State) (block : List Nat) : State :=
  s.add (rounds roundConstants block.reverse s)

/-! ## Message -/

/-- The `n` bytes of a number, most significant first. -/
def bigEndian : Nat → Nat → List Nat
  | 0, _ => []
  | n + 1, x => bigEndian n (x / 256) ++ [x % 256]

/-- The message with its padding and its length in bits. -/
def pad (bytes : List Nat) : List Nat :=
  bytes ++ 0x80 :: (replicate ((119 - bytes.length % 64) % 64) 0
    ++ bigEndian 8 (8 * bytes.length))

/-- Big-endian words of a byte list. -/
def words : List Nat → List Nat
  | b0 :: b1 :: b2 :: b3 :: bs =>
      strict (((b0 * 256 + b1) * 256 + b2) * 256 + b3) fun w => w :: words bs
  | _ => []

/-- Compress the message block by block; there are at most `fuel` blocks. -/
def blocks : Nat → List Nat → State → State
  | 0, _, s => s
  | fuel + 1, ws, s =>
      if ws.isEmpty then s else blocks fuel (ws.drop 16) (compress s (ws.take 16))

/-- The eight words of the digest. -/
def digest (bytes : List Nat) : State :=
  let ws := words (pad bytes)
  blocks ws.length ws initial

def State.toWords (s : State) : List Nat := [s.a, s.b, s.c, s.d, s.e, s.f, s.g, s.h]

def State.toBytes (s : State) : List Nat := s.toWords.flatMap (bigEndian 4)

/-! ## Texts -/

def hexDigit (n : Nat) : Char :=
  if n < 10 then Char.ofNat (48 + n) else Char.ofNat (87 + n)

def hexByte (b : Nat) : List Char := [hexDigit (b / 16 % 16), hexDigit (b % 16)]

/-- `digest("hex")`. -/
def hex (bytes : List Nat) : String :=
  String.ofList ((digest bytes).toBytes.flatMap hexByte)

/-- The base64url digit of a value below 64. -/
def base64Digit (n : Nat) : Char :=
  if n < 26 then Char.ofNat (65 + n)
  else if n < 52 then Char.ofNat (71 + n)
  else if n < 62 then Char.ofNat (n - 4)
  else if n = 62 then '-'
  else '_'

def base64url : List Nat → List Char
  | b0 :: b1 :: b2 :: bs =>
      base64Digit (b0 / 4 % 64) :: base64Digit ((b0 % 4 * 16 + b1 / 16) % 64)
        :: base64Digit ((b1 % 16 * 4 + b2 / 64) % 64) :: base64Digit (b2 % 64)
        :: base64url bs
  | [b0, b1] =>
      [base64Digit (b0 / 4 % 64), base64Digit ((b0 % 4 * 16 + b1 / 16) % 64),
        base64Digit (b1 % 16 * 4 % 64)]
  | [b0] => [base64Digit (b0 / 4 % 64), base64Digit (b0 % 4 * 16 % 64)]
  | [] => []

/-- `digest("base64url")`. -/
def base64 (bytes : List Nat) : String :=
  String.ofList (base64url (digest bytes).toBytes)

example : hex [97, 98, 99]
      = "ba7816bf8f01cfea414140de5dae2223b00361a396177a9cb410ff61f20015ad"
    ∧ base64 [] = "47DEQpj8HBSa-_TImW-5JCeuQeRkm5NMpJWZG3hSuFU" := by
  constructor <;> decide +kernel

/-! ## Shape of the texts -/

theorem length_bigEndian : ∀ n x, (bigEndian n x).length = n
  | 0, _ => rfl
  | n + 1, x => by rw [bigEndian, length_append, length_bigEndian]; rfl

theorem length_toBytes (s : State) : s.toBytes.length = 32 := by
  simp [State.toBytes, State.toWords, length_bigEndian]

def base64Alphabet : List Char :=
  "ABCDEFGHIJKLMNOPQRSTUVWXYZabcdefghijklmnopqrstuvwxyz0123456789-_".toList

/-- The digits are ASCII letters, digits, dashes and underscores. -/
theorem base64Alphabet_ok {c : Char} (h : c ∈ base64Alphabet) :
    c.toNat < 128 ∧ Checks.refByte c.toNat = true := by
  have hall : base64Alphabet.all (fun c => blt c.toNat 128 && Checks.refByte c.toNat) = true := by
    rfl
  have hc := all_eq_true.mp hall c h
  rw [Bool.and_eq_true] at hc
  exact ⟨le_of_ble_eq_true hc.1, hc.2⟩

theorem base64Digit_mem {n : Nat} (h : n < 64) : base64Digit n ∈ base64Alphabet := by
  have : ∀ n < 64, base64Digit n ∈ base64Alphabet := by decide +kernel
  exact this n h

theorem base64url_mem : ∀ {bs : List Nat} {c : Char}, c ∈ base64url bs → c ∈ base64Alphabet
  | b0 :: b1 :: b2 :: bs, c, h => by
      simp only [base64url, mem_cons] at h
      rcases h with rfl | rfl | rfl | rfl | h
      · exact base64Digit_mem (mod_lt _ (by decide))
      · exact base64Digit_mem (mod_lt _ (by decide))
      · exact base64Digit_mem (mod_lt _ (by decide))
      · exact base64Digit_mem (mod_lt _ (by decide))
      · exact base64url_mem h
  | [b0, b1], c, h => by
      simp only [base64url, mem_cons, not_mem_nil, or_false] at h
      rcases h with rfl | rfl | rfl
      · exact base64Digit_mem (mod_lt _ (by decide))
      · exact base64Digit_mem (mod_lt _ (by decide))
      · exact base64Digit_mem (mod_lt _ (by decide))
  | [b0], c, h => by
      simp only [base64url, mem_cons, not_mem_nil, or_false] at h
      rcases h with rfl | rfl
      · exact base64Digit_mem (mod_lt _ (by decide))
      · exact base64Digit_mem (mod_lt _ (by decide))
  | [], c, h => absurd h not_mem_nil

/-- Three bytes make four digits, and what is left one digit more than its bytes. -/
theorem length_base64url : ∀ bs : List Nat,
    (base64url bs).length = bs.length / 3 * 4 + if bs.length % 3 = 0 then 0 else bs.length % 3 + 1
  | _ :: _ :: _ :: bs => by
      simp only [base64url, length_cons, length_base64url bs]
      have hdiv : (bs.length + 1 + 1 + 1) / 3 = bs.length / 3 + 1 := by omega
      have hmod : (bs.length + 1 + 1 + 1) % 3 = bs.length % 3 := by omega
      rw [hdiv, hmod]
      omega
  | [_, _] => by simp [base64url]
  | [_] => by simp [base64url]
  | [] => by simp [base64url]

theorem length_base64 (bytes : List Nat) : (base64 bytes).toList.length = 43 := by
  rw [base64, String.toList_ofList, length_base64url, length_toBytes]
  rfl

theorem base64_mem {bytes : List Nat} {c : Char} (h : c ∈ (base64 bytes).toList) :
    c ∈ base64Alphabet := by
  rw [base64, String.toList_ofList] at h
  exact base64url_mem h

end Sha256
