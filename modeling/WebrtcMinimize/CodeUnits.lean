import Mathlib.Data.List.Basic

/-!
# Texts as code units

Texts of the browser are sequences of UTF-16 code units, of which a surrogate
may stand alone. What matters of their encodings here is the length.
-/

namespace CodeUnits

abbrev Text := List UInt16

/-- A high surrogate before a low one. -/
def pair (u v : UInt16) : Bool :=
  decide (0xd800 ≤ u) && decide (u ≤ 0xdbff) && decide (0xdc00 ≤ v) && decide (v ≤ 0xdfff)

/-- The bytes of a code unit of its own in UTF-8; a lone surrogate is replaced
by U+FFFD. -/
def unitBytes (u : UInt16) : Nat :=
  if u < 0x80 then 1 else if u < 0x800 then 2 else 3

def utf8Bytes : Text → Nat
  | u :: v :: rest =>
      if pair u v then 4 + utf8Bytes rest else unitBytes u + utf8Bytes (v :: rest)
  | [u] => unitBytes u
  | [] => 0

/-- The bytes of a code unit of its own in JSON. -/
def jsonUnitBytes (u : UInt16) : Nat :=
  if u = 0x22 ∨ u = 0x5c ∨ u = 8 ∨ u = 9 ∨ u = 0x0a ∨ u = 0x0c ∨ u = 0x0d then 2
  else if u < 0x20 then 6
  else if 0xd800 ≤ u ∧ u ≤ 0xdfff then 6
  else unitBytes u

/-- The bytes of the text in JSON, without the quotes. -/
def jsonBytes : Text → Nat
  | u :: v :: rest =>
      if pair u v then 4 + jsonBytes rest else jsonUnitBytes u + jsonBytes (v :: rest)
  | [u] => jsonUnitBytes u
  | [] => 0

/-- The decimal digits of a number. -/
def digits (n : Nat) : Nat := (Nat.toDigits 10 n).length

end CodeUnits
