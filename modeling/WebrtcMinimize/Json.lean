import Mathlib.Data.List.Sort
import WebrtcMinimize.Checks

/-!
# JSON texts

The JSON values a program writes, their compact text, and the canonical
text whose object keys are sorted. A text is the list of its UTF-8 bytes,
which is what it is hashed as and what its size is counted in. Numbers are
natural numbers: nothing here writes a fraction or a negative one.

The text determines the value (`render_injective`), in the strong form the
induction needs: a value's text followed by anything that does not extend a
number is read in exactly one way (`render_append_inj`). Sorting the keys
does not lose a field (`get?_canonical`), so two objects with one canonical
text agree on every key.
-/

inductive Json where
  | null
  | bool (b : Bool)
  | num (n : Nat)
  | str (s : String)
  | arr (items : List Json)
  | obj (fields : List (String × Json))
deriving Repr

namespace Json

open Checks (utf8 utf8_injective digitByte)
open List

/-! ## Text -/

def hexDigit (n : Nat) : Nat := if n < 10 then 48 + n else 87 + n

/-- A byte inside a JSON string: `"` is 34, `\` is 92, and the control
characters have short names or a `\u00` number. The bytes of a longer
encoding stand for themselves. -/
def escape (b : Nat) : List Nat :=
  if b = 34 then [92, 34]
  else if b = 92 then [92, 92]
  else if b = 8 then [92, 98]
  else if b = 12 then [92, 102]
  else if b = 10 then [92, 110]
  else if b = 13 then [92, 114]
  else if b = 9 then [92, 116]
  else if b < 32 then [92, 117, 48, 48, hexDigit (b / 16), hexDigit (b % 16)]
  else [b]

/-- The bytes of a string and the quote that closes it. -/
def strBody : List Nat → List Nat
  | [] => [34]
  | b :: bs => escape b ++ strBody bs

def quote (s : String) : List Nat := 34 :: strBody (utf8 s)

def digits (n : Nat) : List Nat := (Nat.toDigits 10 n).map Char.toNat

mutual
/-- The compact text of a value. -/
def render : Json → List Nat
  | .null => [110, 117, 108, 108]
  | .bool true => [116, 114, 117, 101]
  | .bool false => [102, 97, 108, 115, 101]
  | .num n => digits n
  | .str s => quote s
  | .arr [] => [91, 93]
  | .arr (v :: vs) => 91 :: (render v ++ renderItems vs)
  | .obj [] => [123, 125]
  | .obj ((k, v) :: fs) => 123 :: (quote k ++ 58 :: (render v ++ renderFields fs))
/-- The items after the first one, and the bracket that closes the array. -/
def renderItems : List Json → List Nat
  | [] => [93]
  | v :: vs => 44 :: (render v ++ renderItems vs)
/-- The fields after the first one, and the brace that closes the object. -/
def renderFields : List (String × Json) → List Nat
  | [] => [125]
  | (k, v) :: fs => 44 :: (quote k ++ 58 :: (render v ++ renderFields fs))
end

/-- The number of bytes of a value's text. -/
def byteLength (v : Json) : Nat := (render v).length

/-! ## Reading strings back -/

/-- An escaped byte does not begin with the closing quote. -/
theorem escape_ne_quote (b : Nat) (r s : List Nat) : escape b ++ r ≠ 34 :: s := by
  unfold escape
  repeat' split
  all_goals simp_all

def hexVal (b : Nat) : Nat := if b < 58 then b - 48 else b - 87

/-- The byte a two-byte escape stands for. -/
def unescapeShort (b : Nat) : Nat :=
  if b = 98 then 8
  else if b = 102 then 12
  else if b = 110 then 10
  else if b = 114 then 13
  else if b = 116 then 9
  else b

/-- Read one byte of a string body back. -/
def unescape : List Nat → Option (Nat × List Nat)
  | 92 :: 117 :: _ :: _ :: hi :: lo :: r => some (16 * hexVal hi + hexVal lo, r)
  | 92 :: b :: r => some (unescapeShort b, r)
  | b :: r => some (b, r)
  | [] => none

theorem hexVal_hexDigit {n : Nat} (h : n < 16) : hexVal (hexDigit n) = n := by
  unfold hexVal hexDigit
  split <;> split <;> omega

theorem unescape_escape (b : Nat) (r : List Nat) : unescape (escape b ++ r) = some (b, r) := by
  unfold escape
  split
  · subst_vars; rfl
  split
  · subst_vars; rfl
  split
  · subst_vars; rfl
  split
  · subst_vars; rfl
  split
  · subst_vars; rfl
  split
  · subst_vars; rfl
  split
  · subst_vars; rfl
  split
  · have hb : 16 * (b / 16) + b % 16 = b := by omega
    simp only [cons_append, nil_append, unescape,
      hexVal_hexDigit (show b / 16 < 16 by omega),
      hexVal_hexDigit (show b % 16 < 16 by omega), hb]
  · rw [cons_append, nil_append, unescape.eq_def]
    split <;> simp_all

variable {c : Nat} {r s : List Nat}

/-- The text of a byte is read in one way only. -/
theorem escape_append_inj {b : Nat} (h : escape b ++ r = escape c ++ s) : b = c ∧ r = s := by
  have hread := congrArg unescape h
  rw [unescape_escape, unescape_escape] at hread
  exact Prod.mk.injEq .. ▸ Option.some.inj hread

theorem strBody_append_inj : ∀ {as bs r s : List Nat},
    strBody as ++ r = strBody bs ++ s → as = bs ∧ r = s
  | [], [], r, s, h => by simpa [strBody] using h
  | [], b :: bs, r, s, h => by
      simp only [strBody, append_assoc] at h
      exact absurd h.symm (escape_ne_quote b _ _)
  | a :: as, [], r, s, h => by
      simp only [strBody, append_assoc] at h
      exact absurd h (escape_ne_quote a _ _)
  | a :: as, b :: bs, r, s, h => by
      simp only [strBody, append_assoc] at h
      obtain ⟨rfl, hrest⟩ := escape_append_inj h
      obtain ⟨rfl, hrs⟩ := strBody_append_inj hrest
      exact ⟨rfl, hrs⟩

theorem quote_append_inj {a b : String} (h : quote a ++ r = quote b ++ s) : a = b ∧ r = s := by
  obtain ⟨hab, hrs⟩ := strBody_append_inj (cons.inj h).2
  exact ⟨utf8_injective hab, hrs⟩

/-! ## Reading values back -/

/-- What may follow a value: not a digit, which would extend a number. -/
def Stops (r : List Nat) : Prop := ∀ c, r.head? = some c → digitByte c = false

theorem stops_nil : Stops [] := fun c h => by cases h

theorem stops_cons (h : digitByte c = false) : Stops (c :: r) := by
  intro d hd
  obtain rfl : c = d := Option.some.inj hd
  exact h

theorem stops_renderItems (vs : List Json) (r : List Nat) : Stops (renderItems vs ++ r) := by
  cases vs <;> exact stops_cons rfl

theorem stops_renderFields (fs : List (String × Json)) (r : List Nat) :
    Stops (renderFields fs ++ r) := by
  rcases fs with _ | ⟨⟨k, v⟩, fs⟩ <;> exact stops_cons rfl

theorem digits_digit {n : Nat} (h : c ∈ digits n) : digitByte c = true := by
  obtain ⟨d, hd, rfl⟩ := mem_map.mp h
  have hdigit := Nat.isDigit_of_mem_toDigits (by decide) (by decide) hd
  simp only [Char.isDigit, Bool.and_eq_true, decide_eq_true_eq] at hdigit
  simp only [digitByte, Checks.between, Bool.and_eq_true, Nat.ble_eq]
  exact ⟨UInt32.le_iff_toNat_le.mp hdigit.1, UInt32.le_iff_toNat_le.mp hdigit.2⟩

/-- Two numbers followed by non-digits are the same number. -/
theorem digits_append_inj : ∀ {ds es r s : List Nat},
    (∀ c ∈ ds, digitByte c = true) → (∀ c ∈ es, digitByte c = true) →
      Stops r → Stops s → ds ++ r = es ++ s → ds = es ∧ r = s
  | [], [], _, _, _, _, _, _, h => ⟨rfl, h⟩
  | [], e :: es, r, s, _, he, hr, _, h => by
      have := hr e (by rw [show r = e :: (es ++ s) from h]; rfl)
      rw [he e mem_cons_self] at this
      cases this
  | d :: ds, [], r, s, hd, _, _, hs, h => by
      have := hs d (by rw [show s = d :: (ds ++ r) from h.symm]; rfl)
      rw [hd d mem_cons_self] at this
      cases this
  | d :: ds, e :: es, r, s, hd, he, hr, hs, h => by
      obtain ⟨rfl, h'⟩ := cons.inj h
      obtain ⟨rfl, hrs⟩ := digits_append_inj (fun c hc => hd c (mem_cons_of_mem _ hc))
        (fun c hc => he c (mem_cons_of_mem _ hc)) hr hs h'
      exact ⟨rfl, hrs⟩

theorem num_append_inj {m n : Nat} (hr : Stops r) (hs : Stops s)
    (h : digits m ++ r = digits n ++ s) : m = n ∧ r = s := by
  obtain ⟨hds, hrs⟩ := digits_append_inj (fun c => digits_digit) (fun c => digits_digit) hr hs h
  have hchars := (map_inj_right fun _ _ => Char.toNat_inj.mp).mp hds
  refine ⟨?_, hrs⟩
  rw [← Nat.ofDigitChars_ten_toDigits (n := m), hchars, Nat.ofDigitChars_ten_toDigits]

/-- A text that does not begin with a digit is not a number's. -/
theorem num_ne_cons {n : Nat} (hc : digitByte c = false) : digits n ++ r ≠ c :: s := by
  intro h
  cases hd : digits n with
  | nil => exact Nat.toDigits_ne_nil (map_eq_nil_iff.mp hd)
  | cons d ds =>
      rw [hd, cons_append] at h
      obtain ⟨rfl, -⟩ := cons.inj h
      rw [digits_digit (n := n) (by rw [hd]; exact mem_cons_self)] at hc
      cases hc

/-- The first byte of a value's text, by the shape of the value. -/
def lead : Json → Option Nat
  | .null => some 110
  | .bool true => some 116
  | .bool false => some 102
  | .num _ => none
  | .str _ => some 34
  | .arr _ => some 91
  | .obj _ => some 123

variable {v : Json}

theorem render_lead (h : lead v = some c) : ∃ r, render v = c :: r ∧ digitByte c = false := by
  rcases v with _ | (_ | _) | _ | _ | (_ | _) | (_ | ⟨⟨_, _⟩, _⟩)
  all_goals simp only [lead, Option.some.injEq, reduceCtorEq] at h
  all_goals subst h
  all_goals exact ⟨_, by simp only [render, quote]; rfl, by decide⟩

theorem lead_eq_none (h : lead v = none) : ∃ n, v = .num n := by
  rcases v with _ | (_ | _) | n | _ | _ | _
  case num => exact ⟨n, rfl⟩
  all_goals cases h

/-- Values with one text, followed by anything, begin alike. -/
theorem lead_eq_of_render {w : Json} (h : render v ++ r = render w ++ s) : lead v = lead w := by
  cases hv : lead v with
  | some c =>
      obtain ⟨t, ht, hc⟩ := render_lead hv
      cases hw : lead w with
      | some d =>
          obtain ⟨u, hu, -⟩ := render_lead hw
          rw [ht, hu, cons_append, cons_append] at h
          rw [(cons.inj h).1]
      | none =>
          obtain ⟨n, rfl⟩ := lead_eq_none hw
          rw [ht, cons_append] at h
          exact absurd h.symm (by rw [render]; exact num_ne_cons hc)
  | none =>
      obtain ⟨n, rfl⟩ := lead_eq_none hv
      cases hw : lead w with
      | none => rfl
      | some d =>
          obtain ⟨u, hu, hd⟩ := render_lead hw
          rw [hu, cons_append] at h
          exact absurd h (by rw [render]; exact num_ne_cons hd)

/-- No value's text begins with the bracket that closes an array. -/
theorem render_ne_bracket (v : Json) (r s : List Nat) : render v ++ r ≠ 93 :: s := by
  rcases v with _ | (_ | _) | n | _ | (_ | _) | (_ | ⟨⟨_, _⟩, _⟩)
  case num => rw [render]; exact num_ne_cons rfl
  all_goals simp [render, quote]

mutual
/-- **Unique reading.** The text of a value, followed by anything that does
not extend a number, determines the value and what follows. -/
theorem render_append_inj : ∀ (v w : Json) {r s : List Nat}, Stops r → Stops s →
    render v ++ r = render w ++ s → v = w ∧ r = s
  | .null, w, r, s, _, _, h => by
      have hl := lead_eq_of_render h
      rcases w with _ | (_ | _) | _ | _ | _ | _ <;> simp [lead] at hl
      simpa [render] using h
  | .bool b, w, r, s, _, _, h => by
      have hl := lead_eq_of_render h
      rcases b with _ | _ <;> rcases w with _ | (_ | _) | _ | _ | _ | _ <;>
        simp [lead] at hl <;> simpa [render] using h
  | .num m, w, r, s, hr, hs, h => by
      have hl := lead_eq_of_render h
      obtain ⟨n, rfl⟩ := lead_eq_none (v := w) hl.symm
      obtain ⟨rfl, hrs⟩ := num_append_inj hr hs h
      exact ⟨rfl, hrs⟩
  | .str a, w, r, s, _, _, h => by
      have hl := lead_eq_of_render h
      rcases w with _ | (_ | _) | _ | b | _ | _ <;> simp [lead] at hl
      obtain ⟨rfl, hrs⟩ := quote_append_inj h
      exact ⟨rfl, hrs⟩
  | .arr [], w, r, s, _, _, h => by
      have hl := lead_eq_of_render h
      rcases w with _ | (_ | _) | _ | _ | (_ | ⟨w, ws⟩) | _ <;> simp [lead] at hl
      · simpa [render] using h
      · simp only [render, cons_append, append_assoc, cons.injEq] at h
        exact absurd h.2.symm (render_ne_bracket w _ _)
  | .arr (v :: vs), w, r, s, _, _, h => by
      have hl := lead_eq_of_render h
      rcases w with _ | (_ | _) | _ | _ | (_ | ⟨w, ws⟩) | _ <;> simp [lead] at hl
      · simp only [render, cons_append, append_assoc, cons.injEq] at h
        exact absurd h.2 (render_ne_bracket v _ _)
      · simp only [render, cons_append, append_assoc] at h
        obtain ⟨rfl, h'⟩ := render_append_inj v w (stops_renderItems vs r)
          (stops_renderItems ws s) (cons.inj h).2
        obtain ⟨rfl, hrs⟩ := renderItems_append_inj vs ws h'
        exact ⟨rfl, hrs⟩
  | .obj [], w, r, s, _, _, h => by
      have hl := lead_eq_of_render h
      rcases w with _ | (_ | _) | _ | _ | _ | (_ | ⟨⟨k, w⟩, ws⟩) <;> simp [lead] at hl
      · simpa [render] using h
      · simp [render, quote] at h
  | .obj ((k, v) :: vs), w, r, s, _, _, h => by
      have hl := lead_eq_of_render h
      rcases w with _ | (_ | _) | _ | _ | _ | (_ | ⟨⟨l, w⟩, ws⟩) <;> simp [lead] at hl
      · simp [render, quote] at h
      · simp only [render, cons_append, append_assoc] at h
        obtain ⟨rfl, h'⟩ := quote_append_inj (cons.inj h).2
        obtain ⟨rfl, h''⟩ := render_append_inj v w (stops_renderFields vs r)
          (stops_renderFields ws s) (cons.inj h').2
        obtain ⟨rfl, hrs⟩ := renderFields_append_inj vs ws h''
        exact ⟨rfl, hrs⟩
theorem renderItems_append_inj : ∀ (vs ws : List Json) {r s : List Nat},
    renderItems vs ++ r = renderItems ws ++ s → vs = ws ∧ r = s
  | [], [], r, s, h => by simpa [renderItems] using h
  | [], w :: ws, r, s, h => by simp [renderItems] at h
  | v :: vs, [], r, s, h => by simp [renderItems] at h
  | v :: vs, w :: ws, r, s, h => by
      simp only [renderItems, cons_append, append_assoc] at h
      obtain ⟨rfl, h'⟩ := render_append_inj v w (stops_renderItems vs r)
        (stops_renderItems ws s) (cons.inj h).2
      obtain ⟨rfl, hrs⟩ := renderItems_append_inj vs ws h'
      exact ⟨rfl, hrs⟩
theorem renderFields_append_inj : ∀ (fs gs : List (String × Json)) {r s : List Nat},
    renderFields fs ++ r = renderFields gs ++ s → fs = gs ∧ r = s
  | [], [], r, s, h => by simpa [renderFields] using h
  | [], (k, w) :: gs, r, s, h => by simp [renderFields] at h
  | (k, v) :: fs, [], r, s, h => by simp [renderFields] at h
  | (k, v) :: fs, (l, w) :: gs, r, s, h => by
      simp only [renderFields, cons_append, append_assoc] at h
      obtain ⟨rfl, h'⟩ := quote_append_inj (cons.inj h).2
      obtain ⟨rfl, h''⟩ := render_append_inj v w (stops_renderFields fs r)
        (stops_renderFields gs s) (cons.inj h').2
      obtain ⟨rfl, hrs⟩ := renderFields_append_inj fs gs h''
      exact ⟨rfl, hrs⟩
end

/-- The text determines the value. -/
theorem render_injective {w : Json} (h : render v = render w) : v = w :=
  (render_append_inj v w stops_nil stops_nil (by rw [h])).1

/-! ## Canonical text -/

/-- Lexicographic order on texts. -/
def lexLe : List Nat → List Nat → Bool
  | [], _ => true
  | _ :: _, [] => false
  | c :: cs, d :: ds => decide (c < d) || (c == d && lexLe cs ds)

/-- The order of the keys in a canonical text. -/
def KeyLe (a b : String × Json) : Prop := lexLe (utf8 a.1) (utf8 b.1) = true

instance : DecidableRel KeyLe := fun _ _ => inferInstanceAs (Decidable (_ = true))

theorem lexLe_refl : ∀ cs : List Nat, lexLe cs cs = true
  | [] => rfl
  | c :: cs => by simp [lexLe, lexLe_refl cs]

mutual
/-- The value with the keys of every object in order. -/
def canonical : Json → Json
  | .arr items => .arr (canonicalItems items)
  | .obj fields => .obj ((canonicalFields fields).insertionSort KeyLe)
  | .null => .null
  | .bool b => .bool b
  | .num n => .num n
  | .str s => .str s
def canonicalItems : List Json → List Json
  | [] => []
  | v :: vs => canonical v :: canonicalItems vs
def canonicalFields : List (String × Json) → List (String × Json)
  | [] => []
  | (k, v) :: fs => (k, canonical v) :: canonicalFields fs
end

/-- `canonicalJson` of a value: its text with the keys in order. -/
def canonicalText (v : Json) : List Nat := render (canonical v)

/-- The field of an object, if the value is an object that has it. -/
def get? (key : String) : Json → Option Json
  | .obj fields => fields.lookup key
  | _ => none

/-- Inserting a field in key order keeps the first field of every key. -/
theorem lookup_orderedInsert (key k : String) (v : Json) : ∀ fs : List (String × Json),
      (fs.orderedInsert KeyLe (k, v)).lookup key = ((k, v) :: fs).lookup key
  | [] => rfl
  | (l, w) :: fs => by
      rw [orderedInsert_cons]
      split
      · rfl
      · rename_i hle
        have hkl : k ≠ l := by
          rintro rfl
          exact hle (lexLe_refl _)
        by_cases hl : key = l
        · subst hl
          simp only [lookup_cons, beq_self_eq_true, beq_eq_false_iff_ne.mpr hkl.symm]
        · by_cases hk : key = k
          · subst hk
            simp only [lookup_cons, beq_self_eq_true, beq_eq_false_iff_ne.mpr hl,
              lookup_orderedInsert key key v fs]
          · have ih := lookup_orderedInsert key k v fs
            simp only [lookup_cons, beq_eq_false_iff_ne.mpr hl,
              beq_eq_false_iff_ne.mpr hk] at ih ⊢
            exact ih

theorem lookup_insertionSort (key : String) : ∀ fs : List (String × Json),
    (fs.insertionSort KeyLe).lookup key = fs.lookup key
  | [] => rfl
  | (k, v) :: fs => by
      rw [insertionSort_cons, lookup_orderedInsert, lookup_cons, lookup_cons,
        lookup_insertionSort key fs]

theorem lookup_canonicalFields (key : String) : ∀ fs : List (String × Json),
    (canonicalFields fs).lookup key = (fs.lookup key).map canonical
  | [] => rfl
  | (k, v) :: fs => by
      rw [canonicalFields, lookup_cons, lookup_cons, lookup_canonicalFields key fs]
      cases key == k <;> rfl

/-- Ordering the keys loses no field. -/
theorem get?_canonical (key : String) (v : Json) :
    (canonical v).get? key = (v.get? key).map canonical := by
  cases v with
  | obj fs => rw [canonical, get?, lookup_insertionSort, lookup_canonicalFields, get?]
  | _ => rfl

theorem get?_of_canonical {w : Json} (h : canonical v = canonical w) (key : String) :
    (v.get? key).map canonical = (w.get? key).map canonical := by
  rw [← get?_canonical, ← get?_canonical, h]

/-- Two values with one canonical text have one canonical form. -/
theorem canonical_of_canonicalText {w : Json} (h : canonicalText v = canonicalText w) :
    canonical v = canonical w :=
  render_injective h

@[simp] theorem canonical_bool (b : Bool) : canonical (.bool b) = .bool b := rfl

@[simp] theorem canonical_num (n : Nat) : canonical (.num n) = .num n := rfl

@[simp] theorem canonical_str (s : String) : canonical (.str s) = .str s := rfl

/-! ## Records -/

/-- A field that is written only when it is present. -/
def optField (key : String) (value : Option Json) : List (String × Json) :=
  match value with
  | some v => [(key, v)]
  | none => []

def strList (items : List String) : Json := .arr (items.map .str)

theorem lookup_field (k key : String) (v : Json) (fs : List (String × Json)) :
    ((key, v) :: fs).lookup k = if k = key then some v else fs.lookup k := by
  by_cases h : k = key
  · rw [h, lookup_cons_self, if_pos rfl]
  · rw [lookup_cons, if_neg h, beq_eq_false_iff_ne.mpr h]

theorem lookup_optField (k key : String) (v : Option Json) (fs : List (String × Json)) :
    (optField key v ++ fs).lookup k = if k = key then v.or (fs.lookup k) else fs.lookup k := by
  cases v with
  | none => simp [optField]
  | some v => rw [optField, singleton_append, lookup_field]; split <;> rfl

theorem lookup_optField_last (k key : String) (v : Option Json) :
    (optField key v).lookup k = if k = key then v else none := by
  rw [← append_nil (optField key v), lookup_optField, lookup_nil, Option.or_none]

theorem canonical_strList (items : List String) : canonical (strList items) = strList items := by
  have hitems : canonicalItems (items.map .str) = items.map .str := by
    induction items with
    | nil => rfl
    | cons s items ih => rw [map_cons, canonicalItems, ih, canonical_str]
  rw [strList, canonical, hitems]

theorem strList_injective {a b : List String} (h : strList a = strList b) : a = b :=
  map_injective_iff.mpr (fun _ _ => Json.str.inj) (Json.arr.inj h)

end Json
