/-!
# Fail-fast checks and anchored patterns

The two things every validator of the development is made of. A validator
is an `Except String` computation whose error is the code it fails with;
`failIf` is the one-line guard, and `bind_ok_iff`/`failIf_ok_iff` turn an
accepting run into the conjunction of its guards, so a proof reads off what
a validator checked without unfolding the monad.

The patterns are the anchored character-class expressions that validators
test identifiers with: a fixed tag followed by between `lo` and `hi`
characters of one class.
-/

namespace Checks

open List String

/-! ## Guards -/

/-- Fail with `code` when the condition holds. -/
def failIf (p : Prop) [Decidable p] (code : String) : Except String Unit :=
  if p then .error code else .ok ()

@[simp] theorem failIf_ok_iff {p : Prop} [Decidable p] {code : String} {u : Unit} :
    failIf p code = .ok u ↔ ¬p := by
  by_cases h : p <;> simp [failIf, h]

theorem failIf_of_not {p : Prop} [Decidable p] (code : String) (h : ¬p) :
    failIf p code = .ok () := by
  rw [failIf, if_neg h]

theorem failIf_of {p : Prop} [Decidable p] (code : String) (h : p) :
    failIf p code = .error code := by
  rw [failIf, if_pos h]

/-- A sequenced computation accepts exactly when its head accepts and its
continuation accepts the head's value. -/
theorem bind_ok_iff {α β : Type} {x : Except String α} {f : α → Except String β} {b : β} :
    (x >>= f) = .ok b ↔ ∃ a, x = .ok a ∧ f a = .ok b := by
  cases x with
  | error e => simp [bind, Except.bind]
  | ok a => simp [bind, Except.bind]

/-- It fails when its head fails, or when its continuation does. -/
theorem bind_error_iff {α β : Type} {x : Except String α} {f : α → Except String β}
    {code : String} :
    (x >>= f) = .error code ↔ x = .error code ∨ ∃ a, x = .ok a ∧ f a = .error code := by
  cases x with
  | error e => simp [bind, Except.bind]
  | ok a => simp [bind, Except.bind]

/-- A guard has one code. -/
theorem failIf_error_iff {p : Prop} [Decidable p] {code code' : String} :
    failIf p code = .error code' ↔ p ∧ code' = code := by
  by_cases h : p <;> simp [failIf, h, eq_comm]

@[simp] theorem ok_bind {α β : Type} (a : α) (f : α → Except String β) :
    ((.ok a : Except String α) >>= f) = f a := rfl

@[simp] theorem error_bind {α β : Type} (e : String) (f : α → Except String β) :
    ((.error e : Except String α) >>= f) = .error e := rfl

@[simp] theorem pure_ok_iff {α : Type} {a b : α} : (pure a : Except String α) = .ok b ↔ a = b := by
  simp [pure, Except.pure]

theorem map_ok {α β : Type} {x : Except String α} {f : α → β} {b : β}
    (h : x.map f = .ok b) : ∃ a, x = .ok a ∧ f a = b := by
  cases x with
  | error code => cases h
  | ok a => exact ⟨a, rfl, Except.ok.inj h⟩

/-- A computation that does not accept fails with some code. -/
theorem error_of_not_ok {α : Type} {x : Except String α} (h : ∀ a, x ≠ .ok a) :
    ∃ code, x = .error code := by
  cases x with
  | error e => exact ⟨e, rfl⟩
  | ok a => exact absurd rfl (h a)

/-- Every failure of the computation has one of the codes. -/
def FailsWith {α : Type} (codes : List String) (x : Except String α) : Prop :=
  ∀ code, x = .error code → code ∈ codes

theorem FailsWith.failIf {p : Prop} [Decidable p] {codes : List String} {code : String}
    (h : code ∈ codes) : FailsWith codes (failIf p code) := by
  intro code' hfail
  rwa [(failIf_error_iff.mp hfail).2]

theorem FailsWith.error {α : Type} {codes : List String} {code : String} (h : code ∈ codes) :
    FailsWith codes (.error code : Except String α) := by
  intro code' hfail
  rwa [← Except.error.inj hfail]

theorem FailsWith.ok {α : Type} {codes : List String} (a : α) :
    FailsWith codes (.ok a : Except String α) := by
  intro code hfail
  cases hfail

theorem FailsWith.bind {α β : Type} {codes : List String} {x : Except String α}
    {f : α → Except String β} (hx : FailsWith codes x) (hf : ∀ a, FailsWith codes (f a)) :
    FailsWith codes (x >>= f) := by
  intro code hfail
  rcases bind_error_iff.mp hfail with h | ⟨a, -, h⟩
  · exact hx code h
  · exact hf a code h

/-- A check run over a list accepts exactly when it accepts every element. -/
theorem forM_ok_iff {α : Type} {check : α → Except String Unit} :
    ∀ {as : List α} {u : Unit}, as.forM check = .ok u ↔ ∀ a ∈ as, check a = .ok ()
  | [], u => by simp [List.forM]
  | a :: as, u => by
      show (check a >>= fun _ => as.forM check) = .ok u ↔ _
      simp only [bind_ok_iff, forM_ok_iff, mem_cons, forall_eq_or_imp]
      constructor
      · rintro ⟨_, ha, has⟩
        exact ⟨ha, has⟩
      · rintro ⟨ha, has⟩
        exact ⟨(), ha, has⟩

/-- A map whose accepted results are those of a function is that function's
map, and it accepted every element. -/
theorem mapM_ok_map {α β : Type} {f : α → Except String β} {g : α → β} :
    ∀ {as : List α} {bs : List β}, (∀ a ∈ as, ∀ b, f a = .ok b → b = g a) →
      as.mapM f = .ok bs → bs = as.map g ∧ ∀ a ∈ as, f a = .ok (g a)
  | [], bs, _, h => by
      rw [mapM_nil, pure_ok_iff] at h
      exact ⟨h.symm, fun a ha => absurd ha not_mem_nil⟩
  | a :: as, bs, hg, h => by
      simp only [mapM_cons, bind_ok_iff, pure_ok_iff] at h
      obtain ⟨b, hb, bs', hbs, rfl⟩ := h
      have hba := hg a mem_cons_self b hb
      obtain ⟨rfl, hall⟩ := mapM_ok_map (fun x hx => hg x (mem_cons_of_mem _ hx)) hbs
      refine ⟨by rw [hba, map_cons], ?_⟩
      rw [forall_mem_cons]
      exact ⟨hba ▸ hb, hall⟩

/-! ## Texts as bytes -/

/-- The UTF-8 encoding of a text. -/
def utf8 (s : String) : List Nat := s.toByteArray.data.toList.map UInt8.toNat

theorem utf8_injective {s t : String} (h : utf8 s = utf8 t) : s = t := by
  have hbytes := (map_inj_right fun _ _ => UInt8.toNat_inj.mp).mp h
  rw [← String.toByteArray_inj]
  exact ByteArray.ext (Array.toList_inj.mp hbytes)

theorem utf8_append (s t : String) : utf8 (s ++ t) = utf8 s ++ utf8 t := by
  simp [utf8, String.toByteArray_append]

/-- The encoding of a text of ASCII characters is their code points. -/
theorem utf8_ofList : ∀ {cs : List Char}, (∀ c ∈ cs, c.toNat < 128) →
    utf8 (ofList cs) = cs.map Char.toNat
  | [], _ => rfl
  | c :: cs, h => by
      have hc : c.val.toNat < 128 := h c mem_cons_self
      have ih := utf8_ofList fun d hd => h d (mem_cons_of_mem c hd)
      have hchar : utf8EncodeChar c = [UInt8.ofNat c.val.toNat] := by
        rw [utf8EncodeChar, if_pos (Nat.le_of_lt_succ hc)]
      simp only [utf8, toByteArray_ofList] at ih ⊢
      rw [utf8Encode_cons, utf8Encode_singleton, hchar, ByteArray.data_append,
        Array.toList_append, map_append, ih, toList_data_toByteArray, map_cons,
        map_nil, UInt8.toNat_ofNat', Nat.mod_eq_of_lt (by omega), map_cons]
      rfl

/-- An ASCII character of a text is one of its bytes. -/
theorem mem_utf8_of_mem {c : Char} {s : String} (hc : c.toNat < 128) (h : c ∈ s.toList) :
    c.toNat ∈ utf8 s := by
  obtain ⟨xs, ys, hsplit⟩ := append_of_mem h
  have hs : s = ofList xs ++ (ofList [c] ++ ofList ys) := by
    rw [← toList_inj, hsplit]
    simp
  have hbyte : utf8 (ofList [c]) = [c.toNat] := utf8_ofList (by simpa using hc)
  rw [hs, utf8_append, utf8_append, hbyte]
  simp

/-! ## Patterns -/

/-- The byte is between two ASCII characters. -/
def between (lo hi : Char) (b : Nat) : Bool := Nat.ble lo.toNat b && Nat.ble b hi.toNat

def digitByte (b : Nat) : Bool := between '0' '9' b

def upperByte (b : Nat) : Bool := between 'A' 'Z' b

def lowerByte (b : Nat) : Bool := between 'a' 'z' b

/-- The characters `[A-Za-z0-9_-]`. -/
def refByte (b : Nat) : Bool :=
  lowerByte b || digitByte b || upperByte b || b == '_'.toNat || b == '-'.toNat

/-- The characters `[a-f0-9]`. -/
def hexByte (b : Nat) : Bool := digitByte b || between 'a' 'f' b

/-- The value of a hexadecimal digit of either case. -/
def hexValue (b : Nat) : Option Nat :=
  if digitByte b then some (b - 48)
  else if between 'a' 'f' b then some (b - 87)
  else if between 'A' 'F' b then some (b - 55)
  else none

/-- Between `lo` and `hi` bytes, all of the class. The classes are ASCII
ones, so the bytes are the characters. -/
def spanOK (cls : Nat → Bool) (lo hi : Nat) (bytes : List Nat) : Bool :=
  bytes.all cls && Nat.ble lo bytes.length && Nat.ble bytes.length hi

theorem not_mem_of_spanOK {cls : Nat → Bool} {lo hi : Nat} {c : Char} {s : String}
    (h : spanOK cls lo hi (utf8 s) = true) (hascii : c.toNat < 128)
    (hc : cls c.toNat = false) : c ∉ s.toList := by
  intro hmem
  rw [spanOK, Bool.and_eq_true, Bool.and_eq_true, all_eq_true] at h
  have hin := h.1.1 c.toNat (mem_utf8_of_mem hascii hmem)
  rw [hc] at hin
  cases hin

/-- What is left of the bytes after the tag, when they start with it. -/
def stripTag? : List Nat → List Nat → Option (List Nat)
  | [], bs => some bs
  | _ :: _, [] => none
  | t :: ts, b :: bs => if t = b then stripTag? ts bs else none

/-- `^tag[A-Za-z0-9_-]{lo,hi}$`. -/
def taggedOK (tag : String) (lo hi : Nat) (s : String) : Bool :=
  match stripTag? (utf8 tag) (utf8 s) with
  | some body => spanOK refByte lo hi body
  | none => false

/-- `^tag[A-Za-z0-9_-]{16,64}$`, the shape of the opaque references. -/
def refOK (tag : String) (s : String) : Bool := taggedOK tag 16 64 s

/-- `^[a-f0-9]{64}$`. -/
def sha256OK (s : String) : Bool := spanOK hexByte 64 64 (utf8 s)

theorem stripTag?_append : ∀ (t bs : List Nat), stripTag? t (t ++ bs) = some bs
  | [], _ => rfl
  | c :: t, bs => by simp [stripTag?, stripTag?_append t bs]

theorem stripTag?_eq_some : ∀ {t bs body : List Nat}, stripTag? t bs = some body → bs = t ++ body
  | [], _, _, h => by simpa [stripTag?] using h
  | _ :: _, [], _, h => by simp [stripTag?] at h
  | t :: ts, b :: bs, body, h => by
      simp only [stripTag?] at h
      split at h
      · rename_i heq
        rw [heq, stripTag?_eq_some h, cons_append]
      · cases h

end Checks
