import WebrtcMinimize.Checks

/-!
# Stateful computations that may fail

A `Stateful` computation runs on a shared state and returns or fails. What
it did to the state before it failed stays done, as a thrown exception
leaves the objects that were written to. `check` runs a pure validator in
it.

`Ensures P x Q E` is partial correctness with two exits: from a state with
`P`, the computation returns in a state with `Q` or fails in one with `E`.
The rules follow the sequencing of a computation from its front: `bind` for
a step on the state, `check_bind` for a guard, whose success becomes a plain
hypothesis, and `get_bind` for a read, after which the state has a name.
-/

namespace Attempts

open List Checks

/-- A computation on a state of type `σ`, failing with a code. -/
abbrev Stateful (σ α : Type) := EStateM String σ α

variable {σ α β : Type}

/-- Run a pure computation; its failure is the computation's. -/
def check (x : Except String α) : Stateful σ α := fun s =>
  match x with
  | .ok a => .ok a s
  | .error code => .error code s

/-- Fail with `code` when the condition holds. -/
def failWhen (p : Prop) [Decidable p] (code : String) : Stateful σ Unit :=
  check (failIf p code)

/-- The state a computation leaves, whichever way it ends. -/
def after : EStateM.Result String σ α → σ
  | .ok _ t => t
  | .error _ t => t

/-- The value a computation returns, if it does not fail. -/
def returned : EStateM.Result String σ α → Option α
  | .ok a _ => some a
  | .error _ _ => none

@[simp] theorem after_ok (a : α) (t : σ) : after (.ok a t) = t := rfl

@[simp] theorem after_error (code : String) (t : σ) :
    after (.error code t : EStateM.Result String σ α) = t := rfl

@[simp] theorem returned_ok (a : α) (t : σ) : returned (.ok a t) = some a := rfl

@[simp] theorem returned_error (code : String) (t : σ) :
    returned (.error code t : EStateM.Result String σ α) = none := rfl

theorem returned_eq_some_iff {x : EStateM.Result String σ α} {a : α} :
    returned x = some a ↔ ∃ t, x = .ok a t := by
  cases x <;> simp

/-! ## Runs -/

/-- A sequence returns exactly when its head and its continuation do. -/
theorem bind_ok_iff {x : Stateful σ α} {f : α → Stateful σ β} {s u : σ} {b : β} :
    (x >>= f) s = .ok b u ↔ ∃ a t, x s = .ok a t ∧ f a t = .ok b u := by
  show EStateM.bind x f s = _ ↔ _
  rw [EStateM.bind]
  cases x s with
  | ok a t =>
      simp only [EStateM.Result.ok.injEq]
      constructor
      · exact fun h => ⟨a, t, ⟨rfl, rfl⟩, h⟩
      · rintro ⟨_, _, ⟨rfl, rfl⟩, h⟩
        exact h
  | error code t => simp

theorem bind_of_ok {x : Stateful σ α} {f : α → Stateful σ β} {s t : σ} {a : α}
    (h : x s = .ok a t) : (x >>= f) s = f a t := by
  show EStateM.bind x f s = _
  rw [EStateM.bind, h]

theorem bind_of_error {x : Stateful σ α} {f : α → Stateful σ β} {s t : σ} {code : String}
    (h : x s = .error code t) : (x >>= f) s = .error code t := by
  show EStateM.bind x f s = _
  rw [EStateM.bind, h]

@[simp] theorem pure_run (a : α) (s : σ) : (pure a : Stateful σ α) s = .ok a s := rfl

@[simp] theorem get_run (s : σ) : (get : Stateful σ σ) s = .ok s s := rfl

@[simp] theorem modify_run (f : σ → σ) (s : σ) :
    (modify f : Stateful σ Unit) s = .ok () (f s) := rfl

/-- A guard before a computation. -/
theorem failWhen_run {p : Prop} [Decidable p] (code : String) (f : Unit → Stateful σ β) (s : σ) :
    (failWhen p code >>= f) s = if p then .error code s else f () s := by
  by_cases h : p
  · rw [if_pos h, bind_of_error]
    rw [failWhen, failIf_of _ h]
    rfl
  · rw [if_neg h, bind_of_ok (t := s) (a := ())]
    rw [failWhen, failIf_of_not _ h]
    rfl

@[simp] theorem after_map (f : α → β) (x : Stateful σ α) (s : σ) :
    after ((f <$> x) s) = after (x s) := by
  show after (EStateM.map f x s) = _
  rw [EStateM.map]
  cases x s <;> rfl

@[simp] theorem returned_map (f : α → β) (x : Stateful σ α) (s : σ) :
    returned ((f <$> x) s) = (returned (x s)).map f := by
  show returned (EStateM.map f x s) = _
  rw [EStateM.map]
  cases x s <;> rfl

@[simp] theorem check_ok_iff {x : Except String α} {s t : σ} {a : α} :
    check x s = .ok a t ↔ x = .ok a ∧ s = t := by
  cases x <;> simp [check]

@[simp] theorem failWhen_ok_iff {p : Prop} [Decidable p] {code : String} {s t : σ} {u : Unit} :
    failWhen p code s = .ok u t ↔ ¬p ∧ s = t := by
  rw [failWhen, check_ok_iff, failIf_ok_iff]

/-! ## Partial correctness -/

/-- From a state with `P`, the computation returns with `Q` or fails with `E`. -/
def Ensures (P : σ → Prop) (x : Stateful σ α) (Q : α → σ → Prop) (E : σ → Prop) : Prop :=
  ∀ s, P s → match x s with
    | .ok a t => Q a t
    | .error _ t => E t

namespace Ensures

variable {P P' E E' : σ → Prop} {Q Q' : α → σ → Prop} {R : β → σ → Prop}

theorem of_ok {x : Stateful σ α} (h : Ensures P x Q E) {s t : σ} {a : α} (hs : P s)
    (hx : x s = .ok a t) : Q a t := by
  have := h s hs
  rwa [hx] at this

theorem of_error {x : Stateful σ α} (h : Ensures P x Q E) {s t : σ} {code : String}
    (hs : P s) (hx : x s = .error code t) : E t := by
  have := h s hs
  rwa [hx] at this

/-- Where both exits keep the same, the state afterwards has it. -/
theorem after_of {x : Stateful σ α} {I : σ → Prop} (h : Ensures P x (fun _ => I) I) {s : σ}
    (hs : P s) : I (after (x s)) := by
  have hrun := h s hs
  split at hrun
  · rename_i heq
    rw [heq]
    exact hrun
  · rename_i heq
    rw [heq]
    exact hrun

theorem of_after {x : Stateful σ α} {I : σ → Prop} (hx : ∀ s, P s → I (after (x s))) :
    Ensures P x (fun _ => I) I := by
  intro s hs
  have hi := hx s hs
  cases hrun : x s with
  | ok a t => rwa [hrun] at hi
  | error code t => rwa [hrun] at hi

/-- From each state on its own. -/
theorem each {x : Stateful σ α} (hx : ∀ s, P s → Ensures (· = s) x Q E) : Ensures P x Q E :=
  fun s hs => hx s hs s rfl

theorem mono {x : Stateful σ α} (h : Ensures P x Q E) (hP : ∀ s, P' s → P s)
    (hQ : ∀ a s, Q a s → Q' a s) (hE : ∀ s, E s → E' s) : Ensures P' x Q' E' := by
  intro s hs
  have hx := h s (hP s hs)
  split at hx
  · exact hQ _ _ hx
  · exact hE _ hx

theorem ret {a : α} (h : ∀ s, P s → Q a s) : Ensures P (pure a) Q E := h

theorem bind {x : Stateful σ α} {f : α → Stateful σ β} (hx : Ensures P x Q E)
    (hf : ∀ a, Ensures (Q a) (f a) R E) : Ensures P (x >>= f) R E := by
  intro s hs
  have hq := hx s hs
  show match EStateM.bind x f s with | .ok b t => R b t | .error _ t => E t
  rw [EStateM.bind]
  cases hrun : x s with
  | ok a t =>
      rw [hrun] at hq
      exact hf a t hq
  | error code t =>
      rw [hrun] at hq
      exact hq

/-- A guard: the state is untouched, and past it the validator accepted. -/
theorem check_bind {x : Except String α} {f : α → Stateful σ β} (hE : ∀ s, P s → E s)
    (hf : ∀ a, x = .ok a → Ensures P (f a) R E) : Ensures P (check x >>= f) R E := by
  intro s hs
  show match EStateM.bind (check x) f s with | .ok b t => R b t | .error _ t => E t
  cases x with
  | ok a => exact hf a rfl s hs
  | error code => exact hE s hs

theorem check_skip {x : Except String α} {f : α → Stateful σ β} {a : α} (hx : x = .ok a)
    (hf : Ensures P (f a) R E) : Ensures P (check x >>= f) R E := by
  rw [hx]
  exact hf

theorem checked {x : Except String α} (hE : ∀ s, P s → E s)
    (h : ∀ a, x = .ok a → ∀ s, P s → Q a s) : Ensures P (check x) Q E := by
  intro s hs
  cases x with
  | ok a => exact h a rfl s hs
  | error code => exact hE s hs

theorem failed {code : String} (hE : ∀ s, P s → E s) : Ensures P (check (.error code)) Q E := hE

theorem failWhen_bind {p : Prop} [Decidable p] {code : String} {f : Unit → Stateful σ β}
    (hE : ∀ s, P s → E s) (hf : ¬p → Ensures P (f ()) R E) :
    Ensures P (failWhen p code >>= f) R E :=
  check_bind hE fun _ h => hf (failIf_ok_iff.mp h)

theorem failWhen_skip {p : Prop} [Decidable p] {code : String} {f : Unit → Stateful σ β}
    (hp : ¬p) (hf : Ensures P (f ()) R E) : Ensures P (failWhen p code >>= f) R E := by
  rw [failWhen, failIf_of_not code hp]
  exact hf

/-- A read gives the state a name. -/
theorem get_bind {f : σ → Stateful σ β} (hf : ∀ s, P s → Ensures (· = s) (f s) R E) :
    Ensures P (get >>= f) R E := by
  intro s hs
  exact hf s hs s rfl

/-- A read whose value matters, and not that it is the state. -/
theorem get_keep {f : σ → Stateful σ β} (hf : ∀ s, P s → Ensures P (f s) R E) :
    Ensures P (get >>= f) R E :=
  get_bind fun s hs => (hf s hs).mono (fun _ h => h ▸ hs) (fun _ _ h => h) fun _ h => h

theorem write {g : σ → σ} {Q : Unit → σ → Prop} (h : ∀ s, P s → Q () (g s)) :
    Ensures P (modify g) Q E := h

theorem write_bind {g : σ → σ} {f : Unit → Stateful σ β} {Q : σ → Prop}
    (h : ∀ s, P s → Q (g s)) (hf : Ensures Q (f ()) R E) :
    Ensures P (modify g >>= f) R E := by
  intro s hs
  exact hf (g s) (h s hs)

theorem set_bind {u : σ} {f : PUnit → Stateful σ β} {Q : σ → Prop}
    (h : ∀ s, P s → Q u) (hf : Ensures Q (f ⟨⟩) R E) : Ensures P (set u >>= f) R E := by
  intro s hs
  exact hf u (h s hs)

/-- A loop keeps what each of its rounds keeps. -/
theorem forM {I : σ → Prop} {f : α → Stateful σ Unit} : ∀ {as : List α},
    (∀ a ∈ as, Ensures I (f a) (fun _ => I) E) → Ensures I (as.forM f) (fun _ => I) E
  | [], _ => ret fun _ hs => hs
  | a :: as, h => by
      exact bind (h a mem_cons_self) fun _ =>
        forM fun b hb => h b (mem_cons_of_mem a hb)

theorem and {x : Stateful σ α} (h : Ensures P x Q E) (h' : Ensures P' x Q' E') :
    Ensures (fun s => P s ∧ P' s) x (fun a t => Q a t ∧ Q' a t) (fun t => E t ∧ E' t) := by
  intro s hs
  have hleft := h s hs.1
  have hright := h' s hs.2
  split
  · rename_i heq
    rw [heq] at hleft hright
    exact ⟨hleft, hright⟩
  · rename_i heq
    rw [heq] at hleft hright
    exact ⟨hleft, hright⟩

/-- A loop whose rounds each establish something that the later ones keep. -/
theorem forM_each {I : σ → Prop} {D : α → σ → Prop} {f : α → Stateful σ Unit} :
    ∀ {as : List α}, (∀ a ∈ as, Ensures I (f a) (fun _ t => I t ∧ D a t) E) →
      (∀ a ∈ as, ∀ b, Ensures (D b) (f a) (fun _ => D b) (fun _ => True)) →
        Ensures I (as.forM f) (fun _ t => I t ∧ ∀ a ∈ as, D a t) E
  | [], _, _ => ret fun _ hs => ⟨hs, fun _ ha => absurd ha not_mem_nil⟩
  | a :: as, h, hkeep => by
      refine bind (h a mem_cons_self) fun _ => ?_
      have hrest := forM_each (fun b hb => h b (mem_cons_of_mem a hb))
        fun b hb => hkeep b (mem_cons_of_mem a hb)
      have hhead : Ensures (D a) (as.forM f) (fun _ => D a) (fun _ => True) :=
        forM fun b hb => hkeep b (mem_cons_of_mem a hb) a
      refine (hrest.and hhead).mono (fun _ hs => hs) (fun _ _ hs => ⟨hs.1.1, ?_⟩) fun _ hs => hs.1
      exact forall_mem_cons.mpr ⟨hs.2, hs.1.2⟩

end Ensures

/-! ## States that a computation does not tell apart -/

/-- The same end, in the state that `g` makes of it. -/
def mapState (g : σ → σ) : EStateM.Result String σ α → EStateM.Result String σ α
  | .ok a t => .ok a (g t)
  | .error code t => .error code (g t)

/-- The computation does not depend on what `g` changes, and does not change
it. -/
def Commutes (g : σ → σ) (x : Stateful σ α) : Prop := ∀ s, x (g s) = mapState g (x s)

namespace Commutes

variable {g : σ → σ}

theorem ret (a : α) : Commutes g (pure a) := fun _ => rfl

theorem check (x : Except String α) : Commutes g (check x) := fun s => by
  cases x <;> rfl

theorem failWhen (p : Prop) [Decidable p] (code : String) : Commutes g (failWhen p code) := check _

theorem write {w : σ → σ} (h : ∀ s, w (g s) = g (w s)) : Commutes g (modify w) := fun s => by
  rw [modify_run, modify_run, h]
  rfl

theorem bind {x : Stateful σ α} {f : α → Stateful σ β} (hx : Commutes g x)
    (hf : ∀ a, Commutes g (f a)) : Commutes g (x >>= f) := fun s => by
  have hrun := hx s
  cases hend : x s with
  | ok a t =>
      rw [hend] at hrun
      rw [bind_of_ok hend, bind_of_ok hrun]
      exact hf a t
  | error code t =>
      rw [hend] at hrun
      rw [bind_of_error hend, bind_of_error hrun]
      rfl

/-- A read of what `g` leaves. -/
theorem get_bind {f : σ → Stateful σ β} (hsame : ∀ s, f (g s) = f s)
    (hf : ∀ s, Commutes g (f s)) : Commutes g (get >>= f) := fun s => by
  rw [bind_of_ok (get_run (g s)), bind_of_ok (get_run s), hsame]
  exact hf s s

/-- A guard that comes out alike, before what commutes. -/
theorem get_guard {p : σ → Prop} [∀ s, Decidable (p s)] {code : String}
    {f : Unit → Stateful σ β} {s : σ} (hp : p (g s) ↔ p s) (hf : Commutes g (f ())) :
    (get >>= fun s => Attempts.failWhen (p s) code >>= f) (g s)
      = mapState g ((get >>= fun s => Attempts.failWhen (p s) code >>= f) s) := by
  rw [bind_of_ok (get_run (g s)), bind_of_ok (get_run s), failWhen_run, failWhen_run]
  by_cases h : p s
  · rw [if_pos h, if_pos (hp.mpr h)]
    rfl
  · rw [if_neg h, if_neg fun hover => h (hp.mp hover)]
    exact hf s

theorem forM {f : α → Stateful σ Unit} (hf : ∀ a, Commutes g (f a)) :
    ∀ as : List α, Commutes g (as.forM f)
  | [] => ret _
  | a :: as => bind (hf a) fun _ => forM hf as

end Commutes

end Attempts
