import Mathlib.Data.List.Basic

/-!
# Logs

What has happened, in order; a log grows at its end. `Justified` says of every
action that what came before it allows it, and `Lasting` that an action was not
undone by a later one.
-/

namespace Logs

open List

variable {α : Type}

/-- Every action is allowed by those before it. -/
def Justified (ok : List α → α → Prop) (log : List α) : Prop :=
  ∀ before x later, log = before ++ x :: later → ok before x

theorem split_concat {log before later : List α} {x z : α} (h : log ++ [z] = before ++ x :: later) :
    later = [] ∧ before = log ∧ x = z
      ∨ ∃ rest, later = rest ++ [z] ∧ log = before ++ x :: rest := by
  rcases later.eq_nil_or_concat with rfl | ⟨rest, y, rfl⟩
  · left
    obtain ⟨hlog, hx⟩ := append_inj' h rfl
    exact ⟨rfl, hlog.symm, (singleton_inj.mp hx).symm⟩
  · right
    rw [concat_eq_append, ← cons_append, ← append_assoc] at h
    obtain ⟨hlog, hy⟩ := append_inj' h rfl
    obtain rfl := singleton_inj.mp hy
    exact ⟨rest, concat_eq_append, hlog⟩

namespace Justified

variable {ok : List α → α → Prop} {log : List α}

theorem nil : Justified ok ([] : List α) := by
  intro before x later h
  exact absurd h.symm (append_ne_nil_of_right_ne_nil _ (cons_ne_nil _ _))

theorem concat (h : Justified ok log) {z : α} (hz : ok log z) : Justified ok (log ++ [z]) := by
  intro before x later heq
  rcases split_concat heq with ⟨-, rfl, rfl⟩ | ⟨rest, -, hlog⟩
  · exact hz
  · exact h before x rest hlog

theorem append (h : Justified ok log) {xs : List α} (hxs : ∀ x ∈ xs, ∀ before, ok before x) :
    Justified ok (log ++ xs) := by
  induction xs generalizing log with
  | nil => rwa [append_nil]
  | cons z xs ih =>
      rw [append_cons]
      exact ih (h.concat (hxs z mem_cons_self log)) fun x hx =>
        hxs x (mem_cons_of_mem _ hx)

end Justified

/-- The action happened, and `y` has not happened since. -/
def Lasting (log : List α) (x y : α) : Prop :=
  ∃ before later, log = before ++ x :: later ∧ y ∉ later

theorem Lasting.mem {log : List α} {x y : α} (h : Lasting log x y) : x ∈ log := by
  obtain ⟨before, later, rfl, -⟩ := h
  exact mem_append_right _ mem_cons_self

theorem Lasting.concat {log : List α} {x y z : α} (h : Lasting (log ++ [z]) x y) :
    x = z ∨ y ≠ z ∧ Lasting log x y := by
  obtain ⟨before, later, heq, hy⟩ := h
  rcases split_concat heq with ⟨-, -, hx⟩ | ⟨rest, rfl, hlog⟩
  · exact .inl hx
  · rw [mem_append, mem_singleton, not_or] at hy
    exact .inr ⟨hy.2, before, rest, hlog, hy.1⟩

theorem Lasting.append {log xs : List α} {x y : α} (h : Lasting (log ++ xs) x y) :
    x ∈ xs ∨ y ∉ xs ∧ Lasting log x y := by
  induction xs generalizing log with
  | nil =>
      rw [append_nil] at h
      exact .inr ⟨not_mem_nil, h⟩
  | cons z xs ih =>
      rw [append_cons] at h
      rcases ih h with hx | ⟨hy, h⟩
      · exact .inl (mem_cons_of_mem _ hx)
      · rcases h.concat with rfl | ⟨hne, h⟩
        · exact .inl mem_cons_self
        · exact .inr ⟨not_mem_cons_of_ne_of_not_mem hne hy, h⟩

end Logs
