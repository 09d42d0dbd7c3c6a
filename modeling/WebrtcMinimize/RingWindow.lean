import Mathlib.Data.List.Range

/-!
# A ring that holds a window of a timeline

`ring` is a list whose length is its capacity; position `p` of an unbounded
timeline lives in slot `p % ring.length`. `Holds ring c f` says that the
ring has the timeline `f` on the window that starts at `c` and is one
capacity long. Two positions of a window never share a slot
(`mod_injOn`), so a store inside the window changes the timeline exactly
where it is made, and draining the front of the window and clearing it
moves the window on: what comes in at the far end is clear.
-/

namespace RingWindow

open List Nat

variable {α : Type}

/-- Positions less than a capacity apart have different slots. -/
theorem mod_injOn {n c p q : Nat} (hp : c ≤ p) (hp' : p < c + n) (hq : c ≤ q) (hq' : q < c + n)
    (h : p % n = q % n) : p = q := by
  rcases le_total p q with hle | hle
  · have hdvd : n ∣ q - p := dvd_of_mod_eq_zero (sub_mod_eq_zero_of_mod_eq h.symm)
    have := eq_zero_of_dvd_of_lt hdvd (by omega)
    omega
  · have hdvd : n ∣ p - q := dvd_of_mod_eq_zero (sub_mod_eq_zero_of_mod_eq h)
    have := eq_zero_of_dvd_of_lt hdvd (by omega)
    omega

/-- The ring has `f` on the window from `c`. -/
def Holds (ring : List α) (c : Nat) (f : Nat → α) : Prop :=
  ∀ p, c ≤ p → p < c + ring.length → ring[p % ring.length]? = some (f p)

/-- One store. -/
def put (ring : List α) (p : Nat) (x : α) : List α :=
  ring.set (p % ring.length) x

@[simp] theorem put_length (ring : List α) (p : Nat) (x : α) :
    (put ring p x).length = ring.length := length_set

theorem Holds.put {ring : List α} {c p : Nat} {f : Nat → α} (h : Holds ring c f) (hp : c ≤ p)
    (hp' : p < c + ring.length) (x : α) :
    Holds (put ring p x) c fun q => if q = p then x else f q := by
  intro q hq hq'
  rw [put_length] at hq' ⊢
  have hlt : p % ring.length < ring.length := mod_lt p (by omega)
  by_cases heq : q = p
  · subst heq
    simp [RingWindow.put, hlt]
  · have hne : p % ring.length ≠ q % ring.length :=
      fun hmod => heq (mod_injOn hp hp' hq hq' hmod).symm
    simp only [RingWindow.put, getElem?_set, hne, if_false, heq]
    exact h q hq hq'

/-- Stores at consecutive positions. -/
def store (ring : List α) (p : Nat) : List α → List α
  | [] => ring
  | x :: xs => store (put ring p x) (p + 1) xs

@[simp] theorem store_length (ring : List α) (p : Nat) (xs : List α) :
    (store ring p xs).length = ring.length := by
  induction xs generalizing ring p with
  | nil => rfl
  | cons x xs ih => rw [store, ih, put_length]

/-- The timeline after a store. -/
def overwrite (f : Nat → α) (p : Nat) (xs : List α) : Nat → α :=
  fun q => if p ≤ q then (xs[q - p]?).getD (f q) else f q

theorem overwrite_of_lt (f : Nat → α) {p q : Nat} (xs : List α) (h : q < p) :
    overwrite f p xs q = f q := by
  rw [overwrite, if_neg (by omega)]

theorem overwrite_of_mem (f : Nat → α) {p q : Nat} {xs : List α} (h : p ≤ q)
    (h' : q - p < xs.length) : overwrite f p xs q = xs[q - p] := by
  rw [overwrite, if_pos h, getElem?_eq_getElem h']
  rfl

theorem Holds.store {ring : List α} {c p : Nat} {f : Nat → α} {xs : List α}
    (h : Holds ring c f) (hp : c ≤ p) (hp' : p + xs.length ≤ c + ring.length) :
    Holds (store ring p xs) c (overwrite f p xs) := by
  induction xs generalizing ring p f with
  | nil =>
      intro q hq hq'
      rw [overwrite_eq_self]
      exact h q hq hq'
  | cons x xs ih =>
      rw [length_cons] at hp'
      have hput := h.put hp (by omega) x
      have hrest := ih (p := p + 1) hput (by omega) (by rw [put_length]; omega)
      intro q hq hq'
      rw [RingWindow.store] at hq' ⊢
      rw [hrest q hq hq']
      congr 1
      rcases lt_trichotomy q p with hlt | rfl | hgt
      · rw [overwrite_of_lt _ _ (by omega), overwrite_of_lt _ _ hlt, if_neg (by omega)]
      · rw [overwrite_of_lt _ _ (by omega), if_pos rfl, overwrite_of_mem f (le_refl q) (by simp)]
        simp
      · have hsub : q - p = (q - (p + 1)) + 1 := by omega
        have hnext : p + 1 ≤ q := hgt
        have hne : ¬q = p := by omega
        simp only [overwrite, hnext, hgt.le, hne, if_true, if_false, hsub, getElem?_cons_succ]
where
  overwrite_eq_self {f : Nat → α} {p q : Nat} : overwrite f p [] q = f q := by
    simp [overwrite]

/-- Read `n` positions from `p` on and clear each one after it was read. -/
def drain (clear : α) : Nat → Nat → List α → List α × List α
  | 0, _, ring => ([], ring)
  | n + 1, p, ring =>
      let rest := drain clear n (p + 1) (put ring p clear)
      ((ring[p % ring.length]?).getD clear :: rest.1, rest.2)

@[simp] theorem drain_length (clear : α) (n p : Nat) (ring : List α) :
    (drain clear n p ring).2.length = ring.length := by
  induction n generalizing p ring with
  | zero => rfl
  | succ n ih => rw [drain, ih, put_length]

/-- **Draining.** The first `n` positions of the window are read in order,
and the window that starts after them is clear at its far end. -/
theorem Holds.drain {ring : List α} {c n : Nat} {f : Nat → α} (h : Holds ring c f)
    (hn : n ≤ ring.length) (clear : α) (hclear : ∀ p, c + ring.length ≤ p → f p = clear) :
    (drain clear n c ring).1 = (range n).map (fun i => f (c + i))
    ∧ Holds (drain clear n c ring).2 (c + n) f := by
  have hgo : ∀ {n p : Nat} {ring : List α} {g : Nat → α}, c ≤ p →
      p + n ≤ c + ring.length → Holds ring c g →
      (∀ q, c + ring.length ≤ q → g q = clear) →
      (RingWindow.drain clear n p ring).1 = (range n).map (fun i => g (p + i))
      ∧ Holds (RingWindow.drain clear n p ring).2 c
        (fun q => if p ≤ q ∧ q < p + n then clear else g q) := by
    intro n
    induction n with
    | zero =>
        intro p ring g _ _ hg _
        refine ⟨rfl, fun q hq hq' => ?_⟩
        show ring[q % ring.length]? = some (if p ≤ q ∧ q < p + 0 then clear else g q)
        rw [if_neg (by omega)]
        exact hg q hq hq'
    | succ n ih =>
        intro p ring g hp hp' hg hfar
        have hput := hg.put hp (by omega) clear
        obtain ⟨hxs, hring⟩ := ih (p := p + 1) (by omega) (by rw [put_length]; omega) hput (by
            intro q hq
            rw [put_length] at hq
            rw [if_neg (by omega)]
            exact hfar q hq)
        constructor
        · simp only [RingWindow.drain, hxs, range_succ_eq_map, map_cons, map_map,
            hg p hp (by omega), Option.getD_some, Nat.add_zero]
          congr 1
          refine map_congr_left fun i _ => ?_
          rw [Function.comp_apply, if_neg (by omega)]
          congr 1
          omega
        · intro q hq hq'
          rw [RingWindow.drain, hring q hq hq']
          congr 1
          dsimp only
          by_cases hin : p + 1 ≤ q ∧ q < p + 1 + n
          · rw [if_pos hin, if_pos (by omega)]
          · rw [if_neg hin]
            by_cases heq : q = p
            · rw [if_pos heq, if_pos (by omega)]
            · rw [if_neg heq, if_neg (by omega)]
  obtain ⟨hread, hring⟩ := hgo (n := n) (le_refl c) (by omega) h hclear
  refine ⟨hread, fun q hq hq' => ?_⟩
  rw [drain_length] at hq' ⊢
  by_cases hold : q < c + ring.length
  · have hkept := hring q (by omega) (by rw [drain_length]; exact hold)
    dsimp only at hkept
    rw [drain_length, if_neg (by omega)] at hkept
    exact hkept
  · -- the far end of the new window is where the front of the old one was
    have hfront := hring (q - ring.length) (by omega) (by rw [drain_length]; omega)
    have hmod : q % ring.length = (q - ring.length) % ring.length := (mod_eq_sub_mod (by omega))
    dsimp only at hfront
    rw [drain_length, if_pos (by omega)] at hfront
    rw [hmod, hfront, hclear q (by omega)]

/-- A clear ring holds the clear timeline. -/
theorem holds_replicate (n c : Nat) (clear : α) : Holds (replicate n clear) c fun _ => clear := by
  intro p hp hp'
  rw [length_replicate] at hp' ⊢
  rw [getElem?_replicate, if_pos (mod_lt p (by omega))]

/-- Only the window matters. -/
theorem Holds.congr {ring : List α} {c : Nat} {f g : Nat → α} (h : Holds ring c f)
    (hfg : ∀ p, c ≤ p → f p = g p) : Holds ring c g := by
  intro p hp hp'
  rw [← hfg p hp]
  exact h p hp hp'

end RingWindow
