import Mathlib.Data.List.Basic
import Mathlib.Order.Lattice

/-!
# Runs of a labelled transition relation

A system is a relation `step s e t` ("event `e` takes `s` to `t`"); nothing
here knows what the states or the events are. `Path` is a finite run with
its event list, and the rules below are the ones a safety proof applies:
an invariant from one step, a preorder between the ends of a run from the
same preorder across one step, and the strict version when some step of
the run is known to move.

`Guarded` restricts a system to the steps that meet a condition, and
`Clocked` pairs the states with the time of the last event, so that a run
with non-decreasing times is an ordinary path.
-/

namespace Runs

open List

variable {σ ε : Type}

/-- The runs of `step`, with the events taken in order. -/
inductive Path (step : σ → ε → σ → Prop) : σ → List ε → σ → Prop
  | nil (s : σ) : Path step s [] s
  | cons {s t u : σ} {e : ε} {es : List ε} :
      step s e t → Path step t es u → Path step s (e :: es) u

variable {s t : σ} {step : σ → ε → σ → Prop}

theorem Path.single {e : ε} (h : step s e t) : Path step s [e] t := .cons h (.nil t)

variable {es : List ε}

theorem Path.append {u : σ} {fs : List ε}
    (h₁ : Path step s es t) (h₂ : Path step t fs u) : Path step s (es ++ fs) u := by
  induction h₁ with
  | nil s => exact h₂
  | cons hstep _ ih => exact .cons hstep (ih h₂)

/-- The run of a step function. -/
theorem Path.foldl (f : σ → ε → σ) : ∀ (es : List ε) (s : σ),
    Path (fun s e t => t = f s e) s es (es.foldl f s)
  | [], s => .nil s
  | e :: es, s => .cons rfl (.foldl f es (f s e))

/-- A run over a concatenation of events passes through a middle state. -/
theorem Path.split {step : σ → ε → σ → Prop} : ∀ {es fs : List ε} {s u : σ},
    Path step s (es ++ fs) u → ∃ t, Path step s es t ∧ Path step t fs u
  | [], _, s, _, h => ⟨s, .nil s, h⟩
  | e :: es, fs, s, u, h => by
      cases h with
      | cons hstep hrest =>
          obtain ⟨t, h₁, h₂⟩ := Path.split hrest
          exact ⟨t, .cons hstep h₁, h₂⟩

theorem Path.mono {step' : σ → ε → σ → Prop} (h : ∀ {s e t}, step s e t → step' s e t)
    (hp : Path step s es t) : Path step' s es t := by
  induction hp with
  | nil s => exact .nil s
  | cons hstep _ ih => exact .cons (h hstep) ih

/-- What holds of all events of a run holds at each of its steps. -/
theorem Path.with_events {P : ε → Prop} (hp : Path step s es t) (h : ∀ e ∈ es, P e) :
    Path (fun s e t => P e ∧ step s e t) s es t := by
  induction hp with
  | nil s => exact .nil s
  | cons hstep _ ih =>
      rw [forall_mem_cons] at h
      exact .cons ⟨h.1, hstep⟩ (ih h.2)

/-- **Invariant rule.** What every step keeps, every run keeps. -/
theorem Path.inv {I : σ → Prop} (hstep : ∀ {s e t}, step s e t → I s → I t)
    (hp : Path step s es t) (hs : I s) : I t := by
  induction hp with
  | nil s => exact hs
  | cons h _ ih => exact ih (hstep h hs)

/-- **Progress rule.** A reflexive, transitive relation that holds across
every step holds between the ends of every run. -/
theorem Path.rel {R : σ → σ → Prop} (hrefl : ∀ s, R s s) (htrans : ∀ {s t u}, R s t → R t u → R s u)
    (hstep : ∀ {s e t}, step s e t → R s t) (hp : Path step s es t) : R s t := by
  induction hp with
  | nil s => exact hrefl s
  | cons h _ ih => exact htrans (hstep h) ih

/-- **History rule.** A property of the events so far and the state they lead
to, by induction on the last event. -/
theorem Path.history {J : List ε → σ → Prop} (hnil : J [] s)
    (hsnoc : ∀ {es t e u}, Path step s es t → J es t → step t e u → J (es ++ [e]) u)
    (hp : Path step s es t) : J es t := by
  have hgo : ∀ {t u : σ} {fs : List ε}, Path step t fs u →
      ∀ es, Path step s es t → J es t → J (es ++ fs) u := by
    intro t u fs h
    induction h with
    | nil t =>
        intro es _ hj
        rwa [append_nil]
    | cons hstep _ ih =>
        intro es hes hj
        rw [append_cons]
        exact ih _ (hes.append (.single hstep)) (hsnoc hes hj hstep)
  exact hgo hp [] (.nil s) hnil

/-- The run takes a step with the property `Q` somewhere on the way. -/
def Through (step : σ → ε → σ → Prop) (Q : σ → ε → Prop)
    (s : σ) (es : List ε) (u : σ) : Prop :=
  ∃ t e t' es₁ es₂, es = es₁ ++ e :: es₂ ∧ Path step s es₁ t ∧ step t e t' ∧ Q t e
    ∧ Path step t' es₂ u

theorem Through.last {Q : σ → ε → Prop} {u : σ}
    {e : ε} (hp : Path step s es t) (hstep : step t e u) (hq : Q t e) :
    Through step Q s (es ++ [e]) u :=
  ⟨t, e, u, es, [], rfl, hp, hstep, hq, .nil u⟩

theorem Through.snoc {Q : σ → ε → Prop} {u : σ}
    {e : ε} (h : Through step Q s es t) (hstep : step t e u) :
    Through step Q s (es ++ [e]) u := by
  obtain ⟨v, e₁, v', es₁, es₂, rfl, h₁, hstep₁, hq, h₂⟩ := h
  exact ⟨v, e₁, v', es₁, es₂ ++ [e], by simp, h₁, hstep₁, hq, h₂.append (.single hstep)⟩

/-- The run of a function that may refuse an event. -/
def play (next : σ → ε → Option σ) (es : List ε) (s : σ) : Option σ := es.foldlM next s

theorem Path.of_play {next : σ → ε → Option σ} : ∀ {es : List ε} {s t : σ},
    play next es s = some t → Path (fun s e t => next s e = some t) s es t
  | [], s, t, h => by
      cases h
      exact .nil s
  | e :: es, s, t, h => by
      rw [play, foldlM_cons, Option.bind_eq_bind, Option.bind_eq_some_iff] at h
      obtain ⟨u, hu, hrest⟩ := h
      exact .cons hu (.of_play hrest)

/-! ## Restricted systems -/

/-- The steps of a system that meet a condition on state and event. -/
def Guarded (step : σ → ε → σ → Prop) (ok : σ → ε → Prop) : σ → ε → σ → Prop :=
  fun s e t => step s e t ∧ ok s e

theorem Path.unguarded {ok : σ → ε → Prop} (h : Path (Guarded step ok) s es t) : Path step s es t :=
  h.mono And.left

/-- The steps of a step function all meet a condition. -/
def along (f : σ → ε → σ) (ok : σ → ε → Prop) [∀ s e, Decidable (ok s e)] : List ε → σ → Bool
  | [], _ => true
  | e :: es, s => decide (ok s e) && along f ok es (f s e)

theorem Path.guarded_foldl (f : σ → ε → σ) (ok : σ → ε → Prop) [∀ s e, Decidable (ok s e)] :
    ∀ (es : List ε) (s : σ), along f ok es s = true →
      Path (Guarded (fun s e t => t = f s e) ok) s es (es.foldl f s)
  | [], s, _ => .nil s
  | e :: es, s, h => by
      rw [along, Bool.and_eq_true, decide_eq_true_eq] at h
      exact .cons ⟨rfl, h.1⟩ (.guarded_foldl f ok es (f s e) h.2)

/-! ## Time -/

/-- A system whose states carry the time of the last event; an event may
only happen at or after it. -/
def Clocked (step : σ → ε → σ → Prop) (time : ε → Nat) :
    σ × Nat → ε → σ × Nat → Prop :=
  fun s e t => step s.1 e t.1 ∧ s.2 ≤ time e ∧ t.2 = time e

theorem Path.unclocked {time : ε → Nat} {s t : σ × Nat}
    (h : Path (Clocked step time) s es t) : Path step s.1 es t.1 := by
  induction h with
  | nil s => exact .nil s.1
  | cons hstep _ ih => exact .cons hstep.1 ih

theorem Path.tick {time : ε → Nat} {e : ε}
    (h : step s e t) : Path (Clocked step time) (s, time e) [e] (t, time e) :=
  .single ⟨h, Nat.le_refl _, rfl⟩

/-- A run whose events come in the order of their times. -/
theorem Path.clocked_foldl (f : σ → ε → σ) (time : ε → Nat) : ∀ (es : List ε) (s : σ) (now : Nat),
    List.IsChain (· ≤ ·) (now :: es.map time) →
      Path (Clocked (fun s e t => t = f s e) time) (s, now) es
        (es.foldl f s, (es.map time).getLastD now)
  | [], s, now, _ => .nil (s, now)
  | e :: es, s, now, h => by
      obtain ⟨hle, hrest⟩ := isChain_cons_cons.mp h
      refine .cons (t := (f s e, time e)) ⟨rfl, hle, rfl⟩ ?_
      rw [map_cons, getLastD_cons]
      exact .clocked_foldl f time es (f s e) (time e) hrest

/-- **Clock rule.** A system that reads a clock with some of its events, and
goes on only where the reading is not before the last one it kept: along a
run that is still live the readings do not decrease. -/
theorem Path.readings {τ : Type} [LinearOrder τ] (live : σ → Prop)
    (last : σ → τ) (reading : ε → Option τ) (hlive : ∀ {s e t}, step s e t → live t → live s)
    (hread : ∀ {s e t now}, step s e t → live t → reading e = some now →
      last s ≤ now ∧ last t = now)
    (hskip : ∀ {s e t}, step s e t → live t → reading e = none → last t = last s)
    (hp : Path step s es t) (ht : live t) :
    live s ∧ (last s :: es.filterMap reading).Pairwise (· ≤ ·)
      ∧ ∀ now ∈ last s :: es.filterMap reading, now ≤ last t := by
  induction hp with
  | nil s => exact ⟨ht, pairwise_singleton _ _, by simp⟩
  | @cons s u t e es hstep _ ih =>
      obtain ⟨hu, hchain, hbound⟩ := ih ht
      refine ⟨hlive hstep hu, ?_⟩
      cases hreading : reading e with
      | none =>
          rw [hskip hstep hu hreading] at hchain hbound
          rw [filterMap_cons_none hreading]
          exact ⟨hchain, hbound⟩
      | some now =>
          obtain ⟨hle, heq⟩ := hread hstep hu hreading
          rw [heq] at hchain hbound
          rw [filterMap_cons_some hreading]
          have hfirst : ∀ m ∈ now :: es.filterMap reading, last s ≤ m := by
            intro m hm
            rcases mem_cons.mp hm with rfl | hm
            · exact hle
            · exact le_trans hle (rel_of_pairwise_cons hchain hm)
          refine ⟨pairwise_cons.mpr ⟨hfirst, hchain⟩, fun m hm => ?_⟩
          rcases mem_cons.mp hm with rfl | hm
          · exact le_trans hle (hbound now mem_cons_self)
          · exact hbound m hm

end Runs
