import WebrtcMinimize.PeerResets
import WebrtcMinimize.Runs

/-!
# Resets on both sides

Each side rebuilds at most once in its cooldown, in every run. While answers come
before the cooldown is over, every marker goes back to a conflict. While they come
in time, and no request meets a side that is cooling down, both sides have rebuilt
equally often whenever nothing is on its way, and what a connection applies comes
from the connection that was rebuilt with it.
-/

namespace WebrtcMinimize

namespace PeerResets

open Runs Pair List Option Side Manager Nat Action

def Step (p : Pair) (e : Event) (t : Pair) : Prop := t = p.next e

/-! ## Sides -/

@[simp] theorem Side.other_other (x : Side) : x.other.other = x := by
  cases x <;> rfl

@[simp] theorem Side.other_ne (x : Side) : x.other ≠ x := by
  cases x <;> exact noConfusion

@[simp] theorem Side.ne_other (x : Side) : x ≠ x.other := (other_ne x).symm

theorem Side.eq_or_other (x y : Side) : y = x ∨ y = x.other := by
  cases x <;> cases y <;> simp [other]

theorem Side.forall {P : Side → Prop} (x : Side) (h : P x) (ho : P x.other) (y : Side) : P y := by
  rcases x.eq_or_other y with rfl | rfl
  · exact h
  · exact ho

section Parts

variable {p : Pair} {x y : Side}

@[simp] theorem setManager_self (m : Manager) : (p.setManager x m).manager x = m :=
  Function.update_self _ _ _

theorem setManager_of_ne (m : Manager) (h : y ≠ x) : (p.setManager x m).manager y = p.manager y :=
  Function.update_of_ne h _ _

@[simp] theorem setManager_other (m : Manager) :
    (p.setManager x m).manager x.other = p.manager x.other := setManager_of_ne m x.other_ne

@[simp] theorem signal_other (s : Signal) : (p.signal x s).channel x.other = p.channel x.other ++ [s] :=
  Function.update_self _ _ _

@[simp] theorem signal_self (s : Signal) : (p.signal x s).channel x = p.channel x :=
  Function.update_of_ne x.ne_other _ _

@[simp] theorem take_self (rest : List Signal) : (p.take x rest).channel x = rest :=
  Function.update_self _ _ _

@[simp] theorem take_other (rest : List Signal) :
    (p.take x rest).channel x.other = p.channel x.other := Function.update_of_ne x.other_ne _ _

/-! A rebuild. -/

section

variable (answer : Bool)

@[simp] theorem rebuild_self :
    (p.rebuild x answer).manager x = (p.manager x).recreatePeer p.now := Function.update_self _ _ _

theorem rebuild_of_ne (h : y ≠ x) : (p.rebuild x answer).manager y = p.manager y :=
  Function.update_of_ne h _ _

@[simp] theorem rebuild_channel :
    (p.rebuild x answer).channel x = p.channel x := signal_self _

@[simp] theorem rebuild_channel_other :
    (p.rebuild x answer).channel x.other = p.channel x.other ++ [.marker answer] := signal_other _

@[simp] theorem rebuild_log :
    (p.rebuild x answer).log = p.log ++ [.rebuilt x p.now answer] := rfl

end

end Parts

/-! ## The cooldown -/

theorem rebuiltAt_self (x : Side) (time : Nat) (answer : Bool) :
    rebuiltAt x (.rebuilt x time answer) = some time := if_pos rfl

theorem rebuiltAt_of_ne {x y : Side} (h : y ≠ x) (time : Nat) (answer : Bool) :
    rebuiltAt y (.rebuilt x time answer) = none := if_neg (Ne.symm h)

def Pair.resetAt (p : Pair) (x : Side) : Option Nat := (p.manager x).reset.map PeerResetState.resetAt

/-- The rebuilds of a side are a cooldown apart, and the last one is remembered. -/
structure Spaced (p : Pair) (x : Side) : Prop where
  apart : (p.rebuilds x).Pairwise fun t u => t + cooldownMs ≤ u
  before : ∀ t ∈ p.rebuilds x, ∃ last, p.resetAt x = some last ∧ t ≤ last
  past : ∀ last, p.resetAt x = some last → last ≤ p.now

section Cooldown

variable {p t : Pair} {x : Side}

theorem Spaced.congr (h : Spaced p x) (hlog : t.rebuilds x = p.rebuilds x)
    (hreset : t.resetAt x = p.resetAt x) (hnow : p.now ≤ t.now) : Spaced t x := by
  refine ⟨?_, ?_, ?_⟩
  · rw [hlog]
    exact h.apart
  · rw [hlog, hreset]
    exact h.before
  · rw [hreset]
    exact fun last hlast => le_trans (h.past last hlast) hnow

theorem Spaced.setManager (h : ∀ y, Spaced p y) (m : Manager)
    (hm : m.reset.map PeerResetState.resetAt = p.resetAt x) (y : Side) :
    Spaced (p.setManager x m) y := by
  refine (h y).congr rfl ?_ (le_refl _)
  by_cases hyx : y = x
  · subst hyx
    rw [resetAt, setManager_self]
    exact hm
  · rw [resetAt, setManager_of_ne m hyx]
    rfl

theorem Spaced.rebuild (h : ∀ y, Spaced p y) (hcool : (p.manager x).coolingDown p.now = false)
    (answer : Bool) (y : Side) : Spaced (p.rebuild x answer) y := by
  by_cases hyx : y = x
  · subst hyx
    have hrebuilds : (p.rebuild y answer).rebuilds y = p.rebuilds y ++ [p.now] := by
      rw [rebuilds, rebuild_log, filterMap_append,
        filterMap_cons_some (rebuiltAt_self y p.now answer)]
      rfl
    have hreset : (p.rebuild y answer).resetAt y = some p.now := by
      rw [resetAt, rebuild_self]
      rfl
    have hlong : ∀ t ∈ p.rebuilds y, t + cooldownMs ≤ p.now := by
      intro t ht
      obtain ⟨last, hlast, hle⟩ := (h y).before t ht
      have hpast := (h y).past last hlast
      obtain ⟨r, hr, rfl⟩ := map_eq_some_iff.mp hlast
      rw [coolingDown, hr, any_some, decide_eq_false_iff_not] at hcool
      omega
    refine ⟨?_, ?_, ?_⟩
    · rw [hrebuilds, pairwise_append]
      refine ⟨(h y).apart, pairwise_singleton _ _, fun t ht u hu => ?_⟩
      rw [mem_singleton.mp hu]
      exact hlong t ht
    · rw [hrebuilds, hreset]
      intro t ht
      refine ⟨p.now, rfl, ?_⟩
      rcases mem_append.mp ht with ht | ht
      · exact le_trans (le_add_right _ _) (hlong t ht)
      · exact le_of_eq (mem_singleton.mp ht)
    · rw [hreset]
      intro last hlast
      exact le_of_eq (some.inj hlast).symm
  · refine (h y).congr ?_ ?_ (le_refl _)
    · rw [rebuilds, rebuild_log, filterMap_append,
        filterMap_cons_none (rebuiltAt_of_ne hyx p.now answer), filterMap_nil,
        append_nil]
      rfl
    · rw [resetAt, rebuild_of_ne answer hyx]
      rfl

theorem resetAt_setAwaiting (m : Manager) (n : Nat) :
    (m.setAwaiting n).reset.map PeerResetState.resetAt = m.reset.map PeerResetState.resetAt := by
  rw [setAwaiting, Option.map_map]
  rfl

theorem Spaced.initiate (h : ∀ y, Spaced p y) (y : Side) : Spaced (p.initiatePeerReset x) y := by
  unfold initiatePeerReset
  split
  · exact h y
  · rename_i hcool
    rw [Bool.not_eq_true] at hcool
    exact Spaced.setManager (Spaced.rebuild h hcool false) _ (resetAt_setAwaiting _ _) y

theorem Spaced.accept (h : ∀ y, Spaced p y) (y : Side) : Spaced (p.acceptPeerReset x) y := by
  unfold acceptPeerReset
  split
  · exact Spaced.setManager h _ (resetAt_setAwaiting _ _) y
  · split
    · exact h y
    · rename_i hcool
      rw [Bool.not_eq_true] at hcool
      exact Spaced.rebuild h hcool true y

theorem Spaced.next (h : ∀ y, Spaced p y) (e : Event) (y : Side) : Spaced (p.next e) y := by
  cases e with
  | conflict x => exact Spaced.initiate (x := x) (Spaced.setManager h { p.manager x with dtlsConflict := true } rfl) y
  | recover x connected =>
      show Spaced (p.recover x connected) y
      unfold recover
      split
      · exact h y
      · exact Spaced.initiate h y
  | send x => exact (h y).congr rfl rfl (le_refl _)
  | deliver x =>
      rw [Pair.next]
      split
      · exact h y
      · rename_i s rest _
        have htaken : ∀ z, Spaced (p.take x rest) z := fun z =>
          (h z).congr rfl rfl (le_refl _)
        cases s with
        | marker answer => exact Spaced.accept htaken y
        | ordinary generation =>
            unfold acceptSignal
            dsimp only
            split
            · exact htaken y
            · refine Spaced.setManager htaken _ ?_ y
              rfl
  | apply x =>
      show Spaced (p.applySignal x) y
      unfold applySignal
      split
      · exact h y
      · rename_i sender receiver rest _
        have htaken : ∀ z, Spaced (p.setManager x { p.manager x with signalQueue := rest }) z :=
          Spaced.setManager h _ rfl
        split
        · exact htaken y
        · refine (htaken y).congr ?_ rfl (le_refl _)
          rw [rebuilds, record, filterMap_append]
          exact append_nil _
  | tick ms => exact (h y).congr rfl rfl (le_add_right _ _)

theorem start_spaced (now : Nat) (y : Side) : Spaced (start now) y := by
  refine ⟨.nil, ?_, ?_⟩
  · exact fun t ht => absurd ht not_mem_nil
  · intro last hlast
    cases hlast

theorem spaced_of_path {now : Nat} {es : List Event} (h : Path Step (start now) es p) (y : Side) :
    Spaced p y := by
  refine h.inv (I := fun p => ∀ y, Spaced p y) ?_ (start_spaced now) y
  rintro p e t rfl h
  exact Spaced.next h e

end Cooldown

/-! ## Answers -/

/-- No answer meets a side that is through with its cooldown. -/
def Answered (p : Pair) : Event → Prop
  | .deliver x => (p.channel x).head? = some (.marker true) →
      (p.manager x).awaitingPeerReset p.now = true ∨ (p.manager x).coolingDown p.now = true
  | _ => True

/-- The requests that are on their way. -/
def Pair.requests (p : Pair) : Nat :=
  (p.channel .left).count (.marker false) + (p.channel .right).count (.marker false)

def Manager.conflicting (m : Manager) : Nat := if m.dtlsConflict = true then 1 else 0

/-- The sides whose transport is known to be in conflict. -/
def Pair.conflicting (p : Pair) : Nat :=
  (p.manager .left).conflicting + (p.manager .right).conflicting

/-- Answers go back to requests, and requests to conflicts. -/
structure Counted (n : Nat) (p : Pair) : Prop where
  answers : p.markers true + p.requests ≤ p.markers false
  requests : p.markers false + p.conflicting ≤ n

section Answers

variable {p t : Pair} {x : Side} {n : Nat}

theorem requests_eq (p : Pair) (x : Side) : p.requests
    = (p.channel x).count (.marker false) + (p.channel x.other).count (.marker false) := by
  cases x
  · rfl
  · exact Nat.add_comm _ _

theorem conflicting_eq (p : Pair) (x : Side) : p.conflicting
    = (p.manager x).conflicting + (p.manager x.other).conflicting := by
  cases x
  · rfl
  · exact Nat.add_comm _ _

theorem conflicting_le (m : Manager) : m.conflicting ≤ 1 := by
  unfold Manager.conflicting
  split
  · exact le_refl 1
  · exact zero_le 1

theorem markers_rebuild (answer answer' : Bool) : (p.rebuild x answer).markers answer'
    = p.markers answer' + if answer = answer' then 1 else 0 := by
  rw [markers, rebuild_log, countP_append, countP_singleton]
  simp only [beq_iff_eq]
  rfl

theorem requests_rebuild (answer : Bool) : (p.rebuild x answer).requests
    = p.requests + if answer = false then 1 else 0 := by
  rw [requests_eq _ x, requests_eq p x, rebuild_channel, rebuild_channel_other, count_append,
    count_singleton, Nat.add_assoc]
  cases answer <;> rfl

theorem conflicting_rebuild (answer : Bool) : (p.rebuild x answer).conflicting
    = (p.manager x.other).conflicting := by
  rw [conflicting_eq _ x, rebuild_self, rebuild_of_ne answer x.other_ne]
  exact Nat.zero_add _

theorem conflicting_setManager (m : Manager) : (p.setManager x m).conflicting
    = m.conflicting + (p.manager x.other).conflicting := by
  rw [conflicting_eq _ x, setManager_self, setManager_other]

section

variable (h : Counted n p)

include h

theorem Counted.initiate (hconflict : (p.manager x).dtlsConflict = true) :
    Counted n (p.initiatePeerReset x) := by
  unfold initiatePeerReset
  split
  · exact h
  · have hone : (p.manager x).conflicting = 1 := if_pos hconflict
    have hanswers := h.answers
    have hrequests := h.requests
    rw [conflicting_eq p x, hone] at hrequests
    refine ⟨?_, ?_⟩
    · show (p.rebuild x false).markers true + (p.rebuild x false).requests
        ≤ (p.rebuild x false).markers false
      rw [markers_rebuild, markers_rebuild, requests_rebuild, if_neg Bool.false_ne_true, if_pos rfl]
      omega
    · show (p.rebuild x false).markers false + _ ≤ n
      rw [markers_rebuild, if_pos rfl, conflicting_setManager, rebuild_of_ne false x.other_ne]
      have hnone : (((p.rebuild x false).manager x).setAwaiting (p.now + ackTimeoutMs)).conflicting
          = 0 := by
        rw [rebuild_self]
        rfl
      omega

theorem Counted.congr (hmarkers : ∀ answer, t.markers answer = p.markers answer)
    (hrequests : t.requests = p.requests) (hconflicting : t.conflicting = p.conflicting) :
    Counted n t := by
  refine ⟨?_, ?_⟩
  · rw [hmarkers, hmarkers, hrequests]
    exact h.answers
  · rw [hmarkers, hconflicting]
    exact h.requests

theorem Counted.accept {answer : Bool} {rest : List Signal}
    (hs : p.channel x = .marker answer :: rest)
    (hanswered : answer = true → (p.manager x).awaitingPeerReset p.now = true
      ∨ (p.manager x).coolingDown p.now = true) : Counted n ((p.take x rest).acceptPeerReset x) := by
  have hanswers := h.answers
  have hrequests := h.requests
  have hcount : (p.take x rest).requests + (if answer = false then 1 else 0) = p.requests := by
    rw [requests_eq _ x, requests_eq p x, take_self, take_other, hs, count_cons]
    cases answer
    · simp only [if_true, beq_self_eq_true]
      omega
    · rfl
  have hfewer : Counted n (p.take x rest) := by
    refine ⟨?_, hrequests⟩
    show p.markers true + _ ≤ p.markers false
    omega
  unfold acceptPeerReset
  split
  · refine hfewer.congr (fun _ => rfl) rfl ?_
    rw [conflicting_setManager, conflicting_eq _ x]
    rfl
  · rename_i hawaits
    split
    · exact hfewer
    · rename_i hcools
      -- only a request is answered
      have hrequest : answer = false := by
        refine Bool.eq_false_iff.mpr fun htrue => ?_
        rcases hanswered htrue with hyes | hyes
        · exact hawaits hyes
        · exact hcools hyes
      have htrue : (p.take x rest).markers true = p.markers true := rfl
      have hfalse : (p.take x rest).markers false = p.markers false := rfl
      have hrest : (p.take x rest).manager x.other = p.manager x.other := rfl
      rw [if_pos hrequest] at hcount
      rw [conflicting_eq p x] at hrequests
      refine ⟨?_, ?_⟩
      · rw [markers_rebuild, markers_rebuild, requests_rebuild, htrue, hfalse]
        simp only [if_true, Bool.true_eq_false, if_false]
        omega
      · rw [markers_rebuild, conflicting_rebuild, hfalse, hrest]
        simp only [Bool.true_eq_false, if_false]
        omega

theorem Counted.requeue (signalQueue : List (Nat × Nat)) :
    Counted n (p.setManager x { p.manager x with signalQueue := signalQueue }) := by
  refine h.congr (fun _ => rfl) rfl ?_
  rw [conflicting_setManager, conflicting_eq _ x]
  rfl

theorem Counted.next {e : Event} (hanswered : Answered p e) :
    Counted (n + conflicts [e]) (p.next e) := by
  cases e with
  | conflict x =>
      have hmarked : Counted (n + 1) (p.setManager x { p.manager x with dtlsConflict := true }) := by
        refine ⟨h.answers, ?_⟩
        have hrequests := h.requests
        have hle := conflicting_le { p.manager x with dtlsConflict := true }
        rw [conflicting_eq p x] at hrequests
        rw [conflicting_setManager]
        show p.markers false + _ ≤ n + 1
        omega
      refine hmarked.initiate ?_
      rw [setManager_self]
  | recover x connected =>
      show Counted n (p.recover x connected)
      unfold recover
      split
      · exact h
      · rename_i hconflict
        rw [not_or, Bool.not_eq_false] at hconflict
        exact h.initiate hconflict.2
  | send x =>
      refine h.congr (fun _ => rfl) ?_ rfl
      show (p.signal x (.ordinary (p.manager x).generation)).requests = p.requests
      rw [requests_eq _ x, requests_eq p x, signal_self, signal_other, count_append,
        count_singleton]
      rfl
  | deliver x =>
      rw [Pair.next]
      split
      · exact h
      · rename_i s rest hs
        cases s with
        | marker answer =>
            refine h.accept hs fun htrue => hanswered ?_
            rw [hs, htrue]
            rfl
        | ordinary generation =>
            have htaken : Counted n (p.take x rest) := by
              refine h.congr (fun _ => rfl) ?_ rfl
              rw [requests_eq _ x, requests_eq p x, take_self, take_other, hs, count_cons]
              rfl
            unfold acceptSignal
            dsimp only
            split
            · exact htaken
            · exact htaken.requeue _
  | apply x =>
      show Counted n (p.applySignal x)
      unfold applySignal
      split
      · exact h
      · rename_i sender receiver rest _
        split
        · exact h.requeue rest
        · refine (h.requeue (x := x) rest).congr (fun answer => ?_) rfl rfl
          rw [markers, record, countP_append]
          rfl
  | tick ms => exact h.congr (fun _ => rfl) rfl rfl

end

theorem conflicts_concat (es : List Event) (e : Event) :
    conflicts (es ++ [e]) = conflicts es + conflicts [e] := countP_append

theorem counted_of_path {now : Nat} {es : List Event}
    (h : Path (Guarded Step Answered) (start now) es p) : Counted (conflicts es) p := by
  refine h.history (J := fun es p => Counted (conflicts es) p) ⟨le_refl _, le_refl _⟩ ?_
  rintro es p e t - h ⟨rfl, hanswered⟩
  rw [conflicts_concat]
  exact h.next hanswered

end Answers

/-! ## Generations -/

/-- No marker meets a side that neither waits for an answer nor has cooled down, and
no request goes without its answer for as long as the side waits. -/
def Prompt (p : Pair) : Event → Prop
  | .deliver x => ∀ answer, (p.channel x).head? = some (.marker answer) →
      (p.manager x).awaitingPeerReset p.now = true ∨ (p.manager x).coolingDown p.now = false
  | .tick ms => ∀ x, ∀ r ∈ (p.manager x).reset, r.awaitingAckUntil ≠ 0 →
      p.now + ms < r.awaitingAckUntil
  | _ => True

/-- Signals of one connection. -/
def Plain (g : Nat) (c : List Signal) : Prop := ∀ s ∈ c, s = .ordinary g

/-- Signals of a connection, its marker, and signals of the next one. -/
def Marked (g : Nat) (c : List Signal) : Prop :=
  ∃ before answer after, c = before ++ .marker answer :: after ∧ Plain g before ∧ Plain (g + 1) after

section Channels

variable {g : Nat} {c : List Signal} {s : Signal}

theorem Plain.concat (h : Plain g c) : Plain g (c ++ [.ordinary g]) := by
  intro s hs
  rcases mem_append.mp hs with hs | hs
  · exact h s hs
  · exact mem_singleton.mp hs

theorem Plain.mark (h : Plain g c) (answer : Bool) : Marked g (c ++ [.marker answer]) :=
  ⟨c, answer, [], rfl, h, fun _ hs => absurd hs not_mem_nil⟩

theorem Plain.cons (h : Plain g (s :: c)) : s = .ordinary g ∧ Plain g c := forall_mem_cons.mp h

theorem Marked.concat (h : Marked g c) : Marked g (c ++ [.ordinary (g + 1)]) := by
  obtain ⟨before, answer, after, rfl, hbefore, hafter⟩ := h
  exact ⟨before, answer, after ++ [.ordinary (g + 1)], by simp, hbefore, hafter.concat⟩

theorem Marked.cons (h : Marked g (s :: c)) :
    s = .ordinary g ∧ Marked g c ∨ ∃ answer, s = .marker answer ∧ Plain (g + 1) c := by
  obtain ⟨before, answer, after, heq, hbefore, hafter⟩ := h
  cases before with
  | nil =>
      obtain ⟨rfl, rfl⟩ := cons.inj heq
      exact .inr ⟨answer, rfl, hafter⟩
  | cons s' before =>
      obtain ⟨rfl, rfl⟩ := cons.inj heq
      obtain ⟨hs, hbefore⟩ := hbefore.cons
      exact .inl ⟨hs, before, answer, after, rfl, hbefore, hafter⟩

theorem Marked.ne_nil (h : Marked g c) : c ≠ [] := by
  rintro rfl
  obtain ⟨before, answer, after, heq, -⟩ := h
  exact absurd heq.symm (append_ne_nil_of_right_ne_nil _ (cons_ne_nil _ _))

end Channels

/-- The side waits for the answer to its request. -/
def Asking (m : Manager) (now : Nat) : Prop :=
  ∃ time, m.reset = some ⟨time, time + ackTimeoutMs⟩ ∧ time ≤ now ∧ now < time + ackTimeoutMs

/-- The side waits for nothing. -/
def Idle (m : Manager) : Prop := ∀ r, m.reset = some r → r.awaitingAckUntil = 0

section Managers

variable {m : Manager} {now : Nat}

theorem Asking.awaiting (h : Asking m now) : m.awaitingPeerReset now = true := by
  obtain ⟨time, hreset, -, hlt⟩ := h
  rw [awaitingPeerReset, hreset, any_some, decide_eq_true_eq]
  exact hlt

theorem Asking.cooling (h : Asking m now) : m.coolingDown now = true := by
  obtain ⟨time, hreset, hle, hlt⟩ := h
  rw [coolingDown, hreset, any_some, decide_eq_true_eq]
  unfold ackTimeoutMs at hlt
  show now - time < 120000
  omega

theorem Idle.not_awaiting (h : Idle m) : m.awaitingPeerReset now = false := by
  cases hreset : m.reset with
  | none => rw [awaitingPeerReset, hreset, any_none]
  | some r =>
      rw [awaitingPeerReset, hreset, any_some, decide_eq_false_iff_not, h r hreset]
      exact not_lt_zero now

theorem idle_recreate : Idle (m.recreatePeer now) := by
  rintro r hr
  cases hr
  rfl

theorem idle_setAwaiting : Idle (m.setAwaiting 0) := by
  intro r hr
  obtain ⟨r', -, rfl⟩ := map_eq_some_iff.mp hr
  rfl

theorem asking_initiated : Asking ((m.recreatePeer now).setAwaiting (now + ackTimeoutMs)) now :=
  ⟨now, rfl, Nat.le_refl _, Nat.lt_add_of_pos_right (by decide)⟩

end Managers

/-- The other side has rebuilt at most that long before the side asked. -/
def Follows (m m' : Manager) : Prop :=
  ∃ time r, m.reset = some ⟨time, time + ackTimeoutMs⟩ ∧ m'.reset = some r
    ∧ time ≤ r.resetAt + ackTimeoutMs

theorem Follows.cooling {m m' : Manager} {now : Nat} (h : Follows m m') (hasking : Asking m now) :
    m'.coolingDown now = true := by
  obtain ⟨time, r, hm, hm', hle⟩ := h
  obtain ⟨time', hreset, -, hlt⟩ := hasking
  have htime : time = time' := by
    rw [hm] at hreset
    exact congrArg PeerResetState.resetAt (some.inj hreset)
  rw [coolingDown, hm', any_some, decide_eq_true_eq]
  unfold ackTimeoutMs at hle hlt
  unfold cooldownMs
  omega

/-- How far a reset has come. -/
inductive Phase (p : Pair) : Prop
  /-- Nobody has asked. -/
  | agreed (g : Nat) (hidle : ∀ y, Idle (p.manager y)) (hgeneration : ∀ y, (p.manager y).generation = g)
      (hplain : ∀ y, Plain g (p.channel y))
  /-- The side has asked, and the other one has not heard of it. -/
  | asked (x : Side) (g : Nat) (hasking : Asking (p.manager x) p.now)
      (hidle : Idle (p.manager x.other)) (hself : (p.manager x).generation = g + 1)
      (hother : (p.manager x.other).generation = g) (hmarked : Marked g (p.channel x.other))
      (hplain : Plain g (p.channel x))
  /-- The other side has rebuilt as well; the side has yet to hear of it. -/
  | answered (x : Side) (g : Nat) (hasking : Asking (p.manager x) p.now)
      (hidle : Idle (p.manager x.other)) (hgeneration : ∀ y, (p.manager y).generation = g + 1)
      (hmarked : Marked g (p.channel x)) (hplain : Plain (g + 1) (p.channel x.other))
      (hfollows : Follows (p.manager x) (p.manager x.other))
  /-- Both have asked. -/
  | crossed (g : Nat) (hasking : ∀ y, Asking (p.manager y) p.now)
      (hgeneration : ∀ y, (p.manager y).generation = g + 1) (hmarked : ∀ y, Marked g (p.channel y))

section Phases

variable {p t : Pair}

theorem Phase.congr (h : Phase p) (hreset : ∀ y, (t.manager y).reset = (p.manager y).reset)
    (hsame : ∀ y, (t.manager y).generation = (p.manager y).generation)
    (hchannel : t.channel = p.channel) (hnow : t.now = p.now) : Phase t := by
  have hask : ∀ y, Asking (p.manager y) p.now → Asking (t.manager y) t.now := by
    intro y hy
    rw [Asking, hreset, hnow]
    exact hy
  have hidles : ∀ y, Idle (p.manager y) → Idle (t.manager y) := by
    intro y hy
    rw [Idle, hreset]
    exact hy
  cases h with
  | agreed g hidle hgeneration hplain =>
      refine .agreed g (fun y => hidles y (hidle y)) (fun y => (hsame y).trans (hgeneration y)) ?_
      rw [hchannel]
      exact hplain
  | asked x g hasking hidle hself hother hmarked hplain =>
      refine .asked x g (hask x hasking) (hidles _ hidle) ((hsame x).trans hself)
        ((hsame _).trans hother) ?_ ?_
      · rw [hchannel]
        exact hmarked
      · rw [hchannel]
        exact hplain
  | answered x g hasking hidle hgeneration hmarked hplain hfollows =>
      refine .answered x g (hask x hasking) (hidles _ hidle)
        (fun y => (hsame y).trans (hgeneration y)) ?_ ?_ ?_
      · rw [hchannel]
        exact hmarked
      · rw [hchannel]
        exact hplain
      · rw [Follows, hreset, hreset]
        exact hfollows
  | crossed g hasking hgeneration hmarked =>
      refine .crossed g (fun y => hask y (hasking y)) (fun y => (hsame y).trans (hgeneration y)) ?_
      rw [hchannel]
      exact hmarked

theorem initiate_parts {x : Side} (hcool : (p.manager x).coolingDown p.now = false) :
    (p.initiatePeerReset x).manager x
        = ((p.manager x).recreatePeer p.now).setAwaiting (p.now + ackTimeoutMs)
      ∧ (p.initiatePeerReset x).manager x.other = p.manager x.other
      ∧ (p.initiatePeerReset x).channel x = p.channel x
      ∧ (p.initiatePeerReset x).channel x.other = p.channel x.other ++ [.marker false]
      ∧ (p.initiatePeerReset x).now = p.now := by
  have hnot : ¬ (p.manager x).coolingDown p.now = true := by
    rw [hcool]
    exact Bool.false_ne_true
  rw [initiatePeerReset, if_neg hnot]
  refine ⟨?_, ?_, ?_, ?_, rfl⟩
  · rw [setManager_self, rebuild_self]
  · rw [setManager_other, rebuild_of_ne false x.other_ne]
  · exact rebuild_channel false
  · exact rebuild_channel_other false

theorem Phase.initiate (h : Phase p) (x : Side) : Phase (p.initiatePeerReset x) := by
  cases hcool : (p.manager x).coolingDown p.now with
  | true =>
      rw [initiatePeerReset, if_pos hcool]
      exact h
  | false =>
      obtain ⟨hself, hother, hchannel, hchannel', hnow⟩ := initiate_parts hcool
      have hasks : Asking ((p.initiatePeerReset x).manager x) (p.initiatePeerReset x).now := by
        rw [hself, hnow]
        exact asking_initiated
      have hcooling : ∀ {b : Bool}, (p.manager x).coolingDown p.now = b → b = true → False := by
        rintro b hb rfl
        rw [hcool] at hb
        cases hb
      cases h with
      | agreed g hidle hgeneration hplain =>
          refine .asked x g hasks ?_ ?_ ?_ ?_ ?_
          · rw [hother]
            exact hidle x.other
          · rw [hself]
            exact congrArg (· + 1) (hgeneration x)
          · rw [hother]
            exact hgeneration x.other
          · rw [hchannel']
            exact (hplain x.other).mark false
          · rw [hchannel]
            exact hplain x
      | asked z g hasking hidle hgen hgen' hmarked hplain =>
          rcases z.eq_or_other x with rfl | rfl
          · exact (hcooling hasking.cooling rfl).elim
          · -- the other side asks as well
            rw [other_other] at hother hchannel'
            refine .crossed g (z.forall ?_ hasks) (z.forall ?_ ?_) (z.forall ?_ ?_)
            · rw [hother, hnow]
              exact hasking
            · rw [hother]
              exact hgen
            · rw [hself]
              exact congrArg (· + 1) hgen'
            · rw [hchannel']
              exact hplain.mark false
            · rw [hchannel]
              exact hmarked
      | answered z g hasking hidle hgeneration hmarked hplain hfollows =>
          rcases z.eq_or_other x with rfl | rfl
          · exact (hcooling hasking.cooling rfl).elim
          · exact (hcooling (hfollows.cooling hasking) rfl).elim
      | crossed g hasking hgeneration hmarked => exact (hcooling (hasking x).cooling rfl).elim

theorem Phase.send (h : Phase p) (x : Side) :
    Phase (p.signal x (.ordinary (p.manager x).generation)) := by
  cases h with
  | agreed g hidle hgeneration hplain =>
      refine .agreed g hidle hgeneration (x.forall ?_ ?_)
      · rw [signal_self]
        exact hplain x
      · rw [signal_other, hgeneration x]
        exact (hplain x.other).concat
  | asked z g hasking hidle hself hother hmarked hplain =>
      rcases z.eq_or_other x with rfl | rfl
      · refine .asked x g hasking hidle hself hother ?_ ?_
        · rw [signal_other, hself]
          exact hmarked.concat
        · rw [signal_self]
          exact hplain
      · refine .asked z g hasking hidle hself hother ?_ ?_
        · rw [signal_self]
          exact hmarked
        · have hback := signal_other (p := p) (x := z.other) (.ordinary (p.manager z.other).generation)
          rw [other_other] at hback
          rw [hback, hother]
          exact hplain.concat
  | answered z g hasking hidle hgeneration hmarked hplain hfollows =>
      rcases z.eq_or_other x with rfl | rfl
      · refine .answered x g hasking hidle hgeneration ?_ ?_ hfollows
        · rw [signal_self]
          exact hmarked
        · rw [signal_other, hgeneration x]
          exact hplain.concat
      · refine .answered z g hasking hidle hgeneration ?_ ?_ hfollows
        · have hback := signal_other (p := p) (x := z.other) (.ordinary (p.manager z.other).generation)
          rw [other_other] at hback
          rw [hback, hgeneration z.other]
          exact hmarked.concat
        · rw [signal_self]
          exact hplain
  | crossed g hasking hgeneration hmarked =>
      refine .crossed g hasking hgeneration (x.forall ?_ ?_)
      · rw [signal_self]
        exact hmarked x
      · rw [signal_other, hgeneration x]
        exact (hmarked x.other).concat

/-- What is taken off the channel comes from the connection that the side has, unless
the side drops it, or is a marker. -/
theorem Phase.take (h : Phase p) {x : Side} {s : Signal} {rest : List Signal}
    (hs : p.channel x = s :: rest) :
    (∃ g, s = .ordinary g ∧ Phase (p.take x rest)
      ∧ ((p.manager x).awaitingPeerReset p.now = false → g = (p.manager x).generation))
    ∨ ∃ answer, s = .marker answer ∧ ((p.manager x).awaitingPeerReset p.now = true ∨
      (p.manager x).coolingDown p.now = false → Phase ((p.take x rest).acceptPeerReset x)) := by
  have hawaits : ∀ {P : Prop}, Asking (p.manager x) p.now →
      (p.manager x).awaitingPeerReset p.now = false → P := by
    intro P hasking hnot
    rw [hasking.awaiting] at hnot
    cases hnot
  have hself : (p.take x rest).channel x = rest := take_self rest
  have hother : (p.take x rest).channel x.other = p.channel x.other := take_other rest
  cases h with
  | agreed g hidle hgeneration hplain =>
      have hx := hplain x
      rw [hs] at hx
      obtain ⟨rfl, hrest⟩ := hx.cons
      refine .inl ⟨g, rfl, .agreed g hidle hgeneration (x.forall ?_ ?_), fun _ => (hgeneration x).symm⟩
      · rw [hself]
        exact hrest
      · rw [hother]
        exact hplain x.other
  | asked z g hasking hidle hgen hgen' hmarked hplain =>
      rcases z.eq_or_other x with rfl | rfl
      · rw [hs] at hplain
        obtain ⟨rfl, hrest⟩ := hplain.cons
        refine .inl ⟨g, rfl, .asked x g hasking hidle hgen hgen' ?_ ?_, hawaits hasking⟩
        · rw [hother]
          exact hmarked
        · rw [hself]
          exact hrest
      · rw [other_other] at hother
        rw [hs] at hmarked
        rcases hmarked.cons with ⟨rfl, hrest⟩ | ⟨answer, rfl, hrest⟩
        · refine .inl ⟨g, rfl, .asked z g hasking hidle hgen hgen' ?_ ?_, fun _ => hgen'.symm⟩
          · rw [hself]
            exact hrest
          · rw [hother]
            exact hplain
        · -- the other side follows
          refine .inr ⟨answer, rfl, fun hmeets => ?_⟩
          have hnot : ¬ ((p.take z.other rest).manager z.other).awaitingPeerReset
              (p.take z.other rest).now = true := by
            show ¬ (p.manager z.other).awaitingPeerReset p.now = true
            rw [hidle.not_awaiting]
            exact Bool.false_ne_true
          have hcool : ¬ ((p.take z.other rest).manager z.other).coolingDown
              (p.take z.other rest).now = true := by
            show ¬ (p.manager z.other).coolingDown p.now = true
            rcases hmeets with hyes | hyes
            · rw [hidle.not_awaiting] at hyes
              cases hyes
            · rw [hyes]
              exact Bool.false_ne_true
          rw [acceptPeerReset, if_neg hnot, if_neg hcool]
          have hz : ((p.take z.other rest).rebuild z.other true).manager z = p.manager z :=
            rebuild_of_ne true z.ne_other
          have hback := rebuild_channel_other (p := p.take z.other rest) (x := z.other) true
          rw [other_other] at hback
          refine .answered z g ?_ ?_ (z.forall ?_ ?_) ?_ ?_ ?_
          · rw [hz]
            exact hasking
          · rw [rebuild_self]
            exact idle_recreate
          · rw [hz]
            exact hgen
          · rw [rebuild_self]
            exact congrArg (· + 1) hgen'
          · rw [hback, hother]
            exact hplain.mark true
          · rw [rebuild_channel, hself]
            exact hrest
          · obtain ⟨time, hreset, hle, -⟩ := hasking
            rw [hz, rebuild_self]
            exact ⟨time, ⟨p.now, 0⟩, hreset, rfl, le_trans hle (le_add_right _ _)⟩
  | answered z g hasking hidle hgeneration hmarked hplain hfollows =>
      rcases z.eq_or_other x with rfl | rfl
      · rw [hs] at hmarked
        rcases hmarked.cons with ⟨rfl, hrest⟩ | ⟨answer, rfl, hrest⟩
        · refine .inl ⟨g, rfl, .answered x g hasking hidle hgeneration ?_ ?_ hfollows,
            hawaits hasking⟩
          · rw [hself]
            exact hrest
          · rw [hother]
            exact hplain
        · -- the answer
          refine .inr ⟨answer, rfl, fun _ => ?_⟩
          have hyes : ((p.take x rest).manager x).awaitingPeerReset (p.take x rest).now = true :=
            hasking.awaiting
          rw [acceptPeerReset, if_pos hyes]
          refine .agreed (g + 1) (x.forall ?_ ?_) (x.forall ?_ ?_) (x.forall ?_ ?_)
          · rw [setManager_self]
            exact idle_setAwaiting
          · rw [setManager_other]
            exact hidle
          · rw [setManager_self]
            exact hgeneration x
          · rw [setManager_other]
            exact hgeneration x.other
          · show Plain (g + 1) ((p.take x rest).channel x)
            rw [hself]
            exact hrest
          · show Plain (g + 1) ((p.take x rest).channel x.other)
            rw [hother]
            exact hplain
      · rw [other_other] at hother
        rw [hs] at hplain
        obtain ⟨rfl, hrest⟩ := hplain.cons
        refine .inl ⟨g + 1, rfl, .answered z g hasking hidle hgeneration ?_ ?_ hfollows,
          fun _ => (hgeneration z.other).symm⟩
        · rw [hother]
          exact hmarked
        · rw [hself]
          exact hrest
  | crossed g hasking hgeneration hmarked =>
      have hx := hmarked x
      rw [hs] at hx
      rcases hx.cons with ⟨rfl, hrest⟩ | ⟨answer, rfl, hrest⟩
      · refine .inl ⟨g, rfl, .crossed g hasking hgeneration (x.forall ?_ ?_), hawaits (hasking x)⟩
        · rw [hself]
          exact hrest
        · rw [hother]
          exact hmarked x.other
      · -- the other request is the answer to the side's own
        refine .inr ⟨answer, rfl, fun _ => ?_⟩
        have hyes : ((p.take x rest).manager x).awaitingPeerReset (p.take x rest).now = true :=
          (hasking x).awaiting
        rw [acceptPeerReset, if_pos hyes]
        refine .answered x.other g ?_ ?_ (x.forall ?_ ?_) ?_ ?_ ?_
        · rw [setManager_other]
          exact hasking x.other
        · rw [other_other, setManager_self]
          exact idle_setAwaiting
        · rw [setManager_self]
          exact hgeneration x
        · rw [setManager_other]
          exact hgeneration x.other
        · show Marked g ((p.take x rest).channel x.other)
          rw [hother]
          exact hmarked x.other
        · show Plain (g + 1) ((p.take x rest).channel x.other.other)
          rw [other_other, hself]
          exact hrest
        · obtain ⟨time, hreset, -, hlt⟩ := hasking x
          obtain ⟨time', hreset', hle', -⟩ := hasking x.other
          rw [setManager_other, other_other, setManager_self]
          refine ⟨time', ⟨time, 0⟩, hreset', ?_, le_of_lt (lt_of_le_of_lt hle' hlt)⟩
          show (p.manager x).reset.map _ = _
          rw [hreset]
          rfl

theorem Phase.tick (h : Phase p) {ms : Nat} (hprompt : Prompt p (.tick ms)) :
    Phase { p with now := p.now + ms } := by
  have hask : ∀ y, Asking (p.manager y) p.now → Asking (p.manager y) (p.now + ms) := by
    rintro y ⟨time, hreset, hle, -⟩
    refine ⟨time, hreset, le_trans hle (le_add_right _ _), ?_⟩
    exact hprompt y ⟨time, time + ackTimeoutMs⟩ hreset (Nat.ne_of_gt (Nat.add_pos_right _ (by decide)))
  cases h with
  | agreed g hidle hgeneration hplain => exact .agreed g hidle hgeneration hplain
  | asked x g hasking hidle hself hother hmarked hplain =>
      exact .asked x g (hask x hasking) hidle hself hother hmarked hplain
  | answered x g hasking hidle hgeneration hmarked hplain hfollows =>
      exact .answered x g (hask x hasking) hidle hgeneration hmarked hplain hfollows
  | crossed g hasking hgeneration hmarked =>
      exact .crossed g (fun y => hask y (hasking y)) hgeneration hmarked

theorem Phase.quiet (h : Phase p) (hquiet : p.quiet) (x y : Side) :
    (p.manager x).generation = (p.manager y).generation := by
  cases h with
  | agreed g hidle hgeneration hplain => exact (hgeneration x).trans (hgeneration y).symm
  | asked z g hasking hidle hself hother hmarked hplain => exact absurd (hquiet _) hmarked.ne_nil
  | answered z g hasking hidle hgeneration hmarked hplain hfollows =>
      exact absurd (hquiet _) hmarked.ne_nil
  | crossed g hasking hgeneration hmarked => exact absurd (hquiet x) (hmarked x).ne_nil

end Phases

/-- Connections apply only what comes from the connection that was rebuilt with them. -/
structure Matched (p : Pair) : Prop where
  phase : Phase p
  queued : ∀ x, ∀ e ∈ (p.manager x).signalQueue, e.1 = e.2
  applied : ∀ x sender receiver, .applied x sender receiver ∈ p.log → sender = receiver

section Runs

variable {p t : Pair}

theorem start_matched (now : Nat) : Matched (start now) where
  phase := .agreed 0 (fun _ r hr => by cases hr) (fun _ => rfl)
    (fun _ s hs => absurd hs not_mem_nil)
  queued x e he := absurd he not_mem_nil
  applied x sender receiver h := absurd h not_mem_nil

/-- A step that applies nothing, and after which the queues have no more. -/
theorem Matched.move (h : Matched p) (hphase : Phase t)
    (hqueue : ∀ x, ∀ e ∈ (t.manager x).signalQueue, e ∈ (p.manager x).signalQueue)
    (hlog : ∀ x sender receiver, .applied x sender receiver ∈ t.log →
      .applied x sender receiver ∈ p.log) : Matched t :=
  ⟨hphase, fun x e he => h.queued x e (hqueue x e he),
    fun x sender receiver hm => h.applied x sender receiver (hlog x sender receiver hm)⟩

theorem queue_setManager (x : Side) (m : Manager) (hm : m.signalQueue = (p.manager x).signalQueue)
    (y : Side) : ((p.setManager x m).manager y).signalQueue = (p.manager y).signalQueue := by
  by_cases hyx : y = x
  · subst hyx
    rw [setManager_self, hm]
  · rw [setManager_of_ne m hyx]

theorem queue_rebuild (x : Side) (answer : Bool) (y : Side) :
    ((p.rebuild x answer).manager y).signalQueue = (p.manager y).signalQueue :=
  queue_setManager (p := p.signal x (.marker answer)) x ((p.manager x).recreatePeer p.now) rfl y

theorem queue_initiate (x y : Side) :
    ((p.initiatePeerReset x).manager y).signalQueue = (p.manager y).signalQueue := by
  unfold initiatePeerReset
  split
  · rfl
  · have hasked := queue_setManager (p := p.rebuild x false) x
      (((p.rebuild x false).manager x).setAwaiting (p.now + ackTimeoutMs)) rfl y
    exact hasked.trans (queue_rebuild x false y)

theorem queue_accept (x y : Side) :
    ((p.acceptPeerReset x).manager y).signalQueue = (p.manager y).signalQueue := by
  unfold acceptPeerReset
  split
  · exact queue_setManager x ((p.manager x).setAwaiting 0) rfl y
  · split
    · rfl
    · exact queue_rebuild x true y

theorem log_rebuild {x : Side} {answer : Bool} {y : Side} {sender receiver : Nat}
    (h : .applied y sender receiver ∈ (p.rebuild x answer).log) :
    .applied y sender receiver ∈ p.log := by
  rcases mem_append.mp h with h | h
  · exact h
  · cases mem_singleton.mp h

theorem log_initiate {x y : Side} {sender receiver : Nat}
    (h : .applied y sender receiver ∈ (p.initiatePeerReset x).log) :
    .applied y sender receiver ∈ p.log := by
  unfold initiatePeerReset at h
  split at h
  · exact h
  · exact log_rebuild h

theorem log_accept {x y : Side} {sender receiver : Nat}
    (h : .applied y sender receiver ∈ (p.acceptPeerReset x).log) :
    .applied y sender receiver ∈ p.log := by
  unfold acceptPeerReset at h
  split at h
  · exact h
  · split at h
    · exact h
    · exact log_rebuild h

theorem Matched.initiate (h : Matched p) (x : Side) : Matched (p.initiatePeerReset x) :=
  h.move (h.phase.initiate x) (fun y _ he => queue_initiate x y ▸ he) fun _ _ _ => log_initiate

theorem Phase.setManager (h : Phase p) {x : Side} {m : Manager}
    (hreset : m.reset = (p.manager x).reset) (hm : m.generation = (p.manager x).generation) :
    Phase (p.setManager x m) := by
  refine h.congr (x.forall ?_ ?_) (x.forall ?_ ?_) rfl rfl
  · rw [setManager_self, hreset]
  · rw [setManager_other]
  · rw [setManager_self, hm]
  · rw [setManager_other]

theorem Matched.deliver (h : Matched p) {x : Side} {s : Signal} {rest : List Signal}
    (hs : p.channel x = s :: rest) (hprompt : Prompt p (.deliver x)) :
    Matched ((p.take x rest).acceptSignal x s) := by
  rcases h.phase.take hs with ⟨g, rfl, hphase, hsame⟩ | ⟨answer, rfl, hphase⟩
  · have htaken : Matched (p.take x rest) := ⟨hphase, h.queued, h.applied⟩
    unfold acceptSignal
    dsimp only
    split
    · exact htaken
    · rename_i hnot
      rw [Bool.not_eq_true] at hnot
      have hg : g = (p.manager x).generation := hsame hnot
      refine ⟨hphase.setManager rfl rfl, x.forall ?_ ?_, h.applied⟩
      · rw [setManager_self]
        intro e he
        rcases mem_append.mp he with he | he
        · exact h.queued x e he
        · rw [mem_singleton.mp he]
          exact hg
      · rw [setManager_other]
        exact h.queued x.other
  · refine h.move (hphase (hprompt answer ?_)) (fun y e he => ?_) fun _ _ _ hm => log_accept (p := p.take x rest) hm
    · rw [hs]
      rfl
    · rw [acceptSignal, queue_accept] at he
      exact he

theorem Matched.apply (h : Matched p) (x : Side) : Matched (p.applySignal x) := by
  unfold applySignal
  split
  · exact h
  · rename_i sender receiver rest hqueue
    have hhead : sender = receiver := h.queued x (sender, receiver) (hqueue ▸ mem_cons_self)
    have htaken : Matched (p.setManager x { p.manager x with signalQueue := rest }) := by
      refine h.move (h.phase.setManager rfl rfl) (x.forall ?_ ?_) fun _ _ _ hm => hm
      · rw [setManager_self, hqueue]
        exact fun e he => mem_cons_of_mem _ he
      · rw [setManager_other]
        exact fun e he => he
    split
    · exact htaken
    · refine ⟨htaken.phase.congr (fun _ => rfl) (fun _ => rfl) rfl rfl, htaken.queued, ?_⟩
      intro y from' on hm
      rcases mem_append.mp hm with hm | hm
      · exact h.applied y from' on hm
      · cases mem_singleton.mp hm
        exact hhead

theorem Matched.next (h : Matched p) {e : Event} (hprompt : Prompt p e) : Matched (p.next e) := by
  cases e with
  | conflict x =>
      have hmarked : Matched (p.setManager x { p.manager x with dtlsConflict := true }) :=
        h.move (h.phase.setManager rfl rfl) (fun y _ he => by
          rwa [queue_setManager x { p.manager x with dtlsConflict := true } rfl y] at he)
          fun _ _ _ hm => hm
      exact hmarked.initiate x
  | recover x connected =>
      show Matched (p.recover x connected)
      unfold recover
      split
      · exact h
      · exact h.initiate x
  | send x => exact h.move (h.phase.send x) (fun _ _ he => he) fun _ _ _ hm => hm
  | deliver x =>
      rw [Pair.next]
      split
      · exact h
      · rename_i s rest hs
        exact h.deliver hs hprompt
  | apply x => exact h.apply x
  | tick ms => exact h.move (h.phase.tick hprompt) (fun _ _ he => he) fun _ _ _ hm => hm

theorem matched_of_path {now : Nat} {es : List Event}
    (h : Path (Guarded Step Prompt) (start now) es p) : Matched p := by
  refine h.inv ?_ (start_matched now)
  rintro p e t ⟨rfl, hprompt⟩ h
  exact h.next hprompt

/-! Generations do not go back. -/

theorem generation_setManager (x : Side) (m : Manager) (hm : (p.manager x).generation ≤ m.generation)
    (y : Side) : (p.manager y).generation ≤ ((p.setManager x m).manager y).generation := by
  by_cases hyx : y = x
  · subst hyx
    rw [setManager_self]
    exact hm
  · rw [setManager_of_ne m hyx]

theorem generation_rebuild (x : Side) (answer : Bool) (y : Side) :
    (p.manager y).generation ≤ ((p.rebuild x answer).manager y).generation :=
  generation_setManager (p := p.signal x (.marker answer)) x ((p.manager x).recreatePeer p.now)
    (le_succ _) y

theorem generation_initiate (x y : Side) :
    (p.manager y).generation ≤ ((p.initiatePeerReset x).manager y).generation := by
  unfold initiatePeerReset
  split
  · exact le_refl _
  · have hasked := generation_setManager (p := p.rebuild x false) x
      (((p.rebuild x false).manager x).setAwaiting (p.now + ackTimeoutMs)) (le_refl _) y
    exact le_trans (generation_rebuild x false y) hasked

theorem generation_accept (x y : Side) :
    (p.manager y).generation ≤ ((p.acceptPeerReset x).manager y).generation := by
  unfold acceptPeerReset
  split
  · exact generation_setManager x ((p.manager x).setAwaiting 0) (le_refl _) y
  · split
    · exact le_refl _
    · exact generation_rebuild x true y

theorem generation_next (p : Pair) (e : Event) (y : Side) :
    (p.manager y).generation ≤ ((p.next e).manager y).generation := by
  cases e with
  | conflict x =>
      exact le_trans (generation_setManager x { p.manager x with dtlsConflict := true }
        (le_refl _) y) (generation_initiate x y)
  | recover x connected =>
      show _ ≤ ((p.recover x connected).manager y).generation
      unfold recover
      split
      · exact le_refl _
      · exact generation_initiate x y
  | send x => exact le_refl _
  | deliver x =>
      rw [Pair.next]
      split
      · exact le_refl _
      · rename_i s rest _
        cases s with
        | marker answer => exact generation_accept (p := p.take x rest) x y
        | ordinary generation =>
            unfold acceptSignal
            dsimp only
            split
            · exact le_refl _
            · exact generation_setManager (p := p.take x rest) x { p.manager x with
                signalQueue := (p.manager x).signalQueue ++ [(generation, (p.manager x).generation)] }
                (le_refl _) y
  | apply x =>
      show _ ≤ ((p.applySignal x).manager y).generation
      unfold applySignal
      split
      · exact le_refl _
      · rename_i sender receiver rest _
        have htaken := generation_setManager (p := p) x { p.manager x with signalQueue := rest }
          (le_refl _) y
        split <;> exact htaken
  | tick ms => exact le_refl _

theorem generation_path {es : List Event} (h : Path Step p es t) (y : Side) :
    (p.manager y).generation ≤ (t.manager y).generation := by
  refine h.rel (R := fun p t => (p.manager y).generation ≤ (t.manager y).generation)
    (fun _ => le_refl _) le_trans ?_
  rintro p e t rfl
  exact generation_next p e y

end Runs

/-! ## The property -/

/-- **Peer resets.** Rebuilds of a side are a cooldown apart, in every run. While no
answer outlasts a cooldown, there are at most as many answers as requests, and as
many requests as conflicts. While resets are prompt, only signals of the connection
that was rebuilt with it are applied to a connection; and whenever nothing is on its
way, both sides have rebuilt equally often, and have connections that are later than
any that a reset on the way has replaced. -/
theorem reset_is_bounded_handshake (now : Nat) : (∀ es p, Path Step (start now) es p → ∀ x,
      (p.rebuilds x).Pairwise fun t u => t + cooldownMs ≤ u)
    ∧ (∀ es p, Path (Guarded Step Answered) (start now) es p →
      p.markers true ≤ p.markers false ∧ p.markers false ≤ conflicts es)
    ∧ (∀ es p, Path (Guarded Step Prompt) (start now) es p →
      (∀ x sender receiver, .applied x sender receiver ∈ p.log → sender = receiver)
      ∧ (p.quiet → ∀ x y, (p.manager x).generation = (p.manager y).generation))
    ∧ ∀ es p e es' q, Path (Guarded Step Prompt) (start now) es p → Prompt p e →
      Path (Guarded Step Prompt) (p.next e) es' q → q.quiet →
      ∀ x, (p.manager x).generation < ((p.next e).manager x).generation →
        ∀ y, (p.manager x).generation < (q.manager y).generation := by
  refine ⟨fun es p h x => (spaced_of_path h x).apart, fun es p h => ?_, fun es p h => ?_, ?_⟩
  · have hcounted := counted_of_path h
    have hanswers := hcounted.answers
    have hrequests := hcounted.requests
    omega
  · have hmatched := matched_of_path h
    exact ⟨hmatched.applied, fun hquiet => hmatched.phase.quiet hquiet⟩
  · intro es p e es' q hp hprompt hq hquiet x hreset y
    have hq' : Path (Guarded Step Prompt) (start now) (es ++ e :: es') q :=
      hp.append (.cons ⟨rfl, hprompt⟩ hq)
    rw [← (matched_of_path hq').phase.quiet hquiet x y]
    exact lt_of_lt_of_le hreset (generation_path hq.unguarded x)

instance (p : Pair) : ∀ e, Decidable (Answered p e)
  | .deliver x => inferInstanceAs (Decidable ((p.channel x).head? = some (.marker true) →
      (p.manager x).awaitingPeerReset p.now = true ∨ (p.manager x).coolingDown p.now = true))
  | .conflict _ | .recover _ _ | .send _ | .apply _ | .tick _ => isTrue trivial

instance decidableForallSide {P : Side → Prop} [∀ x, Decidable (P x)] : Decidable (∀ x, P x) :=
  decidable_of_iff (P .left ∧ P .right) ⟨fun h => left.forall h.1 h.2, fun h => ⟨h _, h _⟩⟩

instance (p : Pair) : ∀ e, Decidable (Prompt p e)
  | .deliver x => inferInstanceAs (Decidable (∀ answer, (p.channel x).head? = some (.marker answer) →
      (p.manager x).awaitingPeerReset p.now = true ∨ (p.manager x).coolingDown p.now = false))
  | .tick ms => inferInstanceAs (Decidable (∀ x, ∀ r ∈ (p.manager x).reset,
      r.awaitingAckUntil ≠ 0 → p.now + ms < r.awaitingAckUntil))
  | .conflict _ | .recover _ _ | .send _ | .apply _ => isTrue trivial

/-- The left side asks for a reset, with a signal of the right one on its way. -/
def oneReset : List Event :=
  [.send .right, .conflict .left, .deliver .left, .tick 100, .deliver .right, .send .right,
    .deliver .left, .deliver .left, .apply .left]

theorem reset_is_bounded_handshake_sample : let p := (start 0).next (.send .right)
    let q := oneReset.foldl next (start 0)
    ((q.rebuilds .left).Pairwise fun t u => t + cooldownMs ≤ u)
      ∧ (q.markers true ≤ q.markers false ∧ q.markers false ≤ conflicts oneReset)
      ∧ (applied .left 1 1 ∈ q.log ∧ (q.manager .left).generation = (q.manager .right).generation)
      ∧ (p.manager .left).generation < (q.manager .right).generation := by
  intro p q
  have hsample := reset_is_bounded_handshake 0
  have hpath := Path.guarded_foldl next Prompt oneReset (start 0) (by decide)
  have hanswered := Path.guarded_foldl next Answered oneReset (start 0) (by decide)
  have hbefore := Path.guarded_foldl next Prompt [.send .right] (start 0) (by decide)
  have hafter := Path.guarded_foldl next Prompt (oneReset.drop 2) (p.next (.conflict .left))
    (by decide +kernel)
  have hq : (oneReset.drop 2).foldl next (p.next (.conflict .left)) = q := by
    simp only [p, q, oneReset, drop_succ_cons, drop_zero, foldl_cons]
  rw [hq] at hafter
  have hquiet : q.quiet := by
    intro x
    cases x <;> rfl
  refine ⟨hsample.1 oneReset q hpath.unguarded .left, hsample.2.1 oneReset q hanswered,
    ⟨by decide, (hsample.2.2.1 oneReset q hpath).2 hquiet .left .right⟩, ?_⟩
  exact hsample.2.2.2 _ p (.conflict .left) _ q hbefore (by decide) hafter hquiet .left
    (by decide +kernel) .right

/-- The answer comes after the time for it: a candidate of the old connection of the
right side is applied to the new one of the left side. -/
def lateAnswer : List Event :=
  [.send .right, .conflict .left, .tick 10000, .deliver .left, .apply .left, .deliver .right,
    .deliver .left]

/-- The request meets a side that is cooling down, which drops it. -/
def droppedRequest : List Event :=
  [.conflict .left, .tick 5000, .deliver .right, .deliver .left, .tick 115000, .conflict .left,
    .deliver .right]

/-- Both runs are quiet after a reset. -/
theorem reset_leaves_sides_apart : (lateAnswer.foldl next (start 0)).quiet
      ∧ applied .left 0 1 ∈ (lateAnswer.foldl next (start 0)).log
      ∧ (droppedRequest.foldl next (start 0)).quiet
      ∧ (droppedRequest.foldl next (start 0)).rebuilds .left = [0, 120000]
      ∧ (droppedRequest.foldl next (start 0)).rebuilds .right = [5000] := by
  refine ⟨fun x => ?_, by decide, fun x => ?_, by decide, by decide +kernel⟩
  · cases x <;> rfl
  · cases x <;> rfl

end PeerResets

end WebrtcMinimize
