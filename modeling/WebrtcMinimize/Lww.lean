import Mathlib.Data.List.MinMax
import Mathlib.Order.Interval.Set.UnorderedInterval

/-!
# Last-writer-wins registers with relabelled copies

Every replica keeps the value with the greatest stamp it has seen. A write
goes to all of them; a replica that missed what came before the run asks
another one for its value. The answer need not carry the stamp the value was
written under (its `origin`): receivers compare the `label` it comes with.

`Apart` says that a copy is not confused with another write by that: no other
write has a stamp between the two. While it holds of every copy, the replicas
agree as soon as nothing is under way, and on a value that was written under
the greatest stamp of all (`Good.agree`).
-/

namespace Lww

open List

variable {P σ V : Type} [LinearOrder σ]

/-- A value as it is held or sent. -/
structure Copy (σ V : Type) where
  /-- The stamp that receivers compare. -/
  label : σ
  /-- The stamp it was written under. -/
  origin : σ
  value : V

/-- A value with the stamp it is written under. -/
def Copy.written (stamp : σ) (value : V) : Copy σ V := ⟨stamp, stamp, value⟩

/-- The register once a copy has arrived. -/
def take (current incoming : Copy σ V) : Copy σ V :=
  if current.label < incoming.label then incoming else current

theorem take_of_lt {c d : Copy σ V} (h : c.label < d.label) : take c d = d := if_pos h

theorem take_of_le {c d : Copy σ V} (h : d.label ≤ c.label) : take c d = c := if_neg (not_lt.mpr h)

theorem take_cases (c d : Copy σ V) :
    c.label < d.label ∧ take c d = d ∨ d.label ≤ c.label ∧ take c d = c := by
  rcases lt_or_ge c.label d.label with h | h
  · exact .inl ⟨h, take_of_lt h⟩
  · exact .inr ⟨h, take_of_le h⟩

theorem label_le_take (c d : Copy σ V) : c.label ≤ (take c d).label := by
  rcases take_cases c d with ⟨h, heq⟩ | ⟨-, heq⟩ <;> rw [heq]
  exact h.le

theorem le_label_take (c d : Copy σ V) : d.label ≤ (take c d).label := by
  rcases take_cases c d with ⟨-, heq⟩ | ⟨h, heq⟩ <;> rw [heq]
  exact h

/-! ## Copies and other writes -/

/-- No other write has a stamp between the copy's own and its label. -/
def Apart (stamps : List σ) (c : Copy σ V) : Prop :=
  ∀ s ∈ stamps, s ≠ c.origin → s ∉ Set.uIcc c.origin c.label

theorem apart_written (stamps : List σ) (stamp : σ) (value : V) :
    Apart stamps (Copy.written stamp value) := by
  intro s _ hne hmem
  rw [Copy.written, Set.uIcc_self] at hmem
  exact hne hmem

theorem Apart.concat {stamps : List σ} {c : Copy σ V} (h : Apart stamps c) {s : σ}
    (hs : s ∉ Set.uIcc c.origin c.label) : Apart (stamps ++ [s]) c := by
  intro t ht hne
  rcases mem_append.mp ht with ht | ht
  · exact h t ht hne
  · exact mem_singleton.mp ht ▸ hs

/-- A label at the greatest stamp belongs to the write of that stamp. -/
theorem Apart.origin_eq {stamps : List σ} {c : Copy σ V} (h : Apart stamps c) {top : σ}
    (htop : top ∈ stamps) (horigin : c.origin ≤ top) (hlabel : top ≤ c.label) :
    c.origin = top := by
  by_contra hne
  refine h top htop (Ne.symm hne) ?_
  rw [Set.uIcc_of_le (horigin.trans hlabel)]
  exact ⟨horigin, hlabel⟩

theorem Apart.origin_lt {stamps : List σ} {c : Copy σ V} (h : Apart stamps c) {s : σ}
    (hs : s ∈ stamps) (hne : s ≠ c.origin) (hlabel : c.label < s) : c.origin < s := by
  by_contra hle
  rw [not_lt] at hle
  refine h s hs hne ?_
  rw [Set.uIcc_of_ge (hlabel.le.trans hle)]
  exact ⟨hlabel.le, hle⟩

/-! ## Replicas -/

/-- A copy under way; `answer` tells an answer from a write. -/
structure Letter (P σ V : Type) where
  recipient : P
  copy : Copy σ V
  answer : Bool

structure Replicas (P σ V : Type) where
  reg : P → Copy σ V
  /-- The replica was there from the start, or has had an answer. -/
  synced : P → Bool
  updates : List (σ × V)
  flight : List (Letter P σ V)

section Rules

/-- Those who take part, what an empty replica holds, and what the others held
at the start. -/
structure Setting (P σ V : Type) where
  members : List P
  bottom : σ × V
  first : σ × V

def Setting.all (k : Setting P σ V) (r : Replicas P σ V) : List (σ × V) :=
  k.bottom :: k.first :: r.updates

def Setting.stamps (k : Setting P σ V) (r : Replicas P σ V) : List σ := (k.all r).map Prod.fst

structure Good (k : Setting P σ V) (r : Replicas P σ V) : Prop where
  least : ∀ e ∈ k.all r, k.bottom.1 ≤ e.1
  value : ∀ e ∈ k.all r, ∀ e' ∈ k.all r, e.1 = e'.1 → e.2 = e'.2
  held : ∀ p ∈ k.members, ((r.reg p).origin, (r.reg p).value) ∈ k.all r
  apart : ∀ p ∈ k.members, Apart (k.stamps r) (r.reg p)
  synced : ∀ p ∈ k.members, r.synced p = true → k.first.1 ≤ (r.reg p).origin
  plain : ∀ p ∈ k.members, r.synced p = false → (r.reg p).label = (r.reg p).origin
  sent : ∀ l ∈ r.flight, (l.copy.origin, l.copy.value) ∈ k.all r ∧ Apart (k.stamps r) l.copy
  written : ∀ l ∈ r.flight, l.answer = false → l.copy.label = l.copy.origin
  answers : ∀ l ∈ r.flight, l.answer = true → k.first.1 ≤ l.copy.origin
  reached : ∀ e ∈ r.updates, ∀ p ∈ k.members, e.1 ≤ (r.reg p).label
    ∨ ⟨p, Copy.written e.1 e.2, false⟩ ∈ r.flight

namespace Good

variable {k : Setting P σ V} {r : Replicas P σ V}

omit [LinearOrder σ] in
theorem mem_stamps {e : σ × V} (h : e ∈ k.all r) : e.1 ∈ k.stamps r := mem_map_of_mem h

omit [LinearOrder σ] in
theorem first_mem : k.first ∈ k.all r := mem_cons_of_mem _ mem_cons_self

/-! ### Steps -/

section

variable (h : Good k r)

include h

/-- A replica writes, under a stamp beyond its label that no copy is confused
with, and sends what it wrote to all others. -/
theorem write [DecidableEq P] {p : P} (hp : p ∈ k.members) {stamp : σ} (value : V)
    (sends : List (Letter P σ V)) (hbottom : k.bottom.1 ≤ stamp)
    (hnew : (r.reg p).label < stamp) (hfresh : stamp ∉ k.stamps r)
    (hregs : ∀ q ∈ k.members, stamp ∉ Set.uIcc (r.reg q).origin (r.reg q).label)
    (hflight : ∀ l ∈ r.flight, stamp ∉ Set.uIcc l.copy.origin l.copy.label)
    (hsends : ∀ l ∈ sends, l.copy = Copy.written stamp value ∧ l.answer = false)
    (hall : ∀ q ∈ k.members, q ≠ p → ⟨q, Copy.written stamp value, false⟩ ∈ sends) :
    Good k { r with
      reg := fun q => if q = p then Copy.written stamp value else r.reg q
      updates := r.updates ++ [(stamp, value)]
      flight := r.flight ++ sends } := by
  have hmem : ∀ e, e ∈ k.all r ++ [(stamp, value)] → e ∈ k.all r ∨ e = (stamp, value) := by
    intro e he
    rwa [mem_append, mem_singleton] at he
  have hstamps : ∀ c : Copy σ V, Apart (k.stamps r) c → stamp ∉ Set.uIcc c.origin c.label →
      Apart ((k.all r ++ [(stamp, value)]).map Prod.fst) c := by
    intro c hc hs
    rw [map_append]
    exact hc.concat hs
  refine ⟨?_, ?_, ?_, ?_, ?_, ?_, ?_, ?_, ?_, ?_⟩
  · intro e he
    rcases hmem e he with he | rfl
    · exact h.least e he
    · exact hbottom
  · intro e he e' he' heq
    rcases hmem e he with he | rfl <;> rcases hmem e' he' with he' | rfl
    · exact h.value e he e' he' heq
    · exact absurd (mem_map.mpr ⟨e, he, heq⟩) hfresh
    · exact absurd (mem_map.mpr ⟨e', he', heq.symm⟩) hfresh
    · rfl
  · intro q hq
    show ((if q = p then Copy.written stamp value else r.reg q).origin,
      (if q = p then Copy.written stamp value else r.reg q).value) ∈ k.all r ++ [(stamp, value)]
    split
    · exact mem_append_right _ (mem_singleton_self (stamp, value))
    · exact mem_append_left _ (h.held q hq)
  · intro q hq
    dsimp only
    split
    · exact apart_written _ _ _
    · exact hstamps _ (h.apart q hq) (hregs q hq)
  · intro q hq hsynced
    dsimp only at hsynced ⊢
    split
    · rename_i heq
      subst heq
      refine (h.synced q hq hsynced).trans ?_
      by_contra hle
      rw [not_le] at hle
      refine hregs q hq ?_
      rw [Set.uIcc_of_ge (hnew.le.trans hle.le)]
      exact ⟨hnew.le, hle.le⟩
    · exact h.synced q hq hsynced
  · intro q hq hsynced
    dsimp only
    split
    · rfl
    · exact h.plain q hq hsynced
  · intro l hl
    rcases mem_append.mp hl with hl | hl
    · exact ⟨mem_append_left _ (h.sent l hl).1, hstamps _ (h.sent l hl).2 (hflight l hl)⟩
    · rw [(hsends l hl).1]
      refine ⟨?_, apart_written _ _ _⟩
      exact mem_append_right (k.all r) (mem_singleton_self (stamp, value))
  · intro l hl hplain
    rcases mem_append.mp hl with hl | hl
    · exact h.written l hl hplain
    · rw [(hsends l hl).1]
      rfl
  · intro l hl hanswer
    rcases mem_append.mp hl with hl | hl
    · exact h.answers l hl hanswer
    · rw [(hsends l hl).2] at hanswer
      cases hanswer
  · intro e he q hq
    dsimp only
    rcases mem_append.mp he with he | he
    · rcases h.reached e he q hq with hle | hflying
      · left
        split
        · rename_i heq
          exact (heq ▸ hle).trans hnew.le
        · exact hle
      · exact .inr (mem_append_left _ hflying)
    · obtain rfl := mem_singleton.mp he
      by_cases heq : q = p
      · left
        rw [if_pos heq]
        exact le_refl stamp
      · exact .inr (mem_append_right _ (hall q hq heq))

/-- Replicas that have what the others had at the start answer with their values. -/
theorem answers_sent (sends : List (Letter P σ V))
    (hsends : ∀ l ∈ sends, l.answer = true ∧ Apart (k.stamps r) l.copy ∧ ∃ p ∈ k.members,
      r.synced p = true ∧ l.copy.origin = (r.reg p).origin ∧ l.copy.value = (r.reg p).value) :
    Good k { r with flight := r.flight ++ sends } where
  __ := h
  sent := by
    intro l hl
    rcases mem_append.mp hl with hl | hl
    · exact h.sent l hl
    · obtain ⟨-, hapart, p, hp, -, horigin, hvalue⟩ := hsends l hl
      refine ⟨?_, hapart⟩
      rw [horigin, hvalue]
      exact h.held p hp
  written := by
    intro l hl hplain
    rcases mem_append.mp hl with hl | hl
    · exact h.written l hl hplain
    · rw [(hsends l hl).1] at hplain
      cases hplain
  answers := by
    intro l hl hanswer
    rcases mem_append.mp hl with hl | hl
    · exact h.answers l hl hanswer
    · obtain ⟨-, -, p, hp, hsynced, horigin, -⟩ := hsends l hl
      rw [horigin]
      exact h.synced p hp hsynced
  reached := by
    intro e he q hq
    exact (h.reached e he q hq).imp_right (mem_append_left _)

theorem answer {p : P} (hp : p ∈ k.members) (hsynced : r.synced p = true) (q : P)
    {label : σ} (hapart : Apart (k.stamps r) ⟨label, (r.reg p).origin, (r.reg p).value⟩) :
    Good k { r with
      flight := r.flight ++ [⟨q, ⟨label, (r.reg p).origin, (r.reg p).value⟩, true⟩] } := by
  refine h.answers_sent _ fun l hl => ?_
  obtain rfl := mem_singleton.mp hl
  exact ⟨rfl, hapart, p, hp, hsynced, rfl, rfl⟩

/-- What has arrived from a synced replica is not older than what the others
had at the start. -/
theorem first_le_take {q : P} (hq : q ∈ k.members) {l : Letter P σ V}
    (hl : l ∈ r.flight) (hsynced : (r.synced q || l.answer) = true) :
    k.first.1 ≤ (take (r.reg q) l.copy).origin := by
  obtain ⟨hsent, hapart⟩ := h.sent l hl
  have hcopy : l.copy.origin ∈ k.stamps r := mem_stamps hsent
  have hmine : (r.reg q).origin ∈ k.stamps r := mem_stamps (h.held q hq)
  rcases take_cases (r.reg q) l.copy with ⟨hlt, heq⟩ | ⟨hle, heq⟩ <;> rw [heq]
  · cases hanswer : l.answer with
    | true => exact h.answers l hl hanswer
    | false =>
        rw [hanswer, Bool.or_false] at hsynced
        have hmine' := h.synced q hq hsynced
        have hplain := h.written l hl hanswer
        rcases eq_or_ne l.copy.origin (r.reg q).origin with hsame | hne
        · rw [hsame]
          exact hmine'
        · exact hmine'.trans ((h.apart q hq).origin_lt hcopy hne (hplain ▸ hlt)).le
  · cases hmine' : r.synced q with
    | true => exact h.synced q hq hmine'
    | false =>
        rw [hmine', Bool.false_or] at hsynced
        have hplain := h.plain q hq hmine'
        have hanswer := h.answers l hl hsynced
        -- a plain register below the answer lies between its label and its stamp
        by_contra hlt
        rw [not_le] at hlt
        refine hapart (r.reg q).origin hmine (hlt.trans_le hanswer).ne ?_
        rw [hplain] at hle
        rw [Set.uIcc_of_ge (hle.trans (hlt.le.trans hanswer))]
        exact ⟨hle, hlt.le.trans hanswer⟩

theorem deliver [DecidableEq P] {l : Letter P σ V}
    {before later : List (Letter P σ V)} (hflight : r.flight = before ++ l :: later) :
    Good k { r with
      reg := fun q => if q = l.recipient then take (r.reg q) l.copy else r.reg q
      synced := fun q => if q = l.recipient then r.synced q || l.answer else r.synced q
      flight := before ++ later } := by
  have hl : l ∈ r.flight := hflight ▸ mem_append_right _ mem_cons_self
  have hrest : ∀ m ∈ before ++ later, m ∈ r.flight := by
    intro m hm
    rw [hflight, mem_append, mem_cons]
    rcases mem_append.mp hm with hm | hm
    · exact .inl hm
    · exact .inr (.inr hm)
  have hsent := h.sent l hl
  refine ⟨h.least, h.value, ?_, ?_, ?_, ?_, fun m hm => h.sent m (hrest m hm),
    fun m hm => h.written m (hrest m hm), fun m hm => h.answers m (hrest m hm), ?_⟩
  · intro q hq
    dsimp only
    split
    · rcases take_cases (r.reg q) l.copy with ⟨-, heq⟩ | ⟨-, heq⟩ <;> rw [heq]
      · exact hsent.1
      · exact h.held q hq
    · exact h.held q hq
  · intro q hq
    dsimp only
    split
    · rcases take_cases (r.reg q) l.copy with ⟨-, heq⟩ | ⟨-, heq⟩ <;> rw [heq]
      · exact hsent.2
      · exact h.apart q hq
    · exact h.apart q hq
  · intro q hq hsynced
    dsimp only at hsynced ⊢
    split at hsynced
    · rename_i heq
      rw [if_pos heq]
      exact h.first_le_take hq hl hsynced
    · rename_i hne
      rw [if_neg hne]
      exact h.synced q hq hsynced
  · intro q hq hsynced
    dsimp only at hsynced ⊢
    split at hsynced
    · rename_i heq
      rw [Bool.or_eq_false_iff] at hsynced
      rw [if_pos heq]
      rcases take_cases (r.reg q) l.copy with ⟨-, heq⟩ | ⟨-, heq⟩ <;> rw [heq]
      · exact h.written l hl hsynced.2
      · exact h.plain q hq hsynced.1
    · rename_i hne
      rw [if_neg hne]
      exact h.plain q hq hsynced
  · intro e he q hq
    dsimp only
    rcases h.reached e he q hq with hle | hflying
    · left
      split
      · exact hle.trans (label_le_take _ _)
      · exact hle
    · rw [hflight, mem_append, mem_cons] at hflying
      rcases hflying with hm | rfl | hm
      · exact .inr (mem_append_left _ hm)
      · left
        rw [if_pos rfl]
        exact le_label_take (r.reg q) (Copy.written e.1 e.2)
      · exact .inr (mem_append_right _ hm)

end

/-! ### Agreement -/

/-- **Agreement.** When nothing is under way, the replicas that are not behind
the start hold the value of the greatest stamp; so do all others once a later
value was written. -/
theorem agree (h : Good k r) (hquiet : r.flight = []) : ∃ e ∈ k.all r, ∀ p ∈ k.members,
      k.first.1 ≤ (r.reg p).origin ∨ (∃ u ∈ r.updates, k.first.1 < u.1) →
        (r.reg p).origin = e.1 ∧ (r.reg p).value = e.2 := by
  obtain ⟨e, he⟩ : ∃ e, e ∈ (k.all r).argmax Prod.fst := by
    cases hmax : (k.all r).argmax Prod.fst with
    | none => cases argmax_eq_none.mp hmax
    | some e => exact ⟨e, rfl⟩
  have hall := argmax_mem he
  have htop : ∀ x ∈ k.all r, x.1 ≤ e.1 := fun _ hx => le_of_mem_argmax hx he
  refine ⟨e, hall, fun p hp hor => ?_⟩
  have hheld := h.held p hp
  have horigin : (r.reg p).origin = e.1 := by
    by_cases hupdate : e ∈ r.updates
    · rcases h.reached e hupdate p hp with hle | hflying
      · exact (h.apart p hp).origin_eq (mem_stamps hall) (htop _ hheld) hle
      · rw [hquiet] at hflying
        cases hflying
    · -- the greatest stamp is the one of the start
      have hfirst : e.1 ≤ k.first.1 := by
        rcases mem_cons.mp hall with rfl | hmem
        · exact h.least _ first_mem
        · rcases mem_cons.mp hmem with rfl | hmem
          · exact le_refl _
          · exact absurd hmem hupdate
      rcases hor with hsynced | ⟨u, hu, hlater⟩
      · exact le_antisymm (htop _ hheld) (hfirst.trans hsynced)
      · exact absurd (hlater.trans_le (htop u (mem_cons_of_mem _ (mem_cons_of_mem _ hu))))
          (not_lt.mpr hfirst)
  exact ⟨horigin, h.value _ hheld e hall horigin⟩

end Good

end Rules

end Lww
