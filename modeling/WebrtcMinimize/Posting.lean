import Mathlib.Data.List.Basic

/-!
# Letters with identifiers

Letters between parties, each with the identifier of its operation. The
parties remember the identifiers they have seen and refuse them the second
time. When identifiers are drawn anew, no letter under way is refused
(`Posted.unseen`), whatever order the letters arrive in.
-/

namespace Posting

open List

variable {P Op κ : Type}

structure Letter (P Op : Type) where
  sender : P
  recipient : P
  operation : Op
deriving DecidableEq

/-- What holds of the letters under way, when `seen` is what each party has
seen and `drawn` the identifiers in use. -/
structure Posted (ok : Letter P Op → Prop) (id : Op → κ) (flight : List (Letter P Op))
    (seen : P → List κ) (drawn : List κ) : Prop where
  letters : ∀ l ∈ flight, ok l
  unseen : ∀ l ∈ flight, id l.operation ∉ seen l.recipient
  distinct : flight.Pairwise fun l m => l.recipient = m.recipient →
    id l.operation ≠ id m.operation
  sent : ∀ l ∈ flight, id l.operation ∈ drawn
  known : ∀ p, ∀ k ∈ seen p, k ∈ drawn

namespace Posted

variable {ok : Letter P Op → Prop} {id : Op → κ} {flight : List (Letter P Op)}
  {seen seen' : P → List κ} {drawn drawn' : List κ}

theorem nil (ok : Letter P Op → Prop) (id : Op → κ) (drawn : List κ) :
    Posted ok id [] (fun _ => []) drawn where
  letters _ hl := absurd hl not_mem_nil
  unseen _ hl := absurd hl not_mem_nil
  distinct := .nil
  sent _ hl := absurd hl not_mem_nil
  known _ _ hk := absurd hk not_mem_nil

theorem send (h : Posted ok id flight seen drawn) {new : List (Letter P Op)}
    (hok : ∀ l ∈ new, ok l) (hdrawn : ∀ k ∈ drawn, k ∈ drawn')
    (hnew : ∀ l ∈ new, id l.operation ∉ drawn ∧ id l.operation ∈ drawn')
    (hdistinct : new.Pairwise fun l m => l.recipient = m.recipient →
      id l.operation ≠ id m.operation)
    (hseen : ∀ p, ∀ k ∈ seen' p, k ∈ seen p
      ∨ k ∉ drawn ∧ k ∈ drawn' ∧ ∀ l ∈ new, l.recipient = p → id l.operation ≠ k) :
    Posted ok id (flight ++ new) seen' drawn' where
  letters l hl := (mem_append.mp hl).elim (h.letters l) (hok l)
  unseen := by
    intro l hl hmem
    rcases mem_append.mp hl with hl | hl
    · rcases hseen _ _ hmem with hmem | ⟨hfresh, -, -⟩
      · exact h.unseen l hl hmem
      · exact hfresh (h.sent l hl)
    · rcases hseen _ _ hmem with hmem | ⟨-, -, hother⟩
      · exact (hnew l hl).1 (h.known _ _ hmem)
      · exact hother l hl rfl rfl
  distinct := by
    refine pairwise_append.mpr ⟨h.distinct, hdistinct, ?_⟩
    intro l hl m hm _ heq
    exact (hnew m hm).1 (heq ▸ h.sent l hl)
  sent := by
    intro l hl
    rcases mem_append.mp hl with hl | hl
    · exact hdrawn _ (h.sent l hl)
    · exact (hnew l hl).2
  known := by
    intro p k hk
    rcases hseen p k hk with hk | ⟨-, hk, -⟩
    · exact hdrawn k (h.known p k hk)
    · exact hk

theorem arrive {before later : List (Letter P Op)} {l : Letter P Op}
    (h : Posted ok id (before ++ l :: later) seen drawn)
    (hseen : ∀ p, ∀ k ∈ seen' p, k ∈ seen p ∨ p = l.recipient ∧ k = id l.operation) :
    Posted ok id (before ++ later) seen' drawn := by
  have hdistinct := h.distinct
  rw [pairwise_append, pairwise_cons] at hdistinct
  obtain ⟨hbefore, ⟨hlater, hrest⟩, hcross⟩ := hdistinct
  have hl : l ∈ before ++ l :: later := mem_append_right _ mem_cons_self
  have hold : ∀ m ∈ before ++ later, m ∈ before ++ l :: later
      ∧ (m.recipient = l.recipient → id m.operation ≠ id l.operation) := by
    intro m hm
    rcases mem_append.mp hm with hm | hm
    · exact ⟨mem_append_left _ hm, hcross m hm l mem_cons_self⟩
    · exact ⟨mem_append_right _ (mem_cons_of_mem _ hm), fun heq => (hlater m hm heq.symm).symm⟩
  refine ⟨fun m hm => h.letters m (hold m hm).1, ?_, ?_, fun m hm => h.sent m (hold m hm).1, ?_⟩
  · intro m hm hmem
    rcases hseen _ _ hmem with hmem | ⟨hp, hk⟩
    · exact h.unseen m (hold m hm).1 hmem
    · exact (hold m hm).2 hp hk
  · refine pairwise_append.mpr ⟨hbefore, hrest, ?_⟩
    exact fun a ha b hb => hcross a ha b (mem_cons_of_mem _ hb)
  · intro p k hk
    rcases hseen p k hk with hk | ⟨-, rfl⟩
    · exact h.known p k hk
    · exact h.sent l hl

end Posted

theorem split_at {l : Letter P Op} {flight : List (Letter P Op)} {i : Nat}
    (h : flight[i]? = some l) :
    ∃ before later, flight = before ++ l :: later ∧ flight.eraseIdx i = before ++ later := by
  obtain ⟨hlt, hl⟩ := List.getElem?_eq_some_iff.mp h
  refine ⟨flight.take i, flight.drop (i + 1), ?_, eraseIdx_eq_take_drop_succ ..⟩
  rw [← hl, getElem_cons_drop, take_append_drop]

/-- To everyone but the sender. -/
def toOthers [DecidableEq P] (members : List P) (p : P) (op : Op) : List (Letter P Op) :=
  (members.filter fun q => q ≠ p).map fun q => ⟨p, q, op⟩

theorem mem_toOthers [DecidableEq P] {members : List P} {p : P} {op : Op} {l : Letter P Op} :
    l ∈ toOthers members p op
      ↔ l.sender = p ∧ l.recipient ∈ members ∧ l.recipient ≠ p ∧ l.operation = op := by
  rw [toOthers, mem_map]
  constructor
  · rintro ⟨q, hq, rfl⟩
    obtain ⟨hmem, hne⟩ := mem_filter.mp hq
    exact ⟨rfl, hmem, by simpa using hne, rfl⟩
  · rintro ⟨rfl, hmem, hne, rfl⟩
    exact ⟨l.recipient, mem_filter.mpr ⟨hmem, by simpa using hne⟩, rfl⟩

theorem toOthers_distinct [DecidableEq P] {members : List P} (h : members.Nodup) (p : P) (op : Op)
    (id : Op → κ) : (toOthers members p op).Pairwise fun l m => l.recipient = m.recipient →
      id l.operation ≠ id m.operation := by
  refine pairwise_map.mpr (List.Pairwise.imp ?_ (h.filter _))
  exact fun hne heq => absurd heq hne

end Posting
