import Mathlib.Data.List.Induction
import Mathlib.Data.List.Nodup
import Mathlib.Data.List.Perm.Subperm

/-!
# Trees of hops

A set of edges, each with a source and a destination vertex, is a tree
rooted at a vertex when no edge enters the root, every other vertex has at
most one edge into it, and the source of every edge is reached from the
root. In such a tree a vertex is reached by one walk only (`walk_unique`),
and the backtracking search `visit`, which never returns to a vertex on its
own path, finds it: `visit_eq_some_iff` says that its answer is the walk.

Vertices and edges are of arbitrary types; `src` and `dst` read the ends of
an edge.
-/

namespace Hops

open List

variable {α ε : Type} {src dst : ε → α} {edges : List ε} {root : α}

/-! ## Walks -/

/-- `path` leads from a vertex to another along edges of the set. -/
inductive Walk (src dst : ε → α) (edges : List ε) : α → List ε → α → Prop
  | nil (a : α) : Walk src dst edges a [] a
  | cons {e : ε} {path : List ε} {b : α} :
      e ∈ edges → Walk src dst edges (dst e) path b → Walk src dst edges (src e) (e :: path) b

theorem Walk.single {e : ε} (he : e ∈ edges) : Walk src dst edges (src e) [e] (dst e) :=
  .cons he (.nil _)

theorem Walk.eq_of_nil {a b : α} (h : Walk src dst edges a [] b) : a = b := by
  cases h
  rfl

variable {p : List ε}

theorem Walk.append {a b c : α} {q : List ε} (hp : Walk src dst edges a p b)
    (hq : Walk src dst edges b q c) : Walk src dst edges a (p ++ q) c := by
  induction hp with
  | nil a => exact hq
  | cons he _ ih => exact .cons he (ih hq)

theorem Walk.mem {a b : α} (h : Walk src dst edges a p b) : ∀ e ∈ p, e ∈ edges := by
  induction h with
  | nil a => exact fun e he => absurd he not_mem_nil
  | cons he _ ih => exact forall_mem_cons.mpr ⟨he, ih⟩

/-- A walk over a concatenation passes through a vertex between the parts. -/
theorem Walk.split {a c : α} {q : List ε} : ∀ {p : List ε},
    Walk src dst edges a (p ++ q) c → ∃ b, Walk src dst edges a p b ∧ Walk src dst edges b q c
  | [], h => ⟨a, .nil a, h⟩
  | e :: p, h => by
      cases h with
      | cons he hrest =>
          obtain ⟨b, hp, hq⟩ := Walk.split hrest
          exact ⟨b, .cons he hp, hq⟩

theorem Walk.last {a b : α} {e : ε} (h : Walk src dst edges a (p ++ [e]) b) :
    Walk src dst edges a p (src e) ∧ e ∈ edges ∧ dst e = b := by
  obtain ⟨c, hp, he⟩ := h.split
  cases he with
  | cons hmem hnil => exact ⟨hp, hmem, hnil.eq_of_nil⟩

/-! ## Trees -/

structure Tree (src dst : ε → α) (edges : List ε) (root : α) : Prop where
  rooted : ∀ e ∈ edges, dst e ≠ root
  single : (edges.map dst).Nodup
  connected : ∀ e ∈ edges, ∃ path, Walk src dst edges root path (src e)

section

variable (h : Tree src dst edges root)

include h

theorem Tree.eq_of_dst_eq {e f : ε} (he : e ∈ edges)
    (hf : f ∈ edges) (heq : dst e = dst f) : e = f :=
  inj_on_of_nodup_map h.single he hf heq

/-- In a tree one walk leads from the root to a vertex. The induction is on
the last edge, which is the only edge into the vertex. -/
theorem Tree.walk_unique :
    ∀ {q : List ε} {b : α}, Walk src dst edges root p b → Walk src dst edges root q b → p = q := by
  induction p using reverseRecOn with
  | nil =>
      intro q b hp hq
      cases hp
      cases q using reverseRecOn with
      | nil => rfl
      | append_singleton q f =>
          obtain ⟨-, hf, hdst⟩ := hq.last
          exact absurd hdst (h.rooted f hf)
  | append_singleton p e ih =>
      intro q b hp hq
      obtain ⟨hsrc, he, hdst⟩ := hp.last
      cases q using reverseRecOn with
      | nil =>
          cases hq
          exact absurd hdst (h.rooted e he)
      | append_singleton q f =>
          obtain ⟨hsrc', hf, hdst'⟩ := hq.last
          obtain rfl := h.eq_of_dst_eq he hf (hdst.trans hdst'.symm)
          rw [ih hsrc hsrc']

theorem Tree.walk_nodup :
    ∀ {b : α}, Walk src dst edges root p b → p.Nodup := by
  induction p using reverseRecOn with
  | nil => exact fun _ => nodup_nil
  | append_singleton p e ih =>
      intro b hp
      have hsrc := hp.last.1
      refine nodup_append.mpr ⟨ih hsrc, nodup_singleton e, ?_⟩
      intro f hf g hg hfe
      obtain rfl : g = e := mem_singleton.mp hg
      obtain ⟨p₁, p₂, rfl⟩ := append_of_mem hf
      rw [← hfe] at hsrc
      -- the walk to the source of `e` would pass through `e` itself
      obtain ⟨c, h₁, h₂⟩ := hsrc.split
      cases h₂ with
      | cons _ _ =>
          have hlen := congrArg length (h.walk_unique hsrc h₁)
          simp at hlen

theorem Tree.walk_length_le {b : α}
    (hp : Walk src dst edges root p b) : p.length ≤ edges.length :=
  ((h.walk_nodup hp).subperm hp.mem).length_le

end

/-! ## Search -/

variable [DecidableEq α]

/-- Search for `target` from `a`, reached along `path`; `seen` are the
vertices the path has passed. -/
def visit (src dst : ε → α) (edges : List ε) (target : α) :
    Nat → α → List ε → List α → Option (List ε)
  | 0, _, _, _ => none
  | fuel + 1, a, path, seen =>
      if a = target then some path
      else (edges.filter (src · = a)).findSome? fun e =>
        if dst e ∈ seen then none
        else visit src dst edges target fuel (dst e) (path ++ [e]) (dst e :: seen)

theorem visit_walk {target : α} : ∀ {fuel : Nat} {a : α} {path p : List ε} {seen : List α},
    Walk src dst edges root path a → visit src dst edges target fuel a path seen = some p →
      Walk src dst edges root p target
  | 0, _, _, _, _, _, h => by cases h
  | fuel + 1, a, path, p, seen, hwalk, h => by
      rw [visit] at h
      split at h
      · rename_i ha
        cases h
        exact ha ▸ hwalk
      · obtain ⟨e, he, hfound⟩ := exists_of_findSome?_eq_some h
        obtain ⟨hmem, hsrc⟩ := mem_filter.mp he
        split at hfound
        · cases hfound
        · have hstep : Walk src dst edges a [e] (dst e) := of_decide_eq_true hsrc ▸ Walk.single hmem
          exact visit_walk (hwalk.append hstep) hfound

/-- The vertices passed are the root and the ends of the path's edges. -/
def Passed (dst : ε → α) (root : α) (path : List ε) (seen : List α) : Prop :=
  ∀ v ∈ seen, v = root ∨ ∃ e ∈ path, dst e = v

omit [DecidableEq α] in
/-- In a tree the next edge of a walk never leads back to its path. -/
theorem Tree.fresh (h : Tree src dst edges root) {path : List ε} {seen : List α} {e : ε}
    (hwalk : Walk src dst edges root path (src e)) (he : e ∈ edges)
    (hseen : Passed dst root path seen) : dst e ∉ seen := by
  intro hin
  rcases hseen _ hin with hroot | ⟨f, hf, hdst⟩
  · exact h.rooted e he hroot
  · obtain rfl := h.eq_of_dst_eq (hwalk.mem f hf) he hdst
    have hnodup := h.walk_nodup (hwalk.append (.single he))
    exact (nodup_append.mp hnodup).2.2 f hf f (mem_singleton_self f) rfl

theorem Tree.visit_isSome (h : Tree src dst edges root) {target : α} {rest : List ε} :
    ∀ {fuel : Nat} {a : α} {path : List ε} {seen : List α}, Walk src dst edges root path a →
      Walk src dst edges a rest target → Passed dst root path seen → rest.length < fuel →
      (visit src dst edges target fuel a path seen).isSome = true := by
  induction rest with
  | nil =>
      intro fuel a path seen _ hrest _ hfuel
      cases hrest
      obtain ⟨n, rfl⟩ := Nat.exists_eq_succ_of_ne_zero (Nat.ne_of_gt hfuel)
      rw [visit, if_pos rfl, Option.isSome_some]
  | cons e rest ih =>
      intro fuel a path seen hwalk hrest hseen hfuel
      obtain ⟨n, rfl⟩ := Nat.exists_eq_succ_of_ne_zero (Nat.ne_of_gt (Nat.zero_lt_of_lt hfuel))
      cases hrest with
      | cons he htail =>
          rw [visit]
          split
          · rfl
          · have hpassed : Passed dst root (path ++ [e]) (dst e :: seen) := by
              refine forall_mem_cons.mpr ⟨.inr ⟨e, by simp, rfl⟩, fun v hv => ?_⟩
              exact (hseen v hv).imp_right fun ⟨f, hf, hdst⟩ =>
                ⟨f, mem_append_left _ hf, hdst⟩
            have hfound := ih (hwalk.append (.single he)) htail hpassed
              (Nat.lt_of_succ_lt_succ hfuel)
            rw [findSome?_isSome_iff]
            refine ⟨e, mem_filter.mpr ⟨he, decide_eq_true rfl⟩, ?_⟩
            rw [if_neg (h.fresh hwalk he hseen)]
            exact hfound

/-- **Search in a tree.** The search from the root answers with the walk to
the target, and with nothing exactly when there is none. -/
theorem Tree.visit_eq_some_iff (h : Tree src dst edges root) {target : α} :
    visit src dst edges target (edges.length + 1) root [] [root] = some p
      ↔ Walk src dst edges root p target := by
  constructor
  · exact visit_walk (.nil root)
  · intro hp
    have hseen : Passed dst root [] [root] := fun v hv => .inl (mem_singleton.mp hv)
    have hsome := h.visit_isSome (.nil root) hp hseen (Nat.lt_succ_of_le (h.walk_length_le hp))
    obtain ⟨q, hq⟩ := Option.isSome_iff_exists.mp hsome
    rw [hq, h.walk_unique (visit_walk (.nil root) hq) hp]

end Hops
