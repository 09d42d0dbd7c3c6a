import Mathlib.Algebra.Order.BigOperators.Group.Finset
import Mathlib.Algebra.Order.Ring.Int
import Mathlib.Data.Finset.Max

/-!
# Trees in layers

A finite set of edges, each with a depth, is layered under a root when every edge hangs
from the root or from the child of an edge one layer above. Where no parent has more than
`k` children a layer is at most `k` times the one above; where every child of a layer has
as many it is at least as much. So a tree whose layers are full is not smaller than any
other of the same height.
-/

namespace WebrtcMinimize

namespace Layers

open Finset

variable {α β : Type}

structure Layered (root : β) (parent child : α → β) (depth : α → ℤ) (E : Finset α) : Prop where
  inj : ∀ e ∈ E, ∀ f ∈ E, child e = child f → e = f
  top : ∀ e ∈ E, child e ≠ root
  above : ∀ e ∈ E, (parent e = root ∧ depth e = 1)
    ∨ ∃ f ∈ E, child f = parent e ∧ depth e = depth f + 1

/-- The edges of a depth; the first layer is of depth one. -/
def layer (depth : α → ℤ) (E : Finset α) (j : ℕ) : Finset α := {e ∈ E | depth e = j + 1}

theorem mem_layer {depth : α → ℤ} {E : Finset α} {j : ℕ} {e : α} :
    e ∈ layer depth E j ↔ e ∈ E ∧ depth e = j + 1 := mem_filter

namespace Layered

variable {root : β} {parent child : α → β} {depth : α → ℤ} {E F : Finset α} {k j : ℕ}

section

variable (h : Layered root parent child depth E)

include h

theorem one_le_depth {e : α} (he : e ∈ E) :
    1 ≤ depth e := by
  obtain ⟨least, hleast, hle⟩ := E.exists_min_image depth ⟨e, he⟩
  rcases h.above least hleast with ⟨-, hone⟩ | ⟨f, hf, -, hdepth⟩
  · exact hone ▸ hle e he
  · have hlow := hle f hf
    omega

theorem depth_of_root {e : α} (he : e ∈ E)
    (hroot : parent e = root) : depth e = 1 := by
  rcases h.above e he with ⟨-, hone⟩ | ⟨f, hf, hchild, -⟩
  · exact hone
  · exact absurd (hchild.trans hroot) (h.top f hf)

theorem depth_of_child {e f : α} (he : e ∈ E) (hf : f ∈ E)
    (hparent : parent e = child f) : depth e = depth f + 1 := by
  rcases h.above e he with ⟨hroot, -⟩ | ⟨g, hg, hchild, hdepth⟩
  · exact absurd (hparent.symm.trans hroot) (h.top f hf)
  · rwa [h.inj g hg f hf (hchild.trans hparent)] at hdepth

end

/-! ## Counting by layers -/

theorem card_eq_sum (h : Layered root parent child depth E) {height : ℕ}
    (hheight : ∀ e ∈ E, depth e ≤ height) : #E = ∑ j ∈ range height, #(layer depth E j) := by
  have hmaps : ∀ e ∈ E, (depth e - 1).toNat ∈ range height := by
    intro e he
    have hpos := h.one_le_depth he
    have hle := hheight e he
    rw [mem_range]
    omega
  rw [card_eq_sum_card_fiberwise hmaps]
  refine sum_congr rfl fun j _ => congrArg card (filter_congr fun e he => ?_)
  have hpos := h.one_le_depth he
  omega

theorem sum_le_card (depth : α → ℤ) (E : Finset α) (height : ℕ) :
    ∑ j ∈ range height, #(layer depth E j) ≤ #E := by
  have hmaps : ∀ e ∈ {e ∈ E | (depth e - 1).toNat ∈ range height}, (depth e - 1).toNat ∈ range height :=
    fun e he => (mem_filter.mp he).2
  calc ∑ j ∈ range height, #(layer depth E j)
      ≤ #{e ∈ E | (depth e - 1).toNat ∈ range height} := by
        rw [card_eq_sum_card_fiberwise hmaps]
        refine sum_le_sum fun j hj => card_le_card fun e he => ?_
        obtain ⟨he, hdepth⟩ := mem_layer.mp he
        have heq : (depth e - 1).toNat = j := by omega
        exact mem_filter.mpr ⟨mem_filter.mpr ⟨he, heq ▸ hj⟩, heq⟩
    _ ≤ #E := card_filter_le _ _

/-! ## Layers that are not too large -/

variable [DecidableEq β]

theorem card_layer_zero_le (h : Layered root parent child depth E)
    (hk : ∀ b, #{e ∈ E | parent e = b} ≤ k) : #(layer depth E 0) ≤ k := by
  refine (card_le_card fun e he => ?_).trans (hk root)
  obtain ⟨he, hdepth⟩ := mem_layer.mp he
  rw [mem_filter]
  refine ⟨he, ?_⟩
  rcases h.above e he with ⟨hroot, -⟩ | ⟨f, hf, -, hbelow⟩
  · exact hroot
  · have hpos := h.one_le_depth hf
    omega

theorem card_layer_succ_le (h : Layered root parent child depth E)
    (hk : ∀ b, #{e ∈ E | parent e = b} ≤ k) :
    #(layer depth E (j + 1)) ≤ k * #(layer depth E j) := by
  have hmaps : ∀ e ∈ layer depth E (j + 1), parent e ∈ (layer depth E j).image child := by
    intro e he
    obtain ⟨he, hdepth⟩ := mem_layer.mp he
    rcases h.above e he with ⟨-, hone⟩ | ⟨f, hf, hchild, hbelow⟩
    · omega
    · refine mem_image.mpr ⟨f, mem_layer.mpr ⟨hf, ?_⟩, hchild⟩
      push_cast at hdepth
      omega
  calc #(layer depth E (j + 1))
      ≤ k * #((layer depth E j).image child) := by
        refine card_le_mul_card_image_of_maps_to hmaps k fun b _ => ?_
        exact (card_le_card (filter_subset_filter _ (filter_subset _ _))).trans (hk b)
    _ ≤ k * #(layer depth E j) := Nat.mul_le_mul_left k card_image_le

/-! ## Layers that are full -/

theorem le_card_layer_zero (h : Layered root parent child depth E)
    (hk : k ≤ #{e ∈ E | parent e = root}) : k ≤ #(layer depth E 0) := by
  refine hk.trans (card_le_card fun e he => ?_)
  obtain ⟨he, hroot⟩ := mem_filter.mp he
  rw [mem_layer]
  exact ⟨he, h.depth_of_root he hroot⟩

theorem mul_card_layer_le (h : Layered root parent child depth E)
    (hk : ∀ f ∈ layer depth E j, k ≤ #{e ∈ E | parent e = child f}) :
    k * #(layer depth E j) ≤ #(layer depth E (j + 1)) := by
  have hinj : #((layer depth E j).image child) = #(layer depth E j) :=
    card_image_of_injOn fun e he f hf =>
      h.inj e (mem_layer.mp he).1 f (mem_layer.mp hf).1
  have hmaps : ∀ e ∈ {e ∈ E | parent e ∈ (layer depth E j).image child},
      parent e ∈ (layer depth E j).image child := fun e he => (mem_filter.mp he).2
  calc k * #(layer depth E j)
      = k * #((layer depth E j).image child) := by rw [hinj]
    _ ≤ #{e ∈ E | parent e ∈ (layer depth E j).image child} := by
        refine mul_card_image_le_card_of_maps_to hmaps k fun b hb => ?_
        obtain ⟨f, hf, rfl⟩ := mem_image.mp hb
        refine (hk f hf).trans (card_le_card fun e he => ?_)
        obtain ⟨he, hparent⟩ := mem_filter.mp he
        exact mem_filter.mpr ⟨mem_filter.mpr ⟨he, hparent ▸ hb⟩, hparent⟩
    _ ≤ #(layer depth E (j + 1)) := by
        refine card_le_card fun e he => ?_
        obtain ⟨he, hparent⟩ := mem_filter.mp he
        obtain ⟨f, hf, hchild⟩ := mem_image.mp hparent
        obtain ⟨hf, hdepth⟩ := mem_layer.mp hf
        rw [mem_layer, h.depth_of_child he hf hchild.symm, hdepth]
        exact ⟨he, by push_cast; rfl⟩

/-! ## The whole tree -/

/-- **A tree of full layers is not smaller than another.** -/
theorem card_le_of_full (hE : Layered root parent child depth E)
    (hF : Layered root parent child depth F) {height : ℕ} (hheight : ∀ e ∈ F, depth e ≤ height)
    (hbound : ∀ b, #{e ∈ F | parent e = b} ≤ k) (hroot : k ≤ #{e ∈ E | parent e = root})
    (hfull : ∀ f ∈ E, depth f < height → k ≤ #{e ∈ E | parent e = child f}) : #F ≤ #E := by
  have hlayer : ∀ j < height, #(layer depth F j) ≤ #(layer depth E j) := by
    intro j
    induction j with
    | zero => exact fun _ => (hF.card_layer_zero_le hbound).trans (hE.le_card_layer_zero hroot)
    | succ j ih =>
        intro hj
        refine (hF.card_layer_succ_le hbound).trans ?_
        refine (Nat.mul_le_mul_left k (ih (by omega))).trans (hE.mul_card_layer_le fun f hf => ?_)
        obtain ⟨hf, hdepth⟩ := mem_layer.mp hf
        exact hfull f hf (by omega)
  calc #F = ∑ j ∈ range height, #(layer depth F j) := hF.card_eq_sum hheight
    _ ≤ ∑ j ∈ range height, #(layer depth E j) := sum_le_sum fun j hj => hlayer j (mem_range.mp hj)
    _ ≤ #E := sum_le_card depth E height

end Layered

end Layers

end WebrtcMinimize
