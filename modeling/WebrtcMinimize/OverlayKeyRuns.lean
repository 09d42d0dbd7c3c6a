import Mathlib.Data.List.Induction
import WebrtcMinimize.OverlayKeys
import WebrtcMinimize.Runs

/-!
# The last announced key wins

An import that was cancelled tries again with the key it was called with. The
attempts are there for a rotation that has cancelled the import; but an import
is also cancelled by a later key of the same peer, and its next attempt then
removes that key. `Newest` keeps the runs without such an attempt. In these runs
the overlay, when it is idle, holds the last key that each peer has announced in
the present membership epoch.
-/

namespace WebrtcMinimize

namespace OverlayKeys

open Runs Mesh KeyedMap List Option Prod Nat
open Bool hiding not_or

variable {PeerId Key : Type}

/-! ## The condition -/

section Condition

variable [DecidableEq PeerId]

/-- A cancelled import that has attempts left is the last call for its peer. -/
def Newest (s : Mesh PeerId Key) : Event PeerId Key → Prop
  | .imported i => ∀ x ∈ s.importing[i]?, s.unchanged x = false →
      x.call.attempt + 1 < maxAttempts → s.has x.call.peerId = true →
        s.latest.get x.call.peerId = some x.call.serial
  | _ => True

instance (s : Mesh PeerId Key) (e : Event PeerId Key) : Decidable (Newest s e) := by
  cases e
  case imported i => exact inferInstanceAs (Decidable (∀ x ∈ s.importing[i]?, _))
  all_goals exact isTrue trivial

def Step (s : Mesh PeerId Key) (e : Event PeerId Key) (t : Mesh PeerId Key) : Prop := t = s.next e

end Condition

/-! ## Stamps -/

section Stamps

variable {es : List (Event PeerId Key)} {e : Event PeerId Key}

theorem honest_concat (h : Honest (es ++ [e])) : Honest es
    ∧ ∀ n, e.stamp = some n → 1 ≤ n ∧ ∀ m ∈ es.filterMap Event.stamp, m ≤ n := by
  rw [Honest, filterMap_append, ← cons_append, pairwise_append] at h
  obtain ⟨hes, -, hcross⟩ := h
  refine ⟨hes, fun n hn => ?_⟩
  have hmem : n ∈ [e].filterMap Event.stamp := by
    rw [filterMap_cons_some hn]
    exact mem_cons_self
  exact ⟨hcross 1 mem_cons_self n hmem, fun m hm => hcross m (mem_cons_of_mem _ hm) n hmem⟩

theorem mem_stamps {n : Nat} : n ∈ (es ++ [e]).filterMap Event.stamp
    ↔ n ∈ es.filterMap Event.stamp ∨ e.stamp = some n := by
  rw [filterMap_append, mem_append]
  refine or_congr_right ?_
  cases h : e.stamp with
  | none => simp [h]
  | some m => simp [h, eq_comm]

theorem getLast_of_filter {ks : List (Nat × Key)} {n : Nat} {m : Nat × Key}
    (hsorted : ks.Pairwise fun a b => a.1 ≤ b.1) (hle : ∀ k ∈ ks, k.1 ≤ n)
    (h : (ks.filter fun k => k.1 == n).getLast? = some m) : ks.getLast? = some m := by
  rcases ks.eq_nil_or_concat with rfl | ⟨front, last, rfl⟩
  · cases h
  · rw [concat_eq_append] at hsorted hle h ⊢
    rw [getLast?_concat]
    by_cases heq : last.1 = n
    · rw [filter_append, filter_singleton, beq_iff_eq.mpr heq] at h
      exact (getLast?_concat ▸ h)
    · have hlt : last.1 < n := lt_of_le_of_ne (hle last (by simp)) heq
      have hnone : (front ++ [last]).filter (fun k => k.1 == n) = [] := by
        refine filter_eq_nil_iff.mpr fun k hk hkn => ?_
        have hk' : k.1 ≤ last.1 := by
          rcases mem_append.mp hk with hk | hk
          · exact (pairwise_append.mp hsorted).2.2 k hk last (mem_singleton_self _)
          · rw [mem_singleton.mp hk]
        rw [beq_iff_eq] at hkn
        omega
      rw [hnone] at h
      cases h

end Stamps

/-! ## Rotations -/

namespace Mesh

variable (s : Mesh PeerId Key)

/-- The lifetime of the overlay, and whether it has its key pair. -/
def shape : Option (Nat × Bool) := s.overlay.map fun o => (o.lifetime, o.keyPair)

/-- What the rotations are about. -/
def gear : List Rotation × Nat × Nat × Bool × Nat × Nat × Option (Nat × Bool) :=
  (s.rotations, s.settled, s.overlayGeneration, s.overlayPublicKey, s.lifetime, s.membershipEpoch,
    s.shape)

end Mesh

/-- The overlay is the one that the rotation has made. -/
def Staged (s : Mesh PeerId Key) : Stage → Prop
  | .queued => True
  | .loading lifetime => lifetime = s.lifetime
  | .generating lifetime overlay => lifetime = s.lifetime ∧ s.shape.map fst = some overlay
  | .exporting lifetime overlay => lifetime = s.lifetime ∧ s.shape.map fst = some overlay

/-- What holds of the rotations. -/
structure Rotating (s : Mesh PeerId Key) : Prop where
  rising : (s.rotations.map Rotation.generation).Pairwise (· < ·)
  bound : ∀ r ∈ s.rotations, r.generation ≤ s.overlayGeneration
  last : ∀ r ∈ s.rotations.getLast?, r.generation = s.overlayGeneration
  queued : ∀ r ∈ s.rotations.tail, r.stage = .queued
  staged : ∀ r ∈ s.rotations.head?, Staged s r.stage
  announced : s.overlayPublicKey = true → s.rotations = [] ∧ ∃ lifetime, s.shape = some (lifetime, true)
  settled : s.rotations = [] → 1 ≤ s.membershipEpoch → s.overlayPublicKey = true

section Rotations

variable {s t : Mesh PeerId Key}

theorem start_rotating (ownId : PeerId) : Rotating (start ownId : Mesh PeerId Key) := by
  refine ⟨.nil, ?_, ?_, ?_, ?_, ?_, ?_⟩
  · exact fun r hr => absurd hr not_mem_nil
  · intro r hr
    cases hr
  · exact fun r hr => absurd hr not_mem_nil
  · intro r hr
    cases hr
  · intro h
    cases h
  · intro _ h
    exact absurd h (not_succ_le_zero 0)

theorem Staged.congr {stage : Stage} (h : Staged s stage) (hlifetime : t.lifetime = s.lifetime)
    (hshape : t.shape = s.shape) : Staged t stage := by
  cases stage with
  | queued => trivial
  | loading lifetime => exact h.trans hlifetime.symm
  | generating lifetime overlay => exact ⟨h.1.trans hlifetime.symm, hshape ▸ h.2⟩
  | exporting lifetime overlay => exact ⟨h.1.trans hlifetime.symm, hshape ▸ h.2⟩

theorem Rotating.congr (h : Rotating s) (hgear : t.gear = s.gear) : Rotating t := by
  simp only [gear, Prod.mk.injEq] at hgear
  obtain ⟨hrotations, -, hgeneration, hkey, hlifetime, hepoch, hshape⟩ := hgear
  refine ⟨?_, ?_, ?_, ?_, ?_, ?_, ?_⟩
  · rw [hrotations]
    exact h.rising
  · rw [hrotations, hgeneration]
    exact h.bound
  · rw [hrotations, hgeneration]
    exact h.last
  · rw [hrotations]
    exact h.queued
  · rw [hrotations]
    exact fun r hr => (h.staged r hr).congr hlifetime hshape
  · rw [hkey, hrotations, hshape]
    exact h.announced
  · rw [hrotations, hepoch, hkey]
    exact h.settled

theorem Rotating.ready (h : Rotating s) (hnone : s.rotations = []) (hepoch : 1 ≤ s.membershipEpoch) :
    ∃ o, s.overlay = some o ∧ o.keyPair = true := by
  obtain ⟨-, lifetime, hshape⟩ := h.announced (h.settled hnone hepoch)
  obtain ⟨o, ho, heq⟩ := map_eq_some_iff.mp hshape
  exact ⟨o, ho, (mk.inj heq).2⟩

variable {r : Rotation} {rest : List Rotation}

section

variable (h : Rotating s)

include h

theorem Rotating.unannounced
    (hrotations : s.rotations = r :: rest) : s.overlayPublicKey = false := by
  cases hkey : s.overlayPublicKey with
  | false => rfl
  | true =>
      rw [(h.announced hkey).1] at hrotations
      cases hrotations

theorem Rotating.over (hrotations : s.rotations = r :: t.rotations)
    (hgeneration : t.overlayGeneration = s.overlayGeneration)
    (hannounced : t.overlayPublicKey = true → t.rotations = [] ∧ ∃ lifetime, t.shape = some (lifetime, true))
    (hsettled : t.rotations = [] → t.overlayPublicKey = true) : Rotating t := by
  have hrising := h.rising
  have hbound := h.bound
  have hlast := h.last
  have hqueued := h.queued
  rw [hrotations] at hrising hbound hlast hqueued
  refine ⟨hrising.of_cons, ?_, ?_, ?_, ?_, hannounced, fun hnone _ => hsettled hnone⟩
  · rw [hgeneration]
    exact fun r' hr => hbound r' (mem_cons_of_mem _ hr)
  · intro r' hr
    rw [hgeneration]
    refine hlast r' ?_
    rw [getLast?_cons, hr]
    rfl
  · exact fun r' hr => hqueued r' (mem_of_mem_tail hr)
  · intro r' hr
    rw [hqueued r' (mem_of_head? hr)]
    trivial

theorem Rotating.outdated (hrotations : s.rotations = r :: t.rotations)
    (hold : r.generation ≠ s.overlayGeneration)
    (hgeneration : t.overlayGeneration = s.overlayGeneration)
    (hkey : t.overlayPublicKey = s.overlayPublicKey) : Rotating t := by
  refine h.over hrotations hgeneration (fun htrue => ?_) (fun hnone => ?_)
  · rw [hkey, h.unannounced hrotations] at htrue
    cases htrue
  · rw [hnone] at hrotations
    refine absurd (h.last r ?_) hold
    rw [hrotations]
    rfl

theorem Rotating.goes (stage : Stage)
    (hrotations : s.rotations = r :: rest) (ht : t.rotations = ⟨r.generation, stage⟩ :: rest)
    (hgeneration : t.overlayGeneration = s.overlayGeneration)
    (hkey : t.overlayPublicKey = s.overlayPublicKey) (hstaged : Staged t stage) : Rotating t := by
  have hrising := h.rising
  have hbound := h.bound
  have hlast := h.last
  have hqueued := h.queued
  rw [hrotations] at hrising hbound hlast hqueued
  refine ⟨?_, ?_, ?_, ?_, ?_, ?_, ?_⟩
  · rw [ht]
    exact hrising
  · rw [ht, hgeneration]
    intro r' hr
    rcases mem_cons.mp hr with rfl | hr
    · exact hbound r mem_cons_self
    · exact hbound r' (mem_cons_of_mem _ hr)
  · rw [ht, hgeneration]
    intro r' hr
    cases rest with
    | nil =>
        cases hr
        exact hlast r rfl
    | cons r₁ rest => exact hlast r' hr
  · rw [ht]
    exact hqueued
  · rw [ht]
    intro r' hr
    cases hr
    exact hstaged
  · rw [hkey, h.unannounced hrotations]
    intro htrue
    cases htrue
  · rw [ht]
    intro hnone
    cases hnone

theorem Rotating.head
    (hrotations : s.rotations = r :: rest) : Staged s r.stage := by
  refine h.staged r ?_
  rw [hrotations]
  rfl

end

theorem shape_of_staged {overlay : Nat} (h : s.shape.map fst = some overlay) :
    ∃ o, s.overlay = some o ∧ o.lifetime = overlay := by
  rw [shape, Option.map_map] at h
  exact Option.map_eq_some_iff.mp h

theorem initializing_of_staged {overlay : Nat} (h : s.shape.map fst = some overlay) :
    s.initializing overlay = true := by
  obtain ⟨o, ho, rfl⟩ := shape_of_staged h
  rw [initializing, ho, any_some, beq_self_eq_true]

theorem Rotating.rotation (h : Rotating s) : Rotating s.rotation := by
  unfold Mesh.rotation
  split
  · exact h
  · rename_i r rest hrotations
    have hstaged := h.head hrotations
    split
    · split
      · rename_i hold
        exact h.outdated (by rw [hrotations, settle, hrotations, tail_cons]) hold rfl rfl
      · refine h.goes (.loading s.fresh) hrotations ?_ rfl rfl rfl
        rw [setStage, destroyOverlay, hrotations, modifyHead_cons]
    · rename_i lifetime hstage
      rw [hstage] at hstaged
      rw [if_neg (not_not.mpr (show lifetime = s.lifetime from hstaged))]
      refine h.goes (.generating lifetime s.fresh) hrotations ?_ rfl rfl ⟨hstaged, rfl⟩
      rw [setStage, hrotations, modifyHead_cons]
    · rename_i lifetime overlay hstage
      rw [hstage] at hstaged
      rw [initializing_of_staged hstaged.2, if_neg true_eq_false_eq_False]
      refine h.goes (.exporting lifetime overlay) hrotations ?_ rfl rfl hstaged
      rw [setStage, hrotations, modifyHead_cons]
    · rename_i lifetime overlay hstage
      rw [hstage] at hstaged
      rw [initializing_of_staged hstaged.2, if_neg (by simpa using hstaged.1)]
      split
      · rename_i hold
        exact h.outdated (by rw [hrotations, settle, destroyOverlay, hrotations, tail_cons])
          hold rfl rfl
      · rename_i hnew
        -- it is the last one, so nothing else rotates
        have hnone : rest = [] := by
          cases rest with
          | nil => rfl
          | cons r₁ rest =>
              have hrising := h.rising
              have hlast : (r₁ :: rest).getLast? = some _ :=
                getLast?_eq_some_getLast (cons_ne_nil r₁ rest)
              generalize (r₁ :: rest).getLast (cons_ne_nil r₁ rest) = last at hlast
              have heq : last.generation = s.overlayGeneration := by
                refine h.last last ?_
                rw [hrotations, mem_def, getLast?_cons_cons]
                exact hlast
              rw [hrotations, map_cons, pairwise_cons] at hrising
              have hlt := hrising.1 last.generation (mem_map_of_mem (mem_of_getLast? hlast))
              omega
        obtain ⟨o, ho, -⟩ := shape_of_staged hstaged.2
        refine h.over (r := r) ?_ rfl (fun _ => ⟨?_, o.lifetime, ?_⟩) (fun _ => rfl)
        · show s.rotations = r :: s.rotations.tail
          rw [hrotations, tail_cons]
        · show s.rotations.tail = []
          rw [hrotations, tail_cons, hnone]
        · rw [shape, settle, ho]
          rfl

theorem Rotating.rotate (h : Rotating s) (ht : t.rotations = s.rotations)
    (hgeneration : t.overlayGeneration = s.overlayGeneration) (hlifetime : t.lifetime = s.lifetime)
    (hshape : t.shape = s.shape) : Rotating t.rotateOverlayKey := by
  have hrotations : t.rotateOverlayKey.rotations
      = s.rotations ++ [⟨s.overlayGeneration + 1, .queued⟩] := by
    rw [rotateOverlayKey, ht, hgeneration]
  refine ⟨?_, ?_, ?_, ?_, ?_, ?_, ?_⟩
  · rw [hrotations, map_append, pairwise_append]
    refine ⟨h.rising, pairwise_singleton _ _, ?_⟩
    intro n hn m hm
    obtain ⟨r, hr, rfl⟩ := mem_map.mp hn
    obtain rfl := mem_singleton.mp hm
    exact lt_succ_of_le (h.bound r hr)
  · rw [hrotations]
    intro r hr
    rw [rotateOverlayKey, hgeneration]
    rcases mem_append.mp hr with hr | hr
    · exact le_succ_of_le (h.bound r hr)
    · rw [mem_singleton.mp hr]
  · rw [hrotations]
    intro r hr
    rw [mem_def, getLast?_concat] at hr
    cases hr
    rw [rotateOverlayKey, hgeneration]
  · rw [hrotations]
    intro r hr
    cases hs : s.rotations with
    | nil =>
        rw [hs] at hr
        exact absurd hr not_mem_nil
    | cons r₀ rest =>
        have hqueued := h.queued
        rw [hs, cons_append, tail_cons, mem_append] at hr
        rw [hs, tail_cons] at hqueued
        rcases hr with hr | hr
        · exact hqueued r hr
        · rw [mem_singleton.mp hr]
  · rw [hrotations]
    intro r hr
    cases hs : s.rotations with
    | nil =>
        rw [hs] at hr
        cases hr
        trivial
    | cons r₀ rest =>
        rw [hs] at hr
        cases hr
        exact (h.head hs).congr hlifetime hshape
  · intro htrue
    cases htrue
  · intro hnone
    exact absurd hnone (append_ne_nil_of_right_ne_nil _ (cons_ne_nil _ _))

theorem Rotating.epoch (h : Rotating s) (ht : t.rotations = s.rotations)
    (hgeneration : t.overlayGeneration = s.overlayGeneration) (hlifetime : t.lifetime = s.lifetime)
    (hkey : t.overlayPublicKey = s.overlayPublicKey) (hshape : t.shape = s.shape)
    (hepoch : t.membershipEpoch = s.membershipEpoch ∨ s.overlayPublicKey = true) : Rotating t := by
  refine ⟨?_, ?_, ?_, ?_, ?_, ?_, ?_⟩
  · rw [ht]
    exact h.rising
  · rw [ht, hgeneration]
    exact h.bound
  · rw [ht, hgeneration]
    exact h.last
  · rw [ht]
    exact h.queued
  · rw [ht]
    exact fun r hr => (h.staged r hr).congr hlifetime hshape
  · rw [ht, hkey, hshape]
    exact h.announced
  · rw [ht, hkey]
    rcases hepoch with hepoch | hepoch
    · rw [hepoch]
      exact h.settled
    · exact fun _ _ => hepoch

/-- Who is in the room, and what is buffered. -/
def Mesh.roster (s : Mesh PeerId Key) : PeerId × KeyedMap PeerId Nat × KeyedMap PeerId (Nat × Key) :=
  (s.ownId, s.peers, s.bufferedOverlayKeys)

theorem rotation_roster : s.rotation.roster = s.roster ∧ s.rotation.membershipEpoch = s.membershipEpoch := by
  unfold Mesh.rotation
  split
  · exact ⟨rfl, rfl⟩
  · split
    · split <;> exact ⟨rfl, rfl⟩
    · split <;> exact ⟨rfl, rfl⟩
    · split <;> exact ⟨rfl, rfl⟩
    · split
      · exact ⟨rfl, rfl⟩
      · split <;> exact ⟨rfl, rfl⟩

end Rotations

variable [DecidableEq PeerId]

/-! ## Calls -/

section Calls

variable {s t : Mesh PeerId Key}

@[simp] theorem tryOnce_gear (call : Call PeerId Key) : (s.tryOnce call).gear = s.gear := by
  unfold tryOnce
  split <;> rfl

@[simp] theorem tryAgain_gear (call : Call PeerId Key) : (s.tryAgain call).gear = s.gear := by
  unfold tryAgain
  split
  · rfl
  · exact tryOnce_gear _

theorem apply_gear (peerId : PeerId) (key : Key) :
    (s.applyPeerOverlayKey peerId key).gear = s.gear := tryOnce_gear _

theorem setPeerKey_gear (call : Call PeerId Key) : (s.setPeerKey call).gear = s.gear := by
  unfold setPeerKey
  split
  · exact tryAgain_gear call
  · rename_i o ho
    split
    · rfl
    · simp only [gear, shape, ho]
      rfl

theorem resume_gear : s.resume.gear = s.gear := by
  unfold resume
  split
  · rfl
  · split
    · rfl
    · split
      · rfl
      · exact setPeerKey_gear _

theorem imported_gear (i : Nat) : (s.imported i).gear = s.gear := by
  unfold imported
  split
  · rfl
  · split
    · exact tryAgain_gear _
    · simp only [gear, shape, Option.map_map]
      rfl

theorem addPeer_gear (peerId : PeerId) : (s.addPeer peerId).gear = s.gear := by
  unfold addPeer
  split <;> rfl

theorem removePeer_gear (peerId : PeerId) : (s.removePeer peerId).gear = s.gear := by
  unfold removePeer
  split
  · rfl
  · simp only [gear, shape, Option.map_map]
    rfl

theorem resetPeer_gear (peerId : PeerId) : (s.resetPeer peerId).gear = s.gear := by
  unfold resetPeer
  split
  · rfl
  · exact (addPeer_gear peerId).trans (removePeer_gear peerId)

theorem flushOne_gear (e : PeerId × (Nat × Key)) : (s.flushOne e).gear = s.gear := by
  unfold flushOne
  split
  · rfl
  · split
    · exact apply_gear _ _
    · rfl

theorem foldl_flushOne_gear (entries : List (PeerId × (Nat × Key))) :
    (entries.foldl flushOne s).gear = s.gear := by
  induction entries generalizing s with
  | nil => rfl
  | cons e entries ih => exact ih.trans (flushOne_gear e)

theorem acceptOverlayKey_gear (peerId : PeerId) (membershipEpoch : Nat) (key : Key) :
    (s.acceptOverlayKey peerId membershipEpoch key).gear = s.gear := by
  unfold acceptOverlayKey
  split
  · rfl
  · split
    · rfl
    · split
      · rfl
      · exact apply_gear _ _

/-- What holds of the calls and their numbers. -/
structure Numbered (s : Mesh PeerId Key) : Prop where
  own : s.peers.get s.ownId = none
  serials : ∀ w ∈ s.waiting, w.call.serial < s.fresh
  operations : ∀ x ∈ s.importing, x.call.serial < s.fresh ∧ x.operation < s.fresh
  distinct : (s.importing.map Import.operation).Nodup
  awaited : ∀ w ∈ s.waiting, w.call.fence.generation ≤ s.overlayGeneration
    ∧ (w.call.fence.generation = s.overlayGeneration → w.awaited = s.settled + s.rotations.length)

theorem start_numbered (ownId : PeerId) : Numbered (start ownId : Mesh PeerId Key) := by
  refine ⟨rfl, ?_, ?_, .nil, ?_⟩
  · exact fun w hw => absurd hw not_mem_nil
  · exact fun x hx => absurd hx not_mem_nil
  · exact fun w hw => absurd hw not_mem_nil

section

variable (h : Numbered s)

include h

theorem Numbered.congr (hown : t.peers.get t.ownId = none)
    (hwaiting : t.waiting = s.waiting) (himporting : t.importing = s.importing)
    (hfresh : s.fresh ≤ t.fresh) (hgeneration : t.overlayGeneration = s.overlayGeneration)
    (htotal : t.settled + t.rotations.length = s.settled + s.rotations.length) : Numbered t := by
  refine ⟨hown, ?_, ?_, ?_, ?_⟩
  · rw [hwaiting]
    exact fun w hw => lt_of_lt_of_le (h.serials w hw) hfresh
  · rw [himporting]
    intro x hx
    obtain ⟨h₁, h₂⟩ := h.operations x hx
    exact ⟨lt_of_lt_of_le h₁ hfresh, lt_of_lt_of_le h₂ hfresh⟩
  · rw [himporting]
    exact h.distinct
  · rw [hwaiting, hgeneration, htotal]
    exact h.awaited

theorem Numbered.tryOnce {call : Call PeerId Key} (hserial : call.serial < s.fresh) :
    Numbered (s.tryOnce call) := by
  unfold Mesh.tryOnce
  split
  · exact h
  · refine ⟨h.own, ?_, h.operations, h.distinct, ?_⟩
    · intro w hw
      rcases mem_append.mp hw with hw | hw
      · exact h.serials w hw
      · rw [mem_singleton.mp hw]
        exact hserial
    · intro w hw
      rcases mem_append.mp hw with hw | hw
      · exact h.awaited w hw
      · rw [mem_singleton.mp hw]
        exact ⟨le_refl _, fun _ => rfl⟩

theorem Numbered.tryAgain {call : Call PeerId Key} (hserial : call.serial < s.fresh) :
    Numbered (s.tryAgain call) := by
  unfold Mesh.tryAgain
  split
  · exact h
  · exact h.tryOnce hserial

theorem Numbered.apply (peerId : PeerId) (key : Key) :
    Numbered (s.applyPeerOverlayKey peerId key) := by
  have hnext : Numbered { s with fresh := s.fresh + 1, latest := s.latest.set peerId s.fresh } :=
    h.congr h.own rfl rfl (le_succ _) rfl rfl
  exact hnext.tryOnce (lt_succ_self _)

theorem Numbered.setPeerKey {call : Call PeerId Key}
    (hserial : call.serial < s.fresh) : Numbered (s.setPeerKey call) := by
  unfold Mesh.setPeerKey
  split
  · exact h.tryAgain hserial
  · split
    · exact h
    · refine ⟨h.own, ?_, ?_, ?_, h.awaited⟩
      · exact fun w hw => lt_succ_of_lt (h.serials w hw)
      · intro x hx
        rcases mem_append.mp hx with hx | hx
        · obtain ⟨h₁, h₂⟩ := h.operations x hx
          exact ⟨lt_succ_of_lt h₁, lt_succ_of_lt h₂⟩
        · rw [mem_singleton.mp hx]
          exact ⟨lt_succ_of_lt hserial, lt_succ_self _⟩
      · rw [map_append, map_singleton, nodup_append]
        refine ⟨h.distinct, nodup_singleton _, ?_⟩
        intro n hn m hm heq
        obtain ⟨x, hx, rfl⟩ := mem_map.mp hn
        rw [mem_singleton.mp hm] at heq
        exact absurd (h.operations x hx).2 (heq ▸ lt_irrefl _)

theorem Numbered.tail {w : Waiting PeerId Key} {rest : List (Waiting PeerId Key)}
    (hwaiting : s.waiting = w :: rest) : Numbered { s with waiting := rest } := by
  have hsub : ∀ x ∈ rest, x ∈ s.waiting := by
    rw [hwaiting]
    exact fun x hx => mem_cons_of_mem _ hx
  exact ⟨h.own, fun x hx => h.serials x (hsub x hx), h.operations, h.distinct,
    fun x hx => h.awaited x (hsub x hx)⟩

theorem Numbered.resume : Numbered s.resume := by
  unfold Mesh.resume
  split
  · exact h
  · rename_i w rest hwaiting
    have hserial : w.call.serial < s.fresh := h.serials w (hwaiting ▸ mem_cons_self)
    split
    · exact h
    · split
      · exact h.tail hwaiting
      · exact (h.tail hwaiting).setPeerKey hserial

theorem Numbered.eraseIdx (i : Nat) :
    Numbered { s with importing := s.importing.eraseIdx i } := by
  have hsub := eraseIdx_sublist s.importing i
  exact ⟨h.own, h.serials, fun x hx => h.operations x (hsub.subset hx),
    h.distinct.sublist (hsub.map _), h.awaited⟩

theorem Numbered.imported (i : Nat) : Numbered (s.imported i) := by
  unfold Mesh.imported
  split
  · exact h
  · rename_i x hx
    split
    · exact (h.eraseIdx i).tryAgain (h.operations x (mem_of_getElem? hx)).1
    · exact (h.eraseIdx i).congr h.own rfl rfl (le_refl _) rfl rfl

theorem Numbered.addPeer (peerId : PeerId) : Numbered (s.addPeer peerId) := by
  unfold Mesh.addPeer
  split
  · exact h
  · rename_i hne
    refine h.congr ?_ rfl rfl (le_succ _) rfl rfl
    exact (get_set_of_ne _ _ fun heq => hne (.inl heq.symm)).trans h.own

theorem Numbered.removePeer (peerId : PeerId) : Numbered (s.removePeer peerId) := by
  unfold Mesh.removePeer
  split
  · exact h
  · refine h.congr ?_ rfl rfl (le_refl _) rfl rfl
    rw [get_erase, h.own, ite_self]

theorem Numbered.resetPeer (peerId : PeerId) : Numbered (s.resetPeer peerId) := by
  unfold Mesh.resetPeer
  split
  · exact h
  · have hadded := (h.removePeer peerId).addPeer peerId
    exact hadded.congr hadded.own rfl rfl (le_refl _) rfl rfl

theorem Numbered.rotation : Numbered s.rotation := by
  unfold Mesh.rotation
  split
  · exact h
  · rename_i r rest hrotations
    -- one rotation less is one more that is over
    have htotal : s.settled + 1 + s.rotations.tail.length = s.settled + s.rotations.length := by
      rw [hrotations, tail_cons, length_cons]
      omega
    have hlength : ∀ stage, (s.rotations.modifyHead fun r => ⟨r.generation, stage⟩).length
        = s.rotations.length := fun stage => length_modifyHead
    split
    · split
      · exact h.congr h.own rfl rfl (le_refl _) rfl htotal
      · exact h.congr h.own rfl rfl (le_succ _) rfl (congrArg (s.settled + ·) (hlength _))
    · split
      · exact h.congr h.own rfl rfl (le_refl _) rfl htotal
      · exact h.congr h.own rfl rfl (le_succ _) rfl (congrArg (s.settled + ·) (hlength _))
    · split
      · exact h.congr h.own rfl rfl (le_refl _) rfl htotal
      · exact h.congr h.own rfl rfl (le_refl _) rfl (congrArg (s.settled + ·) (hlength _))
    · split
      · exact h.congr h.own rfl rfl (le_refl _) rfl htotal
      · split
        · exact h.congr h.own rfl rfl (le_succ _) rfl htotal
        · exact h.congr h.own rfl rfl (le_refl _) rfl htotal

theorem Numbered.rotate : Numbered s.rotateOverlayKey := by
  refine ⟨h.own, h.serials, h.operations, h.distinct, fun w hw => ?_⟩
  have hle := (h.awaited w hw).1
  refine ⟨le_succ_of_le hle, fun heq => ?_⟩
  exact absurd (heq ▸ hle) (not_succ_le_self _)

theorem Numbered.flushOne (e : PeerId × (Nat × Key)) : Numbered (s.flushOne e) := by
  have herased : Numbered { s with bufferedOverlayKeys := s.bufferedOverlayKeys.erase e.1 } :=
    h.congr h.own rfl rfl (le_refl _) rfl rfl
  unfold Mesh.flushOne
  split
  · exact herased
  · split
    · exact herased.apply _ _
    · exact h

theorem Numbered.foldl_flushOne (entries : List (PeerId × (Nat × Key))) :
    Numbered (entries.foldl Mesh.flushOne s) := by
  induction entries generalizing s with
  | nil => exact h
  | cons e entries ih => exact ih (h.flushOne e)

theorem Numbered.acceptOverlayKey (peerId : PeerId) (membershipEpoch : Nat)
    (key : Key) : Numbered (s.acceptOverlayKey peerId membershipEpoch key) := by
  unfold Mesh.acceptOverlayKey
  split
  · exact h
  · split
    · exact h.congr h.own rfl rfl (le_refl _) rfl rfl
    · split
      · exact h
      · refine Numbered.apply ?_ _ _
        exact h.congr h.own rfl rfl (le_refl _) rfl rfl

end

end Calls

/-! ## One peer -/

namespace Mesh

variable (s : Mesh PeerId Key)

def waitingFor (peerId : PeerId) : List (Waiting PeerId Key) :=
  s.waiting.filter fun w => decide (w.call.peerId = peerId)

def importingFor (peerId : PeerId) : List (Import PeerId Key) :=
  s.importing.filter fun x => decide (x.call.peerId = peerId)

/-- What the overlay has of the peer. -/
def part (peerId : PeerId) : Option (Nat × Option Nat × Option Key) :=
  s.overlay.map fun o => (o.lifetime, o.peerImports.get peerId, o.peerKeys.get peerId)

/-- All that a peer's key depends on, but for the rotations. -/
def view (peerId : PeerId) : List (Waiting PeerId Key) × List (Import PeerId Key) × Option Nat
    × Fence × Option (Nat × Option Nat × Option Key) :=
  (s.waitingFor peerId, s.importingFor peerId, s.latest.get peerId, s.fence peerId, s.part peerId)

end Mesh

section Views

variable {s t : Mesh PeerId Key} {peerId : PeerId}

theorem unchanged_eq (x : Import PeerId Key) : s.unchanged x =
    (s.part x.call.peerId).any fun p => p.1 == x.lifetime && p.2.1 == some x.operation := by
  rw [unchanged, part, Option.any_map]

variable {x : Import PeerId Key}

theorem operation_of_unchanged (h : s.unchanged x = true) :
    ∃ o, s.overlay = some o ∧ o.peerImports.get x.call.peerId = some x.operation := by
  rw [unchanged, Option.any_eq_true] at h
  obtain ⟨o, ho, heq⟩ := h
  rw [and_eq_true, beq_iff_eq, beq_iff_eq] at heq
  exact ⟨o, ho, heq.2⟩

theorem peerKey_eq : s.peerKey peerId = (s.part peerId).bind fun p => p.2.2 := by
  rw [peerKey, part, bind_map]
  rfl

theorem unchanged_congr (hpart : t.part peerId = s.part peerId)
    (hx : x.call.peerId = peerId) : t.unchanged x = s.unchanged x := by
  rw [unchanged_eq, unchanged_eq, hx, hpart]

theorem mem_importingFor :
    x ∈ s.importingFor peerId ↔ x ∈ s.importing ∧ x.call.peerId = peerId := by
  rw [importingFor, mem_filter, decide_eq_true_eq]

variable {call : Call PeerId Key}

theorem tryOnce_view (hne : call.peerId ≠ peerId) :
    (s.tryOnce call).view peerId = s.view peerId := by
  unfold tryOnce
  split
  · rfl
  · have hnone : [(⟨{ call with fence := s.fence call.peerId }, s.settled + s.rotations.length⟩
        : Waiting PeerId Key)].filter (fun w => decide (w.call.peerId = peerId)) = [] := by
      rw [filter_singleton, decide_eq_false hne]
      rfl
    simp only [view, waitingFor, filter_append, hnone, append_nil]
    rfl

theorem tryAgain_view (hne : call.peerId ≠ peerId) :
    (s.tryAgain call).view peerId = s.view peerId := by
  unfold tryAgain
  split
  · rfl
  · exact tryOnce_view hne

variable {p : PeerId}

theorem apply_view (hne : p ≠ peerId) (key : Key) :
    (s.applyPeerOverlayKey p key).view peerId = s.view peerId := by
  refine (tryOnce_view hne).trans ?_
  simp only [view, get_set_of_ne s.latest s.fresh hne.symm]
  rfl

theorem setPeerKey_view (hne : call.peerId ≠ peerId) :
    (s.setPeerKey call).view peerId = s.view peerId := by
  unfold setPeerKey
  split
  · exact tryAgain_view hne
  · rename_i o ho
    split
    · rfl
    · have hnone : [(⟨call, o.lifetime, s.fresh⟩ : Import PeerId Key)].filter
          (fun x => decide (x.call.peerId = peerId)) = [] := by
        rw [filter_singleton, decide_eq_false hne]
        rfl
      simp only [view, importingFor, filter_append, hnone, append_nil, part,
        ho, map_some, OpaqueDataOverlay.removePeer,
        get_set_of_ne _ _ hne.symm, get_erase_of_ne _ hne.symm]
      rfl

theorem filter_eraseIdx {α : Type} {p : α → Bool} : ∀ {l : List α} {i : Nat} {a : α},
    l[i]? = some a → p a = false → (l.eraseIdx i).filter p = l.filter p
  | [], _, _, h, _ => by cases h
  | b :: l, 0, a, h, hp => by
      cases h
      rw [eraseIdx_cons_zero, filter_cons_of_neg (by rw [hp]; exact false_ne_true)]
  | b :: l, i + 1, a, h, hp => by
      rw [eraseIdx_cons_succ, filter_cons, filter_cons, filter_eraseIdx (getElem?_cons_succ ▸ h) hp]

theorem imported_view {i : Nat} (hx : s.importing[i]? = some x)
    (hne : x.call.peerId ≠ peerId) : (s.imported i).view peerId = s.view peerId := by
  have hfilter : (s.importing.eraseIdx i).filter (fun x => decide (x.call.peerId = peerId))
      = s.importing.filter (fun x => decide (x.call.peerId = peerId)) :=
    filter_eraseIdx hx (decide_eq_false hne)
  have htaken : ({ s with importing := s.importing.eraseIdx i } : Mesh PeerId Key).view peerId
      = s.view peerId := by
    simp only [view, importingFor, hfilter]
    rfl
  rw [imported, hx]
  dsimp only
  split
  · exact (tryAgain_view hne).trans htaken
  · refine Eq.trans ?_ htaken
    simp only [view, part, Option.map_map, Function.comp_def, get_set_of_ne _ _ hne.symm]
    rfl

theorem addPeer_view (hne : p ≠ peerId) : (s.addPeer p).view peerId = s.view peerId := by
  unfold addPeer
  split
  · rfl
  · simp only [view, fence, get_set_of_ne _ _ hne.symm]
    rfl

theorem removePeer_view (hne : p ≠ peerId) : (s.removePeer p).view peerId = s.view peerId := by
  unfold removePeer
  split
  · rfl
  · simp only [view, fence, part, Option.map_map, Function.comp_def,
      OpaqueDataOverlay.removePeer, get_erase_of_ne _ hne.symm]
    rfl

theorem resetPeer_view (hne : p ≠ peerId) : (s.resetPeer p).view peerId = s.view peerId := by
  unfold resetPeer
  split
  · rfl
  · exact (addPeer_view hne).trans (removePeer_view hne)

theorem flushOne_view {e : PeerId × (Nat × Key)} (hne : e.1 ≠ peerId) :
    (s.flushOne e).view peerId = s.view peerId := by
  unfold flushOne
  split
  · rfl
  · split
    · exact apply_view hne _
    · rfl

theorem acceptOverlayKey_view (hne : p ≠ peerId) (membershipEpoch : Nat) (key : Key) :
    (s.acceptOverlayKey p membershipEpoch key).view peerId = s.view peerId := by
  unfold acceptOverlayKey
  split
  · rfl
  · split
    · rfl
    · split
      · rfl
      · exact apply_view hne key

end Views

/-- The key is being seen to, or the overlay holds it. The peer's last call is
the one for this key. -/
inductive Pursued (s : Mesh PeerId Key) (peerId : PeerId) (key : Key) : Prop
  | waiting (before : List (Waiting PeerId Key)) (w : Waiting PeerId Key)
      (hwaiting : s.waitingFor peerId = before ++ [w]) (hkey : w.call.key = key)
      (hfence : w.call.fence = s.fence peerId)
      (hlatest : s.latest.get peerId = some w.call.serial)
      (hbefore : ∀ x ∈ before, x.call.serial ≠ w.call.serial)
      (himporting : ∀ x ∈ s.importingFor peerId, x.call.serial ≠ w.call.serial)
  | importing (x : Import PeerId Key) (hx : x ∈ s.importingFor peerId) (hkey : x.call.key = key)
      (hunchanged : s.unchanged x = true)
      (hlatest : s.latest.get peerId = some x.call.serial)
      (hwaiting : s.waitingFor peerId = [])
      (hothers : ∀ y ∈ s.importingFor peerId, s.unchanged y = false → y.call.serial ≠ x.call.serial)
      (hidle : s.rotations = [])
  | held (serial : Nat) (hkey : s.peerKey peerId = some key)
      (hlatest : s.latest.get peerId = some serial)
      (hwaiting : s.waitingFor peerId = [])
      (hothers : ∀ y ∈ s.importingFor peerId, s.unchanged y = false ∧ y.call.serial ≠ serial)
      (hidle : s.rotations = [])

section Steps

variable {s t : Mesh PeerId Key} {peerId : PeerId} {key : Key}

theorem Pursued.congr (h : Pursued s peerId key) (hview : t.view peerId = s.view peerId)
    (hrotations : t.rotations = s.rotations) : Pursued t peerId key := by
  simp only [view, Prod.mk.injEq] at hview
  obtain ⟨hwaitingFor, himportingFor, hlatestFor, hfenceFor, hpart⟩ := hview
  have hsame : ∀ y ∈ t.importingFor peerId, t.unchanged y = s.unchanged y := fun y hy =>
    unchanged_congr hpart (mem_importingFor.mp hy).2
  cases h with
  | waiting before w hwaiting hkey hfence hlatest hbefore himporting =>
      refine .waiting before w (hwaitingFor.trans hwaiting) hkey (hfence.trans hfenceFor.symm)
        (hlatestFor.trans hlatest) hbefore ?_
      rw [himportingFor]
      exact himporting
  | importing x hx hkey hunchanged hlatest hwaiting hothers hidle =>
      have hx' : x ∈ t.importingFor peerId := himportingFor ▸ hx
      refine .importing x hx' hkey ((hsame x hx').trans hunchanged) (hlatestFor.trans hlatest)
        (hwaitingFor.trans hwaiting) ?_ (hrotations.trans hidle)
      intro y hy hchanged
      exact hothers y (himportingFor ▸ hy) ((hsame y hy).symm.trans hchanged)
  | held serial hkey hlatest hwaiting hothers hidle =>
      refine .held serial ?_ (hlatestFor.trans hlatest) (hwaitingFor.trans hwaiting) ?_
        (hrotations.trans hidle)
      · rw [peerKey_eq, hpart, ← peerKey_eq]
        exact hkey
      · intro y hy
        rw [hsame y hy]
        exact hothers y (himportingFor ▸ hy)

theorem current_of_fence {call : Call PeerId Key} (hp : call.peerId = peerId)
    (hhas : s.has peerId = true) (hfence : call.fence = s.fence peerId) : s.current call = true := by
  rw [current, hp, hfence, and_eq_true, decide_eq_true_eq]
  exact ⟨hhas, rfl⟩

theorem tryOnce_of_has {call : Call PeerId Key} (hhas : s.has call.peerId = true) :
    s.tryOnce call = { s with
      waiting := s.waiting ++ [⟨{ call with fence := s.fence call.peerId },
        s.settled + s.rotations.length⟩] } := by
  rw [tryOnce, if_neg]
  rw [hhas]
  exact Bool.noConfusion

theorem Pursued.begins (hn : Numbered s) (hhas : s.has peerId = true) :
    Pursued (s.applyPeerOverlayKey peerId key) peerId key := by
  rw [applyPeerOverlayKey, tryOnce_of_has hhas]
  refine .waiting (s.waitingFor peerId)
    ⟨⟨s.fresh, peerId, key, 0, s.fence peerId⟩, s.settled + s.rotations.length⟩ ?_ rfl rfl
    (get_set_self _ _ _) ?_ ?_
  · show filter _ (s.waiting ++ [_]) = _
    rw [filter_append, filter_singleton, decide_eq_true rfl]
    rfl
  · intro x hx heq
    exact absurd (hn.serials x (mem_of_mem_filter hx)) (heq ▸ lt_irrefl _)
  · intro x hx heq
    exact absurd (hn.operations x (mem_of_mem_filter hx)).1 (heq ▸ lt_irrefl _)

theorem tail_view {w : Waiting PeerId Key} {rest : List (Waiting PeerId Key)}
    (hwaiting : s.waiting = w :: rest) (hne : w.call.peerId ≠ peerId) :
    ({ s with waiting := rest } : Mesh PeerId Key).view peerId = s.view peerId := by
  have hfilter : s.waitingFor peerId = rest.filter fun w => decide (w.call.peerId = peerId) := by
    rw [waitingFor, hwaiting, filter_cons_of_neg]
    exact fun h => hne (of_decide_eq_true h)
  simp only [view, hfilter]
  rfl

/-- A call whose initialization is over, and that is still current. -/
theorem ready_of_current (hr : Rotating s) (hn : Numbered s) (hepoch : 1 ≤ s.membershipEpoch)
    {w : Waiting PeerId Key} (hw : w ∈ s.waiting) (hcurrent : s.current w.call = true)
    (hover : ¬ s.settled < w.awaited) :
    s.rotations = [] ∧ ∃ o, s.overlay = some o ∧ o.keyPair = true := by
  rw [current, and_eq_true, decide_eq_true_eq] at hcurrent
  have hgeneration : w.call.fence.generation = s.overlayGeneration := by
    rw [← hcurrent.2]
    rfl
  have hawaited := (hn.awaited w hw).2 hgeneration
  have hnone : s.rotations = [] := length_eq_zero_iff.mp (by omega)
  exact ⟨hnone, hr.ready hnone hepoch⟩

theorem Pursued.resume (h : Pursued s peerId key) (hr : Rotating s) (hn : Numbered s)
    (hepoch : 1 ≤ s.membershipEpoch) (hhas : s.has peerId = true) : Pursued s.resume peerId key := by
  unfold Mesh.resume
  split
  · exact h
  · rename_i w₀ rest hwaiting
    have hmem : w₀ ∈ s.waiting := hwaiting ▸ mem_cons_self
    split
    · exact h
    · rename_i hover
      by_cases hne : w₀.call.peerId = peerId
      · -- it is one of the peer's calls: the last one, or one before it
        have hfilter : s.waitingFor peerId
            = w₀ :: rest.filter fun w => decide (w.call.peerId = peerId) := by
          rw [waitingFor, hwaiting, filter_cons_of_pos]
          exact decide_eq_true hne
        cases h with
        | importing x hx hkey hunchanged hlatest hnone hothers hidle =>
            rw [hnone] at hfilter
            cases hfilter
        | held serial hkey hlatest hnone hothers hidle =>
            rw [hnone] at hfilter
            cases hfilter
        | waiting before w hall hkey hfence hlatest hbefore himporting =>
            rw [hall] at hfilter
            split
            · rename_i hcurrent
              cases before with
              | nil =>
                  obtain ⟨rfl, -⟩ := cons.inj hfilter
                  rw [current_of_fence hne hhas hfence] at hcurrent
                  cases hcurrent
              | cons w₁ before =>
                  obtain ⟨-, hrest⟩ := cons.inj hfilter
                  refine .waiting before w hrest.symm hkey hfence hlatest ?_ himporting
                  exact fun x hx => hbefore x (mem_cons_of_mem _ hx)
            · rename_i hcurrent
              rw [not_eq_false] at hcurrent
              obtain ⟨hidle, o, ho, hpair⟩ := ready_of_current hr hn hepoch hmem hcurrent hover
              have hown : ¬ (o.keyPair = false ∨ w₀.call.peerId = s.ownId) := by
                rw [hpair, hne]
                rintro (hfalse | hown)
                · cases hfalse
                · rw [hown, has, hn.own] at hhas
                  cases hhas
              unfold setPeerKey
              rw [ho]
              dsimp only
              rw [if_neg hown]
              let begun : Import PeerId Key := ⟨w₀.call, o.lifetime, s.fresh⟩
              have hnew : ∀ x, x ∈ (s.importing ++ [begun]).filter
                  (fun x => decide (x.call.peerId = peerId)) →
                  x ∈ s.importingFor peerId ∨ x = begun := by
                intro x hx
                obtain ⟨hx, hp⟩ := mem_filter.mp hx
                rcases mem_append.mp hx with hx | hx
                · exact .inl (mem_filter.mpr ⟨hx, hp⟩)
                · exact .inr (mem_singleton.mp hx)
              cases before with
              | nil =>
                  obtain ⟨rfl, hrest⟩ := cons.inj hfilter
                  have hunchanged : ({ s with
                      waiting := rest
                      fresh := s.fresh + 1
                      overlay := some { o.removePeer w.call.peerId with
                        peerImports := (o.removePeer w.call.peerId).peerImports.set w.call.peerId
                          s.fresh }
                      importing := s.importing ++ [⟨w.call, o.lifetime, s.fresh⟩] }
                        : Mesh PeerId Key).unchanged ⟨w.call, o.lifetime, s.fresh⟩ = true := by
                    simp [unchanged, OpaqueDataOverlay.removePeer]
                  refine .importing ⟨w.call, o.lifetime, s.fresh⟩ ?_ hkey hunchanged hlatest
                    hrest.symm ?_ hidle
                  · rw [mem_importingFor]
                    exact ⟨mem_append_right _ (mem_singleton_self _), hne⟩
                  · intro y hy hchanged
                    rcases hnew y hy with hy | rfl
                    · exact himporting y hy
                    · rw [hunchanged] at hchanged
                      cases hchanged
              | cons w₁ before =>
                  obtain ⟨rfl, hrest⟩ := cons.inj hfilter
                  refine .waiting before w hrest.symm hkey hfence hlatest ?_ ?_
                  · exact fun x hx => hbefore x (mem_cons_of_mem _ hx)
                  · intro y hy
                    rcases hnew y hy with hy | rfl
                    · exact himporting y hy
                    · exact hbefore w₁ mem_cons_self
      · have hview := tail_view hwaiting hne
        split
        · exact h.congr hview rfl
        · exact h.congr ((setPeerKey_view hne).trans hview) (congrArg fst (setPeerKey_gear w₀.call))

variable {x : Import PeerId Key}

theorem Pursued.dropped (h : Pursued s peerId key) {i : Nat}
    (hx : s.importing[i]? = some x) (hchanged : s.unchanged x = false) :
    Pursued { s with importing := s.importing.eraseIdx i } peerId key := by
  have hsub : ∀ y ∈ ({ s with importing := s.importing.eraseIdx i } : Mesh PeerId Key).importingFor
      peerId, y ∈ s.importingFor peerId :=
    ((eraseIdx_sublist s.importing i).filter _).subset
  cases h with
  | waiting before w hwaiting hkey hfence hlatest hbefore himporting =>
      exact .waiting before w hwaiting hkey hfence hlatest hbefore fun y hy =>
        himporting y (hsub y hy)
  | importing y hy hkey hunchanged hlatest hwaiting hothers hidle =>
      refine .importing y ?_ hkey hunchanged hlatest hwaiting
        (fun z hz => hothers z (hsub z hz)) hidle
      rw [mem_importingFor] at hy ⊢
      refine ⟨?_, hy.2⟩
      obtain ⟨j, hj⟩ := mem_iff_getElem?.mp hy.1
      refine mem_eraseIdx_iff_getElem?.mpr ⟨j, ?_, hj⟩
      rintro rfl
      rw [← some.inj (hx.symm.trans hj), hchanged] at hunchanged
      cases hunchanged
  | held serial hkey hlatest hwaiting hothers hidle =>
      exact .held serial hkey hlatest hwaiting (fun y hy => hothers y (hsub y hy)) hidle

theorem same_operation {y : Import PeerId Key} (hx : s.unchanged x = true)
    (hy : s.unchanged y = true) (hp : y.call.peerId = x.call.peerId) : y.operation = x.operation := by
  obtain ⟨o, ho, hoperation⟩ := operation_of_unchanged hx
  obtain ⟨o', ho', hoperation'⟩ := operation_of_unchanged hy
  cases ho.symm.trans ho'
  rw [hp, hoperation] at hoperation'
  exact (some.inj hoperation').symm

theorem Numbered.alone (hn : Numbered s) {i : Nat} {y : Import PeerId Key}
    (hx : s.importing[i]? = some x) (hy : y ∈ s.importing.eraseIdx i) :
    y.operation ≠ x.operation := by
  obtain ⟨j, hne, hj⟩ := mem_eraseIdx_iff_getElem?.mp hy
  intro heq
  have hlt : j < (s.importing.map Import.operation).length := by
    rw [length_map]
    exact (List.getElem?_eq_some_iff.mp hj).1
  refine hne ((getElem?_inj hlt hn.distinct).mp ?_)
  rw [getElem?_map, getElem?_map, hj, hx, map_some, map_some, heq]

theorem Pursued.imported (h : Pursued s peerId key) (hn : Numbered s) (hhas : s.has peerId = true)
    {i : Nat} (hnewest : Newest s (.imported i)) : Pursued (s.imported i) peerId key := by
  have hrotations : (s.imported i).rotations = s.rotations := congrArg fst (imported_gear i)
  cases hx : s.importing[i]? with
  | none =>
      rw [Mesh.imported, hx]
      exact h
  | some x =>
      by_cases hp : x.call.peerId = peerId
      · have hmem : x ∈ s.importingFor peerId := mem_importingFor.mpr ⟨mem_of_getElem? hx, hp⟩
        rw [Mesh.imported, hx]
        dsimp only
        split
        · rename_i hchanged
          unfold tryAgain
          split
          · exact h.dropped hx hchanged
          · -- a cancelled call that tries again would have to be the last one
            rename_i hleft
            have hlast := hnewest x hx hchanged (not_le.mp hleft) (hp ▸ hhas)
            rw [hp] at hlast
            cases h with
            | waiting before w hwaiting hkey hfence hlatest hbefore himporting =>
                exact absurd (some.inj (hlast.symm.trans hlatest)) (himporting x hmem)
            | importing y hy hkey hunchanged hlatest hwaiting hothers hidle =>
                exact absurd (some.inj (hlast.symm.trans hlatest)) (hothers x hmem hchanged)
            | held serial hkey hlatest hwaiting hothers hidle =>
                exact absurd (some.inj (hlast.symm.trans hlatest)) (hothers x hmem).2
        · rename_i hunchanged
          rw [not_eq_false] at hunchanged
          have hsub : ∀ y, y ∈ (s.importing.eraseIdx i).filter
              (fun x => decide (x.call.peerId = peerId)) → y ∈ s.importingFor peerId :=
            fun y hy => ((eraseIdx_sublist s.importing i).filter _).subset hy
          cases h with
          | waiting before w hwaiting hkey hfence hlatest hbefore himporting =>
              exact .waiting before w hwaiting hkey hfence hlatest hbefore fun y hy =>
                himporting y (hsub y hy)
          | held serial hkey hlatest hwaiting hothers hidle =>
              rw [(hothers x hmem).1] at hunchanged
              cases hunchanged
          | importing y hy hkey hunchanged' hlatest hwaiting hothers hidle =>
              obtain ⟨hymem, hyp⟩ := mem_importingFor.mp hy
              have hoperation := same_operation hunchanged hunchanged' (hyp.trans hp.symm)
              obtain rfl := inj_on_of_nodup_map hn.distinct hymem (mem_of_getElem? hx) hoperation
              obtain ⟨o, ho, -⟩ := operation_of_unchanged hunchanged
              refine .held y.call.serial ?_ hlatest hwaiting ?_ hidle
              · rw [← hkey, ← hp, peerKey, ho]
                exact get_set_self _ _ _
              · intro z hz
                have hmem' : z ∈ s.importing.eraseIdx i := mem_of_mem_filter hz
                have hzp : z.call.peerId = peerId := (mem_importingFor.mp (hsub z hz)).2
                have hchanged : s.unchanged z = false := by
                  refine eq_false_iff.mpr fun htrue => ?_
                  exact hn.alone hx hmem' (same_operation hunchanged htrue (hzp.trans hp.symm))
                refine ⟨?_, hothers z (hsub z hz) hchanged⟩
                rw [← hchanged, unchanged, unchanged, Option.any_map]
      · exact h.congr (imported_view hx hp) hrotations

theorem Pursued.rotation (h : Pursued s peerId key) : Pursued s.rotation peerId key := by
  have hnothing : s.rotations = [] → s.rotation = s := by
    intro hnone
    rw [Mesh.rotation, hnone]
  have hkept : s.rotation.waiting = s.waiting ∧ s.rotation.importing = s.importing
      ∧ s.rotation.latest = s.latest ∧ s.rotation.fence peerId = s.fence peerId := by
    unfold Mesh.rotation
    split
    · exact ⟨rfl, rfl, rfl, rfl⟩
    · split
      · split <;> exact ⟨rfl, rfl, rfl, rfl⟩
      · split <;> exact ⟨rfl, rfl, rfl, rfl⟩
      · split <;> exact ⟨rfl, rfl, rfl, rfl⟩
      · split
        · exact ⟨rfl, rfl, rfl, rfl⟩
        · split <;> exact ⟨rfl, rfl, rfl, rfl⟩
  obtain ⟨hwaitingAll, himportingAll, hlatestAll, hfenceAll⟩ := hkept
  cases h with
  | waiting before w hwaiting hkey hfence hlatest hbefore himporting =>
      refine .waiting before w ?_ hkey (hfence.trans hfenceAll.symm) ?_ hbefore ?_
      · rw [waitingFor, hwaitingAll]
        exact hwaiting
      · rw [hlatestAll]
        exact hlatest
      · rw [importingFor, himportingAll]
        exact himporting
  | importing x hx hkey hunchanged hlatest hwaiting hothers hidle =>
      rw [hnothing hidle]
      exact .importing x hx hkey hunchanged hlatest hwaiting hothers hidle
  | held serial hkey hlatest hwaiting hothers hidle =>
      rw [hnothing hidle]
      exact .held serial hkey hlatest hwaiting hothers hidle

end Steps

/-! ## What was heard -/

section Heard

variable {es : List (Event PeerId Key)} {e : Event PeerId Key} {peerId : PeerId}

def hearing (es : List (Event PeerId Key)) (peerId : PeerId) : Option (List (Nat × Key)) :=
  es.foldl (hear peerId) none

theorem hearing_concat : hearing (es ++ [e]) peerId = hear peerId (hearing es peerId) e := by
  rw [hearing, foldl_concat]
  rfl

theorem heard_eq {ks : List (Nat × Key)} (h : hearing es peerId = some ks) :
    heard es peerId = ks := by
  rw [heard, ← hearing, h]
  rfl

end Heard

/-- What a run has come to. -/
structure Kept (es : List (Event PeerId Key)) (s : Mesh PeerId Key) : Prop where
  rotating : Rotating s
  numbered : Numbered s
  epoch : s.membershipEpoch = 0 ∨ s.membershipEpoch ∈ es.filterMap Event.stamp
  buffered : ∀ p m, s.bufferedOverlayKeys.get p = some m → s.membershipEpoch < m.1
  known : ∀ p, s.has p = true → ∃ ks, hearing es p = some ks
  unknown : ∀ p, p ≠ s.ownId → s.has p = false → hearing es p = none
  stamped : ∀ p ks, hearing es p = some ks → ∀ m ∈ ks, m.1 ∈ es.filterMap Event.stamp
  sorted : ∀ p ks, hearing es p = some ks → ks.Pairwise fun a b => a.1 ≤ b.1
  ahead : ∀ p ks m, s.has p = true → hearing es p = some ks → ks.getLast? = some m →
    s.membershipEpoch < m.1 → s.bufferedOverlayKeys.get p = some m
  pursued : ∀ p k, s.has p = true → 1 ≤ s.membershipEpoch →
    lastKey es p s.membershipEpoch = some k → Pursued s p k

section Runs

variable {es : List (Event PeerId Key)} {s t : Mesh PeerId Key}

theorem start_kept (ownId : PeerId) : Kept [] (start ownId : Mesh PeerId Key) where
  rotating := start_rotating ownId
  numbered := start_numbered ownId
  epoch := .inl rfl
  buffered p m h := by cases h
  known p h := by cases h
  unknown p _ _ := rfl
  stamped p ks h := by cases h
  sorted p ks h := by cases h
  ahead p ks m h := by cases h
  pursued p k h := by cases h

variable {e : Event PeerId Key}

/-- Steps without a stamp: what is still to be heard of was heard before. -/
theorem Kept.carry (h : Kept es s) (hstamp : e.stamp = none)
    (hr : Rotating t) (hn : Numbered t) (hepoch : t.membershipEpoch = s.membershipEpoch)
    (hbuffer : ∀ p m, t.bufferedOverlayKeys.get p = some m → s.bufferedOverlayKeys.get p = some m)
    (hhear : ∀ p ks, hearing (es ++ [e]) p = some ks → ks = [] ∨ hearing es p = some ks)
    (hknown : ∀ p, t.has p = true → ∃ ks, hearing (es ++ [e]) p = some ks)
    (hunknown : ∀ p, p ≠ t.ownId → t.has p = false → hearing (es ++ [e]) p = none)
    (hsame : ∀ p ks, t.has p = true → hearing (es ++ [e]) p = some ks → ks ≠ [] →
      s.has p = true ∧ t.bufferedOverlayKeys.get p = s.bufferedOverlayKeys.get p
        ∧ (1 ≤ s.membershipEpoch → ∀ k, Pursued s p k → Pursued t p k)) :
    Kept (es ++ [e]) t := by
  have hstamps : (es ++ [e]).filterMap Event.stamp = es.filterMap Event.stamp := by
    rw [filterMap_append, filterMap_cons_none hstamp, filterMap_nil, append_nil]
  refine ⟨hr, hn, ?_, ?_, hknown, hunknown, ?_, ?_, ?_, ?_⟩
  · rw [hepoch, hstamps]
    exact h.epoch
  · intro p m hm
    rw [hepoch]
    exact h.buffered p m (hbuffer p m hm)
  · intro p ks hks
    rw [hstamps]
    rcases hhear p ks hks with rfl | hks
    · exact fun m hm => absurd hm not_mem_nil
    · exact h.stamped p ks hks
  · intro p ks hks
    rcases hhear p ks hks with rfl | hks
    · exact .nil
    · exact h.sorted p ks hks
  · intro p ks m hp hks hlast
    have hne : ks ≠ [] := by
      rintro rfl
      cases hlast
    obtain ⟨hp', heq, -⟩ := hsame p ks hp hks hne
    rw [hepoch, heq]
    exact h.ahead p ks m hp' ((hhear p ks hks).resolve_left hne) hlast
  · intro p k hp hone hk
    rw [hepoch] at hone hk
    obtain ⟨ks, hks⟩ := hknown p hp
    have hne : ks ≠ [] := by
      rintro rfl
      rw [lastKey, heard_eq hks] at hk
      cases hk
    obtain ⟨hp', -, hpursued⟩ := hsame p ks hp hks hne
    refine hpursued hone k (h.pursued p k hp' hone ?_)
    rw [lastKey, heard_eq hks] at hk
    rw [lastKey, heard_eq ((hhear p ks hks).resolve_left hne)]
    exact hk

/-- Steps that hear nothing and leave the members and the buffer alone. -/
theorem Kept.quiet (h : Kept es s) (hstamp : e.stamp = none)
    (hhear : ∀ p ks, hear p ks e = ks) (hr : Rotating t) (hn : Numbered t)
    (hown : t.ownId = s.ownId) (hpeers : t.peers = s.peers)
    (hepoch : t.membershipEpoch = s.membershipEpoch)
    (hbuffer : t.bufferedOverlayKeys = s.bufferedOverlayKeys)
    (hpursued : ∀ p k, s.has p = true → 1 ≤ s.membershipEpoch → Pursued s p k → Pursued t p k) :
    Kept (es ++ [e]) t := by
  have hheard : ∀ p, hearing (es ++ [e]) p = hearing es p := fun p =>
    hearing_concat.trans (hhear p _)
  have hhas : ∀ p, t.has p = s.has p := fun p => by rw [has, has, hpeers]
  refine h.carry hstamp hr hn hepoch ?_ ?_ ?_ ?_ ?_
  · rw [hbuffer]
    exact fun _ _ hm => hm
  · intro p ks hks
    exact .inr (hheard p ▸ hks)
  · intro p hp
    rw [hheard]
    exact h.known p (hhas p ▸ hp)
  · intro p hp hnone
    rw [hheard]
    exact h.unknown p (hown ▸ hp) (hhas p ▸ hnone)
  · intro p ks hp _ _
    rw [hbuffer]
    have hp' := hhas p ▸ hp
    exact ⟨hp', rfl, fun hone k => hpursued p k hp' hone⟩

variable {q : PeerId}

/-- A peer comes or goes; nothing has been heard from it since. -/
theorem Kept.moved (h : Kept es s) (hstamp : e.stamp = none)
    (hhear : ∀ p ks, p ≠ q → hear p ks e = ks) (hr : Rotating t) (hn : Numbered t)
    (hown : t.ownId = s.ownId) (hq : q ≠ s.ownId)
    (hepoch : t.membershipEpoch = s.membershipEpoch) (hrotations : t.rotations = s.rotations)
    (hfresh : hear q (hearing es q) e = if t.has q = true then some [] else none)
    (hhas : ∀ p, p ≠ q → t.has p = s.has p)
    (hbuffer : ∀ p m, t.bufferedOverlayKeys.get p = some m → s.bufferedOverlayKeys.get p = some m)
    (hothers : ∀ p, p ≠ q → t.bufferedOverlayKeys.get p = s.bufferedOverlayKeys.get p)
    (hview : ∀ p, p ≠ q → t.view p = s.view p) : Kept (es ++ [e]) t := by
  have hheard : ∀ p, p ≠ q → hearing (es ++ [e]) p = hearing es p := fun p hp =>
    hearing_concat.trans (hhear p _ hp)
  have hnew : hearing (es ++ [e]) q = if t.has q = true then some [] else none :=
    hearing_concat.trans hfresh
  refine h.carry hstamp hr hn hepoch hbuffer ?_ ?_ ?_ ?_
  · intro p ks hks
    by_cases hp : p = q
    · subst hp
      rw [hnew] at hks
      split at hks
      · exact .inl (some.inj hks).symm
      · cases hks
    · exact .inr (hheard p hp ▸ hks)
  · intro p hp
    by_cases hpq : p = q
    · subst hpq
      rw [hnew, if_pos hp]
      exact ⟨[], rfl⟩
    · rw [hheard p hpq]
      exact h.known p (hhas p hpq ▸ hp)
  · intro p hp hnone
    by_cases hpq : p = q
    · subst hpq
      rw [hnew, hnone, if_neg Bool.false_ne_true]
    · rw [hheard p hpq]
      exact h.unknown p (hown ▸ hp) (hhas p hpq ▸ hnone)
  · intro p ks hp hks hne
    by_cases hpq : p = q
    · subst hpq
      rw [hnew, if_pos hp] at hks
      exact absurd (some.inj hks).symm hne
    · exact ⟨hhas p hpq ▸ hp, hothers p hpq, fun _ k hk => hk.congr (hview p hpq) hrotations⟩

/-- A peer that does not come or go; who it is has been heard of, or is the client itself. -/
theorem Kept.same (h : Kept es s) (q : PeerId) (hstamp : e.stamp = none)
    (hhear : ∀ p ks, p ≠ q → hear p ks e = ks)
    (hq : q ≠ s.ownId → hear q (hearing es q) e = hearing es q)
    (hself : ∀ ks, hear q (hearing es q) e = some ks → ks = [] ∨ hearing es q = some ks) :
    Kept (es ++ [e]) s := by
  have hheard : ∀ p, p ≠ s.ownId → hearing (es ++ [e]) p = hearing es p := by
    intro p hp
    rw [hearing_concat]
    by_cases hpq : p = q
    · subst hpq
      exact hq hp
    · exact hhear p _ hpq
  have hother : ∀ p, s.has p = true → p ≠ s.ownId := by
    rintro p hp rfl
    rw [has, h.numbered.own] at hp
    cases hp
  refine h.carry hstamp h.rotating h.numbered rfl (fun _ _ hm => hm) ?_ ?_ ?_ ?_
  · intro p ks hks
    rw [hearing_concat] at hks
    by_cases hpq : p = q
    · subst hpq
      exact hself ks hks
    · rw [hhear p _ hpq] at hks
      exact .inr hks
  · intro p hp
    rw [hheard p (hother p hp)]
    exact h.known p hp
  · intro p hp hnone
    rw [hheard p hp]
    exact h.unknown p hp hnone
  · exact fun p ks hp _ _ => ⟨hp, rfl, fun _ _ hk => hk⟩

theorem Kept.addPeer (h : Kept es s) (q : PeerId) : Kept (es ++ [.addPeer q]) (s.addPeer q) := by
  have hr : Rotating (s.addPeer q) := h.rotating.congr (addPeer_gear q)
  have hn : Numbered (s.addPeer q) := h.numbered.addPeer q
  have hview : ∀ p, p ≠ q → (s.addPeer q).view p = s.view p := fun p hp => addPeer_view hp.symm
  have hhear : ∀ p ks, p ≠ q → hear p ks (.addPeer q : Event PeerId Key) = ks := fun p ks hp =>
    if_neg hp.symm
  have hself : hear q (hearing es q) (.addPeer q) = some ((hearing es q).getD []) := if_pos rfl
  by_cases hold : q = s.ownId ∨ s.has q = true
  · rw [Mesh.addPeer, if_pos hold]
    refine h.same q rfl hhear (fun hq => ?_) (fun ks hks => ?_)
    · obtain ⟨ks, hks⟩ := h.known q (hold.resolve_left hq)
      rw [hself, hks, getD_some]
    · rw [hself] at hks
      cases hks
      cases hearing es q with
      | none => exact .inl rfl
      | some ks => exact .inr rfl
  · obtain ⟨hown, hhas⟩ := not_or.mp hold
    rw [not_eq_true] at hhas
    rw [Mesh.addPeer, if_neg hold] at hr hn hview ⊢
    refine h.moved (q := q) rfl hhear hr hn rfl hown rfl rfl ?_ ?_ (fun _ _ hm => hm) (fun _ _ => rfl)
      hview
    · rw [h.unknown q hown hhas]
      have hadded : (s.peers.set q s.fresh).get q = some s.fresh := get_set_self _ _ _
      rw [if_pos]
      · exact if_pos rfl
      · exact congrArg isSome hadded
    · intro p hp
      exact congrArg isSome (get_set_of_ne _ _ hp)

theorem has_ne_own (hn : Numbered s) (hhas : s.has q = true) : q ≠ s.ownId := by
  rintro rfl
  rw [has, hn.own] at hhas
  cases hhas

theorem Kept.removePeer (h : Kept es s) (q : PeerId) :
    Kept (es ++ [.removePeer q]) (s.removePeer q) := by
  have hr : Rotating (s.removePeer q) := h.rotating.congr (removePeer_gear q)
  have hn : Numbered (s.removePeer q) := h.numbered.removePeer q
  have hview : ∀ p, p ≠ q → (s.removePeer q).view p = s.view p := fun p hp =>
    removePeer_view hp.symm
  have hhear : ∀ p ks, p ≠ q → hear p ks (.removePeer q : Event PeerId Key) = ks := fun p ks hp =>
    if_neg hp.symm
  have hself : hear q (hearing es q) (.removePeer q) = none := if_pos rfl
  by_cases hold : s.has q = false
  · rw [Mesh.removePeer, if_pos hold]
    refine h.same q rfl hhear (fun hq => ?_) (fun ks hks => ?_)
    · rw [hself, h.unknown q hq hold]
    · rw [hself] at hks
      cases hks
  · rw [Mesh.removePeer, if_neg hold] at hr hn hview ⊢
    rw [not_eq_false] at hold
    refine h.moved (q := q) rfl hhear hr hn rfl (has_ne_own h.numbered hold) rfl rfl ?_ ?_ ?_ ?_ hview
    · have hgone : (s.peers.erase q).get q = none := get_erase_self _ _
      rw [hself, if_neg]
      rw [has, hgone]
      exact false_ne_true
    · intro p hp
      exact congrArg isSome (get_erase_of_ne _ hp)
    · intro p m hm
      rw [get_erase] at hm
      split at hm
      · cases hm
      · exact hm
    · exact fun p hp => get_erase_of_ne _ hp

theorem resetPeer_parts (hown : q ≠ s.ownId) (hhas : s.has q = true) :
    (s.resetPeer q).ownId = s.ownId ∧ (s.resetPeer q).peers = (s.peers.erase q).set q s.fresh
      ∧ (s.resetPeer q).bufferedOverlayKeys = s.bufferedOverlayKeys.erase q := by
  have hthere : ¬ s.has q = false := by
    rw [hhas]
    exact Bool.noConfusion
  have hgone : (s.peers.erase q).get q = none := get_erase_self _ _
  have hback : ¬ (q = s.ownId ∨ ((s.peers.erase q).get q).isSome = true) := by
    rw [hgone]
    rintro (heq | hsome)
    · exact hown heq
    · cases hsome
  unfold resetPeer addPeer removePeer
  rw [if_neg hthere, if_neg hthere]
  unfold has
  rw [if_neg hback]
  exact ⟨rfl, rfl, rfl⟩

theorem Kept.resetPeer (h : Kept es s) (q : PeerId) :
    Kept (es ++ [.resetPeer q]) (s.resetPeer q) := by
  have hhear : ∀ p ks, p ≠ q → hear p ks (.resetPeer q : Event PeerId Key) = ks := fun p ks hp =>
    if_neg hp.symm
  have hself : hear q (hearing es q) (.resetPeer q) = (hearing es q).map fun _ => [] := if_pos rfl
  by_cases hold : s.has q = false
  · rw [Mesh.resetPeer, if_pos hold]
    refine h.same q rfl hhear (fun hq => ?_) (fun ks hks => ?_)
    · rw [hself, h.unknown q hq hold]
      rfl
    · rw [hself] at hks
      obtain ⟨_, -, rfl⟩ := map_eq_some_iff.mp hks
      exact .inl rfl
  · rw [not_eq_false] at hold
    have hown := has_ne_own h.numbered hold
    have hgear := resetPeer_gear (s := s) q
    obtain ⟨hownId, hpeers, hbuffer⟩ := resetPeer_parts hown hold
    simp only [gear, Prod.mk.injEq] at hgear
    refine h.moved (q := q) rfl hhear (h.rotating.congr (resetPeer_gear q)) (h.numbered.resetPeer q)
      hownId hown hgear.2.2.2.2.2.1 hgear.1 ?_ ?_ ?_ ?_ (fun p hp => resetPeer_view hp.symm)
    · obtain ⟨ks, hks⟩ := h.known q hold
      rw [hself, hks, has, hpeers, get_set_self]
      rfl
    · intro p hp
      rw [has, has, hpeers, get_set_of_ne _ _ hp, get_erase_of_ne _ hp]
    · intro p m hm
      rw [hbuffer, get_erase] at hm
      split at hm
      · cases hm
      · exact hm
    · intro p hp
      rw [hbuffer, get_erase_of_ne _ hp]

/-! ### Stamped messages -/

theorem Kept.epoch_le (h : Kept es s) {n : Nat} (hn : ∀ m ∈ es.filterMap Event.stamp, m ≤ n) :
    s.membershipEpoch ≤ n := by
  rcases h.epoch with hzero | hmem
  · omega
  · exact hn _ hmem

theorem acceptOverlayKey_parts (q : PeerId) (n : Nat) (key : Key) :
    (s.acceptOverlayKey q n key).ownId = s.ownId ∧ (s.acceptOverlayKey q n key).peers = s.peers
      ∧ (s.acceptOverlayKey q n key).membershipEpoch = s.membershipEpoch := by
  unfold acceptOverlayKey applyPeerOverlayKey tryOnce
  split
  · exact ⟨rfl, rfl, rfl⟩
  · split
    · exact ⟨rfl, rfl, rfl⟩
    · split
      · exact ⟨rfl, rfl, rfl⟩
      · split <;> exact ⟨rfl, rfl, rfl⟩

theorem apply_buffer (q : PeerId) (key : Key) :
    (s.applyPeerOverlayKey q key).bufferedOverlayKeys = s.bufferedOverlayKeys := by
  unfold applyPeerOverlayKey tryOnce
  split <;> rfl

variable {m : Nat × Key} {p : PeerId}

theorem acceptOverlayKey_buffer {n : Nat} {key : Key}
    (h : (s.acceptOverlayKey q n key).bufferedOverlayKeys.get p = some m) :
    s.bufferedOverlayKeys.get p = some m ∨ m = (n, key) ∧ s.membershipEpoch < n := by
  unfold acceptOverlayKey at h
  split at h
  · exact .inl h
  · split at h
    · rename_i hlt
      dsimp only at h
      rw [get_set] at h
      split at h
      · exact .inr ⟨(some.inj h).symm, hlt⟩
      · exact .inl h
    · split at h
      · exact .inl h
      · rw [apply_buffer, get_erase] at h
        split at h
        · cases h
        · exact .inl h

theorem acceptOverlayKey_buffer_of_ne {n : Nat} {key : Key} (hp : p ≠ q) :
    (s.acceptOverlayKey q n key).bufferedOverlayKeys.get p = s.bufferedOverlayKeys.get p := by
  unfold acceptOverlayKey
  split
  · rfl
  · split
    · exact get_set_of_ne _ _ hp
    · split
      · rfl
      · rw [apply_buffer]
        exact get_erase_of_ne _ hp

theorem Kept.overlayKey (h : Kept es s) (q : PeerId) (n : Nat) (key : Key)
    (hn : ∀ m ∈ es.filterMap Event.stamp, m ≤ n) :
    Kept (es ++ [.overlayKey q n key]) (s.acceptOverlayKey q n key) := by
  have hle := h.epoch_le hn
  obtain ⟨hown, hpeers, hepoch⟩ := acceptOverlayKey_parts (s := s) q n key
  have hhas : ∀ p, (s.acceptOverlayKey q n key).has p = s.has p := fun p => by
    rw [has, has, hpeers]
  have hother : ∀ p, p ≠ q → hearing (es ++ [.overlayKey q n key]) p = hearing es p := fun p hp =>
    hearing_concat.trans (if_neg hp.symm)
  have hself : hearing (es ++ [.overlayKey q n key]) q = (hearing es q).map (· ++ [(n, key)]) :=
    hearing_concat.trans (if_pos rfl)
  have hold : ∀ m, m ∈ es.filterMap Event.stamp →
      m ∈ (es ++ [Event.overlayKey q n key]).filterMap Event.stamp := fun m hm =>
    mem_stamps.mpr (.inl hm)
  refine ⟨h.rotating.congr (acceptOverlayKey_gear q n key), h.numbered.acceptOverlayKey q n key,
    ?_, ?_, ?_, ?_, ?_, ?_, ?_, ?_⟩
  · rw [hepoch]
    exact h.epoch.imp_right (hold _)
  · intro p m hm
    rw [hepoch]
    rcases acceptOverlayKey_buffer hm with hm | ⟨rfl, hlt⟩
    · exact h.buffered p m hm
    · exact hlt
  · intro p hp
    obtain ⟨ks, hks⟩ := h.known p (hhas p ▸ hp)
    by_cases hpq : p = q
    · subst hpq
      rw [hself, hks]
      exact ⟨_, rfl⟩
    · rw [hother p hpq]
      exact ⟨ks, hks⟩
  · intro p hp hnone
    have hnothing := h.unknown p (hown ▸ hp) (hhas p ▸ hnone)
    by_cases hpq : p = q
    · subst hpq
      rw [hself, hnothing]
      rfl
    · rw [hother p hpq]
      exact hnothing
  · intro p ks hks m hm
    by_cases hpq : p = q
    · subst hpq
      rw [hself] at hks
      obtain ⟨ks', hks', rfl⟩ := map_eq_some_iff.mp hks
      rcases mem_append.mp hm with hm | hm
      · exact hold _ (h.stamped p ks' hks' m hm)
      · rw [mem_singleton.mp hm]
        exact mem_stamps.mpr (.inr rfl)
    · rw [hother p hpq] at hks
      exact hold _ (h.stamped p ks hks m hm)
  · intro p ks hks
    by_cases hpq : p = q
    · subst hpq
      rw [hself] at hks
      obtain ⟨ks', hks', rfl⟩ := map_eq_some_iff.mp hks
      refine pairwise_append.mpr ⟨h.sorted p ks' hks', pairwise_singleton _ _, ?_⟩
      intro a ha b hb
      rw [mem_singleton.mp hb]
      exact hn _ (h.stamped p ks' hks' a ha)
    · rw [hother p hpq] at hks
      exact h.sorted p ks hks
  · intro p ks m hp hks hlast hlt
    rw [hepoch] at hlt
    have hp' := hhas p ▸ hp
    by_cases hpq : p = q
    · subst hpq
      rw [hself] at hks
      obtain ⟨ks', hks', rfl⟩ := map_eq_some_iff.mp hks
      rw [getLast?_concat] at hlast
      cases hlast
      rw [acceptOverlayKey, if_neg (by rw [hp']; exact Bool.noConfusion), if_pos hlt]
      exact get_set_self _ _ _
    · rw [hother p hpq] at hks
      rw [acceptOverlayKey_buffer_of_ne hpq]
      exact h.ahead p ks m hp' hks hlast hlt
  · intro p k hp hone hk
    rw [hepoch] at hone hk
    have hp' := hhas p ▸ hp
    by_cases hpq : p = q
    · subst hpq
      obtain ⟨ks, hks⟩ := h.known p hp'
      rw [hks] at hself
      rw [lastKey, heard_eq hself, filter_append, filter_singleton] at hk
      have hthere : ¬ s.has p = false := by
        rw [hp']
        exact Bool.noConfusion
      by_cases heq : n = s.membershipEpoch
      · subst heq
        have hkey : key = k := by
          simpa using hk
        subst hkey
        rw [acceptOverlayKey, if_neg hthere, if_neg (lt_irrefl _), if_neg (lt_irrefl _)]
        refine Pursued.begins ?_ hp'
        exact h.numbered.congr h.numbered.own rfl rfl (le_refl _) rfl rfl
      · have hlt : s.membershipEpoch < n := lt_of_le_of_ne hle (Ne.symm heq)
        rw [beq_eq_false_iff_ne.mpr heq] at hk
        have hbefore := h.pursued p k hp' hone (by
          rw [lastKey, heard_eq hks]
          simpa using hk)
        rw [acceptOverlayKey, if_neg hthere, if_pos hlt]
        exact hbefore.congr rfl rfl
    · have hbefore := h.pursued p k hp' hone (by
        rw [lastKey, heard, ← hearing, hother p hpq] at hk
        exact hk)
      exact hbefore.congr (acceptOverlayKey_view (Ne.symm hpq) n key)
        (congrArg fst (acceptOverlayKey_gear q n key))

/-! ### Topologies -/

theorem flushOne_parts (e : PeerId × (Nat × Key)) : (s.flushOne e).ownId = s.ownId
    ∧ (s.flushOne e).peers = s.peers ∧ (s.flushOne e).membershipEpoch = s.membershipEpoch := by
  unfold flushOne applyPeerOverlayKey tryOnce
  split
  · exact ⟨rfl, rfl, rfl⟩
  · split
    · split <;> exact ⟨rfl, rfl, rfl⟩
    · exact ⟨rfl, rfl, rfl⟩

theorem foldl_flushOne_parts (entries : List (PeerId × (Nat × Key))) :
    (entries.foldl flushOne s).ownId = s.ownId ∧ (entries.foldl flushOne s).peers = s.peers
      ∧ (entries.foldl flushOne s).membershipEpoch = s.membershipEpoch := by
  induction entries generalizing s with
  | nil => exact ⟨rfl, rfl, rfl⟩
  | cons e entries ih =>
      obtain ⟨h₁, h₂, h₃⟩ := flushOne_parts (s := s) e
      obtain ⟨ih₁, ih₂, ih₃⟩ := ih (s := s.flushOne e)
      exact ⟨ih₁.trans h₁, ih₂.trans h₂, ih₃.trans h₃⟩

/-- What is left in the buffer was there, and is ahead if it is the entry that was looked at. -/
theorem flushOne_buffer {e : PeerId × (Nat × Key)}
    (h : (s.flushOne e).bufferedOverlayKeys.get p = some m) :
    s.bufferedOverlayKeys.get p = some m ∧ ((p, m) = e → s.membershipEpoch < m.1) := by
  have herased : (s.bufferedOverlayKeys.erase e.1).get p = some m →
      s.bufferedOverlayKeys.get p = some m ∧ ((p, m) = e → s.membershipEpoch < m.1) := by
    intro hm
    rw [get_erase] at hm
    split at hm
    · cases hm
    · rename_i hne
      exact ⟨hm, fun heq => absurd (congrArg fst heq) hne⟩
  unfold flushOne at h
  split at h
  · exact herased h
  · rename_i hkeep
    split at h
    · rw [apply_buffer] at h
      exact herased h
    · rename_i hne
      refine ⟨h, ?_⟩
      rintro rfl
      have hge : ¬ m.1 < s.membershipEpoch := fun hlt => hkeep (.inr hlt)
      exact lt_of_le_of_ne (not_lt.mp hge) (Ne.symm hne)

variable {entries : List (PeerId × (Nat × Key))}

theorem foldl_flushOne_buffer (h : (entries.foldl flushOne s).bufferedOverlayKeys.get p = some m) :
    s.bufferedOverlayKeys.get p = some m ∧ ((p, m) ∈ entries → s.membershipEpoch < m.1) := by
  induction entries generalizing s with
  | nil => exact ⟨h, fun hmem => absurd hmem not_mem_nil⟩
  | cons e entries ih =>
      obtain ⟨hnext, hlater⟩ := ih h
      obtain ⟨hnow, hfirst⟩ := flushOne_buffer hnext
      rw [(flushOne_parts e).2.2] at hlater
      refine ⟨hnow, fun hmem => ?_⟩
      rcases mem_cons.mp hmem with heq | hmem
      · exact hfirst heq
      · exact hlater hmem

theorem flush_buffer
    (h : s.flushBufferedOverlayKeys.bufferedOverlayKeys.get p = some m) : s.membershipEpoch < m.1 := by
  obtain ⟨hm, hahead⟩ := foldl_flushOne_buffer h
  exact hahead (get_eq_some_iff.mp hm)

theorem foldl_flushOne_view
    (h : ∀ e ∈ entries, e.1 ≠ p) : (entries.foldl flushOne s).view p = s.view p := by
  induction entries generalizing s with
  | nil => rfl
  | cons e entries ih =>
      rw [forall_mem_cons] at h
      exact (ih h.2).trans (flushOne_view h.1)

theorem foldl_flushOne_ahead (h : ∀ e ∈ entries, s.membershipEpoch < e.2.1) (p : PeerId) :
    (entries.foldl flushOne s).view p = s.view p := by
  induction entries generalizing s with
  | nil => rfl
  | cons e entries ih =>
      rw [forall_mem_cons] at h
      have hrest : ∀ e' ∈ entries, (s.flushOne e).membershipEpoch < e'.2.1 := by
        rw [(flushOne_parts e).2.2]
        exact h.2
      refine (ih hrest).trans ?_
      unfold flushOne
      split
      · rfl
      · rw [if_neg (ne_of_gt h.1)]

theorem Pursued.flushed {p : PeerId} {k : Key} : ∀ {entries : List (PeerId × (Nat × Key))}
    {s : Mesh PeerId Key}, (entries.map fst).Nodup → (p, (s.membershipEpoch, k)) ∈ entries →
      Numbered s → s.has p = true → Pursued (entries.foldl flushOne s) p k
  | [], _, _, h, _, _ => absurd h not_mem_nil
  | e :: entries, s, hnodup, h, hn, hhas => by
      rw [map_cons, nodup_cons] at hnodup
      rw [foldl_cons]
      rcases mem_cons.mp h with rfl | h
      · have hrest : ∀ e' ∈ entries, e'.1 ≠ p := by
          intro e' he' heq
          exact hnodup.1 (mem_map.mpr ⟨e', he', heq⟩)
        have hnow : Pursued (s.flushOne (p, (s.membershipEpoch, k))) p k := by
          have hkeep : ¬ (s.has p = false ∨ s.membershipEpoch < s.membershipEpoch) := by
            rw [hhas]
            rintro (hfalse | hlt)
            · cases hfalse
            · exact lt_irrefl _ hlt
          rw [flushOne, if_neg hkeep, if_pos rfl]
          refine Pursued.begins ?_ hhas
          exact hn.congr hn.own rfl rfl (le_refl _) rfl rfl
        exact hnow.congr (foldl_flushOne_view hrest) (congrArg fst (foldl_flushOne_gear entries))
      · obtain ⟨-, hpeers, hepoch⟩ := flushOne_parts (s := s) e
        refine Pursued.flushed hnodup.2 ?_ (hn.flushOne e) ?_
        · rw [hepoch]
          exact h
        · rw [has, hpeers]
          exact hhas

theorem Kept.flush (h : Kept es s) {n : Nat} {valid : Bool}
    (hn : ∀ m ∈ es.filterMap Event.stamp, m ≤ n) (hr : Rotating t) (hnum : Numbered t)
    (hown : t.ownId = s.ownId) (hpeers : t.peers = s.peers) (hepoch : t.membershipEpoch = n)
    (hbuffer : t.bufferedOverlayKeys = s.bufferedOverlayKeys)
    (hold : n = s.membershipEpoch → t.rotations = s.rotations ∧ ∀ p, t.view p = s.view p) :
    Kept (es ++ [.topology n valid]) t.flushBufferedOverlayKeys := by
  obtain ⟨hown', hpeers', hepoch'⟩ := foldl_flushOne_parts (s := t) t.bufferedOverlayKeys.entries
  have hheard : ∀ p, hearing (es ++ [.topology n valid]) p = hearing es p := fun p => hearing_concat
  have hhas : ∀ p, t.flushBufferedOverlayKeys.has p = s.has p := fun p => by
    rw [has, has, flushBufferedOverlayKeys, hpeers', hpeers]
  have hstamp : ∀ m, m ∈ es.filterMap Event.stamp →
      m ∈ (es ++ [Event.topology n valid]).filterMap Event.stamp := fun m hm =>
    mem_stamps.mpr (.inl hm)
  have hgear : t.flushBufferedOverlayKeys.gear = t.gear := foldl_flushOne_gear _
  have hnow : t.flushBufferedOverlayKeys.membershipEpoch = n := hepoch'.trans hepoch
  refine ⟨hr.congr hgear, hnum.foldl_flushOne _, ?_, ?_, ?_, ?_, ?_, ?_, ?_, ?_⟩
  · rw [hnow]
    exact .inr (mem_stamps.mpr (.inr rfl))
  · intro p m hm
    rw [hnow, ← hepoch]
    exact flush_buffer hm
  · intro p hp
    rw [hheard]
    exact h.known p (hhas p ▸ hp)
  · intro p hp hnone
    rw [hheard]
    exact h.unknown p ((hown'.trans hown) ▸ hp) (hhas p ▸ hnone)
  · intro p ks hks m hm
    rw [hheard] at hks
    exact hstamp _ (h.stamped p ks hks m hm)
  · intro p ks hks
    rw [hheard] at hks
    exact h.sorted p ks hks
  · intro p ks m _ hks hlast hlt
    rw [hheard] at hks
    rw [hnow] at hlt
    exact absurd (hn _ (h.stamped p ks hks m (mem_of_getLast? hlast))) (not_le.mpr hlt)
  · intro p k hp hone hk
    rw [hnow] at hone hk
    have hp' := hhas p ▸ hp
    obtain ⟨ks, hks⟩ := h.known p hp'
    have hlast : lastKey es p n = some k := by
      rw [lastKey, heard, ← hearing, hheard] at hk
      exact hk
    by_cases heq : n = s.membershipEpoch
    · obtain ⟨hrotations, hview⟩ := hold heq
      rw [heq] at hone hlast
      refine (h.pursued p k hp' hone hlast).congr ?_ ((congrArg fst hgear).trans hrotations)
      refine (foldl_flushOne_ahead ?_ p).trans (hview p)
      intro e he
      rw [hbuffer] at he
      rw [hepoch, heq]
      exact h.buffered e.1 e.2 (get_eq_some_iff.mpr he)
    · have hlt : s.membershipEpoch < n := lt_of_le_of_ne (h.epoch_le hn) (Ne.symm heq)
      rw [lastKey, heard_eq hks] at hlast
      obtain ⟨m, hm, rfl⟩ := map_eq_some_iff.mp hlast
      have hmn : m.1 = n := by
        have hmem := of_mem_filter (mem_of_getLast? hm)
        exact beq_iff_eq.mp hmem
      have hle : ∀ k ∈ ks, k.1 ≤ n := fun k hk => hn _ (h.stamped p ks hks k hk)
      have hahead := h.ahead p ks m hp' hks (getLast_of_filter (h.sorted p ks hks) hle hm)
        (hmn ▸ hlt)
      refine Pursued.flushed t.bufferedOverlayKeys.nodup ?_ hnum ?_
      · rw [hepoch, hbuffer, ← hmn]
        exact get_eq_some_iff.mp hahead
      · rw [has, hpeers]
        exact hp'

theorem Kept.ignored (h : Kept es s) (n : Nat) (valid : Bool) :
    Kept (es ++ [.topology n valid]) s := by
  have hheard : ∀ p, hearing (es ++ [.topology n valid]) p = hearing es p := fun p => hearing_concat
  have hstamp : ∀ m, m ∈ es.filterMap Event.stamp →
      m ∈ (es ++ [Event.topology n valid]).filterMap Event.stamp := fun m hm =>
    mem_stamps.mpr (.inl hm)
  refine ⟨h.rotating, h.numbered, h.epoch.imp_right (hstamp _), h.buffered, ?_, ?_, ?_, ?_, ?_, ?_⟩
  · intro p hp
    rw [hheard]
    exact h.known p hp
  · intro p hp hnone
    rw [hheard]
    exact h.unknown p hp hnone
  · intro p ks hks m hm
    rw [hheard] at hks
    exact hstamp _ (h.stamped p ks hks m hm)
  · intro p ks hks
    rw [hheard] at hks
    exact h.sorted p ks hks
  · intro p ks m hp hks
    rw [hheard] at hks
    exact h.ahead p ks m hp hks
  · intro p k hp hone hk
    rw [lastKey, heard, ← hearing, hheard] at hk
    exact h.pursued p k hp hone hk

theorem Kept.topology (h : Kept es s) (n : Nat) (valid : Bool)
    (hn : ∀ m ∈ es.filterMap Event.stamp, m ≤ n) :
    Kept (es ++ [.topology n valid]) (s.applyTopology n valid) := by
  unfold applyTopology
  split
  · exact h.ignored n valid
  · dsimp only
    have happlied : Numbered { s with
        membershipEpoch := n, membershipStable := true, appliedPeerIds := s.peerIds } :=
      h.numbered.congr h.numbered.own rfl rfl (le_refl _) rfl rfl
    split
    · rename_i hrotates
      exact h.flush hn (h.rotating.rotate rfl rfl rfl rfl) happlied.rotate rfl rfl rfl rfl
        fun heq => absurd heq hrotates.1
    · rename_i hstays
      refine h.flush hn (h.rotating.epoch rfl rfl rfl rfl rfl ?_) happlied rfl rfl rfl rfl ?_
      · by_cases heq : n = s.membershipEpoch
        · exact .inl heq
        · refine .inr ?_
          rw [not_and_or, not_or] at hstays
          exact not_eq_false _ ▸ (hstays.resolve_left (not_not.mpr heq)).2
      · rintro rfl
        exact ⟨rfl, fun _ => rfl⟩

theorem tryAgain_roster (call : Call PeerId Key) : (s.tryAgain call).roster = s.roster := by
  unfold tryAgain tryOnce
  split
  · rfl
  · split <;> rfl

theorem setPeerKey_roster (call : Call PeerId Key) : (s.setPeerKey call).roster = s.roster := by
  unfold setPeerKey
  split
  · exact tryAgain_roster call
  · split <;> rfl

theorem resume_roster : s.resume.roster = s.roster := by
  unfold resume
  split
  · rfl
  · split
    · rfl
    · split
      · rfl
      · exact setPeerKey_roster _

theorem imported_roster (i : Nat) : (s.imported i).roster = s.roster := by
  unfold imported
  split
  · rfl
  · split
    · exact tryAgain_roster _
    · rfl

theorem Kept.goes (h : Kept es s) (hstamp : e.stamp = none)
    (hhear : ∀ p ks, hear p ks e = ks) (hr : Rotating t) (hn : Numbered t)
    (hroster : t.roster = s.roster) (hepoch : t.membershipEpoch = s.membershipEpoch)
    (hpursued : ∀ p k, s.has p = true → 1 ≤ s.membershipEpoch → Pursued s p k → Pursued t p k) :
    Kept (es ++ [e]) t := by
  simp only [roster, Prod.mk.injEq] at hroster
  obtain ⟨hown, hpeers, hbuffer⟩ := hroster
  exact h.quiet hstamp hhear hr hn hown hpeers hepoch hbuffer hpursued

theorem Kept.next (h : Kept es s) {e : Event PeerId Key} (hnewest : Newest s e)
    (hn : ∀ n, e.stamp = some n → 1 ≤ n ∧ ∀ m ∈ es.filterMap Event.stamp, m ≤ n) :
    Kept (es ++ [e]) (s.next e) := by
  have hepoch : ∀ {t : Mesh PeerId Key}, t.gear = s.gear → t.membershipEpoch = s.membershipEpoch := by
    intro t hgear
    simp only [gear, Prod.mk.injEq] at hgear
    exact hgear.2.2.2.2.2.1
  cases e with
  | addPeer q => exact h.addPeer q
  | removePeer q => exact h.removePeer q
  | resetPeer q => exact h.resetPeer q
  | topology n valid => exact h.topology n valid (hn n rfl).2
  | overlayKey q n key => exact h.overlayKey q n key (hn n rfl).2
  | resume =>
      exact h.goes rfl (fun _ _ => rfl) (h.rotating.congr resume_gear) h.numbered.resume resume_roster
        (hepoch resume_gear) fun p k hp hone hk => hk.resume h.rotating h.numbered hone hp
  | imported i =>
      exact h.goes rfl (fun _ _ => rfl) (h.rotating.congr (imported_gear i)) (h.numbered.imported i)
        (imported_roster i) (hepoch (imported_gear i))
        fun p k hp _ hk => hk.imported h.numbered hp hnewest
  | rotation =>
      exact h.goes rfl (fun _ _ => rfl) h.rotating.rotation h.numbered.rotation rotation_roster.1
        rotation_roster.2 fun p k _ _ hk => hk.rotation

theorem kept_of_path {ownId : PeerId} (h : Runs.Path (Guarded Step Newest) (start ownId) es s)
    (honest : Honest es) : Kept es s := by
  refine h.history (J := fun es s => Honest es → Kept es s) (fun _ => start_kept ownId) ?_ honest
  rintro es t e u - ih ⟨rfl, hnewest⟩ honest
  obtain ⟨hes, hn⟩ := honest_concat honest
  exact (ih hes).next hnewest hn

theorem Pursued.settled {k : Key} (h : Pursued s p k) (hidle : s.idle = true) :
    s.peerKey p = some k := by
  simp only [idle, and_eq_true, List.isEmpty_iff] at hidle
  obtain ⟨⟨hnowaiting, hnoimporting⟩, -⟩ := hidle
  cases h with
  | waiting before w hwaiting hkey hfence hlatest hbefore himporting =>
      rw [waitingFor, hnowaiting] at hwaiting
      exact absurd hwaiting.symm (List.append_ne_nil_of_right_ne_nil _ (List.cons_ne_nil _ _))
  | importing x hx hkey hunchanged hlatest hwaiting hothers _ =>
      rw [importingFor, hnoimporting] at hx
      exact absurd hx List.not_mem_nil
  | held serial hkey hlatest hwaiting hothers _ => exact hkey

end Runs

/-! ## Where keys come from -/

/-- All keys of the client, with their peers, have the property. -/
structure Mesh.Holds (s : Mesh PeerId Key) (P : PeerId → Key → Prop) : Prop where
  waiting : ∀ w ∈ s.waiting, P w.call.peerId w.call.key
  importing : ∀ x ∈ s.importing, P x.call.peerId x.call.key
  buffered : ∀ p m, s.bufferedOverlayKeys.get p = some m → P p m.2
  held : ∀ p k, s.peerKey p = some k → P p k

section Origins

variable {s t : Mesh PeerId Key} {P : PeerId → Key → Prop}

theorem Mesh.Holds.tryOnce (h : s.Holds P) {call : Call PeerId Key} (hcall : P call.peerId call.key) :
    (s.tryOnce call).Holds P := by
  unfold Mesh.tryOnce
  split
  · exact h
  · refine ⟨fun w hw => ?_, h.importing, h.buffered, h.held⟩
    rcases mem_append.mp hw with hw | hw
    · exact h.waiting w hw
    · rw [mem_singleton.mp hw]
      exact hcall

theorem Mesh.Holds.tryAgain (h : s.Holds P) {call : Call PeerId Key} (hcall : P call.peerId call.key) :
    (s.tryAgain call).Holds P := by
  unfold Mesh.tryAgain
  split
  · exact h
  · exact h.tryOnce hcall

theorem Mesh.Holds.apply (h : s.Holds P) {p : PeerId} {key : Key} (hkey : P p key) :
    (s.applyPeerOverlayKey p key).Holds P := by
  have hnext : { s with fresh := s.fresh + 1, latest := s.latest.set p s.fresh }.Holds P :=
    ⟨h.waiting, h.importing, h.buffered, h.held⟩
  exact hnext.tryOnce hkey

theorem Mesh.Holds.fewer (h : s.Holds P) (hwaiting : ∀ w ∈ t.waiting, w ∈ s.waiting)
    (himporting : ∀ x ∈ t.importing, x ∈ s.importing)
    (hbuffered : ∀ p m, t.bufferedOverlayKeys.get p = some m → s.bufferedOverlayKeys.get p = some m)
    (hheld : ∀ p k, t.peerKey p = some k → s.peerKey p = some k) : t.Holds P :=
  ⟨fun w hw => h.waiting w (hwaiting w hw), fun x hx => h.importing x (himporting x hx),
    fun p m hm => h.buffered p m (hbuffered p m hm), fun p k hk => h.held p k (hheld p k hk)⟩

theorem peerKey_erased {o : OpaqueDataOverlay PeerId Key} (ho : s.overlay = some o) {q p : PeerId}
    {k : Key} (h : (o.removePeer q).peerKeys.get p = some k) : s.peerKey p = some k := by
  rw [OpaqueDataOverlay.removePeer, get_erase] at h
  split at h
  · cases h
  · rw [peerKey, ho]
    exact h

section

variable (h : s.Holds P)

include h

theorem Mesh.Holds.setPeerKey {call : Call PeerId Key}
    (hcall : P call.peerId call.key) : (s.setPeerKey call).Holds P := by
  unfold Mesh.setPeerKey
  split
  · exact h.tryAgain hcall
  · rename_i o ho
    split
    · exact h
    · refine ⟨h.waiting, fun x hx => ?_, h.buffered, fun p k hk => h.held p k (peerKey_erased ho hk)⟩
      rcases mem_append.mp hx with hx | hx
      · exact h.importing x hx
      · rw [mem_singleton.mp hx]
        exact hcall

theorem Mesh.Holds.resume : s.resume.Holds P := by
  unfold Mesh.resume
  split
  · exact h
  · rename_i w rest hwaiting
    have hw : w ∈ s.waiting := hwaiting ▸ mem_cons_self
    have htail : { s with waiting := rest }.Holds P := by
      refine h.fewer (fun x hx => ?_) (fun _ hx => hx) (fun _ _ hm => hm) (fun _ _ hk => hk)
      rw [hwaiting]
      exact mem_cons_of_mem _ hx
    split
    · exact h
    · split
      · exact htail
      · exact htail.setPeerKey (h.waiting w hw)

theorem Mesh.Holds.imported (i : Nat) : (s.imported i).Holds P := by
  have htaken : { s with importing := s.importing.eraseIdx i }.Holds P :=
    h.fewer (fun _ hw => hw) (eraseIdx_sublist s.importing i).subset (fun _ _ hm => hm)
      (fun _ _ hk => hk)
  unfold Mesh.imported
  split
  · exact h
  · rename_i x hx
    have hcall := h.importing x (mem_of_getElem? hx)
    split
    · exact htaken.tryAgain hcall
    · refine ⟨htaken.waiting, htaken.importing, htaken.buffered, fun p k hk => ?_⟩
      rw [peerKey, bind_map] at hk
      obtain ⟨o, ho, hget⟩ := bind_eq_some_iff.mp hk
      rw [Function.comp_apply, get_set] at hget
      split at hget
      · rename_i heq
        rw [heq, ← some.inj hget]
        exact hcall
      · refine h.held p k ?_
        rw [peerKey, ho]
        exact hget

theorem Mesh.Holds.rotation : s.rotation.Holds P := by
  have hsame : ∀ {t : Mesh PeerId Key}, t.waiting = s.waiting → t.importing = s.importing →
      t.bufferedOverlayKeys = s.bufferedOverlayKeys →
      (∀ p k, t.peerKey p = some k → s.peerKey p = some k) → t.Holds P := by
    intro t hwaiting himporting hbuffer hheld
    refine h.fewer ?_ ?_ ?_ hheld
    · rw [hwaiting]
      exact fun _ hw => hw
    · rw [himporting]
      exact fun _ hx => hx
    · rw [hbuffer]
      exact fun _ _ hm => hm
  -- an overlay that is gone, or new, holds no key
  have hnone : ∀ {p : PeerId} {k : Key}, (none : Option Key) = some k → s.peerKey p = some k :=
    fun hk => by cases hk
  unfold Mesh.rotation
  split
  · exact h
  · split
    · split
      · exact hsame rfl rfl rfl fun _ _ hk => hk
      · exact hsame rfl rfl rfl fun _ _ hk => hnone hk
    · split
      · exact hsame rfl rfl rfl fun _ _ hk => hk
      · exact hsame rfl rfl rfl fun _ _ hk => hnone hk
    · split
      · exact hsame rfl rfl rfl fun _ _ hk => hk
      · exact hsame rfl rfl rfl fun _ _ hk => hk
    · split
      · exact hsame rfl rfl rfl fun _ _ hk => hk
      · split
        · exact hsame rfl rfl rfl fun _ _ hk => hnone hk
        · refine hsame rfl rfl rfl fun p k hk => ?_
          rw [peerKey, settle, bind_map] at hk
          exact hk

theorem Mesh.Holds.addPeer (q : PeerId) : (s.addPeer q).Holds P := by
  unfold Mesh.addPeer
  split
  · exact h
  · exact ⟨h.waiting, h.importing, h.buffered, h.held⟩

theorem Mesh.Holds.removePeer (q : PeerId) : (s.removePeer q).Holds P := by
  unfold Mesh.removePeer
  split
  · exact h
  · refine h.fewer (fun _ hw => hw) (fun _ hx => hx) (fun p m hm => ?_) (fun p k hk => ?_)
    · rw [get_erase] at hm
      split at hm
      · cases hm
      · exact hm
    · rw [peerKey, bind_map] at hk
      obtain ⟨o, ho, hget⟩ := bind_eq_some_iff.mp hk
      exact peerKey_erased ho hget

theorem Mesh.Holds.resetPeer (q : PeerId) : (s.resetPeer q).Holds P := by
  unfold Mesh.resetPeer
  split
  · exact h
  · have hadded := (h.removePeer q).addPeer q
    exact ⟨hadded.waiting, hadded.importing, hadded.buffered, hadded.held⟩

theorem Mesh.Holds.erase (q : PeerId) :
    { s with bufferedOverlayKeys := s.bufferedOverlayKeys.erase q }.Holds P := by
  refine h.fewer (fun _ hw => hw) (fun _ hx => hx) (fun p m hm => ?_) (fun _ _ hk => hk)
  rw [get_erase] at hm
  split at hm
  · cases hm
  · exact hm

theorem Mesh.Holds.foldl_flushOne {entries : List (PeerId × (Nat × Key))}
    (hentries : ∀ e ∈ entries, P e.1 e.2.2) : (entries.foldl flushOne s).Holds P := by
  induction entries generalizing s with
  | nil => exact h
  | cons e entries ih =>
      rw [forall_mem_cons] at hentries
      refine ih ?_ hentries.2
      unfold flushOne
      split
      · exact h.erase e.1
      · split
        · exact (h.erase e.1).apply hentries.1
        · exact h

theorem Mesh.Holds.applyTopology (n : Nat) (valid : Bool) :
    (s.applyTopology n valid).Holds P := by
  have hflush : ∀ {t : Mesh PeerId Key}, t.Holds P → t.flushBufferedOverlayKeys.Holds P := fun ht =>
    ht.foldl_flushOne fun e he => ht.buffered e.1 e.2 (get_eq_some_iff.mpr he)
  unfold Mesh.applyTopology
  split
  · exact h
  · dsimp only
    split <;> exact hflush ⟨h.waiting, h.importing, h.buffered, h.held⟩

theorem Mesh.Holds.acceptOverlayKey {q : PeerId} {n : Nat} {key : Key}
    (hkey : s.membershipEpoch ≤ n → P q key) : (s.acceptOverlayKey q n key).Holds P := by
  unfold Mesh.acceptOverlayKey
  split
  · exact h
  · split
    · rename_i hlt
      refine ⟨h.waiting, h.importing, fun p m hm => ?_, h.held⟩
      rw [get_set] at hm
      split at hm
      · rename_i heq
        rw [heq, ← some.inj hm]
        exact hkey (le_of_lt hlt)
      · exact h.buffered p m hm
    · split
      · exact h
      · rename_i hge
        exact (h.erase q).apply (hkey (not_lt.mp hge))

end

/-- A key was announced, with an epoch that was not behind when it came. -/
def Announced (ownId : PeerId) (es : List (Event PeerId Key)) (p : PeerId) (k : Key) : Prop :=
  ∃ before n after, es = before ++ .overlayKey p n k :: after
    ∧ (before.foldl next (start ownId)).membershipEpoch ≤ n

theorem announced_of_run (ownId : PeerId) (es : List (Event PeerId Key)) :
    (es.foldl next (start ownId)).Holds (Announced ownId es) := by
  induction es using reverseRecOn with
  | nil =>
      refine ⟨fun w hw => absurd hw not_mem_nil, fun x hx => absurd hx not_mem_nil, ?_, ?_⟩
      · intro p m hm
        cases hm
      · intro p k hk
        cases hk
  | append_singleton es e ih =>
      have hlater : ∀ p k, Announced ownId es p k → Announced ownId (es ++ [e]) p k := by
        rintro p k ⟨before, n, after, rfl, hle⟩
        exact ⟨before, n, after ++ [e], by simp, hle⟩
      have hold : (es.foldl next (start ownId)).Holds (Announced ownId (es ++ [e])) :=
        ⟨fun w hw => hlater _ _ (ih.waiting w hw), fun x hx => hlater _ _ (ih.importing x hx),
          fun p m hm => hlater _ _ (ih.buffered p m hm), fun p k hk => hlater _ _ (ih.held p k hk)⟩
      rw [foldl_concat]
      cases e with
      | addPeer q => exact hold.addPeer q
      | removePeer q => exact hold.removePeer q
      | resetPeer q => exact hold.resetPeer q
      | topology n valid => exact hold.applyTopology n valid
      | overlayKey q n key =>
          exact hold.acceptOverlayKey fun hle => ⟨es, n, [], rfl, hle⟩
      | resume => exact hold.resume
      | imported i => exact hold.imported i
      | rotation => exact hold.rotation

end Origins

/-! ## The property -/

/-- Whenever no operation of the overlay is pending and the membership is stable,
the overlay holds for each peer the last key that it announced, since it was
added, with the present epoch. -/
def Fresh (es : List (Event PeerId Key)) (s : Mesh PeerId Key) : Prop :=
  s.idle = true → s.membershipStable = true → ∀ p ∈ s.peerIds, ∀ k,
    lastKey es p s.membershipEpoch = some k → s.peerKey p = some k

theorem foldl_of_path {ownId : PeerId} {es : List (Event PeerId Key)} {s : Mesh PeerId Key}
    (h : Runs.Path Step (start ownId) es s) : s = es.foldl next (start ownId) := by
  refine h.history (J := fun es s => s = es.foldl next (start ownId)) rfl ?_
  rintro es t e u - rfl rfl
  rw [foldl_concat]

/-- **Overlay keys.** In a run in which no cancelled import of an outdated key tries
again, the overlay has the last key of each peer whenever it is idle. In every run,
no key is held that was behind the client's epoch when it came. -/
theorem keys_follow_announcements (ownId : PeerId) :
    (∀ (es : List (Event PeerId Key)) s, Runs.Path (Guarded Step Newest) (start ownId) es s →
      Honest es → Fresh es s)
    ∧ ∀ (es : List (Event PeerId Key)) s, Runs.Path Step (start ownId) es s → ∀ p k,
      s.peerKey p = some k → Announced ownId es p k := by
  refine ⟨fun es s h honest hidle _ p hp k hk => ?_, fun es s h p k hk => ?_⟩
  · have hkept := kept_of_path h honest
    have hhas : s.has p = true := by
      obtain ⟨v, hv⟩ := mem_keys_iff.mp hp
      rw [has, hv]
      rfl
    obtain ⟨ks, hks⟩ := hkept.known p hhas
    -- the key has a stamp, and stamps begin at one
    have hone : 1 ≤ s.membershipEpoch := by
      rw [lastKey, heard_eq hks] at hk
      obtain ⟨m, hm, -⟩ := map_eq_some_iff.mp hk
      obtain ⟨hmem, heq⟩ := mem_filter.mp (mem_of_getLast? hm)
      rw [← beq_iff_eq.mp heq]
      exact rel_of_pairwise_cons honest (hkept.stamped p ks hks m hmem)
    exact (hkept.pursued p k hhas hone hk).settled hidle
  · rw [foldl_of_path h] at hk
    exact (announced_of_run ownId es).held p k hk

/-- Two keys in turn, each imported before the next comes. -/
def inTurn : List (Event Nat Nat) :=
  [.addPeer 1, .topology 1 true, .rotation, .rotation, .rotation, .rotation, .overlayKey 1 1 10,
    .resume, .imported 0, .overlayKey 1 1 20, .resume, .imported 0]

theorem keys_follow_announcements_sample : (inTurn.foldl next (start 0)).peerKey 1 = some 20 := by
  have hrun : along next Newest inTurn (start 0) = true := by decide +kernel
  have honest : Honest inTurn := by decide
  exact (keys_follow_announcements 0).1 inTurn _ (Path.guarded_foldl next Newest inTurn _ hrun)
    honest (by decide +kernel) (by decide +kernel) 1 (by decide +kernel) 20 (by decide +kernel)

/-- Two imports of one peer, the second of which ends first; the first tries again. -/
def crossing : List (Event Nat Nat) :=
  [.addPeer 1, .topology 1 true, .rotation, .rotation, .rotation, .rotation, .overlayKey 1 1 10,
    .resume, .overlayKey 1 1 20, .resume, .imported 1, .imported 0, .resume, .imported 0]

/-- The overlay ends with the first key. -/
theorem outdated_key_returns :
    Honest crossing ∧ ¬ Fresh crossing (crossing.foldl next (start 0)) := by
  refine ⟨by decide, fun h => ?_⟩
  have hlast := h (by decide +kernel) (by decide +kernel) 1 (by decide +kernel) 20 (by decide +kernel)
  have hheld : (crossing.foldl next (start 0)).peerKey 1 = some 10 := by decide +kernel
  rw [hheld] at hlast
  cases hlast

end OverlayKeys

end WebrtcMinimize
