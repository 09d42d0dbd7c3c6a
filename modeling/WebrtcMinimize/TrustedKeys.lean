import WebrtcMinimize.TrustedDecoder

/-!
# Keys along a run of the decoder

A decoder has at most four keys, each of them in the history and live at the
last reading (`Sound`). Along a run that stays open a key only loses its
place or advances its replay window, and the history only grows (`Kept`), so
an id that lost its key never gets one again.
-/

namespace WebrtcMinimize

open Attempts Checks Runs

namespace TrustedSFrame

open SFrame (Suite)
open KeyedMap List Call

/-- A key is what its base makes for the id. -/
structure Key.Derived (suite : Suite) (kid : UInt64) (entry : Key) : Prop where
  salt : entry.salt = (Key.of suite kid entry.base entry.expiresAt).salt
  aead : entry.aead = (Key.of suite kid entry.base entry.expiresAt).aead

structure Sound (suite : Suite) (d : Decoder) : Prop where
  seen : ∀ {kid entry}, d.keys.get kid = some entry → kid ∈ d.seen
  live : ∀ {kid entry}, d.keys.get kid = some entry → d.lastNow < entry.expiresAt
  consent : ∀ {kid entry}, d.keys.get kid = some entry → entry.expiresAt ≤ d.expiresAt
  derived : ∀ {kid entry}, d.keys.get kid = some entry → entry.Derived suite kid
  keys_le : d.keys.size ≤ maxKeys
  seen_le : d.seen.length ≤ 512

theorem sound_new {suite : Suite} {envelope codec : String} {now expiresAt : Int} {d : Decoder}
    (h : new envelope codec now expiresAt = .ok d) : Sound suite d := by
  rw [new] at h
  split at h
  · cases h
  · obtain ⟨_, -, hd⟩ := Checks.bind_ok_iff.mp h
    cases hd
    exact {
      seen := fun hget => by cases hget
      live := fun hget => by cases hget
      consent := fun hget => by cases hget
      derived := fun hget => by cases hget
      keys_le := Nat.zero_le _
      seen_le := Nat.zero_le _
    }

theorem Sound.destroy {suite : Suite} {d : Decoder} : Sound suite d.destroy where
  seen hget := by cases hget
  live hget := by cases hget
  consent hget := by cases hget
  derived hget := by cases hget
  keys_le := Nat.zero_le _
  seen_le := Nat.zero_le _

theorem get_ticked {d : Decoder} {now : Int} {kid : UInt64} {entry : Key} :
    (d.ticked now).keys.get kid = some entry ↔
      d.keys.get kid = some entry ∧ now < entry.expiresAt := by
  rw [Decoder.ticked, get_keep_eq_some_iff, decide_eq_true_iff]

theorem get_remove {d : Decoder} {kid l : UInt64} {entry : Key} :
    (d.remove kid).keys.get l = some entry ↔ d.keys.get l = some entry ∧ l ≠ kid := by
  rw [Decoder.remove, erase, get_keep_eq_some_iff, decide_eq_true_iff]

section Kept

variable {suite : Suite} {d t u : Decoder} {call : Call} {calls : List Call}

theorem Sound.ticked {now : Int} (h : Sound suite d) : Sound suite (d.ticked now) where
  seen hget := h.seen (get_ticked.mp hget).1
  live hget := (get_ticked.mp hget).2
  consent hget := h.consent (get_ticked.mp hget).1
  derived hget := h.derived (get_ticked.mp hget).1
  keys_le := (size_keep_le _ _).trans h.keys_le
  seen_le := h.seen_le

theorem Sound.remove {kid : UInt64} (h : Sound suite d) : Sound suite (d.remove kid) where
  seen hget := h.seen (get_remove.mp hget).1
  live hget := h.live (get_remove.mp hget).1
  consent hget := h.consent (get_remove.mp hget).1
  derived hget := h.derived (get_remove.mp hget).1
  keys_le := (size_keep_le _ _).trans h.keys_le
  seen_le := h.seen_le

variable {base : List UInt8} {expiresAt : Int} {kid : UInt64}

theorem get_added {l : UInt64} : (d.added suite kid base expiresAt).keys.get l
      = if l = kid then some (Key.of suite kid base expiresAt) else d.keys.get l :=
  get_set _ _ _ _

theorem get_accepted {o : Opened} {l : UInt64} :
    (d.accepted o).keys.get l = if l = o.header.kid then
      some { o.entry with replay := o.entry.replay.accept o.header.counter } else d.keys.get l :=
  get_set _ _ _ _

section

variable (h : Sound suite d)

include h

theorem Sound.added {kid : UInt64} {base : List UInt8} {expiresAt : Int}
    (hfresh : Fresh d kid) (hlive : d.lastNow < expiresAt) (hconsent : expiresAt ≤ d.expiresAt) :
    Sound suite (d.added suite kid base expiresAt) where
  seen {l entry} hget := by
    rw [get_added] at hget
    split at hget
    · rename_i heq
      rw [heq]
      exact mem_cons_self
    · exact mem_cons_of_mem _ (h.seen hget)
  live {l entry} hget := by
    rw [get_added] at hget
    split at hget
    · cases hget
      exact hlive
    · exact h.live hget
  consent {l entry} hget := by
    rw [get_added] at hget
    split at hget
    · cases hget
      exact hconsent
    · exact h.consent hget
  derived {l entry} hget := by
    rw [get_added] at hget
    split at hget
    · rename_i heq
      cases hget
      rw [heq]
      exact ⟨rfl, rfl⟩
    · exact h.derived hget
  keys_le := by
    show (d.keys.set _ _).size ≤ _
    rw [size_set_of_none hfresh.absent]
    exact hfresh.keys
  seen_le := hfresh.seen

theorem Sound.accepted {frame : List UInt8} {o : Opened}
    (ho : opened suite d frame = .ok o) : Sound suite (d.accepted o) where
  seen {l entry} hget := by
    rw [get_accepted] at hget
    split at hget
    · rename_i heq
      rw [heq]
      exact h.seen (opened_ok ho).1
    · exact h.seen hget
  live {l entry} hget := by
    rw [get_accepted] at hget
    split at hget
    · cases hget
      have hlive := h.live (opened_ok ho).1
      exact hlive
    · exact h.live hget
  consent {l entry} hget := by
    rw [get_accepted] at hget
    split at hget
    · cases hget
      have hconsent := h.consent (opened_ok ho).1
      exact hconsent
    · exact h.consent hget
  derived {l entry} hget := by
    rw [get_accepted] at hget
    split at hget
    · rename_i heq
      cases hget
      have hderived := h.derived (opened_ok ho).1
      rw [heq]
      exact ⟨hderived.salt, hderived.aead⟩
    · exact h.derived hget
  keys_le := by
    show (d.keys.set _ _).size ≤ _
    rw [size_set_of_some (opened_ok ho).1]
    exact h.keys_le
  seen_le := h.seen_le

theorem Sound.step (hstep : Step suite d call t) : Sound suite t := by
  rcases step_cases hstep with hshut | ⟨now, -, hcurrent, rfl | hadded | haccepted⟩ | ⟨kid, -, rfl⟩
  · rcases hshut.left with rfl | rfl
    · exact h
    · exact .destroy
  · exact h.ticked
  · obtain ⟨kid, base, expiresAt, -, hbad, hfresh, rfl⟩ := hadded
    rw [badInstall] at hbad
    refine h.ticked.added hfresh ?_ ?_
    · show now < expiresAt
      omega
    · show expiresAt ≤ d.expiresAt
      omega
  · obtain ⟨frame, o, -, ho, rfl⟩ := haccepted
    exact h.ticked.accepted ho
  · exact h.remove

theorem Sound.run (hrun : Path (Step suite) d calls t) : Sound suite t :=
  hrun.inv (fun hstep hs => Sound.step hs hstep) h

end

/-- What stays of `d` in an open decoder after it. -/
structure Kept (d t : Decoder) : Prop where
  live : d.closed = false
  clock : d.lastNow ≤ t.lastNow
  consent : t.expiresAt = d.expiresAt
  seen : ∀ {kid}, kid ∈ d.seen → kid ∈ t.seen
  keys : ∀ {kid entry}, t.keys.get kid = some entry → kid ∈ d.seen →
    ∃ former, d.keys.get kid = some former ∧ entry.base = former.base
      ∧ entry.expiresAt = former.expiresAt

/-- A decoder after `d`: closed, or one that keeps what `d` had. -/
def Later (d t : Decoder) : Prop := t.closed = true ∨ Kept d t

theorem Kept.refl (h : d.closed = false) : Kept d d :=
  ⟨h, le_rfl, rfl, id, fun hget _ => ⟨_, hget, rfl, rfl⟩⟩

theorem Kept.trans (h : Kept d t) (h' : Kept t u) : Kept d u where
  live := h.live
  clock := h.clock.trans h'.clock
  consent := h'.consent.trans h.consent
  seen := fun hkid => h'.seen (h.seen hkid)
  keys := by
    intro kid entry hget hkid
    obtain ⟨middle, hmiddle, hbase, hexpires⟩ := h'.keys hget (h.seen hkid)
    obtain ⟨former, hformer, hbase', hexpires'⟩ := h.keys hmiddle hkid
    exact ⟨former, hformer, hbase.trans hbase', hexpires.trans hexpires'⟩

theorem later_refl (d : Decoder) : Later d d := by
  cases hclosed : d.closed with
  | true => exact .inl hclosed
  | false => exact .inr (.refl hclosed)

theorem Later.trans (h : Later d t) (h' : Later t u) : Later d u := by
  rcases h' with hclosed | hkept'
  · exact .inl hclosed
  · rcases h with hclosed | hkept
    · rw [hkept'.live] at hclosed
      cases hclosed
    · exact .inr (hkept.trans hkept')

theorem Kept.ticked {now : Int} (h : Current d now) : Kept d (d.ticked now) :=
  ⟨h.live, h.clock, rfl, id, fun hget _ => ⟨_, (get_ticked.mp hget).1, rfl, rfl⟩⟩

theorem Kept.added {kid : UInt64} {base : List UInt8} {expiresAt : Int} (h : d.closed = false)
    (hfresh : Fresh d kid) : Kept d (d.added suite kid base expiresAt) where
  live := h
  clock := le_rfl
  consent := rfl
  seen := mem_cons_of_mem _
  keys := by
    intro l entry hget hl
    rw [get_added] at hget
    split at hget
    · rename_i heq
      exact absurd (heq ▸ hl) hfresh.unseen
    · exact ⟨entry, hget, rfl, rfl⟩

theorem Kept.accepted {frame : List UInt8} {o : Opened} (h : d.closed = false)
    (ho : opened suite d frame = .ok o) : Kept d (d.accepted o) where
  live := h
  clock := le_rfl
  consent := rfl
  seen := id
  keys := by
    intro l entry hget _
    rw [get_accepted] at hget
    split at hget
    · rename_i heq
      cases hget
      exact ⟨o.entry, heq ▸ (opened_ok ho).1, rfl, rfl⟩
    · exact ⟨entry, hget, rfl, rfl⟩

theorem later_step (hstep : Step suite d call t) : Later d t := by
  rcases step_cases hstep with hshut | ⟨now, -, hcurrent, rfl | hadded | haccepted⟩ | ⟨kid, -, rfl⟩
  · exact .inl hshut.closed
  · exact .inr (.ticked hcurrent)
  · obtain ⟨kid, base, expiresAt, -, -, hfresh, rfl⟩ := hadded
    exact .inr ((Kept.ticked hcurrent).trans (.added hcurrent.live hfresh))
  · obtain ⟨frame, o, -, ho, rfl⟩ := haccepted
    exact .inr ((Kept.ticked hcurrent).trans (.accepted hcurrent.live ho))
  · cases hclosed : d.closed with
    | true => exact .inl hclosed
    | false =>
        exact .inr ⟨hclosed, le_rfl, rfl, id, fun hget _ => ⟨_, (get_remove.mp hget).1, rfl, rfl⟩⟩

theorem later_run (hrun : Path (Step suite) d calls t) : Later d t :=
  hrun.rel later_refl Later.trans later_step

theorem readings_run (hrun : Path (Step suite) d calls t) (hopen : t.closed = false) :
    d.closed = false ∧ (d.lastNow :: calls.filterMap reading).Pairwise (· ≤ ·)
      ∧ ∀ now ∈ d.lastNow :: calls.filterMap reading, now ≤ t.lastNow := by
  refine Path.readings (fun d => d.closed = false) Decoder.lastNow reading ?_ ?_ ?_ hrun hopen
  · intro s e t hstep ht
    rcases later_step hstep with hclosed | hkept
    · rw [ht] at hclosed
      cases hclosed
    · exact hkept.live
  · intro s e t now hstep ht hreading
    rcases step_cases hstep with hshut | ⟨now', hnow, hcurrent, hdone⟩ | ⟨kid, rfl, -⟩
    · have hclosed := hshut.closed
      rw [ht] at hclosed
      cases hclosed
    · obtain rfl : now' = now := Option.some.inj (hnow.symm.trans hreading)
      refine ⟨hcurrent.clock, ?_⟩
      rcases hdone with rfl | ⟨_, _, _, -, -, -, rfl⟩ | ⟨_, _, -, -, rfl⟩ <;> rfl
    · cases hreading
  · intro s e t hstep ht hreading
    rcases step_cases hstep with hshut | ⟨now', hnow, -⟩ | ⟨kid, -, rfl⟩
    · have hclosed := hshut.closed
      rw [ht] at hclosed
      cases hclosed
    · rw [hreading] at hnow
      cases hnow
    · rfl

/-- Every key that is held was installed, with this base and this expiry. -/
theorem installed_run (hempty : d.keys = .empty) (hrun : Path (Step suite) d calls t)
    {entry : Key} (hget : t.keys.get kid = some entry) :
    ∃ now, Call.install kid entry.base now entry.expiresAt ∈ calls := by
  refine hrun.history (J := fun calls t => ∀ kid entry, t.keys.get kid = some entry →
    ∃ now, Call.install kid entry.base now entry.expiresAt ∈ calls) ?_ ?_ kid entry hget
  · intro kid entry hget
    rw [hempty] at hget
    cases hget
  · intro calls t call u _ ih hstep kid entry hget
    have hformer : ∀ {former : Key}, t.keys.get kid = some former → entry.base = former.base →
        entry.expiresAt = former.expiresAt →
          ∃ now, Call.install kid entry.base now entry.expiresAt ∈ calls ++ [call] := by
      intro former hget hbase hexpires
      obtain ⟨now, hmem⟩ := ih kid former hget
      rw [hbase, hexpires]
      exact ⟨now, mem_append_left _ hmem⟩
    rcases step_cases hstep with hshut | ⟨now, -, -, rfl | hadded | haccepted⟩ | ⟨_, -, rfl⟩
    · rcases hshut.left with rfl | rfl
      · exact hformer hget rfl rfl
      · cases hget
    · exact hformer (get_ticked.mp hget).1 rfl rfl
    · obtain ⟨kid', base, expiresAt, rfl, -, -, rfl⟩ := hadded
      rw [get_added] at hget
      split at hget
      · rename_i heq
        cases hget
        subst heq
        exact ⟨now, mem_append_right _ mem_cons_self⟩
      · exact hformer (get_ticked.mp hget).1 rfl rfl
    · obtain ⟨frame, o, -, ho, rfl⟩ := haccepted
      rw [get_accepted] at hget
      split at hget
      · rename_i heq
        cases hget
        subst heq
        exact hformer (get_ticked.mp (opened_ok ho).1).1 rfl rfl
      · exact hformer (get_ticked.mp hget).1 rfl rfl
    · exact hformer (get_remove.mp hget).1 rfl rfl

theorem install_gone {now : Int} {v : Unit} (hseen : kid ∈ d.seen) (hgone : d.keys.get kid = none)
    (hrun : Path (Step suite) d calls t) : install suite kid base now expiresAt t ≠ .ok v u := by
  intro h
  obtain ⟨hcurrent, -, hdone⟩ := install_ok h
  rcases later_run hrun with hclosed | hkept
  · rw [hcurrent.live] at hclosed
    cases hclosed
  · rcases hdone with ⟨entry, hget, -⟩ | ⟨hfresh, -⟩
    · obtain ⟨former, hformer, -⟩ := hkept.keys (get_ticked.mp hget).1 hseen
      rw [hgone] at hformer
      cases hformer
    · exact hfresh.unseen (hkept.seen hseen)

/-- Nor does an id whose key is over at the time of the installation. -/
theorem install_over {entry : Key} {now : Int}
    {v : Unit} (hseen : kid ∈ d.seen) (hget : d.keys.get kid = some entry)
    (hrun : Path (Step suite) d calls t) (hover : entry.expiresAt ≤ now) :
    install suite kid base now expiresAt t ≠ .ok v u := by
  intro h
  obtain ⟨hcurrent, -, hdone⟩ := install_ok h
  rcases later_run hrun with hclosed | hkept
  · rw [hcurrent.live] at hclosed
    cases hclosed
  · rcases hdone with ⟨held, hheld, -⟩ | ⟨hfresh, -⟩
    · obtain ⟨hheld, hlive⟩ := get_ticked.mp hheld
      obtain ⟨former, hformer, -, hexpires⟩ := hkept.keys hheld hseen
      rw [hget] at hformer
      cases hformer
      omega
    · exact hfresh.unseen (hkept.seen hseen)

theorem install_again {entry : Key} {now : Int}
    {v : Unit} (hseen : kid ∈ d.seen) (hget : d.keys.get kid = some entry)
    (h : install suite kid base now expiresAt d = .ok v t) :
    t = d.ticked now ∧ t.keys.get kid = some entry ∧ entry.base = base
      ∧ entry.expiresAt = expiresAt := by
  obtain ⟨-, -, ⟨former, hformer, hexpires, hbase, rfl⟩ | ⟨hfresh, -⟩⟩ := install_ok h
  · obtain ⟨hheld, -⟩ := get_ticked.mp hformer
    rw [hget] at hheld
    cases hheld
    exact ⟨rfl, hformer, hbase, hexpires⟩
  · exact absurd hseen hfresh.unseen

end Kept

end TrustedSFrame

end WebrtcMinimize
