import WebrtcMinimize.Runs

/-!
# Publication sender slots

`PublicationSenderPool` reuses the senders of a connection's earlier publications. A sender is
known by its connection and the place of its slot there, as `addTrack` makes a new one. What the
browser and the caller answer (is the connection open, the track live, the publication
authorized, does a call throw) comes with each call. A `replaceTrack` sets the track, or is
refused, and goes on in the pool at any later time.
-/

namespace WebrtcMinimize

open Runs List

namespace SenderPool

open Function Option

inductive SlotState
  | active | idle | pending | retiring | failed
deriving DecidableEq

/-- A slot with its sender's track and the `replaceTrack` in flight, which has happened or not. -/
structure Slot where
  kind : String
  state : SlotState
  track : Option Nat
  replacing : Option (Nat × Bool)

abbrev Sender := Nat × Nat

structure Pool where
  maxSlots : Nat
  connections : Nat → List Slot

structure Answers where
  opened : Bool
  live : Bool
  authorized : Bool
  /-- The transceiver of a sender is listed and not stopped. -/
  usable : Nat → Bool
  /-- `configure`, or what follows a replacement, does not throw. -/
  succeeds : Bool

inductive Event
  | acquire (pc : Nat) (kind : String) (track : Nat) (a : Answers)
  | release (x : Sender)
  | replaced (x : Sender)
  | resumed (x : Sender) (a : Answers)

/-- What a call returns or a `ready` comes to; `none` for a promise that rejects. -/
inductive Outcome
  | nothing | denied
  | acquired (x : Sender)
  | ready (x : Sender) (ok : Option Bool)
deriving DecidableEq

def Slot.reuse (slot : Slot) (track : Nat) : Slot :=
  { slot with state := .pending, replacing := some (track, false) }

def Slot.release (slot : Slot) : Slot :=
  { slot with
    track := none
    state := match slot.state with
      | .failed => .failed
      | .pending | .retiring => .retiring
      | .active | .idle => .idle }

def Slot.replace (slot : Slot) : Slot :=
  match slot.replacing with
  | some (track, false) => { slot with track := some track, replacing := some (track, true) }
  | _ => slot

/-- The rest of `ready`, after its `replaceTrack` has happened or been refused. -/
def Slot.resume (slot : Slot) (a : Answers) : Slot × Option (Option Bool) :=
  match slot.replacing with
  | none => (slot, none)
  | some (_, happened) =>
      if happened = false then
        ({ slot with track := none, state := .failed, replacing := none }, some none)
      else if slot.state = .retiring ∨ ¬a.authorized ∨ ¬a.opened ∨ ¬a.live then
        ({ slot with track := none, state := .idle, replacing := none }, some (some false))
      else if a.succeeds then
        ({ slot with state := .active, replacing := none }, some (some true))
      else ({ slot with track := none, state := .failed, replacing := none }, some none)

def Pool.slot (s : Pool) (x : Sender) : Option Slot := (s.connections x.1)[x.2]?

def Pool.modify (s : Pool) (x : Sender) (f : Slot → Slot) : Pool :=
  { s with connections := update s.connections x.1 ((s.connections x.1).modify x.2 f) }

/-- The first idle slot of the connection that `acquire` may reuse. -/
def Pool.find (s : Pool) (pc : Nat) (kind : String) (a : Answers) : Option Nat :=
  (range (s.connections pc).length).find? fun i => (s.slot (pc, i)).any fun slot =>
    slot.state = .idle ∧ slot.kind = kind ∧ slot.track = none ∧ a.usable i

def Pool.acquire (s : Pool) (pc : Nat) (kind : String) (track : Nat) (a : Answers) :
    Pool × Outcome :=
  let slots := s.connections pc
  if ¬a.opened ∨ ¬a.live ∨ ¬a.authorized then (s, .denied)
  else
    match s.find pc kind a with
    | none =>
        if s.maxSlots ≤ slots.length then (s, .denied)
        else
          let created : Slot := ⟨kind, .active, some track, none⟩
          let push slot : Pool :=
            { s with connections := update s.connections pc (slots ++ [slot]) }
          if a.succeeds then (push created, .acquired (pc, slots.length))
          else (push created.release, .denied)
    | some i =>
        if a.succeeds then (s.modify (pc, i) (·.reuse track), .acquired (pc, i)) else (s, .denied)

def Pool.step (s : Pool) : Event → Pool × Outcome
  | .acquire pc kind track a => s.acquire pc kind track a
  | .release x => (s.modify x Slot.release, .nothing)
  | .replaced x => (s.modify x Slot.replace, .nothing)
  | .resumed x a =>
      (s.modify x fun slot => (slot.resume a).1,
        match (s.slot x).bind fun slot => (slot.resume a).2 with
        | none => .nothing
        | some ok => .ready x ok)

def Step (s : Pool) (e : Event) (t : Pool) : Prop := t = (s.step e).1

/-- The sender is not released, and its `ready` does not come to false. -/
def Keeps (x : Sender) (s : Pool) (e : Event) : Prop :=
  e ≠ .release x ∧ (s.step e).2 ≠ .ready x (some false)

/-- The replacement of the sender does not come back to the pool. -/
def Waits (x : Sender) (_ : Pool) (e : Event) : Prop := ∀ a, e ≠ .resumed x a

/-- What the pool promises in a state, and in every run from there. -/
structure OneWriter (s : Pool) : Prop where
  few : ∀ pc, (s.connections pc).length ≤ s.maxSlots
  idle : ∀ x slot, s.slot x = some slot → slot.state = .idle → slot.track = none
  stays : ∀ x slot e, s.slot x = some slot → slot.state = .idle → (s.step e).2 ≠ .acquired x →
    (s.step e).1.slot x = some slot
  /-- A sender that was handed out is not handed out again while it is kept. -/
  held : ∀ pc kind track a x es t e, (s.acquire pc kind track a).2 = .acquired x →
    Path (Guarded Step (Keeps x)) (s.acquire pc kind track a).1 es t →
    a.authorized ∧ (t.step e).2 ≠ .acquired x
  /-- A replacement comes back to a slot that was released without a track. -/
  retired : ∀ x slot es t a, s.slot x = some slot → slot.state = .pending →
    Path (Guarded Step (Waits x)) (s.step (.release x)).1 es t →
    ∃ slot', (t.step (.resumed x a)).1.slot x = some slot' ∧ slot'.track = none
  ready : ∀ x slot es t a, s.slot x = some slot → slot.state = .pending →
    Path (Guarded Step (Waits x)) s es t → (t.step (.resumed x a)).2 = .ready x (some true) →
    a.authorized ∧ .release x ∉ es
  failed : ∀ x slot es t e, s.slot x = some slot → slot.state = .failed → Path Step s es t →
    (t.step e).2 ≠ .acquired x

/-! ## What a call does to a slot -/

structure SlotOK (slot : Slot) : Prop where
  idle : slot.state = .idle → slot.track = none
  replacing : slot.replacing.isSome ↔ slot.state = .pending ∨ slot.state = .retiring

variable {s t : Pool} {slot slot' : Slot} {e : Event} {x : Sender}

inductive Moves (s : Pool) (e : Event) (x : Sender) (slot : Slot) : Slot → Prop
  | same : Moves s e x slot slot
  | reused (track : Nat) : (s.step e).2 = .acquired x → slot.state = .idle →
      Moves s e x slot (slot.reuse track)
  | released : e = .release x → Moves s e x slot slot.release
  | replaced : Moves s e x slot slot.replace
  | resumed (a : Answers) : e = .resumed x a → Moves s e x slot (slot.resume a).1

theorem slot_modify (s : Pool) (y x : Sender) (f : Slot → Slot) :
    (s.modify y f).slot x = (s.slot x).map fun slot => if y = x then f slot else slot := by
  obtain ⟨pc, i⟩ := x
  obtain ⟨pc', j⟩ := y
  simp only [Pool.slot, Pool.modify, update_apply, Prod.mk.injEq]
  split
  · next heq => simp [heq, getElem?_modify]
  · next hne => simp [Ne.symm hne]

theorem length_modify (s : Pool) (y : Sender) (f : Slot → Slot) (pc : Nat) :
    ((s.modify y f).connections pc).length = (s.connections pc).length := by
  simp only [Pool.modify, update_apply]
  split
  · next heq => rw [heq, List.length_modify]
  · rfl

/-- A call is denied, makes a slot or takes an idle one. -/
theorem acquire_cases (s : Pool) (pc : Nat) (kind : String) (track : Nat) (a : Answers) :
    s.acquire pc kind track a = (s, .denied)
      ∨ a.authorized ∧ (((s.connections pc).length < s.maxSlots
          ∧ ∃ new out, SlotOK new
            ∧ s.acquire pc kind track a = ({ s with
              connections := update s.connections pc (s.connections pc ++ [new]) }, out)
            ∧ (out = .denied ∨ out = .acquired (pc, (s.connections pc).length)
              ∧ new.state = .active))
        ∨ ∃ i slot, s.slot (pc, i) = some slot ∧ slot.state = .idle
          ∧ s.acquire pc kind track a = (s.modify (pc, i) (·.reuse track), .acquired (pc, i))) := by
  unfold Pool.acquire
  dsimp only
  split
  · exact .inl rfl
  · next hallowed =>
      have hauthorized : a.authorized := by simp_all
      cases hfind : s.find pc kind a with
      | none =>
          dsimp only
          split
          · exact .inl rfl
          · next hroom =>
              refine .inr ⟨hauthorized, .inl ⟨not_le.mp hroom, ?_⟩⟩
              split
              · exact ⟨_, _, ⟨by simp, by simp⟩, rfl, .inr ⟨rfl, rfl⟩⟩
              · exact ⟨_, _, ⟨fun _ => rfl, by simp [Slot.release]⟩, rfl, .inl rfl⟩
      | some i =>
          dsimp only
          split
          · refine .inr ⟨hauthorized, .inr ⟨i, ?_⟩⟩
            have hfree := find?_some hfind
            cases hget : s.slot (pc, i) with
            | none => simp [hget] at hfree
            | some slot =>
                simp only [hget, any_some, decide_eq_true_eq] at hfree
                exact ⟨slot, rfl, hfree.1, rfl⟩
          · exact .inl rfl

theorem slot_lt (hget : s.slot x = some slot) : x.2 < (s.connections x.1).length :=
  (List.getElem?_eq_some_iff.mp hget).1

/-- Only an idle slot or a new one is handed out. -/
theorem acquired_idle (h : (s.step e).2 = .acquired x) (hget : s.slot x = some slot) :
    slot.state = .idle := by
  cases e with
  | acquire pc kind track a =>
      rcases acquire_cases s pc kind track a with
        heq | ⟨-, ⟨-, new, out, -, heq, hout⟩ | ⟨i, slot', hget', hidle, heq⟩⟩ <;>
        simp only [Pool.step, heq] at h
      · cases h
      · rcases hout with rfl | ⟨rfl, -⟩ <;> cases h
        exact absurd (slot_lt hget) (lt_irrefl _)
      · cases h
        cases hget.symm.trans hget'
        exact hidle
  | release y => cases h
  | replaced y => cases h
  | resumed y a =>
      simp only [Pool.step] at h
      split at h <;> cases h

theorem step_moves (hget : s.slot x = some slot) (e : Event) :
    ∃ slot', (s.step e).1.slot x = some slot' ∧ Moves s e x slot slot' := by
  have hmodify : ∀ {y f}, (y = x → Moves s e x slot (f slot)) →
      ∃ slot', (s.modify y f).slot x = some slot' ∧ Moves s e x slot slot' := fun {y f} h => by
    rw [slot_modify, hget]
    refine ⟨_, rfl, ?_⟩
    split
    · next heq => exact h heq
    · exact .same
  cases e with
  | acquire pc kind track a =>
      rcases acquire_cases s pc kind track a with
        heq | ⟨-, ⟨-, new, out, -, heq, -⟩ | ⟨i, slot', hget', hidle, heq⟩⟩
      · exact ⟨slot, by rwa [Pool.step, heq], .same⟩
      · refine ⟨slot, ?_, .same⟩
        rw [Pool.step, heq]
        simp only [Pool.slot, update_apply]
        split
        · next hpc =>
            rw [getElem?_append_left (hpc ▸ slot_lt hget), ← hpc]
            exact hget
        · exact hget
      · rw [Pool.step, heq]
        refine hmodify fun hx => ?_
        subst hx
        cases hget.symm.trans hget'
        exact .reused track (congrArg Prod.snd heq) hidle
  | release y => exact hmodify fun hx => .released (hx ▸ rfl)
  | replaced y => exact hmodify fun _ => .replaced
  | resumed y a => exact hmodify fun hx => .resumed a (hx ▸ rfl)

theorem Moves.ok (h : Moves s e x slot slot') (hok : SlotOK slot) : SlotOK slot' := by
  obtain ⟨hidle, hreplacing⟩ := hok
  cases h with
  | same => exact ⟨hidle, hreplacing⟩
  | reused track => exact ⟨by simp [Slot.reuse], by simp [Slot.reuse]⟩
  | released => exact ⟨fun _ => rfl, by (cases hs : slot.state <;> simp_all [Slot.release])⟩
  | replaced =>
      unfold Slot.replace
      split
      · exact ⟨by grind, by simp_all⟩
      · exact ⟨hidle, hreplacing⟩
  | resumed a =>
      unfold Slot.resume
      split
      · exact ⟨hidle, hreplacing⟩
      · split_ifs <;> exact ⟨by simp, by simp⟩

/-! ## Runs -/

/-- What every reachable state is like. -/
structure Good (s : Pool) : Prop where
  few : ∀ pc, (s.connections pc).length ≤ s.maxSlots
  ok : ∀ x slot, s.slot x = some slot → SlotOK slot

theorem step_good (h : Good s) (e : Event) : Good (s.step e).1 := by
  have hmodify : ∀ {y f}, (s.step e).1 = s.modify y f → Good (s.step e).1 := fun {y f} heq => by
    refine ⟨fun pc => ?_, fun x slot' hget' => ?_⟩
    · rw [heq, length_modify]
      exact h.few pc
    · cases hget : s.slot x with
      | none =>
          rw [heq, slot_modify, hget] at hget'
          cases hget'
      | some slot =>
          obtain ⟨new, hnew, hmoves⟩ := step_moves hget e
          cases hget'.symm.trans hnew
          exact hmoves.ok (h.ok x slot hget)
  cases e with
  | acquire pc kind track a =>
      rcases acquire_cases s pc kind track a with
        heq | ⟨-, ⟨hroom, new, out, hnew, heq, -⟩ | ⟨i, slot', -, -, heq⟩⟩
      · rwa [Pool.step, heq]
      · rw [Pool.step, heq]
        refine ⟨fun pc' => ?_, fun x slot hget => ?_⟩
        · simp only [update_apply]
          split
          · rw [length_append]
            exact hroom
          · exact h.few pc'
        · simp only [Pool.slot, update_apply] at hget
          split at hget
          · next hpc =>
              rcases mem_append.mp (mem_of_getElem? hget) with hin | hin
              · obtain ⟨i, hi⟩ := mem_iff_getElem?.mp hin
                exact h.ok (pc, i) slot hi
              · exact mem_singleton.mp hin ▸ hnew
          · exact h.ok x slot hget
      · exact hmodify (congrArg Prod.fst heq)
  | release y => exact hmodify rfl
  | replaced y => exact hmodify rfl
  | resumed y a => exact hmodify rfl

/-- A slot with a property that the steps from it keep has it in the whole run. -/
theorem run_slot {P : Slot → Prop} {ok : Pool → Event → Prop} {es : List Event} (hs : Good s)
    (hkeep : ∀ {s e slot slot'}, s.slot x = some slot → ok s e → SlotOK slot → P slot →
      Moves s e x slot slot' → P slot')
    (hget : s.slot x = some slot) (hP : P slot) (hrun : Path (Guarded Step ok) s es t) :
    Good t ∧ ∃ slot, t.slot x = some slot ∧ P slot :=
  hrun.inv (I := fun t => Good t ∧ ∃ slot, t.slot x = some slot ∧ P slot)
    (fun {s e t} hstep hI => by
      obtain ⟨rfl, hok⟩ := hstep
      obtain ⟨hgood, slot, hget, hP⟩ := hI
      obtain ⟨slot', hget', hmoves⟩ := step_moves hget e
      exact ⟨step_good hgood e, slot', hget', hkeep hget hok (hgood.ok x slot hget) hP hmoves⟩)
    ⟨hs, slot, hget, hP⟩

theorem Slot.replace_state (slot : Slot) : slot.replace.state = slot.state := by
  unfold Slot.replace
  split <;> rfl

/-- The slot waits for its replacement, released or not. -/
def Waiting (slot : Slot) : Prop := slot.state = .pending ∨ slot.state = .retiring

section

variable (h : Moves s e x slot slot')

include h

theorem Moves.waiting (hwaits : Waits x s e) (hslot : Waiting slot) :
    Waiting slot' := by
  cases h with
  | same => exact hslot
  | reused track => exact .inl rfl
  | released => rcases hslot with hstate | hstate <;> simp [Waiting, Slot.release, hstate]
  | replaced => rwa [Waiting, Slot.replace_state]
  | resumed a heq => exact absurd heq (hwaits a)

theorem Moves.retiring (hwaits : Waits x s e)
    (hslot : slot.state = .retiring) : slot'.state = .retiring := by
  cases h with
  | same => exact hslot
  | reused track _ hidle => exact absurd (hslot.symm.trans hidle) nofun
  | released => simp [Slot.release, hslot]
  | replaced => rwa [Slot.replace_state]
  | resumed a heq => exact absurd heq (hwaits a)

theorem Moves.failed (hok : SlotOK slot)
    (hslot : slot.state = .failed) : slot'.state = .failed := by
  cases h with
  | same => exact hslot
  | reused track _ hidle => exact absurd (hslot.symm.trans hidle) nofun
  | released => simp [Slot.release, hslot]
  | replaced => rwa [Slot.replace_state]
  | resumed a =>
      have hnone := mt hok.replacing.mp (by simp [hslot])
      rw [Slot.resume, not_isSome_iff_eq_none.mp hnone]
      exact hslot

end

theorem step_resumed (hget : s.slot x = some slot) (a : Answers) :
    (s.step (.resumed x a)).1.slot x = some (slot.resume a).1
      ∧ ∀ ok, (s.step (.resumed x a)).2 = .ready x ok ↔ (slot.resume a).2 = some ok := by
  simp only [Pool.step, slot_modify, hget, bind_some]
  refine ⟨by simp, fun ok => ?_⟩
  split <;> simp_all

def Busy (slot : Slot) : Prop :=
  slot.state = .active ∨ slot.state = .pending ∨ slot.state = .failed

theorem Moves.busy (h : Moves s e x slot slot') (hget : s.slot x = some slot)
    (hkeeps : Keeps x s e) (hslot : Busy slot) : Busy slot' := by
  cases h with
  | same => exact hslot
  | reused track => exact .inr (.inl rfl)
  | released heq => exact absurd heq hkeeps.1
  | replaced => rwa [Busy, Slot.replace_state]
  | resumed a heq =>
      have hready := fun h => hkeeps.2 (heq ▸ ((step_resumed hget a).2 _).mpr h)
      unfold Slot.resume Busy at *
      split at *
      · exact hslot
      · split_ifs at * <;> simp_all

/-- A slot that was released waits on, and its replacement leaves it without a track. -/
theorem retired_slot (hs : Good s) (hget : s.slot x = some slot) (hwaiting : Waiting slot)
    {es : List Event} (hpath : Path (Guarded Step (Waits x)) (s.step (.release x)).1 es t)
    (a : Answers) : (t.step (.resumed x a)).2 ≠ .ready x (some true)
      ∧ ∃ slot', (t.step (.resumed x a)).1.slot x = some slot' ∧ slot'.track = none := by
  have hreleased : (s.step (.release x)).1.slot x = some slot.release := by
    rw [Pool.step, slot_modify, hget, map_some, if_pos rfl]
  have hstart : slot.release.state = .retiring ∧ slot.release.replacing.isSome :=
    ⟨by rcases hwaiting with hstate | hstate <;> simp [Slot.release, hstate],
      (hs.ok x slot hget).replacing.mpr hwaiting⟩
  obtain ⟨hgood, slot', hget', hretiring⟩ := run_slot (P := (·.state = .retiring)) (step_good hs _)
    (fun _ hwaits _ hP h => h.retiring hwaits hP) hreleased hstart.1 hpath
  obtain ⟨⟨track, happened⟩, hset⟩ := isSome_iff_exists.mp
    ((hgood.ok x slot' hget').replacing.mpr (.inr hretiring))
  obtain ⟨hafter, hready⟩ := step_resumed hget' a
  rw [Ne, hready, hafter, Slot.resume, hset]
  cases happened <;> simp [hretiring]

def granted (authorized : Bool) : Answers := ⟨true, true, authorized, fun _ => true, true⟩

def after (es : List Event) : Pool := es.foldl (fun s e => (s.step e).1) ⟨1, fun _ => []⟩

/-- The second publication waits for the sender of the first. -/
def reused : List Event :=
  [.acquire 0 "video" 0 (granted true), .release (0, 0), .acquire 0 "video" 1 (granted true),
    .replaced (0, 0)]

end SenderPool

end WebrtcMinimize
