import WebrtcMinimize.Maps

/-!
# Commands applied once

A ledger of applied commands that forgets an entry once its time is over.
A command has an id, a digest of its content and a time it expires at; it is
looked up at a reading of the clock that is not before the last one.

`Ledger.Holds log` says what the ledger still knows of the commands applied
so far: those that have not expired are in it with their receipt. From it
follow the verdict on a repetition and, for the log, that two applications
of one id are never both within the life of the first.
-/

structure Ledger (ι δ ρ : Type) where
  lastNow : Int
  history : KeyedMap ι (δ × ρ × Int)

/-- An applied command. -/
structure Applied (ι δ ρ : Type) where
  id : ι
  digest : δ
  receipt : ρ
  expiresAt : Int
  appliedAt : Int

/-- What the ledger says to a command. -/
inductive Verdict (ρ : Type)
  | replay (receipt : ρ)
  | conflict
  | full
  | fresh

namespace Ledger

variable {ι δ ρ : Type} [DecidableEq ι]

def empty : Ledger ι δ ρ := ⟨0, .empty⟩

/-- The ledger at a reading: what has expired is gone. -/
def asOf (l : Ledger ι δ ρ) (now : Int) : Ledger ι δ ρ :=
  ⟨now, l.history.keep fun _ e => decide (now < e.2.2)⟩

def verdict [DecidableEq δ] (l : Ledger ι δ ρ) (capacity : Nat) (id : ι) (digest : δ) : Verdict ρ :=
  match l.history.get id with
  | some e => if e.1 = digest then .replay e.2.1 else .conflict
  | none => if capacity ≤ l.history.size then .full else .fresh

def record (l : Ledger ι δ ρ) (a : Applied ι δ ρ) : Ledger ι δ ρ :=
  ⟨a.appliedAt, l.history.set a.id (a.digest, a.receipt, a.expiresAt)⟩

/-- The ledger knows every command of the log that has not expired. -/
def Holds (l : Ledger ι δ ρ) (log : List (Applied ι δ ρ)) : Prop :=
  ∀ a ∈ log, a.expiresAt ≤ l.lastNow
    ∨ l.history.get a.id = some (a.digest, a.receipt, a.expiresAt)

/-- What the ledger knows comes from the log. -/
def Known (l : Ledger ι δ ρ) (log : List (Applied ι δ ρ)) : Prop :=
  ∀ id e, l.history.get id = some e →
    ∃ a ∈ log, a.id = id ∧ (a.digest, a.receipt, a.expiresAt) = e

/-- Commands with one id are applied in disjoint lives. -/
def Once (log : List (Applied ι δ ρ)) : Prop :=
  log.Pairwise fun a b => a.id = b.id → a.expiresAt ≤ b.appliedAt

variable {l : Ledger ι δ ρ} {log : List (Applied ι δ ρ)}

theorem holds_nil : l.Holds [] := fun a ha => by cases ha

theorem Holds.asOf (h : l.Holds log) {now : Int} (hnow : l.lastNow ≤ now) :
    (l.asOf now).Holds log := by
  intro a ha
  rcases h a ha with hover | hget
  · exact .inl (Int.le_trans hover hnow)
  · by_cases hlive : now < a.expiresAt
    · exact .inr (KeyedMap.get_keep_eq_some_iff.mpr ⟨hget, by simpa using hlive⟩)
    · exact .inl (show a.expiresAt ≤ now by omega)

/-- A reading later than the last one changes nothing that is known. -/
theorem Holds.later (h : l.Holds log) {now : Int} (hnow : l.lastNow ≤ now) :
    ({ l with lastNow := now } : Ledger ι δ ρ).Holds log :=
  fun a ha => (h a ha).imp_left fun hover => Int.le_trans hover hnow

/-- An id that the ledger does not know has only expired applications. -/
theorem Holds.expired (h : l.Holds log) {id : ι} (hnone : l.history.get id = none)
    {a : Applied ι δ ρ} (ha : a ∈ log) (hid : a.id = id) : a.expiresAt ≤ l.lastNow := by
  rcases h a ha with hover | hget
  · exact hover
  · rw [hid, hnone] at hget
    cases hget

/-- **An application.** It is fresh, so what was applied under its id is over. -/
theorem Holds.record (h : l.Holds log) (hlog : Once log) {a : Applied ι δ ρ}
    (hnone : l.history.get a.id = none) (hnow : l.lastNow ≤ a.appliedAt) :
    (l.record a).Holds (log ++ [a]) ∧ Once (log ++ [a]) := by
  constructor
  · intro b hb
    rcases List.mem_append.mp hb with hb | hb
    · by_cases hid : b.id = a.id
      · exact .inl (Int.le_trans (h.expired hnone hb hid) hnow)
      · rcases h b hb with hover | hget
        · exact .inl (Int.le_trans hover hnow)
        · exact .inr ((KeyedMap.get_set_of_ne _ _ hid).trans hget)
    · obtain rfl := List.mem_singleton.mp hb
      exact .inr (KeyedMap.get_set_self _ _ _)
  · refine List.pairwise_append.mpr ⟨hlog, List.pairwise_singleton _ _, ?_⟩
    intro b hb c hc hid
    obtain rfl := List.mem_singleton.mp hc
    exact Int.le_trans (h.expired hnone hb hid) hnow

theorem known_empty : (empty : Ledger ι δ ρ).Known [] := by
  intro id e he
  cases he

theorem Known.asOf (h : l.Known log) (now : Int) : (l.asOf now).Known log :=
  fun id e he => h id e (KeyedMap.get_keep_eq_some_iff.mp he).1

theorem Known.record (h : l.Known log) (a : Applied ι δ ρ) : (l.record a).Known (log ++ [a]) := by
  intro id e he
  by_cases hid : id = a.id
  · subst hid
    rw [Ledger.record, KeyedMap.get_set_self] at he
    exact ⟨a, List.mem_append_right _ (List.mem_singleton.mpr rfl), rfl, Option.some.inj he⟩
  · rw [Ledger.record, KeyedMap.get_set_of_ne _ _ hid] at he
    obtain ⟨b, hb, hfacts⟩ := h id e he
    exact ⟨b, List.mem_append_left _ hb, hfacts⟩

variable [DecidableEq δ]

theorem verdict_fresh {capacity : Nat} {id : ι} {digest : δ}
    (h : l.verdict capacity id digest = .fresh) : l.history.get id = none := by
  rw [verdict] at h
  split at h
  · split at h <;> cases h
  · assumption

/-- The receipt of a replay is that of a known command with this content. -/
theorem verdict_replay {capacity : Nat} {id : ι} {digest : δ} {receipt : ρ}
    (h : l.verdict capacity id digest = .replay receipt) :
    ∃ expiresAt, l.history.get id = some (digest, receipt, expiresAt) := by
  rw [verdict] at h
  split at h
  · next e he =>
      split at h
      · next hdigest =>
          obtain rfl := Verdict.replay.inj h
          exact ⟨e.2.2, by rw [he, ← hdigest]⟩
      · cases h
  · split at h <;> cases h

/-- **A repetition.** Within the life of an applied command its id gets the
receipt, or a conflict, by whether the content is the same. -/
theorem Holds.verdict_of_live (h : l.Holds log) {a : Applied ι δ ρ} (ha : a ∈ log)
    (hlive : l.lastNow < a.expiresAt) (capacity : Nat) (digest : δ) :
    l.verdict capacity a.id digest
      = if a.digest = digest then .replay a.receipt else .conflict := by
  rcases h a ha with hover | hget
  · omega
  · rw [verdict, hget]

end Ledger

/-! ## A director -/

/-- A ledger, what its commands are applied to, and the commands applied. -/
structure Director (ι δ ρ M : Type) where
  ledger : Ledger ι δ ρ
  target : M
  log : List (Applied ι δ ρ)

namespace Director

variable {ι δ ρ M : Type} [DecidableEq ι] [DecidableEq δ]

/-- One admitted command at `now`. `attempt` is what applying it makes of the
target, and on success the receipt and the time it was applied at. -/
def command (d : Director ι δ ρ M) (capacity : Nat) (id : ι) (digest : δ) (expiresAt now : Int)
    (attempt : M → M × Option (ρ × Int)) : Director ι δ ρ M × Option ρ :=
  let ledger := d.ledger.asOf now
  match ledger.verdict capacity id digest with
  | .replay receipt => ({ d with ledger := ledger }, some receipt)
  | .conflict => ({ d with ledger := ledger }, none)
  | .full => ({ d with ledger := ledger }, none)
  | .fresh =>
      match attempt d.target with
      | (target, none) => ({ d with ledger := ledger, target := target }, none)
      | (target, some (receipt, appliedAt)) =>
          let a : Applied ι δ ρ := ⟨id, digest, receipt, expiresAt, appliedAt⟩
          (⟨ledger.record a, target, d.log ++ [a]⟩, some receipt)

/-- What a command does: the receipt of an earlier one with its content is
repeated, or it is refused and closes what `closes` allows, or it is applied. -/
inductive Effect (d : Director ι δ ρ M) (id : ι) (digest : δ) (expiresAt : Int)
    (closes : M → M → Prop) (applies : M → M → ρ → Int → Prop) : Director ι δ ρ M → Option ρ → Prop
  | repeated {d' : Director ι δ ρ M} {b : Applied ι δ ρ} (known : b ∈ d.log) (named : b.id = id)
      (content : b.digest = digest) (log : d'.log = d.log) (target : d'.target = d.target) :
      Effect d id digest expiresAt closes applies d' (some b.receipt)
  | refused {d' : Director ι δ ρ M} (log : d'.log = d.log) (closed : closes d.target d'.target) :
      Effect d id digest expiresAt closes applies d' none
  | applied {d' : Director ι δ ρ M} {receipt : ρ} {appliedAt : Int}
      (change : applies d.target d'.target receipt appliedAt)
      (log : d'.log = d.log ++ [⟨id, digest, receipt, expiresAt, appliedAt⟩]) :
      Effect d id digest expiresAt closes applies d' (some receipt)

structure OK (d : Director ι δ ρ M) : Prop where
  holds : d.ledger.Holds d.log
  known : d.ledger.Known d.log
  once : Ledger.Once d.log

variable {d : Director ι δ ρ M}

/-- What a command can do: repeat a receipt, be refused without effect, be
refused by the target, or be applied. -/
theorem command_cases (capacity : Nat) (id : ι) (digest : δ) (expiresAt now : Int)
    (attempt : M → M × Option (ρ × Int)) :
    (∃ receipt e, (d.ledger.asOf now).history.get id = some (digest, receipt, e)
      ∧ d.command capacity id digest expiresAt now attempt
        = ({ d with ledger := d.ledger.asOf now }, some receipt))
    ∨ d.command capacity id digest expiresAt now attempt
        = ({ d with ledger := d.ledger.asOf now }, none)
    ∨ (d.ledger.asOf now).history.get id = none ∧ ((∃ target, attempt d.target = (target, none)
        ∧ d.command capacity id digest expiresAt now attempt
          = ({ d with ledger := d.ledger.asOf now, target := target }, none))
      ∨ ∃ target receipt appliedAt, attempt d.target = (target, some (receipt, appliedAt))
        ∧ d.command capacity id digest expiresAt now attempt
          = (⟨(d.ledger.asOf now).record ⟨id, digest, receipt, expiresAt, appliedAt⟩, target,
              d.log ++ [⟨id, digest, receipt, expiresAt, appliedAt⟩]⟩, some receipt)) := by
  rw [command]
  split
  · next receipt hv =>
      obtain ⟨e, he⟩ := Ledger.verdict_replay hv
      exact .inl ⟨receipt, e, he, rfl⟩
  · exact .inr (.inl rfl)
  · exact .inr (.inl rfl)
  · next hv =>
      refine .inr (.inr ⟨Ledger.verdict_fresh hv, ?_⟩)
      split
      · next target hattempt => exact .inl ⟨target, hattempt, rfl⟩
      · next target receipt appliedAt hattempt =>
          exact .inr ⟨target, receipt, appliedAt, hattempt, rfl⟩

theorem OK.command (h : d.OK) {capacity : Nat} {id : ι} {digest : δ} {expiresAt now : Int}
    {attempt : M → M × Option (ρ × Int)} (hnow : d.ledger.lastNow ≤ now)
    (happlied : ∀ target receipt appliedAt,
      attempt d.target = (target, some (receipt, appliedAt)) → now ≤ appliedAt) :
    (d.command capacity id digest expiresAt now attempt).1.OK := by
  have hat := h.holds.asOf hnow
  have hknown := h.known.asOf now
  rcases d.command_cases capacity id digest expiresAt now attempt with
    ⟨receipt, e, -, hc⟩ | hc | ⟨hnone, ⟨target, -, hc⟩ | ⟨target, receipt, appliedAt, hgo, hc⟩⟩
  · rw [hc]
    exact ⟨hat, hknown, h.once⟩
  · rw [hc]
    exact ⟨hat, hknown, h.once⟩
  · rw [hc]
    exact ⟨hat, hknown, h.once⟩
  · rw [hc]
    obtain ⟨hholds, honce⟩ := hat.record h.once
      (a := ⟨id, digest, receipt, expiresAt, appliedAt⟩) hnone (happlied _ _ _ hgo)
    exact ⟨hholds, hknown.record _, honce⟩

theorem OK.effect (h : d.OK) {capacity : Nat} {id : ι} {digest : δ} {expiresAt now : Int}
    {attempt : M → M × Option (ρ × Int)} {closes : M → M → Prop}
    {applies : M → M → ρ → Int → Prop} (hrefl : closes d.target d.target)
    (hcloses : ∀ target, attempt d.target = (target, none) → closes d.target target)
    (happlies : ∀ target receipt appliedAt, attempt d.target = (target, some (receipt, appliedAt)) →
        applies d.target target receipt appliedAt) :
    d.Effect id digest expiresAt closes applies
      (d.command capacity id digest expiresAt now attempt).1
      (d.command capacity id digest expiresAt now attempt).2 := by
  rcases d.command_cases capacity id digest expiresAt now attempt with
    ⟨receipt, e, he, hc⟩ | hc | ⟨-, ⟨target, hgo, hc⟩ | ⟨target, receipt, appliedAt, hgo, hc⟩⟩
  · obtain ⟨b, hb, hid, hentry⟩ := h.known.asOf now _ _ he
    obtain ⟨hdigest, hrest⟩ := Prod.mk.inj hentry
    obtain rfl := (Prod.mk.inj hrest).1
    rw [hc]
    exact .repeated hb hid hdigest rfl rfl
  · rw [hc]
    exact .refused rfl hrefl
  · rw [hc]
    exact .refused rfl (hcloses _ hgo)
  · rw [hc]
    exact .applied (happlies _ _ _ hgo) rfl

/-- **A repetition of an applied command**, while that lives: the receipt for
the same content, a refusal for another; the target is not touched. -/
theorem OK.repeated (h : d.OK) {a : Applied ι δ ρ} (ha : a ∈ d.log) {now : Int}
    (hnow : d.ledger.lastNow ≤ now) (hlive : now < a.expiresAt) (capacity : Nat) (digest : δ)
    (expiresAt : Int) (attempt : M → M × Option (ρ × Int)) :
    d.command capacity a.id digest expiresAt now attempt = ({ d with ledger := d.ledger.asOf now },
          if a.digest = digest then some a.receipt else none) := by
  have hverdict := (h.holds.asOf hnow).verdict_of_live ha hlive capacity digest
  rw [Director.command]
  rw [hverdict]
  by_cases hd : a.digest = digest
  · rw [if_pos hd, if_pos hd]
  · rw [if_neg hd, if_neg hd]

end Director
