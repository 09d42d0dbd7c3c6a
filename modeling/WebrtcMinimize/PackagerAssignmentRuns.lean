import Mathlib.Tactic.IntervalCases
import WebrtcMinimize.PackagerAssignments

/-!
# What holds of the assignment registry

`Kept` is what every part of a call but the last one of a preparation does:
records only move towards their end, and the maps keep what they hold of the
active ones. A preparation that adds its record has seen to it that there is
room, and nothing takes the room while it only tells the ledger.
-/

namespace WebrtcMinimize

open Attempts Checks PackagerBudget

namespace NativeAssignments

open KeyedMap List Option Registry Ensures

/-! ## What a record can become -/

/-- The lease is extended, if at all, by a renewal at the given time. -/
structure Progress (renewal : Option Int) (r r' : Record) : Prop where
  same : r' = { r with
    state := r'.state
    reasonCode := r'.reasonCode
    updatedAt := r'.updatedAt
    expiresAt := r'.expiresAt
    encoderBudgetUntil := r'.encoderBudgetUntil
    deadline := r'.deadline }
  active : r'.state.active = true → r.state.active = true
  renewable : r'.state.renewable = true → r.state.renewable = true
  ended : r.state.active = false → r'.state = r.state
  expiry : r'.expiresAt = r.expiresAt
    ∨ ∃ now, renewal = some now ∧ r.state.renewable = true ∧ now < r.expiresAt
  bounded : r.expiresAt ≤ r.deadline ∧ r.expiresAt ≤ r.encoderBudgetUntil →
    r'.expiresAt ≤ r'.deadline ∧ r'.expiresAt ≤ r'.encoderBudgetUntil

namespace Progress

variable {renewal : Option Int} {r r' r'' : Record}

theorem refl (renewal : Option Int) (r : Record) : Progress renewal r r :=
  ⟨rfl, id, id, fun _ => rfl, .inl rfl, id⟩

section

variable (h : Progress renewal r r')

include h

theorem trans (h' : Progress renewal r' r'') :
    Progress renewal r r'' where
  same := by
    rw [h'.same, h.same]
  active hactive := h.active (h'.active hactive)
  renewable hrenewable := h.renewable (h'.renewable hrenewable)
  ended hended := by
    have hsame := h.ended hended
    rw [h'.ended (by rw [hsame]; exact hended), hsame]
  expiry := by
    rcases h.expiry with heq | hrenewed
    · rcases h'.expiry with heq' | ⟨now, hnow, hrenewable, hlt⟩
      · exact .inl (heq'.trans heq)
      · exact .inr ⟨now, hnow, h.renewable hrenewable, heq ▸ hlt⟩
    · exact .inr hrenewed
  bounded hr := h'.bounded (h.bounded hr)

theorem assignmentId : r'.assignmentId = r.assignmentId := by
  rw [h.same]

theorem packagerId : r'.packagerId = r.packagerId := by
  rw [h.same]

theorem programId : r'.programId = r.programId := by
  rw [h.same]

theorem occupant : r'.occupant = r.occupant := by
  rw [h.same]
  rfl

theorem occupies {now : Int} (hoccupies : r'.occupies now = true) :
    r.occupies now = true := by
  rw [Record.occupies, Bool.or_eq_true] at hoccupies ⊢
  cases hactive : r.state.active with
  | true => exact .inl rfl
  | false =>
      have hsame := h.ended hactive
      have hexpiry : r'.expiresAt = r.expiresAt := by
        rcases h.expiry with heq | ⟨now', -, hrenewable, -⟩
        · exact heq
        · rw [State.active_of_renewable hrenewable] at hactive
          cases hactive
      rw [hsame, hexpiry, hactive] at hoccupies
      exact hoccupies

end

theorem moved (r : Record) {state : State} {reasonCode : String} {now : Int}
    (hactive : state.active = true → r.state.active = true)
    (hrenewable : state.renewable = true → r.state.renewable = true)
    (hended : r.state.active = false → state = r.state) :
    Progress renewal r { r with state := state, reasonCode := reasonCode, updatedAt := now } where
  same := rfl
  active := hactive
  renewable := hrenewable
  ended := hended
  expiry := .inl rfl
  bounded := id

theorem drained (hactive : r.state.active = true) (reasonCode : String) (now : Int) :
    Progress renewal r (r.drained reasonCode now) :=
  moved r (fun _ => hactive) (fun h => by cases h) fun h => by
    rw [hactive] at h
    cases h

theorem failed (hactive : r.state.active = true) (reasonCode : String) (now : Int) :
    Progress renewal r (r.ended reasonCode now) :=
  moved r (fun h => by cases h) (fun h => by cases h) fun h => by
    rw [hactive] at h
    cases h

theorem reported {state : State} (hallowed : r.state.allowed state = true) (reasonCode : String)
    (now : Int) :
    Progress renewal r { r with state := state, reasonCode := reasonCode, updatedAt := now } := by
  refine moved r (fun hactive => ?_) (fun hrenewable => ?_) fun h => State.eq_of_allowed h hallowed
  · cases h : r.state.active with
    | true => rfl
    | false =>
        rw [State.eq_of_allowed h hallowed, h] at hactive
        cases hactive
  · cases h : r.state <;> cases hs : state <;>
      simp_all [State.allowed, State.renewable]

theorem renewed {now deadline : Int} (hrenewable : r.state.renewable = true)
    (hlive : now < r.expiresAt) : Progress (some now) r (r.renewed now deadline) where
  same := rfl
  active := id
  renewable := id
  ended _ := rfl
  expiry := .inr ⟨now, rfl, hrenewable, hlive⟩
  bounded _ := ⟨Int.min_le_right .., Int.le_max_right ..⟩

end Progress

/-! ## What the registry keeps -/

theorem filterMap_sublist {α β : Type} {f g : α → Option β}
    (h : ∀ a b, f a = some b → g a = some b) : ∀ as : List α,
      (as.filterMap f).Sublist (as.filterMap g)
  | [] => .refl _
  | a :: as => by
      cases hf : f a with
      | none =>
          rw [filterMap_cons_none hf]
          exact (filterMap_sublist h as).trans (List.Sublist.filterMap g (sublist_cons_self a as))
      | some b =>
          rw [filterMap_cons_some hf, filterMap_cons_some (h a b hf)]
          exact (filterMap_sublist h as).cons_cons b

theorem occupied_later (s : Registry) {now until' : Int} (hle : now ≤ until') :
    (s.occupied until').Sublist (s.occupied now) := by
  refine filterMap_sublist (fun ref o ho => ?_) _
  obtain ⟨r, hr, rfl⟩ := map_eq_some_iff.mp ho
  rw [filter_eq_some_iff] at hr
  rw [filter_eq_some_iff.mpr ⟨hr.1, ?_⟩]
  · rfl
  · have hr₂ := hr.2
    simp only [Record.occupies, Bool.or_eq_true, Bool.and_eq_true, decide_eq_true_eq] at hr₂ ⊢
    exact hr₂.imp_right fun h => ⟨h.1, by omega⟩

structure Kept (renewal : Option Int) (s t : Registry) : Prop where
  same : ∀ (ref : Nat) (r' : Record), t.records[ref]? = some r' →
    ∃ r, s.records[ref]? = some r ∧ Progress renewal r r'
  still : ∀ (ref : Nat) (r : Record), s.records[ref]? = some r → ∃ r', t.records[ref]? = some r'
  entries : t.assignments.entries.Sublist s.assignments.entries
  assigned : ∀ (ref : Nat) (r' : Record), t.records[ref]? = some r' → r'.state.active = true →
    s.assignments.get r'.assignmentId = some ref → t.assignments.get r'.assignmentId = some ref
  packager : ∀ (ref : Nat) (r' : Record), t.records[ref]? = some r' → r'.state.active = true →
    s.byPackager.get r'.packagerId = some ref → t.byPackager.get r'.packagerId = some ref
  program : ∀ (ref : Nat) (r' : Record), t.records[ref]? = some r' → r'.state.active = true →
    s.byProgram.get r'.programId = some ref → t.byProgram.get r'.programId = some ref

namespace Kept

variable {renewal : Option Int} {s t u : Registry}

theorem refl (renewal : Option Int) (s : Registry) : Kept renewal s s where
  same _ r hr := ⟨r, hr, .refl renewal r⟩
  still _ r hr := ⟨r, hr⟩
  entries := .refl _
  assigned _ _ _ _ h := h
  packager _ _ _ _ h := h
  program _ _ _ _ h := h

theorem trans (h : Kept renewal s t) (h' : Kept renewal t u) : Kept renewal s u where
  same := by
    intro ref r'' hr''
    obtain ⟨r', hr', hp'⟩ := h'.same ref r'' hr''
    obtain ⟨r, hr, hp⟩ := h.same ref r' hr'
    exact ⟨r, hr, hp.trans hp'⟩
  still := by
    intro ref r hr
    obtain ⟨r', hr'⟩ := h.still ref r hr
    exact h'.still ref r' hr'
  entries := h'.entries.trans h.entries
  assigned := by
    intro ref r'' hr'' hactive hget
    obtain ⟨r', hr', hp'⟩ := h'.same ref r'' hr''
    refine h'.assigned ref r'' hr'' hactive ?_
    rw [hp'.assignmentId] at hget ⊢
    exact h.assigned ref r' hr' (hp'.active hactive) hget
  packager := by
    intro ref r'' hr'' hactive hget
    obtain ⟨r', hr', hp'⟩ := h'.same ref r'' hr''
    refine h'.packager ref r'' hr'' hactive ?_
    rw [hp'.packagerId] at hget ⊢
    exact h.packager ref r' hr' (hp'.active hactive) hget
  program := by
    intro ref r'' hr'' hactive hget
    obtain ⟨r', hr', hp'⟩ := h'.same ref r'' hr''
    refine h'.program ref r'' hr'' hactive ?_
    rw [hp'.programId] at hget ⊢
    exact h.program ref r' hr' (hp'.active hactive) hget

theorem time (s : Registry) (time : EncoderTime) : Kept renewal s { s with encoderTime := time } where
  same _ r hr := ⟨r, hr, .refl renewal r⟩
  still _ r hr := ⟨r, hr⟩
  entries := .refl _
  assigned _ _ _ _ h := h
  packager _ _ _ _ h := h
  program _ _ _ _ h := h

theorem put {ref : Nat} {r r' : Record} (hr : s.records[ref]? = some r)
    (hp : Progress renewal r r') : Kept renewal s (s.put ref r') where
  same := by
    intro k r₁ hk
    rw [Registry.put, List.getElem?_set] at hk
    split at hk
    · rename_i hkey
      subst hkey
      split at hk
      · cases hk
        exact ⟨r, hr, hp⟩
      · cases hk
    · exact ⟨r₁, hk, .refl renewal r₁⟩
  still := by
    intro k r₁ hk
    have hlt := (List.getElem?_eq_some_iff.mp hk).1
    exact ⟨_, List.getElem?_eq_getElem (by rwa [Registry.put, List.length_set])⟩
  entries := .refl _
  assigned _ _ _ _ h := h
  packager _ _ _ _ h := h
  program _ _ _ _ h := h

theorem releaseIndexes {ref : Nat} {r : Record} (hr : s.records[ref]? = some r)
    (hactive : r.state.active = false) : Kept renewal s (s.releaseIndexes ref r) where
  same _ r hr := ⟨r, hr, .refl renewal r⟩
  still _ r hr := ⟨r, hr⟩
  entries := .refl _
  assigned _ _ _ _ h := h
  packager := by
    intro k r' hk hactive' hget
    have hne : k ≠ ref := by
      rintro rfl
      cases hr.symm.trans hk
      rw [hactive] at hactive'
      cases hactive'
    show (if s.byPackager.get r.packagerId = some ref then s.byPackager.erase r.packagerId
      else s.byPackager).get r'.packagerId = some k
    split
    · rename_i hindex
      rw [get_erase_of_ne, hget]
      intro heq
      rw [heq, hindex] at hget
      exact hne (some.inj hget).symm
    · exact hget
  program := by
    intro k r' hk hactive' hget
    have hne : k ≠ ref := by
      rintro rfl
      cases hr.symm.trans hk
      rw [hactive] at hactive'
      cases hactive'
    show (if s.byProgram.get r.programId = some ref then s.byProgram.erase r.programId
      else s.byProgram).get r'.programId = some k
    split
    · rename_i hindex
      rw [get_erase_of_ne, hget]
      intro heq
      rw [heq, hindex] at hget
      exact hne (some.inj hget).symm
    · exact hget

theorem finish {ref : Nat} {r r' : Record} (hr : s.records[ref]? = some r)
    (hp : Progress renewal r r') : Kept renewal s (s.finish ref r') := by
  unfold Registry.finish
  split
  · exact put hr hp
  · rename_i hactive
    refine (put hr hp).trans (releaseIndexes ?_ (by simpa using hactive))
    have hlt := (List.getElem?_eq_some_iff.mp hr).1
    rw [Registry.put, getElem?_set_self hlt]

theorem erase {ref : Nat} {r : Record} (hr : s.records[ref]? = some r)
    (hactive : r.state.active = false)
    (hplace : ∀ k, s.assignments.get r.assignmentId = some k → k = ref) :
    Kept renewal s { s with assignments := s.assignments.erase r.assignmentId } where
  same _ r hr := ⟨r, hr, .refl renewal r⟩
  still _ r hr := ⟨r, hr⟩
  entries := filter_sublist
  assigned := by
    intro k r' hk hactive' hget
    rw [get_erase_of_ne, hget]
    intro heq
    rw [heq] at hget
    rw [hplace k hget] at hk
    cases hr.symm.trans hk
    rw [hactive] at hactive'
    cases hactive'
  packager _ _ _ _ h := h
  program _ _ _ _ h := h

theorem get (h : Kept renewal s t) {id : String} {ref : Nat}
    (hget : t.assignments.get id = some ref) : s.assignments.get id = some ref :=
  get_eq_some_iff.mpr (h.entries.subset (get_eq_some_iff.mp hget))

theorem occupied (h : Kept renewal s t) (now : Int) :
    (t.occupied now).Sublist (s.occupied now) := by
  refine (filterMap_sublist (fun ref o ho => ?_) _).trans ((h.entries.map Prod.snd).filterMap _)
  obtain ⟨r', hr', rfl⟩ := map_eq_some_iff.mp ho
  rw [filter_eq_some_iff] at hr'
  obtain ⟨r, hr, hp⟩ := h.same ref r' hr'.1
  rw [filter_eq_some_iff.mpr ⟨hr, hp.occupies hr'.2⟩, hp.occupant]
  rfl

end Kept

/-! ## The invariant -/

/-- A call that prepares an assignment waits here. -/
def Frame.prepares : Frame → Bool
  | .admitting _ => true
  | .identifying _ => true
  | .equipping _ _ => true
  | .checking _ _ => true
  | .recording _ _ => true
  | _ => false

/-- Nothing stands in the way of the record. -/
def Free (s : Registry) (p : Pending) (id : String) : Prop :=
  s.assignments.get id = none ∧ ∀ (ref : Nat) (r : Record), s.records[ref]? = some r →
    r.state.active = true →
      r.packagerId ≠ p.call.packagerId ∧ r.programId ≠ p.call.admission.programId

section Limits

variable (l : ResourceLimits) (until' : Int)

def Pending.OK (p : Pending) : Prop := p.call.now ≤ until' ∧ p.expiresAt ≤ p.deadline

/-- There is room for the record at the given time and later. -/
def Room (s : Registry) (p : Pending) : Prop :=
  Within l (s.occupied until' ++ [p.occupant])

def FrameOK (s : Registry) : Frame → Prop
  | .admitting c => c.now ≤ until'
  | .identifying p => p.OK until'
  | .equipping p _ => p.OK until'
  | .checking p _ => p.OK until' ∧ Room l until' s p
  | .recording p id => p.OK until' ∧ Room l until' s p ∧ Free s p id
  | .acknowledging _ _ _ => True
  | .renewing _ now _ previous => now < previous
  | .renewingSource _ now _ previous _ => now < previous

/-- A part of a call either keeps what there is, or is the last one of a
preparation and adds its record to what was kept. -/
def Changed (renewal : Option Int) (prepares : Bool) (s t : Registry) : Prop :=
  Kept renewal s t ∨ prepares = true ∧ ∃ u p id, Kept renewal s u ∧ p.OK until'
    ∧ Room l until' u p ∧ Free u p id ∧ t = u.add (p.record id)

/-- What a part of a call does to the registry, and where it waits then. -/
def Part (renewal : Option Int) (prepares : Bool) (s : Registry) (x : Stateful Registry Outcome) :
    Prop :=
  Ensures (· = s) x
    (fun o t => Changed l until' renewal prepares s t
      ∧ ∀ f, o = .waits f → f.prepares = prepares ∧ FrameOK l until' t f)
    (Kept renewal s)

structure Sound (s : Registry) : Prop where
  exclusive : Exclusive s
  placed : ∀ id ref, s.assignments.get id = some ref →
    ∃ r : Record, s.records[ref]? = some r ∧ r.assignmentId = id
  bounded : Bounded s
  within : Within l (s.occupied until')

structure Good (s : System) : Prop where
  sound : Sound l until' s.registry
  frames : ∀ f ∈ s.stack, FrameOK l until' s.registry f
  nested : s.stack.Pairwise fun above below => below.charging = true → above.prepares = false

end Limits

/-! ## The parts of a preparation -/

section Parts

variable {cfg : Config} {until' : Int}

variable {s : Registry}

/-- A part that waits, after it changed no more than the encoder time. -/
theorem part_waits {renewal : Option Int} {t : Registry} {f : Frame}
    (hkept : Kept renewal s t) (hf : FrameOK cfg.resources until' t f) :
    Changed cfg.resources until' renewal f.prepares s t ∧ ∀ f', Outcome.waits f = .waits f' →
        f'.prepares = f.prepares ∧ FrameOK cfg.resources until' t f' := by
  refine ⟨.inl hkept, ?_⟩
  rintro f' heq
  cases heq
  exact ⟨rfl, hf⟩

theorem part_returns {renewal : Option Int} {prepares : Bool} {t : Registry} {o : Output}
    (hkept : Kept renewal s t) :
    Changed cfg.resources until' renewal prepares s t ∧ ∀ f, Outcome.returns o = .waits f →
        f.prepares = prepares ∧ FrameOK cfg.resources until' t f :=
  ⟨.inl hkept, fun _ heq => by cases heq⟩

theorem prepare_part (s : Registry) {c : PrepareCall} (hnow : c.now ≤ until') :
    Part cfg.resources until' none true s (prepare c) := by
  refine .failWhen_bind (fun _ ht => ht ▸ .refl none s) fun _ => ?_
  refine .ret ?_
  rintro t rfl
  exact part_waits (f := .admitting c) (.refl none t) hnow

theorem assertEncoderTime_spec (s : Registry) (p : Pending) :
    Ensures (· = s) (assertEncoderTime cfg p) (fun _ t => Kept none s t) (Kept none s) := by
  refine .get_bind ?_
  rintro s rfl
  refine .set_bind (Q := fun t => Kept none s t) (fun _ _ => .time s _) ?_
  exact .checked (fun _ ht => ht) fun _ _ _ ht => ht

theorem reserveEncoderTime_spec (renewal : Option Int) (s : Registry)
    (tenantId ownerPrincipal : String) (slots : Nat) (start until' now : Int) :
    Ensures (· = s) (reserveEncoderTime cfg tenantId ownerPrincipal slots start until' now)
      (fun _ t => ∃ time, t = { s with encoderTime := time }) (Kept renewal s) := by
  refine .get_bind ?_
  rintro s rfl
  refine .set_bind (Q := fun t => ∃ time, t = { s with encoderTime := time })
    (fun _ _ => ⟨_, rfl⟩) ?_
  exact .ret fun _ ht => ht

theorem admit_part (s : Registry) {c : PrepareCall} (hnow : c.now ≤ until')
    (candidate : Except String Candidate) (source : Except String SourceAuthority)
    (deadline : Except String Int) :
    Part cfg.resources until' none true s (admitCandidate cfg c candidate source deadline) := by
  have hself : ∀ t, t = s → Kept none s t := fun _ ht => ht ▸ .refl none s
  refine .check_bind hself fun packager _ => ?_
  split
  · exact .failed hself
  · refine .check_bind hself fun verified _ => ?_
    refine .failWhen_bind hself fun _ => ?_
    refine .check_bind hself fun authority _ => ?_
    refine .failWhen_bind hself fun _ => ?_
    refine .check_bind hself fun programDeadline _ => ?_
    refine .failWhen_bind hself fun _ => ?_
    refine .get_bind ?_
    rintro s rfl
    refine .failWhen_bind hself fun _ => ?_
    refine .check_bind hself fun _ _ => ?_
    refine (assertEncoderTime_spec s _).bind fun _ => .ret fun t ht => ?_
    exact part_waits (f := .identifying _) ht ⟨hnow, Int.min_le_right ..⟩

variable {p : Pending}

theorem free_of_checks (hs : Exclusive s) {id : String}
    (h : ¬((s.activeForPackager p.call.packagerId).isSome = true
      ∨ (s.activeForProgram p.call.admission.programId).isSome = true
      ∨ (s.assignments.get id).isSome = true)) : Free s p id := by
  simp only [not_or, not_isSome_iff_eq_none] at h
  obtain ⟨hpackager, hprogram, hid⟩ := h
  refine ⟨hid, fun ref r hr hactive => ⟨?_, ?_⟩⟩
  · rintro heq
    have hindex := (hs ref r hr hactive).2.1
    rw [heq] at hindex
    simp [activeForPackager, activeIn, hindex, hr, hactive] at hpackager
  · rintro heq
    have hindex := (hs ref r hr hactive).2.2
    rw [heq] at hindex
    simp [activeForProgram, activeIn, hindex, hr, hactive] at hprogram

theorem store_part {u : Registry} {id : String} (hkept : Kept none s u)
    (hp : p.OK until') (hroom : Room cfg.resources until' u p) (hfree : Free u p id) :
    Ensures (· = u) (store p id) (fun o t => Changed cfg.resources until' none true s t
        ∧ ∀ f, o = .waits f → f.prepares = true ∧ FrameOK cfg.resources until' t f)
      (Kept none s) := by
  refine .write_bind (Q := fun t => t = u.add (p.record id)) (fun _ ht => ht ▸ rfl) ?_
  refine .ret ?_
  rintro t rfl
  exact ⟨.inr ⟨rfl, u, p, id, hkept, hp, hroom, hfree, rfl⟩, fun _ heq => by cases heq⟩

theorem checked_part (hs : Exclusive s) {id : String}
    (hp : p.OK until') (hroom : Room cfg.resources until' s p) :
    Part cfg.resources until' none true s (checked cfg p id) := by
  refine .get_bind ?_
  rintro s rfl
  refine .failWhen_bind (fun _ ht => ht ▸ .refl none s) fun hchecks => ?_
  have hfree := free_of_checks hs hchecks
  refine (reserveEncoderTime_spec none s _ _ _ _ _ _).bind fun reserved => .each ?_
  rintro t ⟨time, rfl⟩
  refine .failWhen_bind (fun _ ht => ht ▸ .time s time) fun _ => ?_
  split
  · refine .ret ?_
    rintro t rfl
    exact part_waits (f := .recording p id) (.time s time) ⟨hp, hroom, hfree⟩
  · exact store_part (.time s time) hp hroom hfree

theorem equipped_part (hs : Sound cfg.resources until' s) (hp : p.OK until') (id : String) :
    Part cfg.resources until' none true s (equipped cfg p id) := by
  refine .get_bind ?_
  rintro s rfl
  refine .check_bind (fun _ ht => ht ▸ .refl none s) fun _ hcheck => ?_
  rw [assertResources, Checks.failIf_ok_iff] at hcheck
  simp only [not_or, Bool.not_eq_false] at hcheck
  have hroom : Room cfg.resources until' s p :=
    hs.within.admitted hcheck.2.2 (occupied_later s hp.1)
  split
  · refine .ret ?_
    rintro t rfl
    exact part_waits (f := .checking p id) (.refl none t) ⟨hp, hroom⟩
  · exact checked_part hs.exclusive hp hroom

theorem identified_part (hs : Sound cfg.resources until' s)
    (hp : p.OK until') (usage : Except String Unit) (id : Except String String) :
    Part cfg.resources until' none true s (identified cfg p usage id) := by
  have hself : ∀ t, t = s → Kept none s t := fun _ ht => ht ▸ .refl none s
  refine .check_bind hself fun _ _ => ?_
  refine .check_bind hself fun assignmentId _ => ?_
  refine .get_bind ?_
  rintro s rfl
  refine .failWhen_bind hself fun _ => ?_
  split
  · refine .ret ?_
    rintro t rfl
    exact part_waits (f := .equipping p assignmentId) (.refl none t) hp
  · exact equipped_part hs hp assignmentId

/-! ## The other calls -/

theorem transition_part (renewal : Option Int) (s : Registry) (m : StatusMessage) (now : Int)
    (ref : Nat) : Part cfg.resources until' renewal false s (transition m now ref) := by
  refine .get_bind ?_
  rintro s rfl
  split
  · exact .failed fun _ ht => ht ▸ .refl renewal s
  · rename_i r hr
    refine .failWhen_bind (fun _ ht => ht ▸ .refl renewal s) fun hallowed => ?_
    rw [Bool.not_eq_false] at hallowed
    refine .set_bind (Q := fun t => Kept renewal s t)
      (fun _ _ => .finish hr (.reported hallowed _ _)) ?_
    exact .ret fun t ht => part_returns ht

theorem acknowledge_part (s : Registry) (packagerId : String) (m : StatusMessage) (now : Int) :
    Part cfg.resources until' none false s (acknowledge packagerId m now) := by
  have hself : ∀ t, t = s → Kept none s t := fun _ ht => ht ▸ .refl none s
  refine .failWhen_bind hself fun _ => ?_
  refine .get_bind ?_
  rintro s rfl
  split
  · refine .failWhen_bind hself fun _ => ?_
    refine .failWhen_bind hself fun _ => ?_
    split
    · refine .ret ?_
      rintro t rfl
      exact part_waits (f := .acknowledging _ _ _) (.refl none t) trivial
    · exact transition_part none s m now _
  · exact .failed hself

theorem acknowledged_part (s : Registry) (m : StatusMessage) (now : Int) (ref : Nat)
    (source : Except String SourceAuthority) :
    Part cfg.resources until' none false s (acknowledged m now ref source) := by
  have hself : ∀ t, t = s → Kept none s t := fun _ ht => ht ▸ .refl none s
  refine .get_bind ?_
  rintro s rfl
  split
  · exact .failed hself
  · exact .check_bind hself fun _ _ => transition_part none s m now ref

theorem renew_part (s : Registry) (packagerId : String) (now : Int) :
    Part cfg.resources until' none false s (renew packagerId now) := by
  have hself : ∀ t, t = s → Kept none s t := fun _ ht => ht ▸ .refl none s
  refine .failWhen_bind hself fun _ => ?_
  refine .get_bind ?_
  rintro s rfl
  split
  · split
    · refine .ret ?_
      rintro t rfl
      exact part_returns (.refl none t)
    · rename_i hlive
      simp only [not_or, not_le] at hlive
      refine .ret ?_
      rintro t rfl
      exact part_waits (f := .renewing _ _ _ _) (.refl none t) hlive.2
  · refine .ret ?_
    rintro t rfl
    exact part_returns (.refl none t)

variable {previous : Int}

section

variable (s : Registry)

theorem extend_part (packagerId : String) {now : Int} (ref : Nat)
    (deadline : Int) (hlive : now < previous) :
    Part cfg.resources until' (some now) false s
      (extend cfg packagerId now ref previous deadline) := by
  refine .get_bind ?_
  rintro s rfl
  split
  · exact .failed fun _ ht => ht ▸ .refl (some now) s
  · rename_i r hr
    split
    · refine .ret ?_
      rintro t rfl
      exact part_returns (.refl _ t)
    · rename_i hcurrent
      simp only [not_or, not_not, ne_eq, Bool.not_eq_false] at hcurrent
      obtain ⟨-, hrenewable, hexpiry⟩ := hcurrent
      refine (reserveEncoderTime_spec _ s _ _ _ _ _ _).bind fun reserved => .each ?_
      rintro t ⟨time, rfl⟩
      split
      · refine .ret ?_
        rintro t rfl
        exact part_returns (.time s time)
      · refine .write_bind (Q := fun t => Kept (some now) s t) ?_ (.ret fun t ht => part_returns ht)
        rintro t rfl
        exact (Kept.time s time).trans (.put hr (.renewed hrenewable (hexpiry ▸ hlive)))

theorem renewing_part (packagerId : String) {now : Int} (ref : Nat)
    (deadline : Except String Int) (hlive : now < previous) :
    Part cfg.resources until' (some now) false s
      (renewing cfg packagerId now ref previous deadline) := by
  have hself : ∀ t, t = s → Kept (some now) s t := fun _ ht => ht ▸ .refl (some now) s
  refine .check_bind hself fun programDeadline _ => ?_
  refine .get_bind ?_
  rintro s rfl
  split
  · exact .failed hself
  · split
    · refine .ret ?_
      rintro t rfl
      exact part_returns (.refl _ t)
    · split
      · refine .ret ?_
        rintro t rfl
        exact part_waits (f := .renewingSource _ _ _ _ _) (.refl _ t) hlive
      · exact extend_part s packagerId ref programDeadline hlive

theorem renewingSource_part (packagerId : String) {now : Int} (ref : Nat)
    (deadline : Int) (source : Except String SourceAuthority) (hlive : now < previous) :
    Part cfg.resources until' (some now) false s
      (renewingSource cfg packagerId now ref previous deadline source) := by
  have hself : ∀ t, t = s → Kept (some now) s t := fun _ ht => ht ▸ .refl (some now) s
  refine .get_bind ?_
  rintro s rfl
  split
  · exact .failed hself
  · exact .check_bind hself fun _ _ => extend_part s packagerId ref deadline hlive

theorem stop_kept (c : StopCall) :
    Ensures (· = s) (stop c) (fun o t => Kept none s t ∧ ∀ f, o ≠ .waits f) (Kept none s) := by
  have hself : ∀ t, t = s → Kept none s t := fun _ ht => ht ▸ .refl none s
  refine .failWhen_bind hself fun _ => ?_
  refine .get_bind ?_
  rintro s rfl
  split
  · rename_i ref r href hr
    refine .failWhen_bind hself fun _ => ?_
    split
    · exact .ret fun t ht => ⟨hself t ht, by simp⟩
    · rename_i hactive
      simp only [not_or, Bool.not_eq_false] at hactive
      rw [href] at hr
      refine .set_bind (Q := fun t => Kept none s t)
        (fun _ _ => .put hr (.drained hactive.2 _ _)) ?_
      exact .ret fun t ht => ⟨ht, by simp⟩
  · exact .failed hself

theorem stop_part (c : StopCall) : Part cfg.resources until' none false s (stop c) :=
  (stop_kept s c).mono (fun _ ht => ht) (fun _ _ ht => ⟨.inl ht.1, fun f heq => absurd heq (ht.2 f)⟩)
    fun _ ht => ht

theorem failPackager_part (packagerId reasonCode : String) (now : Int) :
    Part cfg.resources until' none false s (failPackager packagerId reasonCode now) := by
  refine .get_bind ?_
  rintro s rfl
  split
  · rename_i ref r href hr
    split
    · refine .ret ?_
      rintro t rfl
      exact part_returns (.refl none t)
    · rename_i hactive
      rw [Bool.not_eq_false] at hactive
      rw [href] at hr
      refine .set_bind (Q := fun t => Kept none s t)
        (fun _ _ => .finish hr (.failed hactive _ _)) ?_
      exact .ret fun t ht => part_returns ht
  · refine .ret ?_
    rintro t rfl
    exact part_returns (.refl none t)

end

/-! ## Pruning -/

theorem stopQuietly_kept {s₀ : Registry} (c : StopCall) :
    Ensures (Kept none s₀) (stopQuietly c) (fun _ => Kept none s₀) (Kept none s₀) := by
  intro s hs
  have hkeep : Ensures (· = s) (stop c) (fun _ t => Kept none s t) (Kept none s) :=
    (stop_kept s c).mono (fun _ ht => ht) (fun _ _ ht => ht.1) fun _ ht => ht
  exact hs.trans (after_of (I := Kept none s) hkeep rfl)

theorem sweep_kept {s₀ : Registry} (now : Int) {ref : Nat}
    (hplace : ∀ r : Record, s₀.records[ref]? = some r → ∀ k,
      s₀.assignments.get r.assignmentId = some k → k = ref) :
    Ensures (Kept none s₀) (sweep now ref) (fun _ => Kept none s₀) (Kept none s₀) := by
  refine .write fun s hs => ?_
  split
  · rename_i r hr
    split
    · rename_i hold
      obtain ⟨r₀, hr₀, hp⟩ := hs.same ref r hr
      refine hs.trans (.erase hr hold.1 fun k hk => hplace r₀ hr₀ k ?_)
      rw [← hp.assignmentId]
      exact hs.get hk
    · exact hs
  · exact hs

theorem pruneRecord_kept {s₀ : Registry} (now : Int) (onExpired : Snapshot → Command → Handled)
    {ref : Nat} (hplace : ∀ r : Record, s₀.records[ref]? = some r → ∀ k,
      s₀.assignments.get r.assignmentId = some k → k = ref) :
    Ensures (Kept none s₀) (pruneRecord now onExpired ref) (fun _ => Kept none s₀)
      (Kept none s₀) := by
  refine .get_bind fun s hs => ?_
  refine .mono (P := Kept none s₀) (Q := fun _ => Kept none s₀) (E := Kept none s₀) ?_
    (fun _ heq => heq ▸ hs) (fun _ _ ht => ht) fun _ ht => ht
  split
  · exact .ret fun _ ht => ht
  · rename_i r hr
    have hsweep := sweep_kept now hplace
    split
    · rename_i hexpired
      split
      · refine .set_bind (Q := Kept none s₀)
          (fun _ _ => hs.trans (.put hr (.drained hexpired.1 _ _))) ?_
        refine (forM fun c _ => stopQuietly_kept c).bind fun _ => ?_
        exact check_bind (fun _ ht => ht) fun _ _ => hsweep
      · split
        · exact .set_bind (Q := Kept none s₀)
            (fun _ _ => hs.trans (.finish hr (.failed hexpired.1 _ _))) hsweep
        · exact hsweep
    · exact hsweep

theorem prune_part (hs : Sound cfg.resources until' s) (now : Int)
    (onExpired : Snapshot → Command → Handled) :
    Part cfg.resources until' none false s (prune now onExpired) := by
  refine get_bind ?_
  rintro s rfl
  refine bind (Q := fun _ => Kept none s) ?_ fun _ => ret fun t ht => part_returns ht
  refine (forM fun ref href => pruneRecord_kept now onExpired ?_).mono
    (fun t ht => ht ▸ .refl none s) (fun _ _ ht => ht) fun _ ht => ht
  intro r hr k hk
  obtain ⟨id, hid⟩ := mem_values_iff.mp href
  obtain ⟨r', hr', rfl⟩ := hs.placed id ref hid
  cases hr.symm.trans hr'
  exact some.inj (hk.symm.trans hid)

end Parts

/-! ## One part of a call -/

section Steps

variable {cfg : Config} {until' : Int}

variable {renewal : Option Int} {s t : Registry}

theorem Kept.exclusive (h : Kept renewal s t) (hs : Exclusive s) : Exclusive t := by
  intro ref r' hr' hactive
  obtain ⟨r, hr, hp⟩ := h.same ref r' hr'
  obtain ⟨hassigned, hpackager, hprogram⟩ := hs ref r hr (hp.active hactive)
  refine ⟨h.assigned ref r' hr' hactive ?_, h.packager ref r' hr' hactive ?_,
    h.program ref r' hr' hactive ?_⟩
  · rw [hp.assignmentId, hassigned]
  · rw [hp.packagerId, hpackager]
  · rw [hp.programId, hprogram]

variable {l : ResourceLimits}

section

variable (h : Kept renewal s t)

include h

theorem Kept.room
    {p : Pending} (hroom : Room l until' s p) : Room l until' t p :=
  Within.sublist hroom ((h.occupied until').append_right _)

theorem Kept.free {p : Pending}
    {id : String} (hfree : Free s p id) : Free t p id := by
  refine ⟨?_, fun ref r' hr' hactive => ?_⟩
  · cases hget : t.assignments.get id with
    | none => rfl
    | some ref =>
        have hsame := h.get hget
        rw [hfree.1] at hsame
        cases hsame
  · obtain ⟨r, hr, hp⟩ := h.same ref r' hr'
    rw [hp.packagerId, hp.programId]
    exact hfree.2 ref r hr (hp.active hactive)

theorem Kept.sound (hs : Sound l until' s) : Sound l until' t where
  exclusive := h.exclusive hs.exclusive
  placed := by
    intro id ref hget
    obtain ⟨r, hr, rfl⟩ := hs.placed id ref (h.get hget)
    obtain ⟨r', hr'⟩ := h.still ref r hr
    obtain ⟨r₀, hr₀, hp⟩ := h.same ref r' hr'
    cases hr.symm.trans hr₀
    exact ⟨r', hr', hp.assignmentId⟩
  bounded := by
    intro ref r' hr'
    obtain ⟨r, hr, hp⟩ := h.same ref r' hr'
    exact hp.bounded (hs.bounded ref r hr)
  within := hs.within.sublist (h.occupied until')

theorem FrameOK.kept
    {f : Frame} (hf : FrameOK l until' s f) : FrameOK l until' t f := by
  cases f with
  | checking p id => exact ⟨hf.1, h.room hf.2⟩
  | recording p id => exact ⟨hf.1, h.room hf.2.1, h.free hf.2.2⟩
  | _ => exact hf

end

/-- A frame that does not wait for the ledger knows nothing of the registry. -/
theorem FrameOK.other {f : Frame}
    (hf : FrameOK l until' s f) (hcharging : f.charging = false) : FrameOK l until' t f := by
  cases f with
  | checking p id => cases hcharging
  | recording p id => cases hcharging
  | _ => exact hf

theorem Sound.add {l : ResourceLimits} {s : Registry} (hs : Sound l until' s) {p : Pending}
    {id : String} (hp : p.OK until') (hroom : Room l until' s p) (hfree : Free s p id) :
    Sound l until' (s.add (p.record id)) := by
  have hold : ∀ (ref : Nat) (r : Record), (s.records ++ [p.record id])[ref]? = some r →
      s.records[ref]? = some r ∨ ref = s.records.length ∧ r = p.record id := by
    intro ref r hr
    by_cases hlt : ref < s.records.length
    · rw [getElem?_append_left hlt] at hr
      exact .inl hr
    · rw [getElem?_append_right (by omega), getElem?_singleton] at hr
      split at hr
      · exact .inr ⟨by omega, (some.inj hr).symm⟩
      · cases hr
  have hkeep : ∀ (ref : Nat) (r : Record), s.records[ref]? = some r →
      (s.records ++ [p.record id])[ref]? = some r := by
    intro ref r hr
    rw [List.getElem?_append_left (List.getElem?_eq_some_iff.mp hr).1, hr]
  have hlast : (s.records ++ [p.record id])[s.records.length]? = some (p.record id) := by simp
  refine ⟨?_, ?_, ?_, ?_⟩
  · intro ref r hr hactive
    rcases hold ref r hr with hr | ⟨rfl, rfl⟩
    · obtain ⟨hassigned, hpackager, hprogram⟩ := hs.exclusive ref r hr hactive
      obtain ⟨hneq, hneq'⟩ := hfree.2 ref r hr hactive
      refine ⟨?_, ?_, ?_⟩
      · refine (get_set_of_ne _ _ ?_).trans hassigned
        rintro heq
        rw [heq] at hassigned
        exact absurd (hfree.1.symm.trans hassigned) (by simp)
      · exact (get_set_of_ne _ _ hneq).trans hpackager
      · exact (get_set_of_ne _ _ hneq').trans hprogram
    · exact ⟨get_set_self .., get_set_self .., get_set_self ..⟩
  · intro k ref hget
    by_cases hk : k = id
    · subst hk
      cases (get_set_self ..).symm.trans hget
      exact ⟨p.record k, hlast, rfl⟩
    · obtain ⟨r, hr, hid⟩ := hs.placed k ref ((get_set_of_ne _ _ hk).symm.trans hget)
      exact ⟨r, hkeep ref r hr, hid⟩
  · intro ref r hr
    rcases hold ref r hr with hr | ⟨rfl, rfl⟩
    · exact hs.bounded ref r hr
    · exact ⟨hp.2, Int.le_refl _⟩
  · have hvalues : (s.add (p.record id)).assignments.values
        = s.assignments.values ++ [s.records.length] := values_set_of_none hfree.1
    have hsame : (s.add (p.record id)).occupied until' = s.occupied until' ++ [p.occupant] := by
      rw [occupied, hvalues, filterMap_append]
      congr 1
      · refine filterMap_congr fun ref href => ?_
        obtain ⟨k, hk⟩ := mem_values_iff.mp href
        obtain ⟨r, hr, -⟩ := hs.placed k ref hk
        show (((s.records ++ [p.record id])[ref]?).filter _).map _ = _
        rw [hkeep ref r hr, hr]
      · show [s.records.length].filterMap (fun ref =>
          (((s.records ++ [p.record id])[ref]?).filter _).map _) = _
        rw [filterMap_cons_some (b := p.occupant) (by rw [hlast]; rfl), filterMap_nil]
    rw [hsame]
    exact hroom

/-- What every part of a call does to the objects of the registry. -/
def Moved (renewal : Option Int) (s t : Registry) : Prop :=
  ∀ (ref : Nat) (r : Record), s.records[ref]? = some r →
    ∃ r' : Record, t.records[ref]? = some r' ∧ Progress renewal r r'

theorem Kept.moved (h : Kept renewal s t) : Moved renewal s t := by
  intro ref r hr
  obtain ⟨r', hr'⟩ := h.still ref r hr
  obtain ⟨r₀, hr₀, hp⟩ := h.same ref r' hr'
  cases hr.symm.trans hr₀
  exact ⟨r', hr', hp⟩

theorem moved_add {u : Registry} (h : Kept renewal s u) (r₁ : Record) :
    Moved renewal s (u.add r₁) := by
  intro ref r hr
  obtain ⟨r', hr', hp⟩ := h.moved ref r hr
  refine ⟨r', ?_, hp⟩
  show (u.records ++ [r₁])[ref]? = _
  rw [List.getElem?_append_left (List.getElem?_eq_some_iff.mp hr').1, hr']

/-- The system after a part of a call that was on top of the others. -/
theorem settle_good {prepares : Bool} {stack : List Frame}
    {x : Stateful Registry Outcome} (hs : Good cfg.resources until' ⟨s, stack⟩)
    (hx : Part cfg.resources until' renewal prepares s x)
    (hnested : prepares = true → ∀ f ∈ stack, f.charging = false) :
    Good cfg.resources until' (settle stack (x s))
      ∧ Moved renewal s (settle stack (x s)).registry := by
  have hkept : ∀ {t}, Kept renewal s t → Good cfg.resources until' ⟨t, stack⟩ := fun ht =>
    ⟨ht.sound hs.sound, fun f hf => (hs.frames f hf).kept ht, hs.nested⟩
  have hchanged : ∀ {t}, Changed cfg.resources until' renewal prepares s t →
      Good cfg.resources until' ⟨t, stack⟩ ∧ Moved renewal s t := by
    rintro t (ht | ⟨hprepares, u, p, id, hu, hp, hroom, hfree, rfl⟩)
    · exact ⟨hkept ht, ht.moved⟩
    · refine ⟨⟨(hu.sound hs.sound).add hp hroom hfree, fun f hf => ?_, hs.nested⟩, moved_add hu _⟩
      exact (hs.frames f hf).other (hnested hprepares f hf)
  have hrun := hx s rfl
  cases hcall : x s with
  | error code t =>
      rw [hcall] at hrun
      exact ⟨hkept hrun, Kept.moved hrun⟩
  | ok o t =>
      rw [hcall] at hrun
      obtain ⟨hgood, hmoved⟩ := hchanged hrun.1
      cases o with
      | returns output => exact ⟨hgood, hmoved⟩
      | waits f =>
          obtain ⟨hf, hok⟩ := hrun.2 f rfl
          refine ⟨⟨hgood.sound, forall_mem_cons.mpr ⟨hok, hgood.frames⟩, ?_⟩, hmoved⟩
          refine pairwise_cons.mpr ⟨fun below hbelow hcharging => ?_, hgood.nested⟩
          cases hprepares : prepares with
          | false => rw [hf, hprepares]
          | true =>
              rw [hnested hprepares below hbelow] at hcharging
              cases hcharging

theorem resume_part (hs : Sound cfg.resources until' s) {f : Frame}
    (hf : FrameOK cfg.resources until' s f) {a : Answer} {x : Stateful Registry Outcome}
    (hx : resume cfg f a = some x) : Part cfg.resources until' f.renewal f.prepares s x := by
  have hself : ∀ t, t = s → Kept none s t := fun _ ht => ht ▸ .refl none s
  cases f with
  | admitting c =>
      cases a <;> cases hx
      exact admit_part s hf _ _ _
  | identifying p =>
      cases a <;> cases hx
      exact identified_part hs hf _ _
  | equipping p id =>
      cases a <;> cases hx
      exact .check_bind hself fun _ _ => equipped_part hs hf id
  | checking p id =>
      cases a <;> cases hx
      exact .check_bind hself fun _ _ => checked_part hs.exclusive hf.1 hf.2
  | recording p id =>
      cases a <;> cases hx
      exact .check_bind hself fun _ _ => store_part (.refl none s) hf.1 hf.2.1 hf.2.2
  | acknowledging m now ref =>
      cases a <;> cases hx
      exact acknowledged_part s m now ref _
  | renewing packagerId now ref previous =>
      cases a <;> cases hx
      exact renewing_part s packagerId ref _ hf
  | renewingSource packagerId now ref previous deadline =>
      cases a <;> cases hx
      exact renewingSource_part s packagerId ref deadline _ hf

theorem begin_part (hs : Sound cfg.resources until' s) {c : Call}
    (hnow : ∀ now, (Event.call c).time = some now → now ≤ until') :
    Part cfg.resources until' none (match c with | .prepare _ => true | _ => false) s (begin c) := by
  cases c with
  | prepare c => exact prepare_part s (hnow c.now rfl)
  | acknowledge packagerId m now => exact acknowledge_part s packagerId m now
  | renew packagerId now => exact renew_part s packagerId now
  | stop c => exact stop_part s c
  | failPackager packagerId reasonCode now => exact failPackager_part s packagerId reasonCode now
  | prune now onExpired => exact prune_part hs now onExpired

theorem step_good {s t : System} {e : Event} (hs : Good cfg.resources until' s)
    (hstep : Step cfg s e t) (hcalm : Calm s e)
    (hnow : ∀ now, e.time = some now → now ≤ until') :
    Good cfg.resources until' t ∧ ∃ renewal, Moved renewal s.registry t.registry
        ∧ ∀ now, renewal = some now → s.stack.head?.bind Frame.renewal = some now := by
  obtain ⟨registry, stack⟩ := s
  cases e with
  | call c =>
      cases hstep
      obtain ⟨hgood, hmoved⟩ := settle_good hs (begin_part hs.sound hnow) fun hprepares => by
        cases c with
        | prepare c => exact hcalm
        | _ => cases hprepares
      exact ⟨hgood, none, hmoved, fun _ heq => by cases heq⟩
  | answer a =>
      cases stack with
      | nil => cases hstep
      | cons f stack =>
          obtain ⟨x, hx, rfl⟩ := map_eq_some_iff.mp hstep
          obtain ⟨hf, hframes⟩ := forall_mem_cons.mp hs.frames
          obtain ⟨htop, hnested⟩ := pairwise_cons.mp hs.nested
          have hrest : Good cfg.resources until' ⟨registry, stack⟩ := ⟨hs.sound, hframes, hnested⟩
          obtain ⟨hgood, hmoved⟩ := settle_good hrest (resume_part hs.sound hf hx)
            fun hprepares g hg => by
              cases hcharging : g.charging with
              | false => rfl
              | true =>
                  rw [htop g hg hcharging] at hprepares
                  cases hprepares
          exact ⟨hgood, f.renewal, hmoved, fun _ heq => heq⟩

/-! ## Runs -/

theorem good_start : Good cfg.resources until' start where
  sound := {
    exclusive := fun _ _ hr => by cases hr
    placed := fun _ _ hget => by cases hget
    bounded := fun _ _ hr => by cases hr
    within := within_nil _ }
  frames _ hf := absurd hf not_mem_nil
  nested := .nil

theorem run_good {s t : System} {es : List Event}
    (hrun : Runs.Path (Runs.Guarded (Step cfg) Calm) s es t) :
    Before es until' → Good cfg.resources until' s → Good cfg.resources until' t := by
  induction hrun with
  | nil s => exact fun _ hs => hs
  | cons hstep _ ih =>
      intro hbefore hs
      obtain ⟨hnow, hrest⟩ := forall_mem_cons.mp hbefore
      exact ih hrest (step_good hs hstep.1 hstep.2 hnow).1

theorem exists_before : ∀ es : List Event, ∃ until', Before es until'
  | [] => ⟨0, fun _ he => absurd he not_mem_nil⟩
  | e :: es => by
      obtain ⟨until', hbefore⟩ := exists_before es
      refine ⟨max until' (e.time.getD 0), forall_mem_cons.mpr ⟨fun now hnow => ?_, ?_⟩⟩
      · rw [hnow]
        exact Int.le_max_right ..
      · exact fun e' he' now hnow => (hbefore e' he' now hnow).trans (Int.le_max_left ..)

theorem StaysEnded.refl (s : Registry) : StaysEnded s s := fun _ r hr _ => ⟨r, hr, rfl⟩

theorem StaysEnded.trans {s t u : Registry} (h : StaysEnded s t) (h' : StaysEnded t u) :
    StaysEnded s u := by
  intro ref r hr hended
  obtain ⟨r', hr', hsame⟩ := h ref r hr hended
  obtain ⟨r'', hr'', hsame'⟩ := h' ref r' hr' (by rw [hsame]; exact hended)
  exact ⟨r'', hr'', hsame'.trans hsame⟩

theorem Moved.staysEnded (h : Moved renewal s t) : StaysEnded s t := by
  intro ref r hr hended
  obtain ⟨r', hr', hp⟩ := h ref r hr
  exact ⟨r', hr', hp.ended hended⟩

theorem run_staysEnded {s t : System} {es : List Event}
    (hrun : Runs.Path (Runs.Guarded (Step cfg) Calm) s es t) :
    Before es until' → Good cfg.resources until' s → StaysEnded s.registry t.registry := by
  induction hrun with
  | nil s => exact fun _ _ => .refl _
  | cons hstep _ ih =>
      intro hbefore hs
      obtain ⟨hnow, hrest⟩ := forall_mem_cons.mp hbefore
      obtain ⟨hgood, renewal, hmoved, -⟩ := step_good hs hstep.1 hstep.2 hnow
      exact hmoved.staysEnded.trans (ih hrest hgood)

theorem Exclusive.atMostOne (h : Exclusive s) : AtMostOne s := by
  intro ref ref' r r' hr hr' hactive hactive' hsame
  obtain ⟨-, hpackager, hprogram⟩ := h ref r hr hactive
  obtain ⟨-, hpackager', hprogram'⟩ := h ref' r' hr' hactive'
  rcases hsame with heq | heq
  · rw [heq, hpackager'] at hpackager
    exact (some.inj hpackager).symm
  · rw [heq, hprogram'] at hprogram
    exact (some.inj hprogram).symm

end Steps

/-- **The registry's invariant.** While the ledger prepares no assignment from
its last answers: active records are the ones of both indexes, leases are
within their bounds, the resources in use are within the limits at any time
no call was later than, ended records stay ended, and a renewal extends live
leases only. -/
theorem assignments_exclusive (cfg : Config) {es : List Event} {s : System}
    (hrun : Runs.Path (Runs.Guarded (Step cfg) Calm) start es s) :
    Exclusive s.registry ∧ AtMostOne s.registry ∧ Bounded s.registry
      ∧ (∀ now, Before es now → Within cfg.resources (s.registry.occupied now))
      ∧ (∀ fs t, Runs.Path (Runs.Guarded (Step cfg) Calm) s fs t → StaysEnded s.registry t.registry)
      ∧ ∀ e t, Runs.Guarded (Step cfg) Calm s e t → RenewsLive s t := by
  obtain ⟨until', hbefore⟩ := exists_before es
  have hgood : Good cfg.resources until' s := run_good hrun hbefore good_start
  refine ⟨hgood.sound.exclusive, hgood.sound.exclusive.atMostOne, hgood.sound.bounded, ?_, ?_, ?_⟩
  · intro now hnow
    have hs : Good cfg.resources now s := run_good hrun hnow good_start
    exact hs.sound.within
  · intro fs t hrest
    obtain ⟨later, hlater⟩ := exists_before (es ++ fs)
    have hs : Good cfg.resources later s :=
      run_good hrun (fun e he => hlater e (mem_append_left _ he)) good_start
    exact run_staysEnded hrest (fun e he => hlater e (mem_append_right _ he)) hs
  · intro e t hstep ref r r' hr hr' hne
    obtain ⟨later, hlater⟩ := exists_before (es ++ [e])
    have hs : Good cfg.resources later s :=
      run_good hrun (fun e he => hlater e (mem_append_left _ he)) good_start
    obtain ⟨-, renewal, hmoved, hrenewal⟩ := step_good hs hstep.1 hstep.2
      (hlater e (mem_append_right _ (mem_singleton.mpr rfl)))
    obtain ⟨r₀, hr₀, hp⟩ := hmoved ref r hr
    cases hr'.symm.trans hr₀
    rcases hp.expiry with heq | ⟨now, hnow, hrenewable, hlt⟩
    · exact absurd heq hne
    · exact ⟨hrenewable, now, hrenewal now hnow, hlt⟩

/-- `Calm`, as it can be looked at. -/
def calm (s : System) : Event → Bool
  | .call (.prepare _) => s.stack.all fun f => !f.charging
  | _ => true

theorem calm_of {s : System} {e : Event} (h : calm s e = true) : Calm s e := by
  cases e with
  | answer a => trivial
  | call c =>
      cases c with
      | prepare c => simpa [calm, Calm] using h
      | _ => trivial

/-- The system after the events, where it can take each of them and each is
allowed. -/
def play (cfg : Config) (allowed : System → Event → Bool) (s : System) (es : List Event) :
    Option System :=
  es.foldlM (fun s e => if allowed s e then next cfg s e else none) s

theorem play_path {cfg : Config} {allowed : System → Event → Bool} :
    ∀ {es : List Event} {s t : System}, play cfg allowed s es = some t →
      Runs.Path (Runs.Guarded (Step cfg) fun s e => allowed s e = true) s es t
  | [], s, t, h => by
      cases h
      exact .nil s
  | e :: es, s, t, h => by
      rw [play, foldlM_cons, bind_eq_bind, bind_eq_some_iff] at h
      obtain ⟨u, hu, hrest⟩ := h
      split at hu
      · rename_i hallowed
        exact .cons ⟨hu, hallowed⟩ (play_path hrest)
      · cases hu

/-- The limits of the source. -/
def defaultConfig : Config :=
  { resources := ⟨defaults, defaults, defaults⟩
    encoder := ⟨2880, 2880, 2880, 8192⟩
    ledger := true }
where
  defaults : Amounts
    | .cpuUnits => 512
    | .memoryMiB => 16384
    | .encoderSlots => 48
    | .gpuSlots => 16
    | .egressBitsPerSecond => 100000000

def sampleAdmission : Admission :=
  { admissionVersion := 1
    roomId := "room-1"
    programId := "prg_aaaaaaaaaaaaaaaa"
    programEpoch := 1
    resourceRef := "res_aaaaaaaaaaaaaaaa"
    videoEncoder := "libx264"
    softwareFallback := "libx264"
    profileId := "h264-aac-720p-v1"
    renditions := [⟨"low", 640, 360, 15, 500000, 64000⟩]
    maximumQueueFrames := 60
    keyframeIntervalSeconds := 2
    audioOutput := none }

def samplePrepare : PrepareCall :=
  { ownerPrincipal := "i|owner"
    packagerId := "pkr_aaaaaaaaaaaaaaaa"
    admission := sampleAdmission
    leaseId := "lea_aaaaaaaaaaaaaaaa"
    fencingRevision := 1
    expiresAt := 60000
    peerId := "0123456789abcdef"
    sourceProgram := false
    now := 1000 }

def sampleCandidate : Candidate :=
  { online := true
    capability := some ⟨"tn_aaaaaaaaaaaaaaaa", true, false⟩
    admission := .ok sampleAdmission }

/-- A preparation up to where it tells the ledger. -/
def preparing (id : String) : List Event :=
  [.call (.prepare samplePrepare), .answer (.admission (.ok sampleCandidate) (.error "") (.ok 90000)),
    .answer (.id (.ok ()) (.ok id)), .answer (.ledger (.ok ()))]

/-- An assignment is prepared, reported ready, renewed and stopped. -/
def sampleEvents : List Event :=
  preparing "asn_aaaaaaaaaaaaaaaa" ++ [.answer (.ledger (.ok ())),
    .call (.acknowledge "pkr_aaaaaaaaaaaaaaaa"
      ⟨"asn_aaaaaaaaaaaaaaaa", 1, 1, .ready, "AGENT_READY", 1500⟩ 1500),
    .call (.renew "pkr_aaaaaaaaaaaaaaaa" 20000), .answer (.deadline (.ok 70000)),
    .call (.stop ⟨"i|owner", "pkr_aaaaaaaaaaaaaaaa", "asn_aaaaaaaaaaaaaaaa", "OWNER_STOP", 21000⟩)]

theorem assignments_exclusive_sample : ∃ s, play defaultConfig calm start sampleEvents = some s
      ∧ (s.registry.records.map fun r => (r.state, r.expiresAt, r.encoderBudgetUntil))
        = [(.draining, 70000, 70000)]
      ∧ Exclusive s.registry := by
  have hrun : (play defaultConfig calm start sampleEvents).map (fun s =>
      s.registry.records.map fun r => (r.state, r.expiresAt, r.encoderBudgetUntil))
        = some [(.draining, 70000, 70000)] := by decide
  obtain ⟨s, hs, hrecords⟩ := map_eq_some_iff.mp hrun
  have hpath : Runs.Path (Runs.Guarded (Step defaultConfig) Calm) start sampleEvents s :=
    (play_path hs).mono fun hstep => ⟨hstep.1, calm_of hstep.2⟩
  exact ⟨s, hs, hrecords, (assignments_exclusive defaultConfig hpath).1⟩

/-- Two preparations for one packager, the second made by the ledger when it
takes the records of the first. -/
def ledgerEvents : List Event :=
  preparing "asn_aaaaaaaaaaaaaaaa" ++ preparing "asn_bbbbbbbbbbbbbbbb"
    ++ [.answer (.ledger (.ok ())), .answer (.ledger (.ok ()))]

theorem ledger_breaks_exclusion :
    ¬ ∀ (cfg : Config) (es : List Event) (s : System), Runs.Path (Step cfg) start es s →
      Exclusive s.registry ∧ AtMostOne s.registry ∧ Bounded s.registry
        ∧ (∀ now, Before es now → Within cfg.resources (s.registry.occupied now))
        ∧ (∀ fs t, Runs.Path (Step cfg) s fs t → StaysEnded s.registry t.registry)
        ∧ ∀ e t, Step cfg s e t → RenewsLive s t := by
  intro h
  have hrun : (play defaultConfig (fun _ _ => true) start ledgerEvents).map (fun s =>
      s.registry.records.map fun r => (r.packagerId, r.state.active))
        = some [("pkr_aaaaaaaaaaaaaaaa", true), ("pkr_aaaaaaaaaaaaaaaa", true)] := by
    decide
  obtain ⟨s, hs, hrecords⟩ := map_eq_some_iff.mp hrun
  obtain ⟨-, hone, -⟩ := h defaultConfig ledgerEvents s (play_path hs).unguarded
  have hget : ∀ ref < 2, ∃ r : Record, s.registry.records[ref]? = some r
      ∧ (r.packagerId, r.state.active) = ("pkr_aaaaaaaaaaaaaaaa", true) := by
    intro ref href
    refine map_eq_some_iff.mp ?_
    rw [← getElem?_map, hrecords]
    interval_cases ref <;> rfl
  obtain ⟨r, hr, heq⟩ := hget 0 (by decide)
  obtain ⟨r', hr', heq'⟩ := hget 1 (by decide)
  obtain ⟨hpackager, hactive⟩ := Prod.mk.inj heq
  obtain ⟨hpackager', hactive'⟩ := Prod.mk.inj heq'
  have hsame := hone 0 1 r r' hr hr' hactive hactive' (.inl (hpackager.trans hpackager'.symm))
  cases hsame

end NativeAssignments

end WebrtcMinimize
