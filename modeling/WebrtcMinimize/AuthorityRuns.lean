import WebrtcMinimize.AssignmentAuthority

/-!
# Authority that was lost stays lost

`RegistryOK` ties the pieces of state together: a session is authenticated
only on a connection that has had its response, the slot holds a source
program only on such a connection or while one is being left, an owner whose
room was withdrawn is cancelled, and the history has at least the last lease
of every owner whose lease still runs.

`Lost` is every way in which an owner can have stopped being permitted. All
but one are closed channels, final states, or a slot that was given away;
the wall clock is the one that depends on the condition `Timely`.
-/

namespace WebrtcMinimize

namespace Packager

open Runs AssignmentRegistry List KeyedMap SourceOwner Option Int Slot

/-- What every event but a renewal keeps of an owner. -/
structure SourceOwner.Kept (o o' : SourceOwner) : Prop where
  request : o'.request = o.request
  expiresAt : o'.expiresAt = o.expiresAt
  deadline : o'.deadline = o.deadline
  done : o.done = true → o'.done = true
  terminal : o.state.terminal = true → o'.state.terminal = true

theorem SourceOwner.Kept.refl (o : SourceOwner) : o.Kept o := ⟨rfl, rfl, rfl, id, id⟩

theorem SourceOwner.Kept.trans {o o' o'' : SourceOwner} (h : o.Kept o') (h' : o'.Kept o'') :
    o.Kept o'' :=
  ⟨h'.request.trans h.request, h'.expiresAt.trans h.expiresAt, h'.deadline.trans h.deadline,
    fun hd => h'.done (h.done hd), fun ht => h'.terminal (h.terminal ht)⟩

theorem SourceOwner.kept_cancelled (o : SourceOwner) : o.Kept o.cancelled :=
  ⟨rfl, rfl, rfl, fun _ => rfl, id⟩

theorem SourceOwner.kept_ended (o : SourceOwner) {state : AssignmentState}
    (h : state.terminal = true) : o.Kept { o with state := state } :=
  ⟨rfl, rfl, rfl, id, fun _ => h⟩

namespace AssignmentRegistry

/-- The condition: the wall clock does not go back, and no renewal comes to
the lock after the lease has run out on it. -/
def Timely (s : AssignmentRegistry) (e : AuthorityEvent) : Prop :=
  (∀ t ∈ e.reading?, s.clock.wall ≤ t.wall)
    ∧ match e with
      | .renew _ _ _ t => ∀ io ∈ s.current, t.wall < io.2.expiresAt
      | _ => True

variable {i : Nat} {o : SourceOwner}

theorem current_eq_some {s : AssignmentRegistry} :
    s.current = some (i, o) ↔ s.slot = .source i ∧ s.owners[i]? = some o := by
  rw [current]
  constructor
  · intro h
    split at h
    · next j hslot =>
        obtain ⟨o', ho', heq⟩ := map_eq_some_iff.mp h
        obtain ⟨rfl, rfl⟩ := Prod.mk.inj heq
        exact ⟨hslot, ho'⟩
    · cases h
  · rintro ⟨hslot, ho⟩
    rw [hslot]
    show (s.owners[i]?).map _ = _
    rw [ho]
    rfl

/-! ## Calm events -/

/-- The owners are kept, the slot goes to no other owner. -/
structure Calm (s s' : AssignmentRegistry) : Prop where
  length : s'.owners.length = s.owners.length
  kept : ∀ (i : Nat) (o : SourceOwner), s.owners[i]? = some o →
    ∃ o', s'.owners[i]? = some o' ∧ o.Kept o'
  slot : ∀ i, s'.slot = .source i → s.slot = .source i
  history : s'.history = s.history

variable {s' : AssignmentRegistry}

theorem Calm.of_same {s : AssignmentRegistry} (howners : s'.owners = s.owners)
    (hslot : ∀ i, s'.slot = .source i → s.slot = .source i) (hhistory : s'.history = s.history) :
    Calm s s' :=
  ⟨by rw [howners], fun i o ho => ⟨o, by rw [howners, ho], .refl o⟩, hslot, hhistory⟩

theorem Calm.refl (s : AssignmentRegistry) : Calm s s := .of_same rfl (fun _ h => h) rfl

theorem Calm.trans {s s' s'' : AssignmentRegistry} (h : Calm s s') (h' : Calm s' s'') :
    Calm s s'' where
  length := h'.length.trans h.length
  kept := by
    intro i o ho
    obtain ⟨o', ho', hkept⟩ := h.kept i o ho
    obtain ⟨o'', ho'', hkept'⟩ := h'.kept i o' ho'
    exact ⟨o'', ho'', hkept.trans hkept'⟩
  slot := fun i hi => h.slot i (h'.slot i hi)
  history := h'.history.trans h.history

theorem Calm.before {s : AssignmentRegistry} (h : Calm s s') {o' : SourceOwner}
    (ho' : s'.owners[i]? = some o') : ∃ o, s.owners[i]? = some o ∧ o.Kept o' := by
  have hlt : i < s.owners.length := by
    rw [← h.length]
    exact (List.getElem?_eq_some_iff.mp ho').1
  obtain ⟨o'', ho'', hkept⟩ := h.kept i s.owners[i] (getElem?_eq_getElem hlt)
  cases ho''.symm.trans ho'
  exact ⟨_, getElem?_eq_getElem hlt, hkept⟩

variable {s : AssignmentRegistry}

theorem modifyOwner_calm (i : Nat) (f : SourceOwner → SourceOwner)
    (hf : ∀ o, s.owners[i]? = some o → o.Kept (f o)) : Calm s (s.modifyOwner i f) := by
  refine ⟨length_modify .., ?_, fun _ h => h, rfl⟩
  intro j o ho
  show ∃ o', (s.owners.modify i f)[j]? = some o' ∧ o.Kept o'
  rw [getElem?_modify, ho]
  by_cases hij : i = j
  · subst hij
    exact ⟨f o, by simp, hf o ho⟩
  · exact ⟨o, by simp [hij], .refl o⟩

theorem release_calm (i : Nat) {state : AssignmentState} (h : state.terminal = true) :
    Calm s (s.release i state) := by
  obtain ⟨hlength, hkept, -, hhistory⟩ :=
    modifyOwner_calm (s := s) i (fun o => { o with state := state }) fun o _ => o.kept_ended h
  exact ⟨hlength, hkept, fun _ hslot => (by cases hslot), hhistory⟩

theorem stopAssignment_calm (m : AssignmentName) : Calm s (s.stopAssignment m) := by
  rw [stopAssignment]
  split
  · split
    · exact release_calm _ rfl
    · exact .refl s
  · exact .refl s

theorem expireAssignment_calm (now : Int) : Calm s (s.expireAssignment now) := by
  rw [expireAssignment]
  split
  · split
    · exact release_calm _ rfl
    · exact .refl s
  · exact .refl s

theorem drain_calm : Calm s s.drain := by
  rw [drain]
  split
  · exact release_calm _ rfl
  · exact .refl s

theorem transition_calm (i : Nat) (state : AssignmentState) : Calm s (s.transition i state) := by
  rw [transition]
  split
  · next j o hcurrent =>
      split
      · next hgo =>
          obtain ⟨rfl, -, hallowed⟩ := hgo
          refine modifyOwner_calm i _ fun o' ho' => ?_
          cases (current_eq_some.mp hcurrent).2.symm.trans ho'
          refine ⟨rfl, rfl, rfl, id, fun hterminal => ?_⟩
          rw [not_terminal_of_allowed hallowed] at hterminal
          cases hterminal
      · exact .refl s
  · exact .refl s

theorem fail_calm (i : Nat) : Calm s (s.fail i) := by
  rw [fail]
  split
  · split
    · exact modifyOwner_calm i _ fun o _ => ⟨rfl, rfl, rfl, fun _ => rfl, fun _ => rfl⟩
    · exact .refl s
  · exact .refl s

theorem cancel_calm (i : Nat) : Calm s (s.modifyOwner i cancelled) :=
  modifyOwner_calm i _ fun o _ => o.kept_cancelled

theorem constructionFailed_calm (i : Nat) : Calm s (s.constructionFailed i) := by
  rw [constructionFailed]
  split
  · split
    · exact release_calm _ rfl
    · exact .refl s
  · exact .refl s

theorem fence_calm : Calm s s.fence := by
  rw [fence]
  split
  · exact cancel_calm _
  · exact .refl s

theorem setConsentedRooms_calm (rooms : List String) : Calm s (s.setConsentedRooms rooms) := by
  have hrooms : Calm s { s with rooms := rooms } := .of_same rfl (fun _ h => h) rfl
  rw [setConsentedRooms]
  split
  · split
    · exact hrooms
    · exact hrooms.trans fence_calm
  · exact hrooms

/-! ## The invariant -/

structure RegistryOK (s : AssignmentRegistry) : Prop where
  indexed : ∀ i, s.slot = .source i → i < s.owners.length
  session : s.sessionAuthenticated = true → s.phase = .online true
  fresh : s.phase = .offline ∨ s.phase = .online false → ∀ i, s.slot ≠ .source i
  rooms : ∀ (i : Nat) (o : SourceOwner), s.slot = .source i → s.owners[i]? = some o →
    o.request.roomId ∈ s.rooms ∨ o.done = true
  history : ∀ (i : Nat) (o : SourceOwner), s.owners[i]? = some o →
    o.expiresAt ≤ s.clock.wall
    ∨ ∃ last, s.history.get o.request.assignmentId = some last ∧ o.expiresAt ≤ last
  leased : ∀ (i : Nat) (o : SourceOwner), s.slot = .source i → s.owners[i]? = some o →
    ∀ last, s.history.get o.request.assignmentId = some last → last = o.expiresAt

theorem start_ok : RegistryOK start where
  indexed := fun _ h => by cases h
  session := fun h => by cases h
  fresh := fun _ _ h => by cases h
  rooms := fun _ _ h => by cases h
  history := fun _ _ h => by cases h
  leased := fun _ _ h => by cases h

/-- A calm event keeps what it says about owners, their leases and the slot. -/
theorem RegistryOK.calm (hok : RegistryOK s) (hcalm : Calm s s') (hclock : s'.clock = s.clock)
    (hsession : s'.sessionAuthenticated = true → s'.phase = .online true)
    (hfresh : s'.phase = .offline ∨ s'.phase = .online false → ∀ i, s'.slot ≠ .source i)
    (hrooms : ∀ (i : Nat) (o o' : SourceOwner), s'.slot = .source i → s.owners[i]? = some o →
      s'.owners[i]? = some o' → o.Kept o' →
      (o.request.roomId ∈ s.rooms ∨ o.done = true) → o'.request.roomId ∈ s'.rooms ∨ o'.done = true) :
    RegistryOK s' where
  indexed := by
    intro i hi
    rw [hcalm.length]
    exact hok.indexed i (hcalm.slot i hi)
  session := hsession
  fresh := hfresh
  rooms := by
    intro i o' hi ho'
    obtain ⟨o, ho, hkept⟩ := hcalm.before ho'
    exact hrooms i o o' hi ho ho' hkept (hok.rooms i o (hcalm.slot i hi) ho)
  history := by
    intro i o' ho'
    obtain ⟨o, ho, hkept⟩ := hcalm.before ho'
    rw [hclock, hcalm.history, hkept.request, hkept.expiresAt]
    exact hok.history i o ho
  leased := by
    intro i o' hi ho' last hlast
    obtain ⟨o, ho, hkept⟩ := hcalm.before ho'
    rw [hcalm.history, hkept.request] at hlast
    rw [hkept.expiresAt]
    exact hok.leased i o (hcalm.slot i hi) ho last hlast

/-- What leaves phase, session, rooms and clock alone. -/
structure Still (s s' : AssignmentRegistry) : Prop where
  phase : s'.phase = s.phase
  session : s'.sessionAuthenticated = s.sessionAuthenticated
  rooms : s'.rooms = s.rooms
  clock : s'.clock = s.clock

theorem RegistryOK.still (hok : RegistryOK s) (hcalm : Calm s s')
    (hstill : Still s s') : RegistryOK s' := by
  refine hok.calm hcalm hstill.clock ?_ ?_ ?_
  · rw [hstill.session, hstill.phase]
    exact hok.session
  · rw [hstill.phase]
    exact fun hphase i hi => hok.fresh hphase i (hcalm.slot i hi)
  · intro i o o' _ _ _ hkept hbefore
    rw [hstill.rooms, hkept.request]
    exact hbefore.imp_right hkept.done

theorem stopAssignment_still (m : AssignmentName) : Still s (s.stopAssignment m) := by
  rw [stopAssignment]
  split
  · split <;> exact ⟨rfl, rfl, rfl, rfl⟩
  · exact ⟨rfl, rfl, rfl, rfl⟩

theorem expireAssignment_still (now : Int) : Still s (s.expireAssignment now) := by
  rw [expireAssignment]
  split
  · split <;> exact ⟨rfl, rfl, rfl, rfl⟩
  · exact ⟨rfl, rfl, rfl, rfl⟩

theorem drain_still : Still s s.drain := by
  rw [drain]
  split <;> exact ⟨rfl, rfl, rfl, rfl⟩

theorem transition_still (i : Nat) (state : AssignmentState) : Still s (s.transition i state) := by
  rw [transition]
  split
  · split <;> exact ⟨rfl, rfl, rfl, rfl⟩
  · exact ⟨rfl, rfl, rfl, rfl⟩

theorem fail_still (i : Nat) : Still s (s.fail i) := by
  rw [fail]
  split
  · split <;> exact ⟨rfl, rfl, rfl, rfl⟩
  · exact ⟨rfl, rfl, rfl, rfl⟩

theorem constructionFailed_still (i : Nat) : Still s (s.constructionFailed i) := by
  rw [constructionFailed]
  split
  · split <;> exact ⟨rfl, rfl, rfl, rfl⟩
  · exact ⟨rfl, rfl, rfl, rfl⟩

theorem fence_still : Still s s.fence := by
  rw [fence]
  split <;> exact ⟨rfl, rfl, rfl, rfl⟩

/-- An owner whose room is no longer consented is cancelled at once. -/
theorem RegistryOK.setConsentedRooms (hok : RegistryOK s) (rooms : List String) :
    RegistryOK (s.setConsentedRooms rooms) := by
  have hcalm := s.setConsentedRooms_calm rooms
  have hshape : (s.setConsentedRooms rooms).phase = s.phase
      ∧ (s.setConsentedRooms rooms).sessionAuthenticated = s.sessionAuthenticated
      ∧ (s.setConsentedRooms rooms).rooms = rooms ∧ (s.setConsentedRooms rooms).clock = s.clock := by
    rw [AssignmentRegistry.setConsentedRooms]
    split
    · split
      · exact ⟨rfl, rfl, rfl, rfl⟩
      · obtain ⟨hphase, hsession, hrooms, hclock⟩ := fence_still (s := { s with rooms := rooms })
        exact ⟨hphase, hsession, hrooms, hclock⟩
    · exact ⟨rfl, rfl, rfl, rfl⟩
  obtain ⟨hphase, hsession, hrooms, hclock⟩ := hshape
  refine hok.calm hcalm hclock ?_ ?_ ?_
  · rw [hsession, hphase]
    exact hok.session
  · rw [hphase]
    exact fun hp i hi => hok.fresh hp i (hcalm.slot i hi)
  · intro i o o' hi ho ho' hkept _
    have hcurrent : ({ s with rooms := rooms } : AssignmentRegistry).current = some (i, o) :=
      current_eq_some.mpr ⟨hcalm.slot i hi, ho⟩
    by_cases hin : o.request.roomId ∈ rooms
    · rw [hrooms, hkept.request]
      exact .inl hin
    · right
      have hset : s.setConsentedRooms rooms
          = ({ s with rooms := rooms } : AssignmentRegistry).modifyOwner i cancelled := by
        rw [AssignmentRegistry.setConsentedRooms, hcurrent]
        dsimp only
        rw [if_neg hin, fence, hcurrent]
      rw [hset, modifyOwner] at ho'
      have hmodified : (s.owners.modify i cancelled)[i]? = some o' := ho'
      rw [getElem?_modify, ho] at hmodified
      simp only [if_true] at hmodified
      rw [← some.inj hmodified]
      rfl

variable {t : Reading}

section

variable (hok : RegistryOK s)

include hok

theorem RegistryOK.look (ht : s.clock.wall ≤ t.wall) :
    RegistryOK { s with clock := t } where
  __ := hok
  history := fun i o ho => (hok.history i o ho).imp_left fun h => le_trans h ht

theorem RegistryOK.purge : RegistryOK (s.purgeHistory s.clock.wall) where
  __ := hok
  history := by
    intro i o ho
    rcases hok.history i o ho with hover | ⟨last, hlast, hle⟩
    · exact .inl hover
    · by_cases hruns : s.clock.wall < last
      · exact .inr ⟨last, get_keep_eq_some_iff.mpr ⟨hlast, by simpa using hruns⟩, hle⟩
      · exact .inl (show o.expiresAt ≤ s.clock.wall by omega)
  leased := by
    intro i o hi ho last hlast
    exact hok.leased i o hi ho last (get_keep_eq_some_iff.mp hlast).1

/-- A lease that runs is in the history, so its id is not taken. -/
theorem RegistryOK.over_of_forgotten {id : String}
    (hfree : s.history.get id = none) (ho : s.owners[i]? = some o)
    (hid : o.request.assignmentId = id) : o.expiresAt ≤ s.clock.wall := by
  rcases hok.history i o ho with hover | ⟨last, hlast, -⟩
  · exact hover
  · rw [hid, hfree] at hlast
    cases hlast

theorem RegistryOK.reserve {r : PrepareRequest} (started : Reading)
    (hsession : s.sessionAuthenticated = true) (hroom : r.roomId ∈ s.rooms)
    (hfree : s.history.get r.assignmentId = none) : RegistryOK (s.reserve r started) := by
  have hnew : ∀ {i : Nat} {o : SourceOwner}, (s.reserve r started).owners[i]? = some o →
      s.owners[i]? = some o ∨ i = s.owners.length ∧ o.request = r ∧ o.expiresAt = r.expiresAt := by
    intro i o ho
    rcases Nat.lt_or_ge i s.owners.length with hlt | hge
    · exact .inl ((getElem?_append_left hlt).symm.trans ho)
    · have hlast := (getElem?_append_right hge).symm.trans ho
      have hlt : i - s.owners.length < 1 := (List.getElem?_eq_some_iff.mp hlast).1
      have heq : i = s.owners.length := by omega
      rw [heq, Nat.sub_self] at hlast
      cases hlast
      exact .inr ⟨heq, rfl, rfl⟩
  refine ⟨?_, hok.session, ?_, ?_, ?_, ?_⟩
  · intro i hi
    obtain rfl : s.owners.length = i := source.inj hi
    show s.owners.length < (s.owners ++ [_]).length
    simp
  · intro hphase
    have honline := hok.session hsession
    rcases hphase with hphase | hphase <;> cases honline.symm.trans hphase
  · intro i o hi ho
    obtain rfl : s.owners.length = i := source.inj hi
    rcases hnew ho with hold | ⟨-, hrequest, -⟩
    · have := (List.getElem?_eq_some_iff.mp hold).1
      omega
    · exact .inl (show o.request.roomId ∈ s.rooms by rw [hrequest]; exact hroom)
  · intro i o ho
    show o.expiresAt ≤ s.clock.wall ∨ ∃ last, (s.history.set r.assignmentId r.expiresAt).get _ = _ ∧ _
    rcases hnew ho with hold | ⟨-, hrequest, hexpires⟩
    · by_cases hid : o.request.assignmentId = r.assignmentId
      · exact .inl (hok.over_of_forgotten hfree hold hid)
      · rw [get_set_of_ne _ _ hid]
        exact hok.history i o hold
    · rw [hrequest, hexpires, get_set_self]
      exact .inr ⟨_, rfl, le_refl _⟩
  · intro i o hi ho last hlast
    obtain rfl : s.owners.length = i := source.inj hi
    rcases hnew ho with hold | ⟨-, hrequest, hexpires⟩
    · have := (List.getElem?_eq_some_iff.mp hold).1
      omega
    · have hset : (s.history.set r.assignmentId r.expiresAt).get o.request.assignmentId = some last :=
        hlast
      rw [hrequest, get_set_self] at hset
      rw [hexpires]
      exact (some.inj hset).symm

end

theorem prepare_cases (r : PrepareRequest) (now : Int) (admissible : Bool) (started t : Reading) :
    s.prepare r now admissible started t = s
    ∨ s.prepare r now admissible started t = { s with clock := t }
    ∨ s.prepare r now admissible started t = ({ s with clock := t } : AssignmentRegistry).purgeHistory t.wall
    ∨ s.sessionAuthenticated = true ∧ r.roomId ∈ s.rooms ∧ s.slot = .free
      ∧ (({ s with clock := t } : AssignmentRegistry).purgeHistory t.wall).history.get r.assignmentId
        = none
      ∧ s.prepare r now admissible started t
        = (({ s with clock := t } : AssignmentRegistry).purgeHistory t.wall).reserve r started := by
  rw [prepare]
  split
  · exact .inl rfl
  · dsimp only
    split
    · exact .inr (.inl rfl)
    · split
      · next hgo =>
          obtain ⟨hsession, hroom, hslot, -, hhistory, -⟩ := hgo
          exact .inr (.inr (.inr ⟨hsession, hroom, hslot, hhistory, rfl⟩))
      · exact .inr (.inr (.inl rfl))

theorem RegistryOK.prepare (hok : RegistryOK s) (r : PrepareRequest) (now : Int)
    (admissible : Bool) (started : Reading) {t : Reading} (ht : s.clock.wall ≤ t.wall) :
    RegistryOK (s.prepare r now admissible started t) := by
  have hlook := hok.look ht
  rcases s.prepare_cases r now admissible started t with h | h | h | ⟨hs, hroom, -, hfree, h⟩ <;> rw [h]
  · exact hok
  · exact hlook
  · exact hlook.purge
  · exact hlook.purge.reserve started hs hroom hfree

theorem renewAssignment_cases (m : AssignmentName) (expiresAt now : Int) (t : Reading) :
    s.renewAssignment m expiresAt now t = { s with clock := t }
    ∨ ∃ i o, s.current = some (i, o) ∧ o.request.assignmentId = m.assignmentId
      ∧ o.done = false ∧ s.sessionAuthenticated = true ∧ o.state.terminal = false
      ∧ o.expiresAt ≤ expiresAt ∧ t.mono < o.deadline ∧ t.wall < expiresAt
      ∧ s.renewAssignment m expiresAt now t
        = ({ s with clock := t } : AssignmentRegistry).grantRenewal i m.assignmentId expiresAt t := by
  rw [renewAssignment]
  split
  · exact .inl rfl
  · next i o hcurrent =>
      split
      · exact .inl rfl
      · next hnamed =>
          split
          · exact .inl rfl
          · next hactive =>
              split
              · exact .inl rfl
              · next htime =>
                  split
                  · exact .inl rfl
                  · simp only [not_or, Bool.not_eq_true, Bool.not_eq_false, not_le, not_lt]
                      at hnamed hactive htime
                    obtain ⟨-, -, hname, -⟩ := hnamed
                    obtain ⟨hdone, hsession, hterminal, hle⟩ := hactive
                    obtain ⟨hmono, hwall, -⟩ := htime
                    simp only [named, decide_eq_true_eq] at hname
                    exact .inr ⟨i, o, hcurrent, hname.1, hdone, hsession, hterminal, hle, hmono,
                      hwall, rfl⟩

theorem grantRenewal_owner (i : Nat) (id : String) (expiresAt : Int) (t : Reading) {j : Nat}
    (ho : s.owners[j]? = some o) :
    (s.grantRenewal i id expiresAt t).owners[j]?
      = some (if i = j then { o with expiresAt := expiresAt, deadline := t.deadline expiresAt }
        else o) := by
  show (s.owners.modify i _)[j]? = _
  rw [getElem?_modify, ho]
  by_cases hij : i = j <;> simp [hij]

theorem RegistryOK.renewal (hok : RegistryOK s) {expiresAt : Int}
    (t : Reading) (hcurrent : s.current = some (i, o)) (hle : o.expiresAt ≤ expiresAt) :
    RegistryOK (s.grantRenewal i o.request.assignmentId expiresAt t) := by
  obtain ⟨hslot, ho⟩ := current_eq_some.mp hcurrent
  have hback : ∀ {j : Nat} {o' : SourceOwner},
      (s.grantRenewal i o.request.assignmentId expiresAt t).owners[j]? = some o' →
      ∃ o₀, s.owners[j]? = some o₀ ∧ o'.request = o₀.request ∧ o'.done = o₀.done
        ∧ (i = j → o'.expiresAt = expiresAt) ∧ (i ≠ j → o' = o₀) := by
    intro j o' ho'
    have hlt : j < s.owners.length := by
      have := (List.getElem?_eq_some_iff.mp ho').1
      rwa [grantRenewal, modifyOwner, length_modify] at this
    have hnew := s.grantRenewal_owner i o.request.assignmentId expiresAt t (getElem?_eq_getElem hlt)
    cases hnew.symm.trans ho'
    refine ⟨_, getElem?_eq_getElem hlt, ?_, ?_, fun h => ?_, fun h => if_neg h⟩
    · split <;> rfl
    · split <;> rfl
    · rw [if_pos h]
  refine ⟨?_, hok.session, hok.fresh, ?_, ?_, ?_⟩
  · intro j hj
    show j < (s.owners.modify i _).length
    rw [length_modify]
    exact hok.indexed j hj
  · intro j o' hj ho'
    obtain ⟨o₀, ho₀, hrequest, hdone, -, -⟩ := hback ho'
    rw [hrequest, hdone]
    exact hok.rooms j o₀ hj ho₀
  · intro j o' ho'
    obtain ⟨o₀, ho₀, hrequest, -, hrenewed, hother⟩ := hback ho'
    show o'.expiresAt ≤ s.clock.wall
      ∨ ∃ last, (s.history.set o.request.assignmentId expiresAt).get _ = _ ∧ _
    by_cases hid : o₀.request.assignmentId = o.request.assignmentId
    · rw [hrequest, hid, get_set_self]
      by_cases hij : i = j
      · exact .inr ⟨_, rfl, le_of_eq (hrenewed hij)⟩
      · -- an older owner of the same id: its lease is over, or not past the one that is renewed
        rw [hother hij]
        rcases hok.history j o₀ ho₀ with hover | ⟨last, hlast, hbefore⟩
        · exact .inl hover
        · rw [hid] at hlast
          have := hok.leased i o hslot ho last hlast
          exact .inr ⟨_, rfl, by omega⟩
    · have hij : i ≠ j := by
        rintro rfl
        exact hid (by rw [some.inj (ho₀.symm.trans ho)])
      rw [hother hij, get_set_of_ne _ _ hid]
      exact hok.history j o₀ ho₀
  · intro j o' hj ho' last hlast
    obtain ⟨o₀, ho₀, hrequest, -, hrenewed, -⟩ := hback ho'
    have hij : i = j := source.inj (hslot.symm.trans hj)
    have hset : (s.history.set o.request.assignmentId expiresAt).get o'.request.assignmentId
        = some last := hlast
    have hsame : o₀ = o := by
      rw [← hij] at ho₀
      exact some.inj (ho₀.symm.trans ho)
    rw [hrequest, hsame, get_set_self] at hset
    rw [hrenewed hij]
    exact (some.inj hset).symm

theorem RegistryOK.renewAssignment (hok : RegistryOK s) (m : AssignmentName) (expiresAt now : Int)
    {t : Reading} (ht : s.clock.wall ≤ t.wall) :
    RegistryOK (s.renewAssignment m expiresAt now t) := by
  rcases s.renewAssignment_cases m expiresAt now t with h | ⟨i, o, hcurrent, hid, -, -, -, hle, -, -, h⟩
  · rw [h]
    exact hok.look ht
  · rw [h, ← hid]
    exact (hok.look ht).renewal t hcurrent hle

/-- One step of a timely run keeps the invariant. -/
theorem RegistryOK.next (hok : RegistryOK s) (e : AuthorityEvent)
    (ht : ∀ t ∈ e.reading?, s.clock.wall ≤ t.wall) : RegistryOK (s.next e) := by
  have hsame : ∀ s' : AssignmentRegistry, s'.owners = s.owners →
      (∀ i, s'.slot = .source i → s.slot = .source i) → s'.history = s.history →
      s'.clock = s.clock → s'.rooms = s.rooms →
      (s'.sessionAuthenticated = true → s'.phase = .online true) →
      (s'.phase = .offline ∨ s'.phase = .online false → ∀ i, s'.slot ≠ .source i) →
      RegistryOK s' := by
    intro s' howners hslot hhistory hclock hrooms hsession hfresh
    refine hok.calm (.of_same howners hslot hhistory) hclock hsession hfresh ?_
    intro i o o' _ _ _ hkept hbefore
    rw [hrooms, hkept.request]
    exact hbefore.imp_right hkept.done
  cases e with
  | connect =>
      rw [AssignmentRegistry.next]
      split
      · next hphase =>
          exact hsame _ rfl (fun _ h => h) rfl rfl rfl (fun h => by cases h)
            fun _ => hok.fresh (.inl hphase)
      · exact hok
  | authenticate =>
      rw [AssignmentRegistry.next]
      split
      · exact hsame _ rfl (fun _ h => h) rfl rfl rfl (fun _ => rfl)
          (fun h => by rcases h with h | h <;> cases h)
      · exact hok
  | revokeSession =>
      exact hsame _ rfl (fun _ h => h) rfl rfl rfl (fun h => by cases h) hok.fresh
  | fence => exact hok.still fence_calm fence_still
  | disconnect =>
      rw [AssignmentRegistry.next]
      split
      · exact hok
      · exact hsame _ rfl (fun _ h => h) rfl rfl rfl (fun h => by cases h)
          (fun h => by rcases h with h | h <;> cases h)
  | closeAssignmentMedia =>
      rw [AssignmentRegistry.next]
      split
      · next hphase =>
          refine hsame _ rfl (fun _ h => by cases h) rfl rfl rfl (fun h => ?_)
            (fun _ _ h => by cases h)
          have := hok.session h
          rw [hphase] at this
          cases this
      · exact hok
  | setConsentedRooms rooms => exact hok.setConsentedRooms rooms
  | prepare r now admissible started t => exact hok.prepare r now admissible started (ht t rfl)
  | prepareLegacy =>
      rw [AssignmentRegistry.next]
      split
      · exact hsame _ rfl (fun _ h => by cases h) rfl rfl rfl hok.session (fun _ _ h => by cases h)
      · exact hok
  | endLegacy =>
      rw [AssignmentRegistry.next]
      split
      · exact hsame _ rfl (fun _ h => by cases h) rfl rfl rfl hok.session (fun _ _ h => by cases h)
      · exact hok
  | renew m expiresAt now t => exact hok.renewAssignment m expiresAt now (ht t rfl)
  | stop m => exact hok.still (stopAssignment_calm m) (stopAssignment_still m)
  | expire now => exact hok.still (expireAssignment_calm now) (expireAssignment_still now)
  | drain => exact hok.still drain_calm drain_still
  | transition i state => exact hok.still (transition_calm i state) (transition_still i state)
  | fail i => exact hok.still (fail_calm i) (fail_still i)
  | cancel i => exact hok.still (cancel_calm i) ⟨rfl, rfl, rfl, rfl⟩
  | constructionFailed i =>
      exact hok.still (constructionFailed_calm i) (constructionFailed_still i)
  | look t => exact hok.look (ht t rfl)

/-! ## Lost authority -/

/-- The owner can no longer be permitted. -/
structure Lost (s : AssignmentRegistry) (i : Nat) (o : SourceOwner) : Prop where
  owner : s.owners[i]? = some o
  cause : o.done = true ∨ s.slot ≠ .source i ∨ o.state.terminal = true
    ∨ o.deadline ≤ s.clock.mono ∨ o.expiresAt ≤ s.clock.wall ∨ s.sessionAuthenticated = false

theorem permitted_eq_true : s.permitted i = true ↔ ∃ o, s.owners[i]? = some o
    ∧ o.done = false ∧ s.sessionAuthenticated = true ∧ o.request.roomId ∈ s.rooms
    ∧ s.slot = .source i ∧ o.state.terminal = false ∧ s.clock.wall < o.expiresAt
    ∧ s.clock.mono < o.deadline := by
  rw [permitted]
  cases ho : s.owners[i]? with
  | none => simp
  | some o => simp [and_assoc]

/-- An owner that is not permitted is lost: a withdrawn room has cancelled it. -/
theorem RegistryOK.lost (hok : RegistryOK s)
    (ho : s.owners[i]? = some o) (hp : s.permitted i = false) : Lost s i o := by
  refine ⟨ho, ?_⟩
  by_contra hc
  simp only [not_or, not_not, Bool.not_eq_true, Bool.not_eq_false, not_le] at hc
  obtain ⟨hdone, hslot, hterminal, hmono, hwall, hsession⟩ := hc
  rcases hok.rooms i o hslot ho with hroom | hcancelled
  · have := permitted_eq_true.mpr ⟨o, ho, hdone, hsession, hroom, hslot, hterminal, hwall, hmono⟩
    rw [hp] at this
    cases this
  · rw [hdone] at hcancelled
    cases hcancelled

theorem Lost.not_permitted (h : Lost s i o) : s.permitted i = false := by
  by_contra hp
  obtain ⟨o', ho', hdone, hsession, -, hslot, hterminal, hwall, hmono⟩ :=
    permitted_eq_true.mp (by simpa using hp)
  cases h.owner.symm.trans ho'
  rcases h.cause with hc | hc | hc | hc | hc | hc
  · rw [hdone] at hc
    cases hc
  · exact hc hslot
  · rw [hterminal] at hc
    cases hc
  · omega
  · omega
  · rw [hsession] at hc
    cases hc

theorem Lost.calm (h : Lost s i o) (hcalm : Calm s s') (hclock : s'.clock = s.clock)
    (hsession : s'.sessionAuthenticated = true → s.sessionAuthenticated = true) :
    ∃ o', Lost s' i o' := by
  obtain ⟨o', ho', hkept⟩ := hcalm.kept i o h.owner
  refine ⟨o', ho', ?_⟩
  rcases h.cause with hc | hc | hc | hc | hc | hc
  · exact .inl (hkept.done hc)
  · exact .inr (.inl fun hs => hc (hcalm.slot i hs))
  · exact .inr (.inr (.inl (hkept.terminal hc)))
  · rw [hclock, hkept.deadline]
    exact .inr (.inr (.inr (.inl hc)))
  · rw [hclock, hkept.expiresAt]
    exact .inr (.inr (.inr (.inr (.inl hc))))
  · right; right; right; right; right
    cases hs : s'.sessionAuthenticated with
    | false => rfl
    | true =>
        rw [hsession hs] at hc
        cases hc

theorem Lost.still (h : Lost s i o)
    (hcalm : Calm s s') (hstill : Still s s') : ∃ o', Lost s' i o' :=
  h.calm hcalm hstill.clock fun hs => hstill.session.symm.trans hs

theorem Lost.look (h : Lost s i o) (hwall : s.clock.wall ≤ t.wall) (hmono : s.clock.mono ≤ t.mono) :
    Lost { s with clock := t } i o := by
  refine ⟨h.owner, ?_⟩
  rcases h.cause with hc | hc | hc | hc | hc | hc
  · exact .inl hc
  · exact .inr (.inl hc)
  · exact .inr (.inr (.inl hc))
  · exact .inr (.inr (.inr (.inl (le_trans hc hmono))))
  · exact .inr (.inr (.inr (.inr (.inl (le_trans hc hwall)))))
  · exact .inr (.inr (.inr (.inr (.inr hc))))

theorem prepare_owner (r : PrepareRequest) (now : Int) (admissible : Bool) (started t : Reading)
    (ho : s.owners[i]? = some o) :
    (s.prepare r now admissible started t).owners[i]? = some o := by
  rcases s.prepare_cases r now admissible started t with h | h | h | ⟨-, -, -, -, h⟩ <;> rw [h]
  · exact ho
  · exact ho
  · exact ho
  · exact (List.getElem?_append_left (List.getElem?_eq_some_iff.mp ho).1).trans ho

theorem Lost.prepare {i : Nat} {o : SourceOwner} (h : Lost s i o) (r : PrepareRequest) (now : Int)
    (admissible : Bool) (started : Reading) {t : Reading} (hwall : s.clock.wall ≤ t.wall)
    (hmono : s.clock.mono ≤ t.mono) : Lost (s.prepare r now admissible started t) i o := by
  have hlook := h.look hwall hmono
  have hlt := (List.getElem?_eq_some_iff.mp h.owner).1
  rcases s.prepare_cases r now admissible started t with hp | hp | hp | ⟨-, -, hfree, -, hp⟩ <;> rw [hp]
  · exact h
  · exact hlook
  · exact ⟨hlook.owner, hlook.cause⟩
  · refine ⟨(List.getElem?_append_left hlt).trans h.owner, .inr (.inl fun hs => ?_)⟩
    have : s.owners.length = i := source.inj hs
    omega

/-- Only the owner in the slot is renewed, and not after one of its times. -/
theorem Lost.renew (h : Lost s i o) (m : AssignmentName)
    (expiresAt now : Int) (hwall : s.clock.wall ≤ t.wall)
    (hmono : s.clock.mono ≤ t.mono) (hruns : ∀ io ∈ s.current, t.wall < io.2.expiresAt) :
    ∃ o', Lost (s.renewAssignment m expiresAt now t) i o' := by
  have hlook := h.look hwall hmono
  rcases s.renewAssignment_cases m expiresAt now t with hr
    | ⟨j, oj, hcurrent, -, hdone, hsession, hterminal, -, hdeadline, -, hr⟩
  · exact ⟨o, hr ▸ hlook⟩
  · rw [hr]
    obtain ⟨hslot, hoj⟩ := current_eq_some.mp hcurrent
    by_cases hij : j = i
    · subst hij
      cases h.owner.symm.trans hoj
      have hbefore := hruns _ hcurrent
      dsimp only at hbefore
      rcases h.cause with hc | hc | hc | hc | hc | hc
      · rw [hdone] at hc
        cases hc
      · exact absurd hslot hc
      · rw [hterminal] at hc
        cases hc
      · omega
      · omega
      · rw [hsession] at hc
        cases hc
    · have hsame := ({ s with clock := t } : AssignmentRegistry).grantRenewal_owner j m.assignmentId
        expiresAt t hlook.owner
      rw [if_neg hij] at hsame
      refine ⟨o, hsame, .inr (.inl ?_)⟩
      rintro (hs : s.slot = .source i)
      exact hij (source.inj (hslot.symm.trans hs))

/-- **Lost authority stays lost** across one timely step. -/
theorem Lost.next {i : Nat} {o : SourceOwner} (h : Lost s i o) (hok : RegistryOK s)
    (e : AuthorityEvent) (hmono : ∀ t ∈ e.reading?, s.clock.mono ≤ t.mono) (htimely : Timely s e) :
    ∃ o', Lost (s.next e) i o' := by
  have hsame : ∀ s' : AssignmentRegistry, s'.owners = s.owners →
      (∀ i, s'.slot = .source i → s.slot = .source i) → s'.history = s.history →
      s'.clock = s.clock → (s'.sessionAuthenticated = true → s.sessionAuthenticated = true) →
      ∃ o', Lost s' i o' :=
    fun _ howners hslot hhistory hclock hsession =>
      h.calm (.of_same howners hslot hhistory) hclock hsession
  obtain ⟨hwall, hcondition⟩ := htimely
  cases e with
  | connect =>
      rw [AssignmentRegistry.next]
      split
      · exact hsame _ rfl (fun _ h => h) rfl rfl (fun h => by cases h)
      · exact ⟨o, h⟩
  | authenticate =>
      rw [AssignmentRegistry.next]
      split
      · next hphase =>
          -- before the response of a connection no source program is in the slot
          refine ⟨o, h.owner, .inr (.inl ?_)⟩
          exact hok.fresh (.inr hphase) i
      · exact ⟨o, h⟩
  | revokeSession => exact hsame _ rfl (fun _ h => h) rfl rfl (fun h => by cases h)
  | fence => exact h.still fence_calm fence_still
  | disconnect =>
      rw [AssignmentRegistry.next]
      split
      · exact ⟨o, h⟩
      · exact hsame _ rfl (fun _ h => h) rfl rfl (fun h => by cases h)
  | closeAssignmentMedia =>
      rw [AssignmentRegistry.next]
      split
      · exact hsame _ rfl (fun _ h => by cases h) rfl rfl id
      · exact ⟨o, h⟩
  | setConsentedRooms rooms =>
      refine h.calm (setConsentedRooms_calm rooms) ?_ ?_
      · rw [AssignmentRegistry.next, AssignmentRegistry.setConsentedRooms]
        split
        · split
          · rfl
          · exact (fence_still (s := { s with rooms := rooms })).clock
        · rfl
      · rw [AssignmentRegistry.next, AssignmentRegistry.setConsentedRooms]
        split
        · split
          · exact id
          · rw [(fence_still (s := { s with rooms := rooms })).session]
            exact id
        · exact id
  | prepare r now admissible started t =>
      exact ⟨o, h.prepare r now admissible started (hwall t rfl) (hmono t rfl)⟩
  | prepareLegacy =>
      rw [AssignmentRegistry.next]
      split
      · exact hsame _ rfl (fun _ h => by cases h) rfl rfl id
      · exact ⟨o, h⟩
  | endLegacy =>
      rw [AssignmentRegistry.next]
      split
      · exact hsame _ rfl (fun _ h => by cases h) rfl rfl id
      · exact ⟨o, h⟩
  | renew m expiresAt now t => exact h.renew m expiresAt now (hwall t rfl) (hmono t rfl) hcondition
  | stop m => exact h.still (stopAssignment_calm m) (stopAssignment_still m)
  | expire now => exact h.still (expireAssignment_calm now) (expireAssignment_still now)
  | drain => exact h.still drain_calm drain_still
  | transition j state => exact h.still (transition_calm j state) (transition_still j state)
  | fail j => exact h.still (fail_calm j) (fail_still j)
  | cancel j => exact h.still (cancel_calm j) ⟨rfl, rfl, rfl, rfl⟩
  | constructionFailed j =>
      exact h.still (constructionFailed_calm j) (constructionFailed_still j)
  | look t => exact ⟨o, h.look (hwall t rfl) (hmono t rfl)⟩

/-! ## Runs -/

theorem RegistryOK.run {es : List AuthorityEvent} (hok : RegistryOK s)
    (hrun : Path (Guarded Step Timely) s es s') : RegistryOK s' := by
  refine hrun.inv (I := RegistryOK) ?_ hok
  rintro s e t ⟨⟨-, rfl⟩, hwall, -⟩ hs
  exact hs.next e hwall

theorem Lost.run {es : List AuthorityEvent}
    (h : Lost s i o) (hok : RegistryOK s) (hrun : Path (Guarded Step Timely) s es s') :
    ∃ o', Lost s' i o' := by
  refine (hrun.inv (I := fun x => RegistryOK x ∧ ∃ o', Lost x i o') ?_ ⟨hok, o, h⟩).2
  rintro s e t ⟨⟨hmono, rfl⟩, htimely⟩ ⟨hs, o', hlost⟩
  exact ⟨hs.next e htimely.1, hlost.next hs e hmono htimely⟩

theorem permitted_slot (h : s.permitted i = true) : s.slot = .source i := by
  obtain ⟨o, -, -, -, -, hslot, -⟩ := permitted_eq_true.mp h
  exact hslot

/-- A renewal never shortens a lease, and is refused from the deadline on. -/
theorem renewAssignment_owner (m : AssignmentName) (expiresAt now : Int) (t : Reading)
    (ho : s.owners[i]? = some o) :
    ∃ o', (s.renewAssignment m expiresAt now t).owners[i]? = some o' ∧ o.expiresAt ≤ o'.expiresAt
      ∧ (o.deadline ≤ t.mono → o' = o) := by
  rcases s.renewAssignment_cases m expiresAt now t with hr
    | ⟨j, oj, hcurrent, -, -, -, -, hle, hdeadline, -, hr⟩
  · rw [hr]
    exact ⟨o, ho, le_refl _, fun _ => rfl⟩
  · rw [hr]
    obtain ⟨-, hoj⟩ := current_eq_some.mp hcurrent
    have hnew := ({ s with clock := t } : AssignmentRegistry).grantRenewal_owner j m.assignmentId
      expiresAt t ho
    by_cases hij : j = i
    · subst hij
      cases hoj.symm.trans ho
      rw [if_pos rfl] at hnew
      exact ⟨_, hnew, hle, fun hlate => absurd hdeadline (by omega)⟩
    · rw [if_neg hij] at hnew
      exact ⟨o, hnew, le_refl _, fun _ => rfl⟩

/-- An id is reserved again only when every lease it had has run out. -/
theorem RegistryOK.prepare_new (hok : RegistryOK s) (r : PrepareRequest) (now : Int)
    (admissible : Bool) (started : Reading) (ht : s.clock.wall ≤ t.wall)
    (hnew : (s.prepare r now admissible started t).owners ≠ s.owners)
    (ho : s.owners[i]? = some o) (hid : o.request.assignmentId = r.assignmentId) :
    o.expiresAt ≤ t.wall := by
  rcases s.prepare_cases r now admissible started t with h | h | h | ⟨-, -, -, hfree, -⟩
  · exact absurd (congrArg owners h) hnew
  · exact absurd (congrArg owners h) hnew
  · exact absurd (congrArg owners h) hnew
  · exact (hok.look ht).purge.over_of_forgotten hfree ho hid

def sampleRequest : PrepareRequest :=
  ⟨"asn_aaaaaaaaaaaaaaaa", "room", 1, 1, 2000, ""⟩

def sampleName : AssignmentName := ⟨"asn_aaaaaaaaaaaaaaaa", 1, 1⟩

/-- Nine tenths of a millisecond after wall time 1000. -/
def samplePrepared : List AuthorityEvent :=
  [.connect, .authenticate, .setConsentedRooms ["room"],
    .prepare sampleRequest 1000 true ⟨1000, 1000900000⟩ ⟨1000, 1000900000⟩]

theorem samplePrepared_run : Path (Guarded Step Timely) start samplePrepared
    (samplePrepared.foldl next start) := by
  refine .cons ⟨⟨?_, rfl⟩, ?_, trivial⟩ (.cons ⟨⟨?_, rfl⟩, ?_, trivial⟩
    (.cons ⟨⟨?_, rfl⟩, ?_, trivial⟩ (.cons ⟨⟨?_, rfl⟩, ?_, trivial⟩ (.nil _))))
  all_goals
    intro t ht
    cases ht
    try decide

end AssignmentRegistry

end Packager

end WebrtcMinimize
