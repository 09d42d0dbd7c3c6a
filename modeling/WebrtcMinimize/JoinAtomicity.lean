import WebrtcMinimize.BreakoutAtomicity
import WebrtcMinimize.RoomReservations

/-!
# Joins that are refused

A join uses up the grant of a child room before its last checks. What it was refused
for then leaves the rooms as they are, but not the grant: a room that is made for the
join passes every check, and the rooms that are there are not touched.
-/

namespace WebrtcMinimize

open Checks Runs

namespace Rooms

open Breakout

namespace RoomRegistry

open BreakoutRegistry KeyedMap Option
open List hiding after

variable {r : RoomRegistry} {roomId : String} {admission : Admission} {now : Nat}

/-! ## Calls of the breakout registry -/

/-- The call of the breakout registry that a join makes, if there is one. -/
theorem join_breakouts {name peerId : String} : ∃ calls : List RegistryCall,
    (r.join roomId name now admission peerId).1.breakouts = calls.foldl after r.breakouts := by
  rw [join]
  cases htake : r.takeGrant roomId admission now with
  | error code => exact ⟨[], rfl⟩
  | ok taken =>
      obtain ⟨b, reserved⟩ := taken
      have hb : ∃ calls : List RegistryCall, b = calls.foldl after r.breakouts := by
        rw [takeGrant] at htake
        split at htake
        · simp only [bind_ok_iff] at htake
          obtain ⟨-, -, -, -, res, -, hok⟩ := htake
          cases hok
          exact ⟨[.consume roomId admission.breakoutSetId admission.principal
            admission.deviceFingerprint now], rfl⟩
        · simp only [bind_ok_iff] at htake
          obtain ⟨-, -, -, -, hok⟩ := htake
          cases hok
          exact ⟨[], rfl⟩
      dsimp only
      split
      · exact hb
      · split <;> exact hb

theorem onBreakouts_breakouts {α : Type} {actor : Handle}
    {call : Room → Peer → BreakoutRegistry × Except String α}
    (h : ∀ room peer, ∃ c : RegistryCall, (call room peer).1 = r.breakouts.after c) :
    ∃ calls : List RegistryCall, (r.onBreakouts actor call).1.breakouts
      = calls.foldl after r.breakouts := by
  rw [onBreakouts]
  split
  · exact ⟨[], rfl⟩
  · rename_i room peer _
    obtain ⟨c, hc⟩ := h room peer
    exact ⟨[c], hc⟩

theorem closeBreakouts_breakouts {parentRoomId : String} :
    (r.closeBreakouts parentRoomId).1.breakouts = r.breakouts.after (.closeSet parentRoomId) := by
  rw [closeBreakouts, after]
  split
  · rename_i heq
    rw [heq]
    rfl
  · rename_i heq
    rw [heq]

theorem foldl_closeBreakouts_breakouts : ∀ (parents : List String) (r : RoomRegistry),
    (parents.foldl (fun r parentRoomId => (r.closeBreakouts parentRoomId).1) r).breakouts
      = (parents.map RegistryCall.closeSet).foldl after r.breakouts
  | [], _ => rfl
  | parent :: parents, r => by
      rw [foldl_cons, foldl_closeBreakouts_breakouts parents, closeBreakouts_breakouts,
        map_cons, foldl_cons]

theorem breakouts_after (r : RoomRegistry) (e : Event) : ∃ calls : List RegistryCall,
    (r.next e).breakouts = calls.foldl after r.breakouts := by
  rw [next]
  split
  · exact join_breakouts
  · rename_i handle _
    exact ⟨[], leave_breakouts handle⟩
  · rename_i handle media _
    exact ⟨[], setMediaState_breakouts handle media⟩
  · exact onBreakouts_breakouts fun _ _ => ⟨.openSet _ _ _, rfl⟩
  · exact onBreakouts_breakouts fun _ _ => ⟨.assigning (.assign _ _ _ _ _ _ _ _), rfl⟩
  · exact onBreakouts_breakouts fun _ _ => ⟨.revoke _ _ _ _, rfl⟩
  · exact onBreakouts_breakouts fun _ _ => ⟨.assigning (.assignBalanced _ _ _ _ _ _ _), rfl⟩
  · exact onBreakouts_breakouts fun _ _ => ⟨.assigning (.assignVoluntary _ _ _ _ _ _ _), rfl⟩
  · exact onBreakouts_breakouts fun _ _ => ⟨.assigning (.resolveAssignment _ _ _ _ _ _ _), rfl⟩
  · rename_i parentRoomId _
    exact ⟨[.closeSet parentRoomId], closeBreakouts_breakouts⟩
  · exact ⟨_, foldl_closeBreakouts_breakouts _ r⟩

theorem orderly_run {limits : Limits} {attached : Bool} {es : List Event}
    (h : Path Step (start limits attached) es r) : Breakout.Orderly r.breakouts := by
  refine h.inv (I := fun r => Breakout.Orderly r.breakouts) ?_ orderly_empty
  rintro s e _ ⟨rfl, -⟩ hold
  obtain ⟨calls, heq⟩ := breakouts_after s e
  rw [heq]
  exact hold.run calls

/-! ## Rooms -/

theorem put_self {κ ν : Type} [DecidableEq κ] {k : κ} {v : ν} : ∀ {es : List (κ × ν)},
    es.lookup k = some v → put k v es = es
  | [], h => by cases h
  | (l, w) :: es, h => by
      rw [lookup_entry] at h
      rw [put]
      split at h
      · rename_i heq
        cases h
        rw [if_pos heq.symm, heq]
      · rename_i hne
        rw [if_neg (Ne.symm hne), put_self h]

theorem set_self {κ ν : Type} [DecidableEq κ] {m : KeyedMap κ ν} {k : κ} {v : ν}
    (h : m.get k = some v) : m.set k v = m := by
  rw [KeyedMap.set]
  congr
  exact put_self h

variable {reserved : Option Reserved}

theorem capacityFor_pos (h : Breakout.Orderly r.breakouts)
    (hreserved : ∀ res ∈ reserved, r.breakouts.reserved roomId = some res) :
    0 < r.capacityFor admission reserved := by
  unfold capacityFor
  split
  · rename_i res
    obtain ⟨-, set, hset, hchild, -⟩ := reserved_some (hreserved res rfl)
    exact Nat.lt_of_lt_of_le (by decide) ((h _ _ hset).capacity res.child hchild).1
  · split
    · exact Nat.two_pos
    · exact Nat.lt_of_lt_of_le (by decide) r.limits.bounded.1

theorem checkRoom_new (hpos : 0 < r.capacityFor admission reserved)
    (hmode : checkMode admission = .ok ()) :
    r.checkRoom (r.newRoom admission reserved now) admission reserved = .ok () := by
  simp only [checkMode, bind_ok_iff, failIf_ok_iff] at hmode
  have hempty : (empty : KeyedMap String Peer).values = [] := rfl
  rw [checkRoom, failIf_of_not _ (by simp [newRoom]), ok_bind]
  rw [failIf_of_not, ok_bind, failIf_of_not, ok_bind, failIf_of_not, ok_bind, failIf_of_not]
  · exact Nat.not_le.mpr hpos
  · simp [newRoom, hempty]
  · tauto
  · cases reserved <;> simp [newRoom]

/-- A join that is refused for its room leaves the rooms as they were. -/
theorem rooms_of_refused (hpos : 0 < r.capacityFor admission reserved)
    (hmode : checkMode admission = .ok ()) {code : String}
    (h : r.checkRoom (r.openRoom roomId admission reserved now) admission reserved = .error code) :
    r.rooms.set roomId (r.openRoom roomId admission reserved now) = r.rooms := by
  cases hroom : r.rooms.get roomId with
  | none =>
      rw [openRoom, hroom, getD_none, checkRoom_new hpos hmode] at h
      cases h
  | some room =>
      rw [openRoom, hroom, getD_some]
      exact set_self hroom

/-! ## Grants -/

theorem useFirst_eq_iff {p : Grant → Bool} (hunused : ∀ grant, p grant = true →
    grant.consumedAt = 0) : ∀ {grants : List Grant}, grants.any p = true →
      (useFirst p now grants = grants ↔ now = 0)
  | [], h => by cases h
  | grant :: grants, h => by
      rw [useFirst]
      split
      · rename_i hp
        constructor
        · intro heq
          have hsame := congrArg Grant.consumedAt (cons.inj heq).1
          exact hsame.trans (hunused grant hp)
        · rintro rfl
          rw [← hunused grant hp]
      · rename_i hp
        rw [any_cons, Bool.or_eq_true] at h
        rw [cons_inj_right]
        exact useFirst_eq_iff hunused (h.resolve_left hp)

variable {b : BreakoutRegistry}

theorem consumed_eq_iff {b' : BreakoutRegistry} {principal deviceFingerprint : String}
    {reserved : Reserved}
    (h : BreakoutRegistry.Consumed b b' roomId principal deviceFingerprint now reserved) :
    b' = b ↔ now = 0 := by
  obtain ⟨set, p, hset, hany, hp, rfl⟩ := h.used
  have hunused : ∀ grant, p grant = true → grant.consumedAt = 0 := fun grant hgrant =>
    (of_decide_eq_true (hp grant hgrant).1).1
  rw [← useFirst_eq_iff hunused hany]
  constructor
  · intro heq
    have hsame : (b.sets.set reserved.parentRoomId (set.used p now)).get reserved.parentRoomId
        = b.sets.get reserved.parentRoomId :=
      congrArg (fun c => (sets c).get reserved.parentRoomId) heq
    rw [get_set, if_pos rfl, hset] at hsame
    exact congrArg BreakoutSet.grants (some.inj hsame)
  · intro heq
    rw [BreakoutSet.used, heq]
    exact congrArg (fun sets => BreakoutRegistry.mk sets b.byChild) (set_self hset)

/-! ## Refusals -/

/-- A join that is refused leaves everything as it was. -/
def Traceless (r : RoomRegistry) (roomId name : String) (now : Nat) (admission : Admission)
    (peerId : String) : Prop :=
  ∀ code, (r.join roomId name now admission peerId).2 = .error code →
    (r.join roomId name now admission peerId).1 = r

/-- The join is to a child room, with a grant that admits it. -/
def TakesGrant (r : RoomRegistry) (roomId : String) (admission : Admission) (now : Nat) : Prop :=
  (r.breakouts.reserved roomId).isSome = true ∧ admission.roomMode ≠ "pair"
    ∧ r.checkSingleMembership roomId admission now = .ok ()
    ∧ ∃ taken, r.breakouts.checkConsume roomId admission.breakoutSetId admission.principal
      admission.deviceFingerprint now = .ok taken

/-- The join does not pass what is checked after the grant. -/
def RefusedLate (r : RoomRegistry) (roomId : String) (admission : Admission) (now : Nat) : Prop :=
  let reserved := r.breakouts.reserved roomId
  (∃ code, checkMode admission = .error code)
    ∨ ∃ code, r.checkRoom (r.openRoom roomId admission reserved now) admission reserved = .error code

theorem takesGrant_iff : r.TakesGrant roomId admission now ↔
    ∃ b res, r.takeGrant roomId admission now = .ok (b, some res) := by
  rw [TakesGrant, takeGrant]
  cases r.breakouts.reserved roomId with
  | none => simp [bind_ok_iff]
  | some res =>
      simp only [bind_ok_iff, failIf_ok_iff, isSome_some, true_and]
      constructor
      · rintro ⟨hpair, hsingle, taken, htaken⟩
        refine ⟨_, taken.1, (), hpair, (), hsingle, taken.1, ?_, rfl⟩
        rw [consume, htaken]
      · rintro ⟨_, _, _, hpair, _, hsingle, reserved, hconsume, -⟩
        refine ⟨hpair, hsingle, ?_⟩
        rw [consume] at hconsume
        split at hconsume
        · cases hconsume
        · rename_i heq
          exact ⟨_, heq⟩

theorem takeGrant_cases (h : r.takeGrant roomId admission now = .ok (b, reserved)) :
    r.breakouts.reserved roomId = reserved ∧ (reserved = none → b = r.breakouts) := by
  rcases (takeGrant_ok h).2 with ⟨res, rfl, hconsumed⟩ | ⟨hnone, rfl⟩
  · exact ⟨hconsumed.hreserved, fun h => by cases h⟩
  · rw [takeGrant, hnone] at h
    simp only [bind_ok_iff] at h
    obtain ⟨-, -, -, -, hok⟩ := h
    cases hok
    exact ⟨hnone, fun _ => rfl⟩

theorem withBreakouts_eq_iff : r.withBreakouts b = r ↔ b = r.breakouts :=
  ⟨fun h => congrArg RoomRegistry.breakouts h, fun h => by rw [h]; rfl⟩

theorem join_late (name peerId : String) (hpos : 0 < r.capacityFor admission reserved)
    (htake : r.takeGrant roomId admission now = .ok (b, reserved)) :
    (∀ code, (r.join roomId name now admission peerId).2 = .error code →
        (r.join roomId name now admission peerId).1 = r.withBreakouts b)
      ∧ ((∃ code, (r.join roomId name now admission peerId).2 = .error code)
        ↔ (∃ code, checkMode admission = .error code)
          ∨ ∃ code, r.checkRoom (r.openRoom roomId admission reserved now) admission reserved
            = .error code) := by
  rw [join, htake]
  cases hmode : checkMode admission with
  | error code => exact ⟨fun _ _ => rfl, iff_of_true ⟨code, rfl⟩ (.inl ⟨code, rfl⟩)⟩
  | ok _ =>
      dsimp only
      cases hroom : r.checkRoom (r.openRoom roomId admission reserved now) admission reserved with
      | error code =>
          refine ⟨fun _ _ => ?_, iff_of_true ⟨code, rfl⟩ (.inr ⟨code, rfl⟩)⟩
          rw [rooms_of_refused hpos hmode hroom]
          rfl
      | ok _ =>
          refine ⟨fun _ h => (by cases h), iff_of_false ?_ ?_⟩
          · rintro ⟨_, h⟩
            cases h
          · rintro (⟨_, h⟩ | ⟨_, h⟩) <;> cases h

/-- **Joins that are refused.** In every registry that is reached, a join that is refused
leaves everything as it was, exactly when it does not use a grant up and fail a check after. -/
theorem join_traceless_iff {limits : Limits} {attached : Bool} {es : List Event}
    (h : Path Step (start limits attached) es r) {name peerId : String} :
    r.Traceless roomId name now admission peerId
      ↔ ¬(0 < now ∧ r.TakesGrant roomId admission now ∧ r.RefusedLate roomId admission now) := by
  rw [takesGrant_iff]
  cases htake : r.takeGrant roomId admission now with
  | error code =>
      refine iff_of_true (fun code _ => ?_) ?_
      · rw [join, htake]
      · rintro ⟨-, ⟨b, res, hok⟩, -⟩
        cases hok
  | ok taken =>
      obtain ⟨b, reserved⟩ := taken
      obtain ⟨hreserved, hnothing⟩ := takeGrant_cases htake
      have hpos : 0 < r.capacityFor admission reserved :=
        capacityFor_pos (orderly_run h) fun res hres => hreserved.trans hres
      obtain ⟨hstate, herror⟩ := join_late name peerId hpos htake
      rw [RefusedLate, hreserved, ← herror]
      cases reserved with
      | none =>
          refine iff_of_true (fun code hcode => ?_) ?_
          · rw [hstate code hcode, hnothing rfl]
            rfl
          · rintro ⟨-, ⟨_, _, hok⟩, -⟩
            cases hok
      | some res =>
          rcases (takeGrant_ok htake).2 with ⟨_, hres, hconsumed⟩ | ⟨hnone, -⟩
          · have hsame : r.withBreakouts b = r ↔ now = 0 :=
              withBreakouts_eq_iff.trans (consumed_eq_iff hconsumed)
            constructor
            · rintro htraceless ⟨hnow, -, code, hcode⟩
              have hzero := hsame.mp ((hstate code hcode).symm.trans (htraceless code hcode))
              omega
            · intro hnot code hcode
              rw [hstate code hcode, hsame]
              by_contra hnow
              exact hnot ⟨Nat.pos_of_ne_zero hnow, ⟨_, _, rfl⟩, code, hcode⟩
          · rw [hreserved] at hnone
            cases hnone

/-! ### A grant that is used up for nothing -/

def childRoom : String := "brk-000000000000000000000000"

theorem assigned_path : Path Step (start pairLimits true)
    [annJoins, benJoins, annOpens, annAssigns, benLeaves] assigned :=
  assigned_run.unclocked.unguarded

/-- A join that names a set where there is none is refused without a trace. -/
theorem join_traceless_iff_sample :
    assigned.Traceless "room-two" "Ben" 6 { roomAdmission "ben" with breakoutSetId := "set-one" }
      "b1" :=
  (join_traceless_iff assigned_path).mpr fun h => absurd h.2.1.1 (by decide)

/-- The member joins as a machine that is too old, and the grant is gone. -/
def machineAdmission : Admission :=
  { roomAdmission "ben" with
    breakoutSetId := "set-one"
    machine := true }

theorem refused_join_uses_grant : ¬assigned.Traceless childRoom "Ben" 6 machineAdmission "b1" := by
  intro h
  have hrefused : (assigned.join childRoom "Ben" 6 machineAdmission "b1").2.toOption.isNone
      = true := by
    decide
  have hlost : (assigned.join childRoom "Ben" 6 machineAdmission "b1").1.hasLiveBreakoutGrant
      childRoom "ben" "device-ben" 6 = false := by
    decide
  have hheld : assigned.hasLiveBreakoutGrant childRoom "ben" "device-ben" 6 = true := by
    decide
  cases hresult : (assigned.join childRoom "Ben" 6 machineAdmission "b1").2 with
  | error code =>
      rw [h code hresult, hheld] at hlost
      cases hlost
  | ok _ =>
      rw [hresult] at hrefused
      cases hrefused

end RoomRegistry

end Rooms

end WebrtcMinimize
