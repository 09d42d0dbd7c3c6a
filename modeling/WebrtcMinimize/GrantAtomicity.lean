import WebrtcMinimize.GrantQuotas

/-!
# What a failed revocation leaves

`rotateSigningKey` and `revokeProgramEpoch` revoke the grants they concern
one by one, and `#transition` refuses a grant whose issue is after the time
of the call. What stands before the loop is done by then: a rotation has
counted its generation and has no key for it yet, and an epoch is revoked.
So the calls leave what was there, unless a grant is met that is `Early`.
-/

namespace WebrtcMinimize

open Attempts Checks Runs List

namespace BroadcastGrantAuthority

open BroadcastGrantAuthority BroadcastGrant KeyedMap

/-! ## Grants as they are issued -/

/-- A grant as `issue` makes it. -/
structure AsIssued (grant : BroadcastGrant) : Prop where
  checked : grant.checked = .ok ()
  revision : grant.revision = 1

/-- The grant lives, and `#transition` refuses to revoke it at the time. -/
def Early (now : Nat) (record : GrantRecord) : Prop :=
  record.grant.status = .issued ∧ (timestampOK now = false ∨ now < record.grant.issuedAt)

instance (now : Nat) : DecidablePred (Early now) := fun record =>
  inferInstanceAs (Decidable (record.grant.status = .issued
    ∧ (timestampOK now = false ∨ now < record.grant.issuedAt)))

section

variable {grant : BroadcastGrant}

theorem checked_ok_iff :
    grant.checked = .ok () ↔ grant.shapeOK = true ∧ grant.assertTimes = .ok () := by
  rw [checked, Checks.bind_ok_iff]
  simp

theorem checked_of_fresh {now : Nat} {u : Unit} (h : grant.checkedFresh now = .ok u) :
    grant.checked = .ok () := by
  obtain ⟨_, hchecked, -⟩ := Checks.bind_ok_iff.mp h
  exact hchecked

theorem moved_shape (hshape : grant.shapeOK = true) (hrevision : grant.revision = 1)
    (hissued : grant.status = .issued) (now : Nat) :
    (grant.moved .revoked now).shapeOK = timestampOK now := by
  have hnext : positiveIntegerOK (1 + 1) = true := by decide
  simp only [shapeOK, Bool.and_eq_true, hissued, hrevision] at hshape
  have hunused : grant.consumedAt.isSome = false := eq_of_beq hshape.1.2
  have hconsumed : grant.consumedAt = none := by simpa using hunused
  simp only [shapeOK, moved, hrevision, hnext, hconsumed, hshape]
  simp

theorem moved_times (htimes : grant.assertTimes = .ok ()) (now : Nat) :
    (grant.moved .revoked now).assertTimes = .ok () ↔ grant.issuedAt ≤ now := by
  rw [assertTimes, failIf_ok_iff] at htimes ⊢
  simp only [not_or] at htimes ⊢
  simp [moved, htimes.1, htimes.2.1, htimes.2.2.1]

end

/-- A live grant can be revoked at every time that is none before its issue. -/
theorem transition_ok_iff {record : GrantRecord} (hissued : record.grant.status = .issued)
    (h : AsIssued record.grant) (now : Nat) :
    (∃ next, record.transition .revoked now = .ok next) ↔ ¬Early now record := by
  obtain ⟨hshape, htimes⟩ := checked_ok_iff.mp h.checked
  have hmoved : (record.grant.moved .revoked now).checked = .ok ()
      ↔ timestampOK now = true ∧ record.grant.issuedAt ≤ now := by
    rw [checked_ok_iff, moved_shape hshape h.revision hissued, moved_times htimes]
  rw [GrantRecord.transition, if_neg (not_not.mpr hissued), Early]
  simp only [Checks.bind_ok_iff, hmoved]
  simp [hissued]

theorem transition_of_not_issued {record : GrantRecord} (h : record.grant.status ≠ .issued)
    (status : GrantStatus) (now : Nat) : record.transition status now = .ok record := by
  rw [GrantRecord.transition, if_pos h]

/-! ## Runs keep them -/

/-- The live grants and the reserved ones are as they were issued. -/
structure Intact (s : BroadcastGrantAuthority) : Prop where
  records : ∀ grantId record, s.records.get grantId = some record →
    record.grant.status = .issued → AsIssued record.grant
  pending : ∀ grantId pending, s.pendingIssues.get grantId = some pending →
    AsIssued pending.grant

/-- The computation keeps them, whichever way it ends. -/
abbrev Keeps {α : Type} (x : Stateful BroadcastGrantAuthority α) : Prop :=
  Ensures Intact x (fun _ => Intact) Intact

theorem Intact.set {s : BroadcastGrantAuthority} (h : Intact s) {record : GrantRecord}
    (hrecord : record.grant.status = .issued → AsIssued record.grant) (grantId : String) :
    Intact { s with records := s.records.set grantId record } where
  records := fun otherId other hget hissued => by
    rcases get_set_some hget with ⟨-, rfl⟩ | ⟨-, hget⟩
    · exact hrecord hissued
    · exact h.records otherId other hget hissued
  pending := h.pending

theorem Intact.erase {s : BroadcastGrantAuthority} (h : Intact s) (grantId : String) :
    Intact { s with records := s.records.erase grantId } where
  records := fun otherId other hget =>
    h.records otherId other (get_keep_eq_some_iff.mp hget).1
  pending := h.pending

theorem Intact.settle {s : BroadcastGrantAuthority} (h : Intact s) (grantId : String) :
    Intact { s with pendingIssues := s.pendingIssues.erase grantId } where
  records := h.records
  pending := fun otherId other hget =>
    h.pending otherId other (get_keep_eq_some_iff.mp hget).1

theorem Intact.reserve {s : BroadcastGrantAuthority} (h : Intact s) {pending : PendingIssue}
    (hgrant : AsIssued pending.grant) (grantId : String) (objects : Nat) :
    Intact { s with
      pendingIssues := s.pendingIssues.set grantId pending
      objects := objects } where
  records := h.records
  pending := fun otherId other hget => by
    rcases get_set_some hget with ⟨-, rfl⟩ | ⟨-, hget⟩
    · exact hgrant
    · exact h.pending otherId other hget

theorem keeps_transition (record : GrantRecord) {status : GrantStatus} (hstatus : status ≠ .issued)
    (now : Nat) : Keeps (transition record status now) := by
  refine .check_bind (fun _ h => h) fun next hnext => ?_
  obtain ⟨hnot, -⟩ := transition_ok hnext hstatus
  exact .write_bind (fun t h => h.set (fun hissued => absurd hissued hnot) _) (.ret fun _ h => h)

theorem keeps_transitions (records : List GrantRecord) {status : GrantStatus}
    (hstatus : status ≠ .issued) (now : Nat) :
    Keeps (records.forM fun record => do
      let _ ← transition record status now) :=
  .forM fun record _ => .bind (keeps_transition record hstatus now) fun _ => .ret fun _ h => h

theorem keeps_prune (config : GrantConfig) (now : Nat) : Keeps (prune config now) := by
  refine .get_keep fun s _ => .forM fun record _ => ?_
  have hexpire : Keeps (expire record now) := by
    rw [expire]
    split
    · exact .bind (keeps_transition record (by decide) now) fun _ => .ret fun _ h => h
    · exact .ret fun _ h => h
  have hforget : Keeps (forget config record now) := by
    rw [forget]
    split
    · exact .write fun _ h => h.erase _
    · exact .ret fun _ h => h
  exact .bind hexpire fun _ => hforget

theorem keeps_issue (config : GrantConfig) (request : GrantRequest)
    (authorized : GrantAuthorization) (proof : Except String VerifiedDevice) (grantId : String)
    (now : Nat) : Keeps (issue config request authorized proof grantId now) := by
  refine .get_keep fun s _ => ?_
  refine .failWhen_bind (fun _ h => h) fun _ => ?_
  refine .bind (keeps_prune config now) fun _ => ?_
  refine .get_keep fun s _ => ?_
  refine .check_bind (fun _ h => h) fun _ _ => ?_
  refine .check_bind (fun _ h => h) fun pathHash _ => ?_
  refine .check_bind (fun _ h => h) fun proof _ => ?_
  refine .failWhen_bind (fun _ h => h) fun _ => ?_
  refine .failWhen_bind (fun _ h => h) fun _ => ?_
  refine .failWhen_bind (fun _ h => h) fun _ => ?_
  refine .failWhen_bind (fun _ h => h) fun _ => ?_
  refine .check_bind (fun _ h => h) fun _ hfresh => ?_
  split
  · exact .failed fun _ h => h
  · refine .write fun t h => ?_
    refine h.reserve ?_ grantId _
    exact ⟨checked_of_fresh hfresh, rfl⟩

theorem keeps_completeIssue (grantId : String) (signed : Except String Unit) :
    Keeps (completeIssue grantId signed) := by
  refine .get_keep fun s hs => ?_
  cases hget : s.pendingIssues.get grantId with
  | none => exact .ret fun _ h => h
  | some pending =>
      refine .write_bind (fun t h => h.settle grantId) ?_
      refine .check_bind (fun _ h => h) fun _ _ => ?_
      refine .failWhen_bind (fun _ h => h) fun _ => ?_
      refine .failWhen_bind (fun _ h => h) fun _ => ?_
      exact .write_bind (fun t h => h.set (fun _ => hs.pending grantId pending hget) grantId)
        (.ret fun _ h => h)

theorem keeps_authorizeBearer (bearer : Bearer) (expectation : GrantExpectation) (now : Nat) :
    Keeps (authorizeBearer bearer expectation now) := by
  cases bearer with
  | malformed => exact .failed fun _ h => h
  | missing => exact .failed fun _ h => h
  | tooLong => exact .failed fun _ h => h
  | token header jti =>
      refine .check_bind (fun _ h => h) fun expected _ => ?_
      refine .get_keep fun s _ => ?_
      cases header with
      | none => exact .failed fun _ h => h
      | some header =>
          dsimp only
          split
          · exact .failed fun _ h => h
          · refine .failWhen_bind (fun _ h => h) fun _ => ?_
            exact .write fun t h => ⟨h.records, h.pending⟩

theorem keeps_authorizeGatewayBearer (bearer : Bearer) (action path : String)
    (grantKinds : List GrantKind) (now : Nat) :
    Keeps (authorizeGatewayBearer bearer action path grantKinds now) := by
  refine .failWhen_bind (fun _ h => h) fun _ => ?_
  cases bearer with
  | malformed => exact .failed fun _ h => h
  | missing => exact .failed fun _ h => h
  | tooLong => exact .failed fun _ h => h
  | token header jti =>
      cases jti with
      | none => exact .failed fun _ h => h
      | some jti =>
          refine .get_keep fun s _ => ?_
          split
          · exact .failed fun _ h => h
          · exact .failWhen_bind (fun _ h => h) fun _ => keeps_authorizeBearer _ _ _

theorem keeps_completeAuthorization (id : Nat) (payload : Option GrantClaims) :
    Keeps (completeAuthorization id payload) := by
  refine .get_keep fun s _ => ?_
  split
  · exact .ret fun _ h => h
  · refine .write_bind (Q := Intact) (fun t h => ⟨h.records, h.pending⟩) ?_
    cases payload with
    | none => exact .failed fun _ h => h
    | some payload =>
        dsimp only
        split
        · exact .failed fun _ h => h
        · refine .failWhen_bind (fun _ h => h) fun _ => ?_
          refine .failWhen_bind (fun _ h => h) fun _ => ?_
          refine .failWhen_bind (fun _ h => h) fun _ => ?_
          refine .failWhen_bind (fun _ h => h) fun _ => ?_
          refine .failWhen_bind (fun _ h => h) fun _ => ?_
          refine .check_bind (fun _ h => h) fun _ _ => ?_
          refine .check_bind (fun _ h => h) fun _ _ => ?_
          refine .failWhen_bind (fun _ h => h) fun _ => ?_
          split
          · exact .bind (keeps_transition _ (by decide) _) fun _ => .ret fun _ h => h
          · exact .ret fun _ h => h

theorem keeps_revokeGrant (grantId : String) (now : Nat) : Keeps (revokeGrant grantId now) := by
  refine .get_keep fun s hs => ?_
  split
  · rename_i pending hget
    refine .write_bind (Q := Intact) (fun t h => ?_) (.ret fun _ h => h)
    refine h.reserve ?_ grantId t.objects
    exact hs.pending grantId pending hget
  · split
    · exact .ret fun _ h => h
    · exact .bind (keeps_transition _ (by decide) now) fun _ => .ret fun _ h => h

theorem keeps_revokeProgramEpoch (tenantId programId : String) (programEpoch now : Nat) :
    Keeps (revokeProgramEpoch tenantId programId programEpoch now) := by
  refine .failWhen_bind (fun _ h => h) fun _ => ?_
  refine .write_bind (Q := Intact) (fun t h => ⟨h.records, h.pending⟩) ?_
  refine .get_keep fun s _ => ?_
  exact .bind (keeps_transitions _ (by decide) now) fun _ => .ret fun _ h => h

theorem keeps_rotateSigningKey (kid : String) (now : Nat) : Keeps (rotateSigningKey kid now) := by
  refine .get_keep fun s _ => ?_
  refine .failWhen_bind (fun _ h => h) fun _ => ?_
  refine .failWhen_bind (fun _ h => h) fun _ => ?_
  refine .write_bind (Q := Intact) (fun t h => ⟨h.records, h.pending⟩) ?_
  exact .bind (keeps_transitions _ (by decide) now) fun _ =>
    .write fun t h => ⟨h.records, h.pending⟩

theorem keeps_disableSigningKey (kid : String) (now : Nat) : Keeps (disableSigningKey kid now) := by
  refine .get_keep fun s _ => ?_
  split
  · exact .failed fun _ h => h
  · refine .failWhen_bind (fun _ h => h) fun _ => ?_
    refine .write_bind (Q := Intact) (fun t h => ⟨h.records, h.pending⟩) ?_
    exact keeps_transitions _ (by decide) now

end BroadcastGrantAuthority

open BroadcastGrantAuthority

theorem intact_apply {config : GrantConfig} {s : BroadcastGrantAuthority} (h : Intact s)
    (event : GrantEvent) : Intact (event.apply config s) := by
  cases event with
  | issue request authorized proof grantId now =>
      exact (keeps_issue config request authorized proof grantId now).after_of h
  | completeIssue grantId signed now => exact (keeps_completeIssue grantId signed).after_of h
  | authorizeBearer bearer expectation now =>
      exact (keeps_authorizeBearer bearer expectation now).after_of h
  | authorizeGatewayBearer bearer action path grantKinds now =>
      exact (keeps_authorizeGatewayBearer bearer action path grantKinds now).after_of h
  | completeAuthorization id payload now =>
      exact (keeps_completeAuthorization id payload).after_of h
  | revokeGrant grantId now => exact (keeps_revokeGrant grantId now).after_of h
  | revokeProgramEpoch tenantId programId programEpoch now =>
      exact (keeps_revokeProgramEpoch tenantId programId programEpoch now).after_of h
  | rotateSigningKey kid now => exact (keeps_rotateSigningKey kid now).after_of h
  | disableSigningKey kid now => exact (keeps_disableSigningKey kid now).after_of h
  | prune now => exact (keeps_prune config now).after_of h

theorem intact_run {config : GrantConfig} {kids : List String} {activeKid : String}
    {es : List GrantEvent} {s : BroadcastGrantAuthority}
    (hpath : Path (GrantStep config) (.new kids activeKid) es s) : Intact s := by
  have hnew : Intact (.new kids activeKid) := ⟨fun _ _ h => (by cases h), fun _ _ h => (by cases h)⟩
  refine hpath.inv (I := Intact) (fun {u event v} hstep hu => ?_) hnew
  exact hstep ▸ intact_apply hu event

namespace BroadcastGrantAuthority

/-! ## Loops that stop -/

/-- Records are revoked in turn. -/
def revokeEach (records : List GrantRecord) (now : Nat) : Stateful BroadcastGrantAuthority Unit :=
  records.forM fun record => do
    let _ ← transition record .revoked now

section

variable {s : BroadcastGrantAuthority} {record : GrantRecord} {now : Nat}

/-- The record is no live one, or it is as it was issued. -/
def Known (record : GrantRecord) : Prop :=
  record.grant.status = .issued → AsIssued record.grant

theorem transition_returns (hknown : Known record) (hnot : ¬Early now record)
    (s : BroadcastGrantAuthority) : ∃ grant t, transition record .revoked now s = .ok grant t := by
  have hnext : ∃ next, record.transition .revoked now = .ok next := by
    by_cases hissued : record.grant.status = .issued
    · exact (transition_ok_iff hissued (hknown hissued) now).mpr hnot
    · exact ⟨record, transition_of_not_issued hissued .revoked now⟩
  obtain ⟨next, hnext⟩ := hnext
  exact ⟨next.grant, _, by rw [transition, hnext]; rfl⟩

theorem transition_refuses (hknown : Known record) (hearly : Early now record)
    (s : BroadcastGrantAuthority) :
    ∃ code, transition record .revoked now s = .error code s := by
  obtain ⟨code, hcode⟩ := error_of_not_ok fun next hnext =>
    (transition_ok_iff hearly.1 (hknown hearly.1) now).mp ⟨next, hnext⟩ hearly
  exact ⟨code, by rw [transition, hcode]; rfl⟩

variable {records : List GrantRecord}

theorem revokeEach_cons_of_ok {grant : BroadcastGrant}
    {t : BroadcastGrantAuthority} (h : transition record .revoked now s = .ok grant t) :
    revokeEach (record :: records) now s = revokeEach records now t := by
  have hround : (transition record .revoked now >>= fun _ => pure ()) s = .ok () t := by
    rw [bind_of_ok h, pure_run]
  exact bind_of_ok hround

theorem revokeEach_cons_of_error {code : String}
    {t : BroadcastGrantAuthority} (h : transition record .revoked now s = .error code t) :
    revokeEach (record :: records) now s = .error code t := by
  have hround : (transition record .revoked now >>= fun _ => pure ()) s = .error code t := by
    rw [bind_of_error h]
  exact bind_of_error hround

theorem revokeEach_returns : ∀ {records : List GrantRecord}, (∀ record ∈ records, Known record) →
    (∀ record ∈ records, ¬Early now record) → ∀ s, ∃ t, revokeEach records now s = .ok () t
  | [], _, _, s => ⟨s, rfl⟩
  | record :: records, hknown, hnot, s => by
      rw [forall_mem_cons] at hknown hnot
      obtain ⟨grant, t, ht⟩ := transition_returns hknown.1 hnot.1 s
      rw [revokeEach_cons_of_ok ht]
      exact revokeEach_returns hknown.2 hnot.2 t

theorem revokeEach_stops : ∀ {records : List GrantRecord}, (∀ record ∈ records, Known record) →
    (∃ record ∈ records, Early now record) → ∀ s, ∃ code t, revokeEach records now s = .error code t
  | [], _, hearly, _ => by
      obtain ⟨record, hmem, -⟩ := hearly
      cases hmem
  | record :: records, hknown, hearly, s => by
      rw [forall_mem_cons] at hknown
      by_cases hfirst : Early now record
      · obtain ⟨code, hcode⟩ := transition_refuses hknown.1 hfirst s
        exact ⟨code, s, revokeEach_cons_of_error hcode⟩
      · obtain ⟨grant, t, ht⟩ := transition_returns hknown.1 hfirst s
        rw [revokeEach_cons_of_ok ht]
        refine revokeEach_stops hknown.2 ?_ t
        obtain ⟨other, hmem, hother⟩ := hearly
        rcases mem_cons.mp hmem with rfl | hmem
        · exact absurd hother hfirst
        · exact ⟨other, hmem, hother⟩

theorem spent_transition (grantId : String) (record : GrantRecord) (now : Nat) :
    Ensures (Spent grantId) (transition record .revoked now) (fun _ => Spent grantId)
      (Spent grantId) := by
  refine .check_bind (fun _ h => h) fun next hnext => ?_
  obtain ⟨hnot, -⟩ := transition_ok hnext (by decide)
  refine .write_bind (Q := Spent grantId) (fun t h other hother => ?_) (.ret fun _ h => h)
  rcases KeyedMap.get_set_some hother with ⟨-, rfl⟩ | ⟨-, hother⟩
  · exact hnot
  · exact h other hother

theorem revokeEach_spends
    (hget : s.records.get record.grant.grantId = some record) (hknown : Known record)
    (hnot : ¬Early now record) :
    Spent record.grant.grantId (after (revokeEach (record :: records) now s)) := by
  obtain ⟨grant, t, ht⟩ := transition_returns hknown hnot s
  obtain ⟨-, hspent, -⟩ := (ensures_transition hget (by decide) now).of_ok (.refl s) ht
  rw [revokeEach_cons_of_ok ht]
  have hloop : Ensures (Spent record.grant.grantId) (revokeEach records now)
      (fun _ => Spent record.grant.grantId) (Spent record.grant.grantId) :=
    .forM fun other _ => .bind (spent_transition _ other now) fun _ => .ret fun _ h => h
  exact hloop.after_of hspent

theorem Intact.known (h : Intact s) (hmem : record ∈ s.records.values) : Known record := by
  obtain ⟨grantId, hget⟩ := KeyedMap.mem_values_iff.mp hmem
  exact h.records grantId record hget

end

/-! ## What a later issuance finds -/

/-- The issuance goes through, from its request to its signature. -/
def Issues (config : GrantConfig) (request : GrantRequest) (authorized : GrantAuthorization)
    (proof : Except String VerifiedDevice) (grantId : String) (now : Nat)
    (s : BroadcastGrantAuthority) : Prop :=
  ∃ t u grant, issue config request authorized proof grantId now s = .ok () t
    ∧ completeIssue grantId (.ok ()) t = .ok (some grant) u

/-- The epoch is revoked. -/
def ended (key : String) (s : BroadcastGrantAuthority) : BroadcastGrantAuthority :=
  { s with revokedEpochs := key :: s.revokedEpochs }

variable {s : BroadcastGrantAuthority}

theorem mem_ended {key other : String}
    (h : key ∈ s.revokedEpochs) : other ∈ (ended key s).revokedEpochs ↔ other ∈ s.revokedEpochs := by
  refine ⟨fun hother => ?_, mem_cons_of_mem key⟩
  rcases mem_cons.mp hother with rfl | hother
  · exact h
  · exact hother

theorem commutes_transition (key : String) (record : GrantRecord) (status : GrantStatus)
    (now : Nat) : Commutes (ended key) (transition record status now) :=
  .bind (.check _) fun _ => .bind (.write fun _ => rfl) fun _ => .ret _

theorem commutes_prune (key : String) (config : GrantConfig) (now : Nat) :
    Commutes (ended key) (prune config now) := by
  refine .get_bind (fun _ => rfl) fun s => .forM (fun record => ?_) _
  have hexpire : Commutes (ended key) (expire record now) := by
    rw [expire]
    split
    · exact .bind (commutes_transition key record .expired now) fun _ => .ret _
    · exact .ret _
  have hforget : Commutes (ended key) (forget config record now) := by
    rw [forget]
    split
    · exact .write fun _ => rfl
    · exact .ret _
  exact .bind hexpire fun _ => hforget

/-- An epoch that is revoked again does not change what is issued. -/
theorem issue_ended (config : GrantConfig) (request : GrantRequest)
    (authorized : GrantAuthorization) (proof : Except String VerifiedDevice) (grantId : String)
    (now : Nat) {key : String} (hkey : key ∈ s.revokedEpochs) :
    issue config request authorized proof grantId now (ended key s)
      = mapState (ended key) (issue config request authorized proof grantId now s) := by
  refine Commutes.get_guard (mem_ended hkey) ?_
  refine .bind (commutes_prune key config now) fun _ => ?_
  refine .get_bind (fun _ => rfl) fun s => ?_
  refine .bind (.check _) fun _ => ?_
  refine .bind (.check _) fun pathHash => ?_
  refine .bind (.check _) fun proof => ?_
  refine .bind (.failWhen _ _) fun _ => ?_
  refine .bind (.failWhen _ _) fun _ => ?_
  refine .bind (.failWhen _ _) fun _ => ?_
  refine .bind (.failWhen _ _) fun _ => ?_
  refine .bind (.check _) fun _ => ?_
  split
  · exact .check _
  · exact .write fun _ => rfl

theorem completeIssue_of_open {grantId : String}
    {pending : PendingIssue} (hget : s.pendingIssues.get grantId = some pending)
    (hopen : OpenIssue s pending) :
    ∃ t, completeIssue grantId (.ok ()) s = .ok (some pending.grant) t := by
  have hepoch : epochKey pending.grant.tenantId pending.grant.programId pending.grant.programEpoch
      ∉ s.revokedEpochs := hopen.epoch
  rw [completeIssue, bind_of_ok (get_run s)]
  simp only [hget]
  rw [bind_of_ok (modify_run _ s), bind_of_ok (check_ok_iff.mpr ⟨rfl, rfl⟩), failWhen_run,
    if_neg hepoch, failWhen_run, if_neg, bind_of_ok (modify_run _ _)]
  · exact ⟨_, rfl⟩
  · simp [hopen.cancelled, hopen.key, hopen.enabled, hopen.active, hopen.generation]

theorem issues_ended {config : GrantConfig} {request : GrantRequest}
    {authorized : GrantAuthorization} {proof : Except String VerifiedDevice} {grantId : String}
    {now : Nat} {key : String} (hs : Sound s)
    (hkey : key ∈ s.revokedEpochs) (h : Issues config request authorized proof grantId now s) :
    Issues config request authorized proof grantId now (ended key s) := by
  obtain ⟨t, u, grant, hissue, hcomplete⟩ := h
  have hrun := issue_ended config request authorized proof grantId now hkey
  rw [hissue] at hrun
  have hgrown := (ensures_issue hs request authorized proof grantId).of_ok rfl hissue
  obtain ⟨-, hissued⟩ := (ensures_completeIssue hgrown.sound grantId (.ok ())).of_ok rfl hcomplete
  obtain ⟨pending, hget, -, hopen⟩ := hissued grant rfl
  have hover : OpenIssue (ended key t) pending := ⟨hopen.cancelled,
    (mem_ended (hgrown.onward.epochs key hkey)).not.mpr hopen.epoch, hopen.key, hopen.enabled,
    hopen.active, hopen.generation⟩
  obtain ⟨v, hv⟩ := completeIssue_of_open (s := ended key t) hget hover
  exact ⟨ended key t, v, pending.grant, hrun, hv⟩

/-- No key and no reservation is of the generation that is counted. -/
structure Ahead (s : BroadcastGrantAuthority) : Prop where
  keys : ∀ kid key, s.keys.get kid = some key → key.generation < s.keyGeneration
  pending : ∀ grantId pending, s.pendingIssues.get grantId = some pending →
    pending.key.generation < s.keyGeneration

/-! ## The two calls -/

inductive BulkCall where
  | rotateSigningKey (kid : String)
  | revokeProgramEpoch (tenantId programId : String) (programEpoch : Nat)
deriving DecidableEq, Repr

def BulkCall.run (now : Nat) : BulkCall → Stateful BroadcastGrantAuthority Unit
  | .rotateSigningKey kid => BroadcastGrantAuthority.rotateSigningKey kid now
  | .revokeProgramEpoch tenantId programId programEpoch => do
      let _ ← BroadcastGrantAuthority.revokeProgramEpoch tenantId programId programEpoch now

/-- The live grants of an epoch, in the order they were issued. -/
def ofEpoch (s : BroadcastGrantAuthority) (tenantId programId : String) (programEpoch : Nat) :
    List GrantRecord :=
  s.records.values.filter fun record =>
    record.grant.tenantId = tenantId ∧ record.grant.programId = programId
      ∧ record.grant.programEpoch = programEpoch ∧ record.grant.status = .issued

theorem rotateSigningKey_run (kid : String) (now : Nat) (s : BroadcastGrantAuthority) :
    rotateSigningKey kid now s
      = if spanOK refByte 1 64 (utf8 kid) = false then .error "invalid_broadcast_signing_key" s
        else if (s.keys.get kid).isSome then .error "duplicate_broadcast_signing_key" s
        else (revokeEach s.records.values now >>= fun _ => modify fun u => { u with
            keys := u.keys.set kid ⟨kid, s.keyGeneration + 1, true⟩
            activeKid := kid })
          { s with keyGeneration := s.keyGeneration + 1 } := by
  rw [rotateSigningKey, bind_of_ok (get_run s), failWhen_run, failWhen_run,
    bind_of_ok (modify_run _ s)]
  rfl

theorem revokeProgramEpoch_run (tenantId programId : String) (programEpoch now : Nat)
    (s : BroadcastGrantAuthority) :
    revokeProgramEpoch tenantId programId programEpoch now s
      = if positiveIntegerOK programEpoch = false then .error "invalid_broadcast_program_epoch" s
        else (revokeEach (s.ofEpoch tenantId programId programEpoch) now >>= fun _ =>
            pure (s.ofEpoch tenantId programId programEpoch).length)
          (ended (epochKey tenantId programId programEpoch) s) := by
  rw [revokeProgramEpoch, failWhen_run, bind_of_ok (modify_run _ s), bind_of_ok (get_run _)]
  rfl

/-- What a call leaves that fails without a trace. -/
structure LeftAlone (config : GrantConfig) (s t : BroadcastGrantAuthority) : Prop where
  generation : t.keyGeneration = s.keyGeneration
  keys : t.keys = s.keys
  active : t.activeKid = s.activeKid
  grants : ∀ grantId, t.records.get grantId = s.records.get grantId
  /-- A grant can be used where it could. -/
  usable : ∀ grantId record, s.records.get grantId = some record →
    (UsableRecord t record ↔ UsableRecord s record)
  quotas : ∀ now p, (t.occupied now).countP p = (s.occupied now).countP p
  /-- What could be issued still can. -/
  issues : ∀ request authorized proof grantId now,
    Issues config request authorized proof grantId now s →
      Issues config request authorized proof grantId now t

/-- Where the call fails, nothing has changed. -/
def AtomicOnError (config : GrantConfig) (s : BroadcastGrantAuthority) (now : Nat)
    (call : BulkCall) : Prop :=
  ∀ code t, call.run now s = .error code t → LeftAlone config s t

/-- The call goes on to a grant that it cannot revoke, and has changed
something by then. -/
def Interrupted (s : BroadcastGrantAuthority) (now : Nat) : BulkCall → Prop
  | .rotateSigningKey kid => spanOK refByte 1 64 (utf8 kid) = true ∧ s.keys.get kid = none
      ∧ ∃ record ∈ s.records.values, Early now record
  | .revokeProgramEpoch tenantId programId programEpoch => positiveIntegerOK programEpoch = true
      ∧ (∃ record ∈ s.ofEpoch tenantId programId programEpoch, Early now record)
      ∧ (epochKey tenantId programId programEpoch ∉ s.revokedEpochs
        ∨ (s.ofEpoch tenantId programId programEpoch).head?.all
          (fun first => decide (Early now first)) = false)

instance (s : BroadcastGrantAuthority) (now : Nat) : DecidablePred (Interrupted s now)
  | .rotateSigningKey kid => inferInstanceAs (Decidable (spanOK refByte 1 64 (utf8 kid) = true
      ∧ s.keys.get kid = none ∧ ∃ record ∈ s.records.values, Early now record))
  | .revokeProgramEpoch tenantId programId programEpoch =>
      inferInstanceAs (Decidable (positiveIntegerOK programEpoch = true
        ∧ (∃ record ∈ s.ofEpoch tenantId programId programEpoch, Early now record)
        ∧ (epochKey tenantId programId programEpoch ∉ s.revokedEpochs
          ∨ (s.ofEpoch tenantId programId programEpoch).head?.all
            (fun first => decide (Early now first)) = false)))

section

variable {config : GrantConfig} {s : BroadcastGrantAuthority} {now : Nat}

theorem LeftAlone.refl (s : BroadcastGrantAuthority) : LeftAlone config s s :=
  ⟨rfl, rfl, rfl, fun _ => rfl, fun _ _ _ => .rfl, fun _ _ => rfl, fun _ _ _ _ _ h => h⟩

theorem LeftAlone.ended (hs : Sound s) {key : String} (hkey : key ∈ s.revokedEpochs) :
    LeftAlone config s (ended key s) where
  generation := rfl
  keys := rfl
  active := rfl
  grants := fun _ => rfl
  usable := fun _ _ _ => ⟨fun h => ⟨h.issued, (mem_ended hkey).not.mp h.epoch⟩,
    fun h => ⟨h.issued, (mem_ended hkey).not.mpr h.epoch⟩⟩
  quotas := fun _ _ => rfl
  issues := fun _ _ _ _ _ h => issues_ended hs hkey h

theorem not_mem_of_not_early {records : List GrantRecord}
    (h : ¬∃ record ∈ records, Early now record) : ∀ record ∈ records, ¬Early now record :=
  fun record hmem hearly => h ⟨record, hmem, hearly⟩

/-- A rotation that meets an early grant has counted its generation, and has
no key for it. -/
theorem rotateSigningKey_counts (hs : Sound s) (hintact : Intact s) {kid : String}
    (h : Interrupted s now (.rotateSigningKey kid)) :
    ∃ code t, BulkCall.run now (.rotateSigningKey kid) s = .error code t
      ∧ t.keyGeneration = s.keyGeneration + 1 ∧ Sound t ∧ Ahead t := by
  obtain ⟨hkid, hnew, hearly⟩ := h
  obtain ⟨code, t, hstop⟩ := revokeEach_stops (fun record hmem => hintact.known hmem) hearly
    { s with keyGeneration := s.keyGeneration + 1 }
  refine ⟨code, t, ?_, ?_⟩
  · rw [BulkCall.run, rotateSigningKey_run, if_neg (by simp [hkid]), if_neg (by simp [hnew]),
      bind_of_error hstop]
  · have hsince := since_generation hs (s.keyGeneration + 1) (Nat.lt_succ_self _)
    have hloop := ensures_transitions (s := { s with keyGeneration := s.keyGeneration + 1 })
      hsince.sound (fun record (h : record ∈ s.records.values) => h)
      (by decide : GrantStatus.revoked ≠ .issued) now
    have hshrunk := hloop.of_error (.refl _) hstop
    refine ⟨?_, (hshrunk.since hsince.sound).sound, ?_⟩
    · rw [hshrunk.rest]
    · rw [hshrunk.rest]
      exact ⟨fun otherKid key hkey => Nat.lt_succ_of_le (hs.keyed otherKid key hkey),
        fun otherId pending hget => Nat.lt_succ_of_le (hs.signed otherId pending hget)⟩

theorem rotateSigningKey_fails (hintact : Intact s) {kid code : String}
    {t : BroadcastGrantAuthority} (h : ¬Interrupted s now (.rotateSigningKey kid))
    (hrun : BulkCall.run now (.rotateSigningKey kid) s = .error code t) : t = s := by
  rw [BulkCall.run, rotateSigningKey_run] at hrun
  split at hrun
  · cases hrun
    rfl
  · rename_i hkid
    split at hrun
    · cases hrun
      rfl
    · rename_i hnew
      have hnot : ¬∃ record ∈ s.records.values, Early now record := fun hearly =>
        h ⟨by simpa using hkid, by simpa using hnew, hearly⟩
      obtain ⟨u, hu⟩ := revokeEach_returns (fun record hmem => hintact.known hmem)
        (not_mem_of_not_early hnot) { s with keyGeneration := s.keyGeneration + 1 }
      rw [bind_of_ok hu, modify_run] at hrun
      cases hrun

variable {programEpoch : Nat} {programId tenantId : String}

theorem known_ofEpoch (hintact : Intact s) :
    ∀ record ∈ s.ofEpoch tenantId programId programEpoch, Known record :=
  fun _ hmem => hintact.known (mem_filter.mp hmem).1

theorem mem_ofEpoch (hs : Sound s)
    {record : GrantRecord} (hmem : record ∈ s.ofEpoch tenantId programId programEpoch) :
    s.records.get record.grant.grantId = some record ∧ record.grant.status = .issued
      ∧ epochOf record.grant = epochKey tenantId programId programEpoch := by
  obtain ⟨hvalue, hof⟩ := mem_filter.mp hmem
  obtain ⟨grantId, hget⟩ := KeyedMap.mem_values_iff.mp hvalue
  obtain ⟨htenant, hprogram, hepoch, hissued⟩ := of_decide_eq_true hof
  refine ⟨?_, hissued, ?_⟩
  · rw [hs.filed grantId record hget]
    exact hget
  · rw [epochOf, htenant, hprogram, hepoch]

/-- A revocation that meets an early grant fails, with the epoch over or its
first grant revoked. -/
theorem revokeProgramEpoch_marks (hs : Sound s) (hintact : Intact s)
    (h : Interrupted s now (.revokeProgramEpoch tenantId programId programEpoch)) :
    ∃ code t, BulkCall.run now (.revokeProgramEpoch tenantId programId programEpoch) s
        = .error code t
      ∧ ∃ record, s.records.get record.grant.grantId = some record ∧ record.grant.status = .issued
        ∧ (epochOf record.grant ∉ s.revokedEpochs ∧ epochOf record.grant ∈ t.revokedEpochs
          ∨ Spent record.grant.grantId t) := by
  obtain ⟨hepoch, hearly, hmark⟩ := h
  obtain ⟨code, t, hstop⟩ := revokeEach_stops (known_ofEpoch hintact) hearly
    (ended (epochKey tenantId programId programEpoch) s)
  refine ⟨code, t, ?_, ?_⟩
  · have hrun : revokeProgramEpoch tenantId programId programEpoch now s = .error code t := by
      rw [revokeProgramEpoch_run, if_neg (by simp [hepoch]), bind_of_error hstop]
    rw [BulkCall.run, bind_of_error hrun]
  · rcases hmark with hopen | hfirst
    · obtain ⟨record, hmem, -⟩ := hearly
      obtain ⟨hget, hissued, hkey⟩ := mem_ofEpoch hs hmem
      have hloop := ensures_transitions (s := ended (epochKey tenantId programId programEpoch) s)
        (since_epoch hs _).sound
        (fun record (hof : record ∈ s.ofEpoch tenantId programId programEpoch) =>
          (mem_filter.mp hof).1)
        (by decide : GrantStatus.revoked ≠ .issued) now
      have hrest := (hloop.of_error (.refl _) hstop).rest
      refine ⟨record, hget, hissued, .inl ⟨hkey ▸ hopen, ?_⟩⟩
      rw [hkey, hrest]
      exact mem_cons_self
    · cases hlist : s.ofEpoch tenantId programId programEpoch with
      | nil =>
          rw [hlist] at hfirst
          cases hfirst
      | cons first rest =>
          rw [hlist, head?_cons, Option.all_some, decide_eq_false_iff_not] at hfirst
          have hmem : first ∈ s.ofEpoch tenantId programId programEpoch := by
            rw [hlist]
            exact mem_cons_self
          obtain ⟨hget, hissued, -⟩ := mem_ofEpoch hs hmem
          have hspent : Spent first.grant.grantId (after (revokeEach (first :: rest) now
              (ended (epochKey tenantId programId programEpoch) s))) :=
            revokeEach_spends hget (known_ofEpoch hintact first hmem) hfirst
          rw [← hlist, hstop] at hspent
          exact ⟨first, hget, hissued, .inr hspent⟩

/-- A revocation that fails elsewhere fails where the epoch is over already. -/
theorem revokeProgramEpoch_fails (hintact : Intact s) {code : String} {t : BroadcastGrantAuthority}
    (h : ¬Interrupted s now (.revokeProgramEpoch tenantId programId programEpoch))
    (hrun : BulkCall.run now (.revokeProgramEpoch tenantId programId programEpoch) s
      = .error code t) :
    t = s ∨ epochKey tenantId programId programEpoch ∈ s.revokedEpochs
      ∧ t = ended (epochKey tenantId programId programEpoch) s := by
  have hends : revokeProgramEpoch tenantId programId programEpoch now s = .error code t := by
    cases hend : revokeProgramEpoch tenantId programId programEpoch now s with
    | ok count u =>
        rw [BulkCall.run, bind_of_ok hend] at hrun
        cases hrun
    | error other u =>
        rw [BulkCall.run, bind_of_error hend] at hrun
        cases hrun
        rfl
  rw [revokeProgramEpoch_run] at hends
  split at hends
  · cases hends
    exact .inl rfl
  · rename_i hepoch
    by_cases hearly : ∃ record ∈ s.ofEpoch tenantId programId programEpoch, Early now record
    · obtain ⟨hover, hfirst⟩ := not_or.mp fun hmark => h ⟨by simpa using hepoch, hearly, hmark⟩
      rw [not_not] at hover
      rw [Bool.not_eq_false] at hfirst
      cases hlist : s.ofEpoch tenantId programId programEpoch with
      | nil =>
          obtain ⟨record, hmem, -⟩ := hearly
          rw [hlist] at hmem
          cases hmem
      | cons first rest =>
          rw [hlist, head?_cons, Option.all_some, decide_eq_true_eq] at hfirst
          have hmem : first ∈ s.ofEpoch tenantId programId programEpoch := by
            rw [hlist]
            exact mem_cons_self
          obtain ⟨other, hrefused⟩ := transition_refuses (known_ofEpoch hintact first hmem) hfirst
            (ended (epochKey tenantId programId programEpoch) s)
          rw [hlist, bind_of_error (revokeEach_cons_of_error hrefused)] at hends
          cases hends
          exact .inr ⟨hover, rfl⟩
    · obtain ⟨u, hu⟩ := revokeEach_returns (known_ofEpoch hintact) (not_mem_of_not_early hearly)
        (ended (epochKey tenantId programId programEpoch) s)
      rw [bind_of_ok hu] at hends
      cases hends

theorem atomic_of_not_interrupted (hs : Sound s) (hintact : Intact s) {call : BulkCall}
    (h : ¬Interrupted s now call) : AtomicOnError config s now call := by
  intro code t hrun
  cases call with
  | rotateSigningKey kid =>
      rw [rotateSigningKey_fails hintact h hrun]
      exact .refl s
  | revokeProgramEpoch tenantId programId programEpoch =>
      rcases revokeProgramEpoch_fails hintact h hrun with rfl | ⟨hover, rfl⟩
      · exact .refl t
      · exact .ended hs hover

theorem not_atomic_of_interrupted (hs : Sound s) (hintact : Intact s) {call : BulkCall}
    (h : Interrupted s now call) : ¬AtomicOnError config s now call := by
  intro hatomic
  cases call with
  | rotateSigningKey kid =>
      obtain ⟨code, t, hrun, hcounts, -⟩ := rotateSigningKey_counts hs hintact h
      have hsame := (hatomic code t hrun).generation
      omega
  | revokeProgramEpoch tenantId programId programEpoch =>
      obtain ⟨code, t, hrun, record, hget, hissued, hmark⟩ := revokeProgramEpoch_marks hs hintact h
      have halone := hatomic code t hrun
      rcases hmark with ⟨hopen, hover⟩ | hspent
      · have husable := (halone.usable _ record hget).mpr ⟨hissued, hopen⟩
        exact husable.epoch hover
      · have hsame := halone.grants record.grant.grantId
        exact hspent record (hsame.trans hget) hissued

end

end BroadcastGrantAuthority

/-- **A failed bulk revocation leaves all as it was, unless it was
interrupted.** In every state the authority reaches, whatever time a rotation
or the revocation of an epoch is called with: where the call fails, the keys,
the grants, the places taken and what can be issued are as before, exactly
where the call did not go on to a live grant that it cannot revoke. -/
theorem bulk_revocation_atomic_iff {config : GrantConfig} {kids : List String} {activeKid : String}
    {es : List GrantEvent} {s : BroadcastGrantAuthority}
    (hpath : Path (GrantStep config) (.new kids activeKid) es s) (now : Nat) (call : BulkCall) :
    AtomicOnError config s now call ↔ ¬Interrupted s now call := by
  have hs := (onward_run hpath (sound_new kids activeKid)).1
  have hintact := intact_run hpath
  exact ⟨fun hatomic h => not_atomic_of_interrupted hs hintact h hatomic,
    fun h => atomic_of_not_interrupted hs hintact h⟩

/-- A grant that was issued at 1000. -/
def sampleLiveGrant : List GrantEvent :=
  [sampleGrantIssue "tn_aaaaaaaaaaaaaaaa" "sub_aaaaaaaaaaaaaaaa" "prg_aaaaaaaaaaaaaaaa"
      "grt_aaaaaaaaaaaaaaaa",
    .completeIssue "grt_aaaaaaaaaaaaaaaa" (.ok ()) 1001]

theorem grantRun_reaches (config : GrantConfig) (es : List GrantEvent) :
    Path (GrantStep config) (.new ["key-1"] "key-1") es (grantRun config es) :=
  Path.foldl (GrantEvent.apply config) es _

/-- The grant can be revoked from its issue on. -/
theorem bulk_revocation_atomic_sample :
    AtomicOnError sampleGrantConfig (grantRun sampleGrantConfig sampleLiveGrant) 1000
        (.rotateSigningKey "key-2")
      ∧ ¬AtomicOnError sampleGrantConfig (grantRun sampleGrantConfig sampleLiveGrant) 999
        (.rotateSigningKey "key-2") := by
  constructor
  · exact (bulk_revocation_atomic_iff (grantRun_reaches _ _) 1000 _).mpr (by decide +kernel)
  · have hinterrupted : Interrupted (grantRun sampleGrantConfig sampleLiveGrant) 999
        (.rotateSigningKey "key-2") := by decide +kernel
    exact fun h => (bulk_revocation_atomic_iff (grantRun_reaches _ _) 999 _).mp h hinterrupted

/-- A rotation at 999 fails, and leaves the next generation without a key. -/
theorem failed_rotation_not_undone :
    ¬∀ kids activeKid es s now call, Path (GrantStep sampleGrantConfig) (.new kids activeKid) es s →
      AtomicOnError sampleGrantConfig s now call := by
  intro hall
  have hpath := grantRun_reaches sampleGrantConfig sampleLiveGrant
  have hs := (onward_run hpath (sound_new _ _)).1
  have hinterrupted : Interrupted (grantRun sampleGrantConfig sampleLiveGrant) 999
      (.rotateSigningKey "key-2") := by decide +kernel
  exact not_atomic_of_interrupted hs (intact_run hpath) hinterrupted (hall _ _ _ _ 999 _ hpath)

end WebrtcMinimize
