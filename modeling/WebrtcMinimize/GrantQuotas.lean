import WebrtcMinimize.GrantRuns

/-!
# Quotas, and runs of the grant authority

`issue` asks for a place at its own time and takes one, so a quota that held
then holds after it. From there a grant that lives can only leave its place.
What a run keeps is `GrantsKept`; a run uses no single-use grant twice.
-/

namespace WebrtcMinimize

open Attempts Checks Runs GrantEvent Nat Option

namespace BroadcastGrantAuthority

open KeyedMap List

/-- The grants that take a place at a time are within the limits. -/
structure WithinQuota (config : GrantConfig) (s : BroadcastGrantAuthority) (now : Nat) : Prop where
  subject : ∀ subjectRef, (s.occupied now).countP (fun grant => grant.issuerSubjectRef = subjectRef)
    ≤ config.subjectLimit
  tenant : ∀ tenantId, (s.occupied now).countP (fun grant => grant.tenantId = tenantId)
    ≤ config.tenantLimit
  program : ∀ programId, (s.occupied now).countP (fun grant => grant.programId = programId)
    ≤ config.programLimit

section

variable {config : GrantConfig} {s t : BroadcastGrantAuthority} {now : Nat}

theorem WithinQuota.fewer (h : WithinQuota config s now) (hfewer : Fewer s t) :
    WithinQuota config t now where
  subject := fun _ => le_trans (hfewer now _) (h.subject _)
  tenant := fun _ => le_trans (hfewer now _) (h.tenant _)
  program := fun _ => le_trans (hfewer now _) (h.program _)

theorem countP_occupied_le {later : Nat} (h : now ≤ later) (p : BroadcastGrant → Bool) :
    (s.occupied later).countP p ≤ (s.occupied now).countP p := by
  rw [countP_occupied, countP_occupied]
  refine Nat.add_le_add_right (countP_mono_left fun record _ hrecord => ?_) _
  rw [Bool.and_eq_true, decide_eq_true_eq] at hrecord ⊢
  exact ⟨⟨hrecord.1.1, Nat.lt_of_le_of_lt h hrecord.1.2⟩, hrecord.2⟩

theorem WithinQuota.later {later : Nat} (h : WithinQuota config s now) (hle : now ≤ later) :
    WithinQuota config s later where
  subject := fun _ => le_trans (countP_occupied_le hle _) (h.subject _)
  tenant := fun _ => le_trans (countP_occupied_le hle _) (h.tenant _)
  program := fun _ => le_trans (countP_occupied_le hle _) (h.program _)

/-- The reservation of a new grant. -/
def reserve (s : BroadcastGrantAuthority) (grantId : String) (pending : PendingIssue) :
    BroadcastGrantAuthority := { s with
  pendingIssues := s.pendingIssues.set grantId pending
  objects := s.objects + 1 }

variable {grantId : String} {pending : PendingIssue}

theorem countP_reserve
    (hnone : s.pendingIssues.get grantId = none) (now : Nat) (p : BroadcastGrant → Bool) :
    ((s.reserve grantId pending).occupied now).countP p
      = (s.occupied now).countP p + if p pending.grant = true then 1 else 0 := by
  rw [countP_occupied, countP_occupied, reserve, values_set_of_none hnone,
    countP_append, countP_singleton, add_assoc]

theorem countP_reserve_le {limit : Nat}
    (hnone : s.pendingIssues.get grantId = none) {p : BroadcastGrant → Bool}
    (hwithin : (s.occupied now).countP p ≤ limit)
    (hfree : p pending.grant = true → (s.occupied now).countP p < limit) :
    ((s.reserve grantId pending).occupied now).countP p ≤ limit := by
  rw [countP_reserve hnone]
  split
  · rename_i hp
    exact hfree hp
  · exact hwithin

theorem within_reserve
    (hwithin : WithinQuota config s now) (hnone : s.pendingIssues.get grantId = none)
    (hquota : assertQuota config s pending.grant.tenantId pending.grant.issuerSubjectRef
      pending.grant.programId now = .ok ()) :
    WithinQuota config (s.reserve grantId pending) now := by
  have hfree := failIf_ok_iff.mp hquota
  simp only [not_or, not_le] at hfree
  obtain ⟨hsubject, htenant, hprogram⟩ := hfree
  refine ⟨fun ref => ?_, fun ref => ?_, fun ref => ?_⟩
  · refine countP_reserve_le hnone (hwithin.subject ref) fun h => ?_
    obtain rfl := of_decide_eq_true h
    exact hsubject
  · refine countP_reserve_le hnone (hwithin.tenant ref) fun h => ?_
    obtain rfl := of_decide_eq_true h
    exact htenant
  · refine countP_reserve_le hnone (hwithin.program ref) fun h => ?_
    obtain rfl := of_decide_eq_true h
    exact hprogram

theorem holds_reserve {otherId : String} {object : Nat}
    (h : Holds (s.reserve grantId pending) otherId object) :
    Holds s otherId object ∨ otherId = grantId ∧ pending.object = object := by
  rcases h with ⟨record, hget, hobject⟩ | ⟨other, hget, hobject⟩
  · exact .inl (.inl ⟨record, hget, hobject⟩)
  · rcases get_set_some hget with ⟨heq, rfl⟩ | ⟨-, hget⟩
    · exact .inr ⟨heq, hobject⟩
    · exact .inl (.inr ⟨other, hget, hobject⟩)

theorem sound_reserve (hs : Sound s) {kid : String}
    (hrecord : s.records.get grantId = none) (hid : pending.grant.grantId = grantId)
    (hobject : pending.object = s.objects) (hkey : s.keys.get kid = some pending.key) :
    Sound (s.reserve grantId pending) where
  __ := hs
  reserved := fun otherId other hget => by
    rcases get_set_some hget with ⟨rfl, rfl⟩ | ⟨-, hget⟩
    · exact ⟨hid, hrecord⟩
    · exact hs.reserved otherId other hget
  made := fun otherId object h => by
    rcases holds_reserve h with hold | ⟨-, rfl⟩
    · exact lt_succ_of_lt (hs.made otherId object hold)
    · exact hobject ▸ lt_succ_self _
  one := fun firstId secondId object hfirst hsecond => by
    rcases holds_reserve hfirst with hold | ⟨rfl, rfl⟩
    · have hlt := hs.made firstId object hold
      rcases holds_reserve hsecond with hold' | ⟨rfl, rfl⟩
      · exact hs.one firstId secondId object hold hold'
      · omega
    · rcases holds_reserve hsecond with hold' | ⟨rfl, -⟩
      · have hlt := hs.made secondId _ hold'
        omega
      · rfl
  signed := fun otherId other hget => by
    rcases get_set_some hget with ⟨-, rfl⟩ | ⟨-, hget⟩
    · exact hs.keyed kid _ hkey
    · exact hs.signed otherId other hget

theorem onward_reserve
    (hobject : pending.object = s.objects) : Onward s (s.reserve grantId pending) := by
  refine ⟨le_succ _, fun object _ husable => ?_, fun object hlt hopened => ?_, fun _ h => h⟩
  · obtain ⟨otherId, record, hget, hobj, hrecord⟩ := husable
    exact .inl ⟨otherId, record, hget, hobj, hrecord.issued, hrecord.epoch⟩
  · obtain ⟨otherId, other, hget, hobj, hissue⟩ := hopened
    rcases get_set_some hget with ⟨-, rfl⟩ | ⟨-, hget⟩
    · omega
    · exact ⟨otherId, other, hget, hobj, hissue.cancelled, hissue.epoch, hissue.key,
        hissue.enabled, hissue.active, hissue.generation⟩

/-- What a step keeps that may make a grant. -/
structure Grown (config : GrantConfig) (s : BroadcastGrantAuthority) (now : Nat)
    (t : BroadcastGrantAuthority) : Prop where
  sound : Sound t
  onward : Onward s t
  within : WithinQuota config s now → WithinQuota config t now

theorem Since.grown (h : Since s t) : Grown config s now t :=
  ⟨h.sound, h.onward, fun hwithin => hwithin.fewer h.fewer⟩

theorem Grown.reserve {u : BroadcastGrantAuthority} (h : Since s u) {grantId kid : String}
    {pending : PendingIssue} (hrecord : u.records.get grantId = none)
    (hnone : u.pendingIssues.get grantId = none) (hid : pending.grant.grantId = grantId)
    (hobject : pending.object = u.objects) (hkey : u.keys.get kid = some pending.key)
    (hquota : assertQuota config u pending.grant.tenantId pending.grant.issuerSubjectRef
      pending.grant.programId now = .ok ()) : Grown config s now (u.reserve grantId pending) where
  sound := sound_reserve h.sound hrecord hid hobject hkey
  onward := h.onward.trans (onward_reserve hobject)
  within := fun hwithin => within_reserve (hwithin.fewer h.fewer) hnone hquota

theorem ensures_issue (hs : Sound s) (request : GrantRequest) (authorized : GrantAuthorization)
    (proof : Except String VerifiedDevice) (grantId : String) :
    Ensures (· = s) (issue config request authorized proof grantId now)
      (fun _ => Grown config s now) (Grown config s now) := by
  refine .get_bind fun u hu => ?_
  subst hu
  refine .failWhen_bind ?_ fun _ => ?_
  · rintro _ rfl
    exact (Since.refl hs).grown
  refine .bind ((ensures_prune hs config now).mono (fun _ h => h) (fun _ _ h => h)
    fun _ h => (h.since hs).grown) fun _ => ?_
  refine .get_bind fun v hv => ?_
  have hsince := hv.since hs
  have hkept : ∀ t, t = v → Grown config u now t := by
    rintro t rfl
    exact hsince.grown
  refine .check_bind hkept fun _ hquota => ?_
  refine .check_bind hkept fun pathHash _ => ?_
  refine .check_bind hkept fun proof _ => ?_
  refine .failWhen_bind hkept fun _ => ?_
  refine .failWhen_bind hkept fun _ => ?_
  refine .failWhen_bind hkept fun hid => ?_
  simp only [not_or, Bool.not_eq_true, isSome_eq_false_iff, isNone_iff_eq_none] at hid
  obtain ⟨-, hrecord, hnone⟩ := hid
  refine .failWhen_bind hkept fun _ => ?_
  refine .check_bind hkept fun _ _ => ?_
  split
  · exact .failed hkept
  · rename_i key hkey
    refine .write fun t ht => ?_
    subst ht
    exact .reserve hsince hrecord hnone rfl rfl hkey hquota

end

end BroadcastGrantAuthority

/-! ## Runs -/

open BroadcastGrantAuthority

section

variable {config : GrantConfig} {s t : BroadcastGrantAuthority}

theorem grown_apply (config : GrantConfig) (hs : Sound s) (event : GrantEvent) :
    Grown config s event.time (event.apply config s) := by
  have hafter : ∀ {α : Type} {x : Stateful BroadcastGrantAuthority α},
      Ensures (· = s) x (fun _ => Since s) (Since s) → Grown config s event.time (after (x s)) :=
    fun hx => (hx.after_of rfl).grown
  cases event with
  | issue request authorized proof grantId now =>
      exact (ensures_issue hs request authorized proof grantId).after_of rfl
  | completeIssue grantId signed now =>
      exact hafter ((ensures_completeIssue hs grantId signed).mono (fun _ h => h)
        (fun _ _ h => h.1) fun _ h => h)
  | authorizeBearer bearer expectation now =>
      exact hafter (ensures_authorizeBearer hs bearer expectation now)
  | authorizeGatewayBearer bearer action path grantKinds now =>
      exact hafter (ensures_authorizeGatewayBearer hs bearer action path grantKinds now)
  | completeAuthorization id payload now =>
      exact hafter ((ensures_completeAuthorization hs id payload).mono (fun _ h => h)
        (fun _ _ h => h.1) fun _ h => h)
  | revokeGrant grantId now =>
      exact hafter ((ensures_revokeGrant hs grantId now).mono (fun _ h => h)
        (fun _ _ h => h.1) fun _ h => h)
  | revokeProgramEpoch tenantId programId programEpoch now =>
      exact hafter (since_revokeProgramEpoch hs tenantId programId programEpoch now)
  | rotateSigningKey kid now =>
      exact hafter ((ensures_rotateSigningKey hs kid now).mono (fun _ h => h)
        (fun _ _ h => h.1) fun _ h => h)
  | disableSigningKey kid now =>
      exact hafter ((ensures_disableSigningKey hs kid now).mono (fun _ h => h)
        (fun _ _ h => h.1) fun _ h => h)
  | prune now =>
      exact hafter ((ensures_prune hs config now).mono (fun _ h => h) (fun _ _ h => h.since hs)
        fun _ h => h.since hs)

theorem sound_new (kids : List String) (activeKid : String) : Sound (.new kids activeKid) where
  filed := fun _ _ h => by cases h
  reserved := fun _ _ h => by cases h
  made := by rintro _ _ (⟨_, h, -⟩ | ⟨_, h, -⟩) <;> cases h
  one := by rintro _ _ _ (⟨_, h, -⟩ | ⟨_, h, -⟩) <;> cases h
  signed := fun _ _ h => by cases h
  keyed := fun kid key hget => by
    obtain ⟨hmem, -⟩ := KeyedMap.get_collect hget
    obtain ⟨_, -, rfl⟩ := List.mem_map.mp hmem
    exact le_refl _

theorem within_new (kids : List String) (activeKid : String) (now : Nat) :
    WithinQuota config (.new kids activeKid) now :=
  ⟨fun _ => zero_le _, fun _ => zero_le _, fun _ => zero_le _⟩

theorem onward_run {es : List GrantEvent} (hpath : Path (GrantStep config) s es t)
    (hs : Sound s) : Sound t ∧ Onward s t := by
  refine hpath.inv (I := fun u => Sound u ∧ Onward s u) (fun {u e v} hstep hu => ?_) ⟨hs, .refl s⟩
  cases hstep
  have hgrown := grown_apply config hu.1 e
  exact ⟨hgrown.sound, hu.2.trans hgrown.onward⟩

/-- The invariant of a clocked run. -/
theorem kept_run {es : List GrantEvent} {before now : Nat}
    (hpath : Path (Clocked (GrantStep config) time) (s, before) es (t, now))
    (hs : Sound s) (hwithin : WithinQuota config s before) : Sound t ∧ WithinQuota config t now := by
  refine hpath.inv (I := fun u => Sound u.1 ∧ WithinQuota config u.1 u.2)
    (fun {u e v} hstep hu => ?_) ⟨hs, hwithin⟩
  obtain ⟨happly, hle, htime⟩ := hstep
  have hgrown := grown_apply config hu.1 e
  rw [happly, htime]
  exact ⟨hgrown.sound, hgrown.within (hu.2.later hle)⟩

end

/-! ## Use -/

/-- The number of the single-use grant that an event authorizes. -/
def spends (s : BroadcastGrantAuthority) : GrantEvent → Option Nat
  | .completeAuthorization id payload _ =>
      match returned (completeAuthorization id payload s) with
      | some (some grant) =>
          if grant.singleUse then (s.records.get grant.grantId).map GrantRecord.object else none
      | _ => none
  | _ => none

/-- The single-use grants that are authorized along a run. -/
def uses (config : GrantConfig) : BroadcastGrantAuthority → List GrantEvent → List Nat
  | _, [] => []
  | s, event :: es => (spends s event).toList ++ uses config (event.apply config s) es

variable {s : BroadcastGrantAuthority}

theorem not_dead_of_usable {grantId : String} {record : GrantRecord} (h : UsableRecord s record)
    (hget : s.records.get grantId = some record) : ¬Dead s record.object :=
  fun hdead => hdead.unusable ⟨grantId, record, hget, rfl, h⟩

theorem not_dead_of_open {grantId : String} {pending : PendingIssue} (h : OpenIssue s pending)
    (hget : s.pendingIssues.get grantId = some pending) : ¬Dead s pending.object :=
  fun hdead => hdead.closed ⟨grantId, pending, hget, rfl, h⟩

section

variable {config : GrantConfig} {s : BroadcastGrantAuthority}

theorem spends_dead (config : GrantConfig) (hs : Sound s) {event : GrantEvent} {object : Nat}
    (h : spends s event = some object) :
    ¬Dead s object ∧ Dead (event.apply config s) object := by
  cases event with
  | completeAuthorization id payload now =>
      rw [spends] at h
      split at h
      · rename_i grant hreturned
        obtain ⟨t, hrun⟩ := returned_eq_some_iff.mp hreturned
        split at h
        · rename_i hsingle
          obtain ⟨-, hused⟩ := (ensures_completeAuthorization hs id payload).of_ok rfl hrun
          obtain ⟨record, hget, husable, hdead⟩ := hused grant rfl
          rw [hget] at h
          cases h
          refine ⟨not_dead_of_usable husable hget, ?_⟩
          rw [apply, hrun]
          exact hdead hsingle
        · cases h
      · cases h
  | _ => cases h

theorem uses_of_dead : ∀ {es : List GrantEvent} {s : BroadcastGrantAuthority}, Sound s →
    ∀ {object : Nat}, Dead s object → object ∉ uses config s es
  | [], _, _, _, _ => List.not_mem_nil
  | event :: es, s, hs, object, hdead => by
      have hgrown := grown_apply config hs event
      rw [uses, List.mem_append, not_or]
      refine ⟨fun hmem => ?_, uses_of_dead hgrown.sound (hgrown.onward.dead hdead)⟩
      exact (spends_dead config hs (mem_toList.mp hmem)).1 hdead

theorem nodup_uses : ∀ {es : List GrantEvent} {s : BroadcastGrantAuthority}, Sound s →
    (uses config s es).Nodup
  | [], _, _ => List.nodup_nil
  | event :: es, s, hs => by
      have hgrown := grown_apply config hs event
      rw [uses, List.nodup_append]
      refine ⟨?_, nodup_uses hgrown.sound, fun object hmem other hother heq => ?_⟩
      · cases spends s event <;> simp
      · subst heq
        exact uses_of_dead hgrown.sound (spends_dead config hs (mem_toList.mp hmem)).2 hother

end

/-- Revocation wins over what is still pending. -/
structure RevocationWinsOver (config : GrantConfig) (s : BroadcastGrantAuthority) : Prop where
  /-- What is authorized was usable, and a grant for single use no longer is. -/
  authorized : ∀ id payload grant t, completeAuthorization id payload s = .ok (some grant) t →
    ∃ record, s.records.get grant.grantId = some record ∧ UsableRecord s record
      ∧ ¬Dead s record.object ∧ (grant.singleUse = true → Dead t record.object)
  /-- What is issued could still be. -/
  completed : ∀ grantId signed grant t, completeIssue grantId signed s = .ok (some grant) t →
    ∃ pending, s.pendingIssues.get grantId = some pending ∧ pending.grant = grant
      ∧ OpenIssue s pending ∧ ¬Dead s pending.object
  revoked : ∀ grantId now t, revokeGrant grantId now s = .ok true t →
    ∀ object, BroadcastGrantAuthority.Holds s grantId object → Dead t object
  epoch : ∀ tenantId programId programEpoch now t, positiveIntegerOK programEpoch = true →
    t = after (revokeProgramEpoch tenantId programId programEpoch now s) →
      epochKey tenantId programId programEpoch ∈ t.revokedEpochs
      ∧ ∀ object, Carries s (OfEpoch (epochKey tenantId programId programEpoch)) object →
        Dead t object
  rotated : ∀ kid now t, rotateSigningKey kid now s = .ok () t →
    ∀ object, object < s.objects → Dead t object
  disabled : ∀ kid now t, disableSigningKey kid now s = .ok () t →
    ∀ object, Carries s (SignedBy kid) object → Dead t object
  pruned : ∀ now t, prune config now s = .ok () t →
    ∀ grantId record, s.records.get grantId = some record → Expired now record →
      Dead t record.object
  /-- Nothing that is dead or revoked comes back. -/
  stays : ∀ es t, Path (GrantStep config) s es t → (∀ object, Dead s object → Dead t object)
    ∧ ∀ key, key ∈ s.revokedEpochs → key ∈ t.revokedEpochs

theorem revocationWinsOver {config : GrantConfig} (hs : Sound s) : RevocationWinsOver config s where
  authorized := fun id payload grant t hrun => by
    obtain ⟨-, hused⟩ := (ensures_completeAuthorization hs id payload).of_ok rfl hrun
    obtain ⟨record, hget, husable, hdead⟩ := hused grant rfl
    exact ⟨record, hget, husable, not_dead_of_usable husable hget, hdead⟩
  completed := fun grantId signed grant t hrun => by
    obtain ⟨-, hissued⟩ := (ensures_completeIssue hs grantId signed).of_ok rfl hrun
    obtain ⟨pending, hget, hgrant, hopen⟩ := hissued grant rfl
    exact ⟨pending, hget, hgrant, hopen, not_dead_of_open hopen hget⟩
  revoked := fun grantId now t hrun =>
    ((ensures_revokeGrant hs grantId now).of_ok rfl hrun).2 rfl
  epoch := fun tenantId programId programEpoch now t hepoch ht => by
    have hover := (ensures_revokeProgramEpoch hs tenantId programId programEpoch now
      hepoch).after_of rfl
    exact ht ▸ ⟨hover.revoked, hover.dead⟩
  rotated := fun kid now t hrun => ((ensures_rotateSigningKey hs kid now).of_ok rfl hrun).2
  disabled := fun kid now t hrun => ((ensures_disableSigningKey hs kid now).of_ok rfl hrun).2
  pruned := fun now t hrun grantId record hget hexpired => by
    obtain ⟨hshrunk, hspent⟩ := (ensures_prune_expired hs config now).of_ok rfl hrun
    have hrecord := hspent record (KeyedMap.mem_values_iff.mpr ⟨grantId, hget⟩) hexpired
    exact dead_of_spent hs hshrunk hget (hs.filed grantId record hget ▸ hrecord)
  stays := fun es t hpath => by
    obtain ⟨-, honward⟩ := onward_run hpath hs
    exact ⟨fun object hdead => honward.dead hdead, honward.epochs⟩

/-- **Grants are used once, and revocation wins.** Along every run of the
authority, whichever signatures and verifications are pending, no grant for
single use is authorized twice, the grants that live or are pending keep
within the limits of their subject, tenant and program, and what was revoked
is neither authorized nor issued afterwards. -/
theorem grants_used_once {config : GrantConfig} {kids : List String} {activeKid : String}
    {es : List GrantEvent} {s : BroadcastGrantAuthority} {now : Nat}
    (hpath : Path (Clocked (GrantStep config) time) (.new kids activeKid, 0) es
      (s, now)) :
    (uses config (.new kids activeKid) es).Nodup ∧ WithinQuota config s now
      ∧ RevocationWinsOver config s := by
  have hnew := sound_new kids activeKid
  obtain ⟨hsound, hwithin⟩ := kept_run hpath hnew (within_new kids activeKid 0)
  exact ⟨nodup_uses hnew, hwithin, revocationWinsOver hsound⟩

/-! ## A sample -/

/-- One grant for each subject, tenant and program. -/
def sampleGrantConfig : GrantConfig where
  ttlMs := fun _ => 60000
  retentionMs := 300000
  subjectLimit := 1
  tenantLimit := 1
  programLimit := 1

def sampleGrantIssue (tenantId subjectRef programId grantId : String) : GrantEvent :=
  .issue {
      kind := .packager
      roomId := "room-alpha"
      programId := programId
      programRevision := 1
      programEpoch := 1
      audienceRef := "pkr_aaaaaaaaaaaaaaaa"
      actions := ["whip:create"]
      resourceRef := "res_aaaaaaaaaaaaaaaa"
      pathPrefix := "/live/one" } {
      identityExpiresAt := 1000000
      tenantId := tenantId
      subjectRef := subjectRef
      membershipFingerprint := "member"
      granteeFingerprint := "packager"
      viewerPolicy := none }
    (.ok ⟨"packager", "dev_aaaaaaaaaaaaaaaa"⟩) grantId 1000

def sampleGrantExpectation : GrantExpectation where
  audience := "broadcast-packager"
  action := "whip:create"
  tenantId := "tn_aaaaaaaaaaaaaaaa"
  subjectRef := "sub_aaaaaaaaaaaaaaaa"
  audienceRef := "pkr_aaaaaaaaaaaaaaaa"
  deviceRef := "dev_aaaaaaaaaaaaaaaa"
  roomId := "room-alpha"
  programId := "prg_aaaaaaaaaaaaaaaa"
  programRevision := 1
  programEpoch := 1
  resourceRef := "res_aaaaaaaaaaaaaaaa"
  path := "/live/one/0"
  policyId := none
  policyRevision := none

def sampleGrantClaims : GrantClaims where
  jti := "grt_aaaaaaaaaaaaaaaa"
  sub := "pkr_aaaaaaaaaaaaaaaa"
  tenantRef := "tn_aaaaaaaaaaaaaaaa"
  actorRef := "sub_aaaaaaaaaaaaaaaa"
  audienceRef := "pkr_aaaaaaaaaaaaaaaa"
  deviceRef := "dev_aaaaaaaaaaaaaaaa"
  roomId := "room-alpha"
  programId := "prg_aaaaaaaaaaaaaaaa"
  programRevision := 1
  programEpoch := 1
  grantKind := .packager
  actions := ["whip:create"]
  resourceRef := "res_aaaaaaaaaaaaaaaa"
  pathHash := "31f9fb02826ea7c73e6ae527ecb66443cbe19efab96b1d37c17e079a650b2223"
  policyId := none
  policyRevision := none
  keyGeneration := 1

/-- A grant is issued, and authorized twice at once. -/
def sampleGrants : List GrantEvent :=
  [sampleGrantIssue "tn_aaaaaaaaaaaaaaaa" "sub_aaaaaaaaaaaaaaaa" "prg_aaaaaaaaaaaaaaaa"
      "grt_aaaaaaaaaaaaaaaa",
    .completeIssue "grt_aaaaaaaaaaaaaaaa" (.ok ()) 1001,
    .authorizeBearer (.token (some ("key-1", "ES256", "JWT")) (some "grt_aaaaaaaaaaaaaaaa"))
      sampleGrantExpectation 2000,
    .authorizeBearer (.token (some ("key-1", "ES256", "JWT")) (some "grt_aaaaaaaaaaaaaaaa"))
      sampleGrantExpectation 2000,
    .completeAuthorization 0 (some sampleGrantClaims) 2001,
    .completeAuthorization 1 (some sampleGrantClaims) 2001]

def grantRun (config : GrantConfig) (es : List GrantEvent) : BroadcastGrantAuthority :=
  es.foldl (apply config) (.new ["key-1"] "key-1")

theorem grantRun_path (config : GrantConfig) (es : List GrantEvent)
    (htimes : List.IsChain (· ≤ ·) (0 :: es.map time)) :
    Path (Clocked (GrantStep config) time) (.new ["key-1"] "key-1", 0) es
      (grantRun config es, (es.map time).getLastD 0) :=
  Path.clocked_foldl (apply config) time es _ 0 htimes

theorem grants_used_once_sample :
    uses sampleGrantConfig (.new ["key-1"] "key-1") sampleGrants = [0]
      ∧ WithinQuota sampleGrantConfig (grantRun sampleGrantConfig sampleGrants) 2001
      ∧ RevocationWinsOver sampleGrantConfig (grantRun sampleGrantConfig sampleGrants) :=
  ⟨by decide +kernel,
    (grants_used_once (grantRun_path sampleGrantConfig sampleGrants (by decide))).2⟩

/-- No limit is on all grants together. -/
theorem grants_exceed_every_limit :
    ∃ es s now, Path (Clocked (GrantStep sampleGrantConfig) time)
        (.new ["key-1"] "key-1", 0) es (s, now)
      ∧ sampleGrantConfig.subjectLimit < (s.occupied now).length
      ∧ sampleGrantConfig.tenantLimit < (s.occupied now).length
      ∧ sampleGrantConfig.programLimit < (s.occupied now).length :=
  ⟨_, _, _, grantRun_path sampleGrantConfig
    [sampleGrantIssue "tn_aaaaaaaaaaaaaaaa" "sub_aaaaaaaaaaaaaaaa" "prg_aaaaaaaaaaaaaaaa"
        "grt_aaaaaaaaaaaaaaaa",
      sampleGrantIssue "tn_bbbbbbbbbbbbbbbb" "sub_bbbbbbbbbbbbbbbb" "prg_bbbbbbbbbbbbbbbb"
        "grt_bbbbbbbbbbbbbbbb"] (by decide), by decide +kernel, by decide +kernel,
    by decide +kernel⟩

end WebrtcMinimize
