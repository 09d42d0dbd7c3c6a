import WebrtcMinimize.GrantModel

/-!
# Grants are used once and revocation wins

A grant is dead once neither a record that can still be authorized nor an
issuance that can still complete has its number. No step brings a dead grant
back (`Onward`), a completed authorization finds its grant usable and
consumes it where it is for single use, and each of the revocations leaves
its grants dead. What takes a place under a quota only grows where
`assertQuota` let it.
-/

namespace WebrtcMinimize

open Attempts Checks Runs

namespace BroadcastGrantAuthority

open KeyedMap List GrantStatus Nat

def epochOf (grant : BroadcastGrant) : String :=
  epochKey grant.tenantId grant.programId grant.programEpoch

/-- The record or reservation under an id has the number. -/
def Holds (s : BroadcastGrantAuthority) (grantId : String) (object : Nat) : Prop :=
  (∃ record, s.records.get grantId = some record ∧ record.object = object)
    ∨ ∃ pending, s.pendingIssues.get grantId = some pending ∧ pending.object = object

/-- A record that an authorization may still succeed with. -/
structure UsableRecord (s : BroadcastGrantAuthority) (record : GrantRecord) : Prop where
  issued : record.grant.status = .issued
  epoch : epochOf record.grant ∉ s.revokedEpochs

/-- A reservation whose issuance may still complete. -/
structure OpenIssue (s : BroadcastGrantAuthority) (pending : PendingIssue) : Prop where
  cancelled : pending.cancelled = false
  epoch : epochOf pending.grant ∉ s.revokedEpochs
  key : s.keys.get pending.key.kid = some pending.key
  enabled : pending.key.enabled = true
  active : s.activeKid = pending.key.kid
  generation : s.keyGeneration = pending.key.generation

def UsableGrant (s : BroadcastGrantAuthority) (object : Nat) : Prop :=
  ∃ grantId record, s.records.get grantId = some record ∧ record.object = object
    ∧ UsableRecord s record

def OpenGrant (s : BroadcastGrantAuthority) (object : Nat) : Prop :=
  ∃ grantId pending, s.pendingIssues.get grantId = some pending ∧ pending.object = object
    ∧ OpenIssue s pending

/-- The grant was made, and cannot be used any more. -/
structure Dead (s : BroadcastGrantAuthority) (object : Nat) : Prop where
  made : object < s.objects
  unusable : ¬UsableGrant s object
  closed : ¬OpenGrant s object

/-- What a later state can still use. -/
structure Onward (s t : BroadcastGrantAuthority) : Prop where
  objects : s.objects ≤ t.objects
  usable : ∀ object, object < s.objects → UsableGrant t object →
    UsableGrant s object ∨ OpenGrant s object
  pending : ∀ object, object < s.objects → OpenGrant t object → OpenGrant s object
  epochs : ∀ key, key ∈ s.revokedEpochs → key ∈ t.revokedEpochs

theorem Onward.refl (s : BroadcastGrantAuthority) : Onward s s :=
  ⟨le_refl _, fun _ _ h => .inl h, fun _ _ h => h, fun _ h => h⟩

variable {s : BroadcastGrantAuthority}

theorem Onward.trans {t u : BroadcastGrantAuthority} (hst : Onward s t) (htu : Onward t u) :
    Onward s u where
  objects := le_trans hst.objects htu.objects
  usable := fun object hlt hu => by
    rcases htu.usable object (lt_of_lt_of_le hlt hst.objects) hu with ht | ht
    · exact hst.usable object hlt ht
    · exact .inr (hst.pending object hlt ht)
  pending := fun object hlt hu =>
    hst.pending object hlt (htu.pending object (lt_of_lt_of_le hlt hst.objects) hu)
  epochs := fun key h => htu.epochs key (hst.epochs key h)

theorem Onward.dead {t : BroadcastGrantAuthority} (h : Onward s t) {object : Nat}
    (hdead : Dead s object) : Dead t object where
  made := lt_of_lt_of_le hdead.made h.objects
  unusable := fun hu => by
    rcases h.usable object hdead.made hu with hs | hs
    · exact hdead.unusable hs
    · exact hdead.closed hs
  closed := fun hopen => hdead.closed (h.pending object hdead.made hopen)

structure Sound (s : BroadcastGrantAuthority) : Prop where
  filed : ∀ grantId record, s.records.get grantId = some record → record.grant.grantId = grantId
  reserved : ∀ grantId pending, s.pendingIssues.get grantId = some pending →
    pending.grant.grantId = grantId ∧ s.records.get grantId = none
  made : ∀ grantId object, Holds s grantId object → object < s.objects
  one : ∀ grantId otherId object, Holds s grantId object → Holds s otherId object →
    grantId = otherId
  signed : ∀ grantId pending, s.pendingIssues.get grantId = some pending →
    pending.key.generation ≤ s.keyGeneration
  keyed : ∀ kid key, s.keys.get kid = some key → key.generation ≤ s.keyGeneration

theorem dead_of_record (hs : Sound s) {grantId : String}
    {record : GrantRecord} (hget : s.records.get grantId = some record)
    (hnot : ¬UsableRecord s record) : Dead s record.object := by
  have hheld : Holds s grantId record.object := .inl ⟨record, hget, rfl⟩
  refine ⟨hs.made grantId _ hheld, ?_, ?_⟩
  · rintro ⟨otherId, other, hother, hobject, hused⟩
    obtain rfl := hs.one otherId grantId _ (.inl ⟨other, hother, hobject⟩) hheld
    rw [hget] at hother
    cases hother
    exact hnot hused
  · rintro ⟨otherId, other, hother, hobject, -⟩
    obtain rfl := hs.one otherId grantId _ (.inr ⟨other, hother, hobject⟩) hheld
    rw [(hs.reserved otherId other hother).2] at hget
    cases hget

theorem dead_of_reservation (hs : Sound s) {grantId : String}
    {pending : PendingIssue} (hget : s.pendingIssues.get grantId = some pending)
    (hnot : ¬OpenIssue s pending) : Dead s pending.object := by
  have hheld : Holds s grantId pending.object := .inr ⟨pending, hget, rfl⟩
  refine ⟨hs.made grantId _ hheld, ?_, ?_⟩
  · rintro ⟨otherId, other, hother, hobject, -⟩
    obtain rfl := hs.one otherId grantId _ (.inl ⟨other, hother, hobject⟩) hheld
    rw [(hs.reserved otherId pending hget).2] at hother
    cases hother
  · rintro ⟨otherId, other, hother, hobject, hissue⟩
    obtain rfl := hs.one otherId grantId _ (.inr ⟨other, hother, hobject⟩) hheld
    rw [hget] at hother
    cases hother
    exact hnot hissue

/-- No more places are taken, at any time. -/
def Fewer (s t : BroadcastGrantAuthority) : Prop :=
  ∀ now p, (t.occupied now).countP p ≤ (s.occupied now).countP p

theorem countP_occupied (s : BroadcastGrantAuthority) (now : Nat) (p : BroadcastGrant → Bool) :
    (s.occupied now).countP p = s.records.values.countP (fun record =>
          decide (record.grant.status = .issued ∧ now < record.grant.expiresAt) && p record.grant)
        + s.pendingIssues.values.countP (fun pending => p pending.grant) := by
  rw [occupied, countP_append, countP_map, countP_map, activeRecords, countP_filter]
  congr 1
  · refine countP_congr fun record _ => ?_
    simp [Bool.and_comm]

/-- What is kept since a state, where no grant is made. -/
structure Since (s₀ s : BroadcastGrantAuthority) : Prop where
  sound : Sound s
  onward : Onward s₀ s
  fewer : Fewer s₀ s

theorem Since.refl {s : BroadcastGrantAuthority} (h : Sound s) : Since s s :=
  ⟨h, .refl s, fun _ _ => le_refl _⟩

theorem Since.trans {s t u : BroadcastGrantAuthority} (hst : Since s t) (htu : Since t u) :
    Since s u :=
  ⟨htu.sound, hst.onward.trans htu.onward, fun now p =>
    le_trans (htu.fewer now p) (hst.fewer now p)⟩

/-! ## Records that are written -/

/-- Records were moved on or removed, and nothing else changed. -/
structure Shrunk (s t : BroadcastGrantAuthority) : Prop where
  rest : t = { s with records := t.records }
  back : ∀ grantId record, t.records.get grantId = some record →
    ∃ before, s.records.get grantId = some before ∧ record.object = before.object
      ∧ record.grant.grantId = before.grant.grantId ∧ epochOf record.grant = epochOf before.grant
      ∧ (record = before ∨ record.grant.status ≠ .issued)
  fewer : Fewer s t

theorem Shrunk.refl (s : BroadcastGrantAuthority) : Shrunk s s :=
  ⟨rfl, fun _ record h => ⟨record, h, rfl, rfl, rfl, .inl rfl⟩, fun _ _ => le_refl _⟩

section

variable {s t : BroadcastGrantAuthority}

theorem Shrunk.pendingIssues (h : Shrunk s t) : t.pendingIssues = s.pendingIssues := by rw [h.rest]

variable {grantId : String} {object : Nat}

section

variable (h : Shrunk s t)

include h

theorem Shrunk.holds
    (hholds : Holds t grantId object) : Holds s grantId object := by
  rcases hholds with ⟨record, hget, rfl⟩ | ⟨pending, hget, rfl⟩
  · obtain ⟨before, hbefore, hobject, -⟩ := h.back grantId record hget
    exact .inl ⟨before, hbefore, hobject.symm⟩
  · rw [h.pendingIssues] at hget
    exact .inr ⟨pending, hget, rfl⟩

theorem Shrunk.usable (husable : UsableGrant t object) : UsableGrant s object := by
  obtain ⟨grantId, record, hget, rfl, hrecord⟩ := husable
  obtain ⟨before, hbefore, hobject, -, -, hsame⟩ := h.back grantId record hget
  rcases hsame with rfl | hnot
  · refine ⟨grantId, record, hbefore, rfl, hrecord.issued, ?_⟩
    have hepoch := hrecord.epoch
    rw [h.rest] at hepoch
    exact hepoch
  · exact absurd hrecord.issued hnot

theorem Shrunk.openGrant (hopen : OpenGrant t object) : OpenGrant s object := by
  rw [h.rest] at hopen
  obtain ⟨grantId, pending, hget, hobject, hcancelled, hepoch, hkey, henabled, hactive,
    hgeneration⟩ := hopen
  exact ⟨grantId, pending, hget, hobject, hcancelled, hepoch, hkey, henabled, hactive, hgeneration⟩

theorem Shrunk.since (hs : Sound s) : Since s t where
  sound := {
    filed := fun grantId record hget => by
      obtain ⟨before, hbefore, -, hid, -⟩ := h.back grantId record hget
      rw [hid]
      exact hs.filed grantId before hbefore
    reserved := fun grantId pending hget => by
      rw [h.pendingIssues] at hget
      obtain ⟨hid, hnone⟩ := hs.reserved grantId pending hget
      refine ⟨hid, ?_⟩
      cases hrecord : t.records.get grantId with
      | none => rfl
      | some record =>
          obtain ⟨before, hbefore, -⟩ := h.back grantId record hrecord
          rw [hnone] at hbefore
          cases hbefore
    made := fun grantId object hholds => by
      have := hs.made grantId object (h.holds hholds)
      rw [h.rest]
      exact this
    one := fun grantId otherId object hholds hother =>
      hs.one grantId otherId object (h.holds hholds) (h.holds hother)
    signed := fun grantId pending hget => by
      rw [h.pendingIssues] at hget
      have := hs.signed grantId pending hget
      rw [h.rest]
      exact this
    keyed := by
      rw [h.rest]
      exact hs.keyed }
  onward := ⟨by rw [h.rest], fun _ _ hu => .inl (h.usable hu), fun _ _ => h.openGrant,
    by rw [h.rest]; exact fun _ hkey => hkey⟩
  fewer := h.fewer

theorem Shrunk.erase (grantId : String) :
    Shrunk s { t with records := t.records.erase grantId } where
  rest := by rw [h.rest]
  back := fun otherId record hget =>
    h.back otherId record (get_keep_eq_some_iff.mp hget).1
  fewer := fun now p => by
    refine le_trans ?_ (h.fewer now p)
    rw [countP_occupied, countP_occupied]
    exact Nat.add_le_add_right (values_keep_sublist _ _).countP_le _

end

variable {record : GrantRecord} {status : GrantStatus}

theorem transition_ok {next : GrantRecord} {now : Nat}
    (h : record.transition status now = .ok next) (hstatus : status ≠ .issued) :
    next.grant.status ≠ .issued ∧ next.object = record.object
      ∧ next.grant.grantId = record.grant.grantId ∧ epochOf next.grant = epochOf record.grant := by
  rw [GrantRecord.transition] at h
  split at h
  · rename_i hnot
    cases h
    exact ⟨hnot, rfl, rfl, rfl⟩
  · obtain ⟨_, -, h⟩ := bind_ok_iff.mp h
    cases h
    exact ⟨hstatus, rfl, rfl, rfl⟩

theorem Shrunk.write (h : Shrunk s t) {before next : GrantRecord}
    (hbefore : s.records.get before.grant.grantId = some before)
    (hnot : next.grant.status ≠ .issued) (hobject : next.object = before.object)
    (hid : next.grant.grantId = before.grant.grantId)
    (hepoch : epochOf next.grant = epochOf before.grant) :
    Shrunk s { t with records := t.records.set next.grant.grantId next } where
  rest := by rw [h.rest]
  back := fun grantId record hget => by
    rcases get_set_some hget with ⟨heq, rfl⟩ | ⟨-, hget⟩
    · exact ⟨before, heq ▸ hid ▸ hbefore, hobject, hid, hepoch, .inr hnot⟩
    · exact h.back grantId record hget
  fewer := fun now p => by
    refine le_trans ?_ (h.fewer now p)
    rw [countP_occupied, countP_occupied]
    refine Nat.add_le_add_right ?_ _
    refine Nat.le_trans (countP_values_set_le _ _ _ _) ?_
    simp [hnot]

/-- No record of the id can be authorized. -/
def Spent (grantId : String) (t : BroadcastGrantAuthority) : Prop :=
  ∀ record, t.records.get grantId = some record → record.grant.status ≠ .issued

theorem ensures_transition (hrecord : s.records.get record.grant.grantId = some record)
    (hstatus : status ≠ .issued) (now : Nat) :
    Ensures (Shrunk s) (transition record status now)
      (fun grant t => Shrunk s t ∧ Spent record.grant.grantId t
        ∧ grant.grantId = record.grant.grantId) (Shrunk s) := by
  refine .check_bind (fun _ h => h) fun next hnext => ?_
  obtain ⟨hnot, hobject, hid, hepoch⟩ := transition_ok hnext hstatus
  refine .write_bind (Q := fun t => Shrunk s t ∧ Spent record.grant.grantId t) (fun t h => ?_) ?_
  · refine ⟨h.write hrecord hnot hobject hid hepoch, fun other hother => ?_⟩
    rw [hid] at hother
    simp only [get_set_self, Option.some.injEq] at hother
    exact hother ▸ hnot
  · exact .ret fun t h => ⟨h.1, h.2, hid⟩

theorem ensures_spent (grantId : String) (record : GrantRecord)
    (hstatus : status ≠ .issued) (now : Nat) :
    Ensures (Spent grantId) (transition record status now) (fun _ => Spent grantId)
      (fun _ => True) := by
  refine .check_bind (fun _ _ => trivial) fun next hnext => ?_
  obtain ⟨hnot, -⟩ := transition_ok hnext hstatus
  refine .write_bind (fun t h other hother => ?_) (.ret fun _ h => h)
  rcases get_set_some hother with ⟨-, rfl⟩ | ⟨-, hother⟩
  · exact hnot
  · exact h other hother

theorem ensures_transitions (hs : Sound s) {records : List GrantRecord}
    (hrecords : ∀ record ∈ records, record ∈ s.records.values)
    (hstatus : status ≠ .issued) (now : Nat) :
    Ensures (Shrunk s) (records.forM fun record => do
        let _ ← transition record status now)
      (fun _ t => Shrunk s t ∧ ∀ record ∈ records, Spent record.grant.grantId t) (Shrunk s) := by
  refine .forM_each (fun record hrecord => ?_) fun record hrecord other => ?_
  · have hget : s.records.get record.grant.grantId = some record := by
      obtain ⟨grantId, hget⟩ := mem_values_iff.mp (hrecords record hrecord)
      rw [hs.filed grantId record hget]
      exact hget
    exact .bind (ensures_transition hget hstatus now) fun _ => .ret fun _ h => ⟨h.1, h.2.1⟩
  · exact .bind (ensures_spent other.grant.grantId record hstatus now) fun _ => .ret fun _ h => h

theorem dead_of_spent (hs : Sound s) (h : Shrunk s t)
    (hget : s.records.get grantId = some record) (hspent : Spent grantId t) :
    Dead t record.object := by
  have hheld : Holds s grantId record.object := .inl ⟨record, hget, rfl⟩
  refine ⟨?_, ?_, ?_⟩
  · rw [h.rest]
    exact hs.made grantId _ hheld
  · rintro ⟨otherId, other, hother, hobject, husable⟩
    obtain rfl := hs.one otherId grantId _ (h.holds (.inl ⟨other, hother, hobject⟩)) hheld
    exact hspent other hother husable.issued
  · rintro ⟨otherId, pending, hpending, hobject, -⟩
    have hother : Holds s otherId record.object := h.holds (.inr ⟨pending, hpending, hobject⟩)
    obtain rfl := hs.one otherId grantId _ hother hheld
    rw [h.pendingIssues] at hpending
    rw [(hs.reserved otherId pending hpending).2] at hget
    cases hget

theorem ensures_prune (hs : Sound s) (config : GrantConfig) (now : Nat) :
    Ensures (· = s) (prune config now) (fun _ => Shrunk s) (Shrunk s) := by
  refine .get_bind fun u hu => ?_
  subst hu
  refine .mono (.forM (I := Shrunk u) fun record hrecord => ?_) (fun _ h => h ▸ .refl u)
    (fun _ _ h => h) fun _ h => h
  have hget : u.records.get record.grant.grantId = some record := by
    obtain ⟨grantId, hget⟩ := mem_values_iff.mp hrecord
    rw [hs.filed grantId record hget]
    exact hget
  have hexpire : Ensures (Shrunk u) (expire record now) (fun _ => Shrunk u) (Shrunk u) := by
    rw [expire]
    split
    · exact .bind (ensures_transition hget (fun h => by cases h) now) fun _ => .ret fun _ h => h.1
    · exact .ret fun _ h => h
  have hforget : Ensures (Shrunk u) (forget config record now) (fun _ => Shrunk u) (Shrunk u) := by
    rw [forget]
    split
    · exact .write fun _ h => h.erase _
    · exact .ret fun _ h => h
  exact .bind hexpire fun _ => hforget

variable {pending : PendingIssue}

theorem countP_pending_erase {s : BroadcastGrantAuthority}
    (hget : s.pendingIssues.get grantId = some pending) (p : PendingIssue → Bool) :
    s.pendingIssues.values.countP p
      = (s.pendingIssues.erase grantId).values.countP p + if p pending = true then 1 else 0 := by
  rw [(values_perm_erase hget).countP_eq, countP_cons]

theorem Sound.of_holds (hs : Sound s) (hobjects : s.objects ≤ t.objects)
    (hgeneration : s.keyGeneration ≤ t.keyGeneration)
    (hholds : ∀ grantId object, Holds t grantId object → Holds s grantId object)
    (hfiled : ∀ grantId record, t.records.get grantId = some record →
      record.grant.grantId = grantId)
    (hreserved : ∀ grantId pending, t.pendingIssues.get grantId = some pending →
      t.records.get grantId = none ∧ ∃ before, s.pendingIssues.get grantId = some before
        ∧ pending.grant = before.grant ∧ pending.key = before.key)
    (hkeyed : ∀ kid key, t.keys.get kid = some key → key.generation ≤ t.keyGeneration) :
    Sound t where
  filed := hfiled
  reserved := fun grantId pending hget => by
    obtain ⟨hnone, before, hbefore, hgrant, -⟩ := hreserved grantId pending hget
    exact ⟨hgrant ▸ (hs.reserved grantId before hbefore).1, hnone⟩
  made := fun grantId object h =>
    lt_of_lt_of_le (hs.made grantId object (hholds grantId object h)) hobjects
  one := fun grantId otherId object h hother =>
    hs.one grantId otherId object (hholds grantId object h) (hholds otherId object hother)
  signed := fun grantId pending hget => by
    obtain ⟨-, before, hbefore, -, hkey⟩ := hreserved grantId pending hget
    rw [hkey]
    exact le_trans (hs.signed grantId before hbefore) hgeneration
  keyed := hkeyed

theorem since_erase_pending (hs : Sound s) (grantId : String) :
    Since s { s with pendingIssues := s.pendingIssues.erase grantId } where
  sound := by
    refine hs.of_holds (le_refl _) (le_refl _) ?_ hs.filed (fun otherId pending hget => ?_)
      hs.keyed
    · rintro otherId object (⟨record, hget, hobject⟩ | ⟨pending, hget, hobject⟩)
      · exact .inl ⟨record, hget, hobject⟩
      · exact .inr ⟨pending, (get_keep_eq_some_iff.mp hget).1, hobject⟩
    · have hbefore := (get_keep_eq_some_iff.mp hget).1
      exact ⟨(hs.reserved otherId pending hbefore).2, pending, hbefore, rfl, rfl⟩
  onward := by
    refine ⟨le_refl _, fun object _ husable => ?_, fun object _ hopen => ?_, fun _ h => h⟩
    · obtain ⟨otherId, record, hget, hobject, hrecord⟩ := husable
      exact .inl ⟨otherId, record, hget, hobject, hrecord.issued, hrecord.epoch⟩
    · obtain ⟨otherId, pending, hget, hobject, hpending⟩ := hopen
      exact ⟨otherId, pending, (get_keep_eq_some_iff.mp hget).1, hobject,
        hpending.cancelled, hpending.epoch, hpending.key, hpending.enabled, hpending.active,
        hpending.generation⟩
  fewer := fun now p => by
    rw [countP_occupied, countP_occupied]
    exact Nat.add_le_add_left (values_keep_sublist _ _).countP_le _

/-- The record of a grant that was signed. -/
def signedRecord (pending : PendingIssue) : GrantRecord where
  grant := pending.grant
  programRevision := pending.programRevision
  pathPrefix := pending.pathPrefix
  kid := pending.key.kid
  keyGeneration := pending.key.generation
  object := pending.object

section

variable (hs : Sound s)

include hs

theorem since_signed
    (hget : s.pendingIssues.get grantId = some pending) (hopen : OpenIssue s pending) :
    Since s { s with
      pendingIssues := s.pendingIssues.erase grantId
      records := s.records.set grantId (signedRecord pending) } where
  sound := by
    refine hs.of_holds (Nat.le_refl _) (Nat.le_refl _) ?_ (fun otherId record hrecord => ?_)
      (fun otherId other hother => ?_) hs.keyed
    · rintro otherId object (⟨record, hrecord, hobject⟩ | ⟨other, hother, hobject⟩)
      · rcases get_set_some hrecord with ⟨heq, rfl⟩ | ⟨-, hrecord⟩
        · exact .inr ⟨pending, heq ▸ hget, hobject⟩
        · exact .inl ⟨record, hrecord, hobject⟩
      · exact .inr ⟨other, (get_keep_eq_some_iff.mp hother).1, hobject⟩
    · rcases get_set_some hrecord with ⟨heq, rfl⟩ | ⟨-, hrecord⟩
      · exact heq ▸ (hs.reserved grantId pending hget).1
      · exact hs.filed otherId record hrecord
    · obtain ⟨hbefore, hne⟩ := get_keep_eq_some_iff.mp hother
      refine ⟨?_, other, hbefore, rfl, rfl⟩
      rw [get_set_of_ne _ _ (of_decide_eq_true hne)]
      exact (hs.reserved otherId other hbefore).2
  onward := by
    refine ⟨Nat.le_refl _, fun object _ husable => ?_, fun object _ hopened => ?_, fun _ h => h⟩
    · obtain ⟨otherId, record, hrecord, hobject, hused⟩ := husable
      rcases get_set_some hrecord with ⟨-, rfl⟩ | ⟨-, hrecord⟩
      · exact .inr ⟨grantId, pending, hget, hobject, hopen⟩
      · exact .inl ⟨otherId, record, hrecord, hobject, hused.issued, hused.epoch⟩
    · obtain ⟨otherId, other, hother, hobject, hpending⟩ := hopened
      exact ⟨otherId, other, (get_keep_eq_some_iff.mp hother).1, hobject,
        hpending.cancelled, hpending.epoch, hpending.key, hpending.enabled, hpending.active,
        hpending.generation⟩
  fewer := fun now p => by
    rw [countP_occupied, countP_occupied, countP_pending_erase hget]
    have hset := countP_values_set_le s.records grantId (signedRecord pending)
      fun record => decide (record.grant.status = .issued ∧ now < record.grant.expiresAt) && p record.grant
    have hone : ∀ a b : Bool, (if (a && b) = true then 1 else 0) ≤ if b = true then 1 else 0 := by
      decide
    have hplace := hone (decide ((signedRecord pending).grant.status = .issued
      ∧ now < (signedRecord pending).grant.expiresAt)) (p pending.grant)
    have hrecords := Nat.le_trans hset (Nat.add_le_add_left hplace _)
    exact (Nat.add_le_add_right hrecords _).trans_eq
      ((Nat.add_assoc _ _ _).trans (congrArg _ (Nat.add_comm _ _)))

theorem ensures_completeIssue (grantId : String) (signed : Except String Unit) :
    Ensures (· = s) (completeIssue grantId signed)
      (fun result t => Since s t ∧ ∀ grant, result = some grant →
        ∃ pending, s.pendingIssues.get grantId = some pending ∧ pending.grant = grant
          ∧ OpenIssue s pending)
      (Since s) := by
  refine .get_bind fun u hu => ?_
  subst hu
  cases hget : u.pendingIssues.get grantId with
  | none =>
      refine .ret ?_
      rintro _ rfl
      exact ⟨.refl hs, fun _ hr => by cases hr⟩
  | some pending =>
      have herased := since_erase_pending hs grantId
      refine .write_bind (Q := (· = { u with pendingIssues := u.pendingIssues.erase grantId }))
        (fun t ht => by rw [ht]) ?_
      refine .check_bind (fun t ht => ht ▸ herased) fun _ _ => ?_
      refine .failWhen_bind (fun t ht => ht ▸ herased) fun hepoch => ?_
      refine .failWhen_bind (fun t ht => ht ▸ herased) fun hkey => ?_
      simp only [not_or, Bool.not_eq_true, ne_eq, not_not, Bool.not_eq_false] at hkey
      obtain ⟨hcancelled, hsame, henabled, hactive, hgeneration⟩ := hkey
      have hopen : OpenIssue u pending :=
        ⟨hcancelled, hepoch, hsame, henabled, hactive, hgeneration⟩
      refine .write_bind (Q := Since u) (fun t ht => ?_) ?_
      · subst ht
        exact since_signed hs hget hopen
      · exact .ret fun t ht => ⟨ht, fun grant hgrant =>
          ⟨pending, rfl, Option.some.inj hgrant, hopen⟩⟩

/-- The records and reservations are the same, and no more of them can be
used. -/
theorem since_rest (hrecords : t.records = s.records)
    (hpending : t.pendingIssues = s.pendingIssues) (hobjects : t.objects = s.objects)
    (hgeneration : s.keyGeneration ≤ t.keyGeneration)
    (hkeyed : ∀ kid key, t.keys.get kid = some key → key.generation ≤ t.keyGeneration)
    (hepochs : ∀ key, key ∈ s.revokedEpochs → key ∈ t.revokedEpochs)
    (hopen : ∀ grantId pending, s.pendingIssues.get grantId = some pending →
      OpenIssue t pending → OpenIssue s pending) : Since s t where
  sound := by
    refine hs.of_holds (le_of_eq hobjects.symm) hgeneration ?_ (hrecords ▸ hs.filed) ?_ hkeyed
    · rw [funext fun grantId => funext fun object => show Holds t grantId object
        = Holds s grantId object by rw [Holds, Holds, hrecords, hpending]]
      exact fun _ _ h => h
    · rw [hrecords, hpending]
      exact fun grantId pending hget =>
        ⟨(hs.reserved grantId pending hget).2, pending, hget, rfl, rfl⟩
  onward := by
    refine ⟨le_of_eq hobjects.symm, fun object _ husable => ?_, fun object _ hopened => ?_,
      hepochs⟩
    · obtain ⟨grantId, record, hget, hobject, hrecord⟩ := husable
      rw [hrecords] at hget
      exact .inl ⟨grantId, record, hget, hobject, hrecord.issued,
        fun h => hrecord.epoch (hepochs _ h)⟩
    · obtain ⟨grantId, pending, hget, hobject, hissue⟩ := hopened
      rw [hpending] at hget
      exact ⟨grantId, pending, hget, hobject, hopen grantId pending hget hissue⟩
  fewer := fun now p => by rw [countP_occupied, countP_occupied, hrecords, hpending]

/-- Authorizations begin and end without a change to the grants. -/
theorem since_authorizations (authorizations : KeyedMap Nat PendingAuthorization)
    (begun : Nat) : Since s { s with
      authorizations := authorizations
      begun := begun } :=
  since_rest hs rfl rfl rfl (le_refl _) hs.keyed (fun _ h => h)
    fun _ _ _ h => ⟨h.cancelled, h.epoch, h.key, h.enabled, h.active, h.generation⟩

theorem ensures_authorizeBearer (bearer : Bearer) (expectation : GrantExpectation)
    (now : Nat) :
    Ensures (· = s) (authorizeBearer bearer expectation now) (fun _ => Since s) (Since s) := by
  have hkept : ∀ u, u = s → Since s u := by
    rintro u rfl
    exact .refl hs
  cases bearer with
  | malformed => exact .failed hkept
  | missing => exact .failed hkept
  | tooLong => exact .failed hkept
  | token header jti =>
      refine .check_bind hkept fun expected _ => ?_
      refine .get_bind fun u hu => ?_
      subst hu
      cases header with
      | none => exact .failed hkept
      | some header =>
          dsimp only
          split
          · exact .failed hkept
          · refine .failWhen_bind hkept fun _ => ?_
            refine .write fun t ht => ?_
            subst ht
            exact since_authorizations hs _ _

theorem ensures_authorizeGatewayBearer (bearer : Bearer) (action path : String)
    (grantKinds : List GrantKind) (now : Nat) :
    Ensures (· = s) (authorizeGatewayBearer bearer action path grantKinds now)
      (fun _ => Since s) (Since s) := by
  have hkept : ∀ u, u = s → Since s u := by
    rintro u rfl
    exact .refl hs
  refine .failWhen_bind hkept fun _ => ?_
  cases bearer with
  | malformed => exact .failed hkept
  | missing => exact .failed hkept
  | tooLong => exact .failed hkept
  | token header jti =>
      cases jti with
      | none => exact .failed hkept
      | some jti =>
          refine .get_bind fun u hu => ?_
          subst hu
          split
          · exact .failed hkept
          · exact .failWhen_bind hkept fun _ => ensures_authorizeBearer hs _ _ _

theorem ensures_completeAuthorization (id : Nat) (payload : Option GrantClaims) :
    Ensures (· = s) (completeAuthorization id payload)
      (fun result t => Since s t ∧ ∀ grant, result = some grant →
        ∃ record, s.records.get grant.grantId = some record ∧ UsableRecord s record
          ∧ (grant.singleUse = true → Dead t record.object))
      (Since s) := by
  refine .get_bind fun u hu => ?_
  subst hu
  split
  · refine .ret ?_
    rintro _ rfl
    exact ⟨.refl hs, fun _ hr => by cases hr⟩
  · rename_i pending _
    have hbegun := since_authorizations hs (u.authorizations.erase id) u.begun
    refine .write_bind (Q := (· = { u with authorizations := u.authorizations.erase id }))
      (fun t ht => by rw [ht]) ?_
    have hkept : ∀ t, t = { u with authorizations := u.authorizations.erase id } → Since u t :=
      fun t ht => ht ▸ hbegun
    cases payload with
    | none => exact .failed hkept
    | some payload =>
        dsimp only
        split
        · exact .failed hkept
        · rename_i record hget
          refine .failWhen_bind hkept fun hepoch => ?_
          refine .failWhen_bind hkept fun hactive => ?_
          simp only [not_or, ne_eq, not_not] at hactive
          have husable : UsableRecord u record := ⟨hactive.1, hepoch⟩
          have hid := hs.filed payload.jti record hget
          refine .failWhen_bind hkept fun _ => ?_
          refine .failWhen_bind hkept fun _ => ?_
          refine .failWhen_bind hkept fun _ => ?_
          refine .check_bind hkept fun _ _ => ?_
          refine .check_bind hkept fun _ _ => ?_
          refine .failWhen_bind hkept fun _ => ?_
          split
          · have hmoved := ensures_transition (s := { u with
              authorizations := u.authorizations.erase id }) (hid.symm ▸ hget)
              (by decide : consumed ≠ .issued) pending.now
            refine .bind (hmoved.mono (fun t ht => ht ▸ .refl _) (fun _ _ h => h)
              fun t h => hbegun.trans (h.since hbegun.sound)) fun grant => ?_
            refine .ret fun t ht => ⟨hbegun.trans (ht.1.since hbegun.sound), fun other hother => ?_⟩
            cases hother
            rw [ht.2.2, hid]
            refine ⟨record, hget, husable, fun _ => ?_⟩
            exact dead_of_spent hbegun.sound ht.1 hget (hid ▸ ht.2.1)
          · rename_i hplayback
            refine .ret fun t ht => ⟨hkept t ht, fun other hother => ?_⟩
            cases hother
            exact ⟨record, hid.symm ▸ hget, husable, fun h => absurd h hplayback⟩

end

/-! ## Revocations -/

/-- The reservation is cancelled, and its signature will not be returned. -/
theorem since_cancel (hs : Sound s) (hget : s.pendingIssues.get grantId = some pending) :
    Since s { s with pendingIssues := s.pendingIssues.set grantId { pending with
      cancelled := true } } where
  sound := by
    refine hs.of_holds (le_refl _) (le_refl _) ?_ hs.filed (fun otherId other hother => ?_)
      hs.keyed
    · rintro otherId object (⟨record, hrecord, hobject⟩ | ⟨other, hother, hobject⟩)
      · exact .inl ⟨record, hrecord, hobject⟩
      · rcases get_set_some hother with ⟨heq, rfl⟩ | ⟨-, hother⟩
        · exact .inr ⟨pending, heq ▸ hget, hobject⟩
        · exact .inr ⟨other, hother, hobject⟩
    · rcases get_set_some hother with ⟨heq, rfl⟩ | ⟨-, hother⟩
      · exact ⟨heq ▸ (hs.reserved grantId pending hget).2, pending, heq ▸ hget, rfl, rfl⟩
      · exact ⟨(hs.reserved otherId other hother).2, other, hother, rfl, rfl⟩
  onward := by
    refine ⟨le_refl _, fun object _ husable => ?_, fun object _ hopened => ?_, fun _ h => h⟩
    · obtain ⟨otherId, record, hrecord, hobject, hused⟩ := husable
      exact .inl ⟨otherId, record, hrecord, hobject, hused.issued, hused.epoch⟩
    · obtain ⟨otherId, other, hother, hobject, hissue⟩ := hopened
      rcases get_set_some hother with ⟨-, rfl⟩ | ⟨-, hother⟩
      · cases hissue.cancelled
      · exact ⟨otherId, other, hother, hobject, hissue.cancelled, hissue.epoch, hissue.key,
          hissue.enabled, hissue.active, hissue.generation⟩
  fewer := fun now p => by
    have hsame := map_values_set (f := PendingIssue.grant) hget
      (v := { pending with cancelled := true }) rfl
    rw [occupied, occupied, hsame]
    exact le_refl _

theorem dead_of_cancelled (hs : Sound s) (hget : s.pendingIssues.get grantId = some pending)
    (hholds : Holds s grantId object) :
    Dead { s with pendingIssues := s.pendingIssues.set grantId { pending with
      cancelled := true } } object := by
  rcases hholds with ⟨record, hrecord, -⟩ | ⟨other, hother, rfl⟩
  · rw [(hs.reserved grantId pending hget).2] at hrecord
    cases hrecord
  · rw [hget] at hother
    cases hother
    have hset := get_set_self s.pendingIssues grantId { pending with cancelled := true }
    have hdead := dead_of_reservation (since_cancel hs hget).sound hset fun h => by
      cases h.cancelled
    exact hdead

theorem ensures_revokeGrant (hs : Sound s) (grantId : String) (now : Nat) :
    Ensures (· = s) (revokeGrant grantId now)
      (fun found t => Since s t ∧ (found = true → ∀ object, Holds s grantId object → Dead t object))
      (Since s) := by
  refine .get_bind fun u hu => ?_
  subst hu
  split
  · rename_i pending hget
    refine .write_bind (Q := (· = { u with
      pendingIssues := u.pendingIssues.set grantId { pending with cancelled := true } })) (fun t ht => by rw [ht]) (.ret ?_)
    rintro _ rfl
    exact ⟨since_cancel hs hget, fun _ object hholds => dead_of_cancelled hs hget hholds⟩
  · rename_i hpending
    split
    · refine .ret ?_
      rintro _ rfl
      exact ⟨.refl hs, fun h => by cases h⟩
    · rename_i record hget
      have hid := hs.filed grantId record hget
      have hmoved := ensures_transition (s := u) (hid.symm ▸ hget)
        (by decide : revoked ≠ .issued) now
      refine .bind (hmoved.mono (fun t ht => ht ▸ .refl u) (fun _ _ h => h) fun t h => h.since hs)
        fun grant => .ret fun t ht => ⟨ht.1.since hs, fun _ object hholds => ?_⟩
      rcases hholds with ⟨other, hother, rfl⟩ | ⟨other, hother, -⟩
      · rw [hget] at hother
        cases hother
        exact dead_of_spent hs ht.1 hget (hid ▸ ht.2.1)
      · rw [hpending] at hother
        cases hother

/-- The number is of a grant with the property, signed or to be signed with
a key that has it. -/
def Carries (s : BroadcastGrantAuthority) (p : BroadcastGrant → String → Prop) (object : Nat) :
    Prop :=
  (∃ grantId record, s.records.get grantId = some record ∧ record.object = object
      ∧ p record.grant record.kid)
    ∨ ∃ grantId pending, s.pendingIssues.get grantId = some pending ∧ pending.object = object
      ∧ p pending.grant pending.key.kid

def OfEpoch (key : String) (grant : BroadcastGrant) (_ : String) : Prop := epochOf grant = key

def SignedBy (kid : String) (_ : BroadcastGrant) (signer : String) : Prop := signer = kid

theorem dead_of_epoch (hs : Sound s) {key : String} (hkey : key ∈ s.revokedEpochs)
    (hcarries : Carries s (OfEpoch key) object) : Dead s object := by
  rcases hcarries with ⟨grantId, record, hget, rfl, rfl⟩ | ⟨grantId, pending, hget, rfl, rfl⟩
  · exact dead_of_record hs hget fun h => h.epoch hkey
  · exact dead_of_reservation hs hget fun h => h.epoch hkey

theorem since_epoch (hs : Sound s) (key : String) :
    Since s { s with revokedEpochs := key :: s.revokedEpochs } :=
  since_rest hs rfl rfl rfl (le_refl _) hs.keyed (fun _ => mem_cons_of_mem key)
    fun _ _ _ h => ⟨h.cancelled, fun hepoch => h.epoch (mem_cons_of_mem key hepoch), h.key,
      h.enabled, h.active, h.generation⟩

/-- The epoch is revoked, and every grant of it is dead. -/
structure EpochOver (s : BroadcastGrantAuthority) (key : String) (t : BroadcastGrantAuthority) :
    Prop where
  since : Since s t
  revoked : key ∈ t.revokedEpochs
  dead : ∀ object, Carries s (OfEpoch key) object → Dead t object

/-- Whether or not every record could be moved on, the epoch is over. -/
theorem ensures_revokeProgramEpoch (hs : Sound s) (tenantId programId : String)
    (programEpoch now : Nat) (hepoch : positiveIntegerOK programEpoch = true) :
    Ensures (· = s) (revokeProgramEpoch tenantId programId programEpoch now)
      (fun _ => EpochOver s (epochKey tenantId programId programEpoch))
      (EpochOver s (epochKey tenantId programId programEpoch)) := by
  have hsince := since_epoch hs (epochKey tenantId programId programEpoch)
  refine .failWhen_skip (by simp [hepoch]) ?_
  refine .write_bind (Q := (· = { s with
    revokedEpochs := epochKey tenantId programId programEpoch :: s.revokedEpochs }))
    (fun t ht => by rw [ht]) ?_
  refine .get_bind fun u hu => ?_
  subst hu
  have hover : ∀ t, Shrunk _ t → EpochOver s (epochKey tenantId programId programEpoch) t :=
    fun t ht => {
      since := hsince.trans (ht.since hsince.sound)
      revoked := (ht.since hsince.sound).onward.epochs _ mem_cons_self
      dead := fun object hcarries => (ht.since hsince.sound).onward.dead
        (dead_of_epoch hsince.sound mem_cons_self hcarries) }
  refine .bind ((ensures_transitions hsince.sound (fun record h => (mem_filter.mp h).1)
    (by decide : revoked ≠ .issued) now).mono (fun t ht => ht ▸ .refl _)
      (fun _ _ h => h) fun t ht => hover t ht) fun _ => .ret fun t ht => hover t ht.1

theorem since_revokeProgramEpoch (hs : Sound s) (tenantId programId : String)
    (programEpoch now : Nat) :
    Ensures (· = s) (revokeProgramEpoch tenantId programId programEpoch now) (fun _ => Since s)
      (Since s) := by
  by_cases hepoch : positiveIntegerOK programEpoch = true
  · exact (ensures_revokeProgramEpoch hs tenantId programId programEpoch now hepoch).mono
      (fun _ h => h) (fun _ _ h => h.since) fun _ h => h.since
  · refine .failWhen_bind ?_ fun h => absurd (Bool.eq_false_iff.mpr hepoch) h
    rintro _ rfl
    exact .refl hs

theorem not_openGrant_of_generation (hs : Sound s) (hpending : t.pendingIssues = s.pendingIssues)
    (hgeneration : s.keyGeneration < t.keyGeneration) (object : Nat) : ¬OpenGrant t object := by
  rintro ⟨grantId, pending, hget, -, hissue⟩
  rw [hpending] at hget
  have hsigned := hs.signed grantId pending hget
  rw [← hissue.generation] at hsigned
  omega

theorem since_generation (hs : Sound s) (generation : Nat) (hlt : s.keyGeneration < generation) :
    Since s { s with keyGeneration := generation } :=
  since_rest hs rfl rfl rfl (le_of_lt hlt)
    (fun kid key hget => le_trans (hs.keyed kid key hget) (le_of_lt hlt)) (fun _ h => h)
    fun grantId pending hget h =>
      (not_openGrant_of_generation (t := { s with keyGeneration := generation }) hs rfl hlt
        pending.object ⟨grantId, pending, hget, rfl, h⟩).elim

theorem dead_of_made (hmade : object < s.objects)
    (hclosed : ¬OpenGrant t object) (hobjects : s.objects ≤ t.objects)
    (hspent : ∀ grantId record, t.records.get grantId = some record →
      record.grant.status ≠ .issued) : Dead t object :=
  ⟨lt_of_lt_of_le hmade hobjects, fun ⟨grantId, record, hget, _, hused⟩ =>
    hspent grantId record hget hused.issued, hclosed⟩

theorem ensures_rotateSigningKey (hs : Sound s) (kid : String) (now : Nat) :
    Ensures (· = s) (rotateSigningKey kid now)
      (fun _ t => Since s t ∧ ∀ object, object < s.objects → Dead t object) (Since s) := by
  refine .get_bind fun u hu => ?_
  subst hu
  have hlt : u.keyGeneration < u.keyGeneration + 1 := lt_succ_self _
  have hsince := since_generation hs (u.keyGeneration + 1) hlt
  have hkept : ∀ t, t = u → Since u t := by
    rintro t rfl
    exact .refl hs
  refine .failWhen_bind hkept fun _ => ?_
  refine .failWhen_bind hkept fun _ => ?_
  refine .write_bind (Q := (· = { u with keyGeneration := u.keyGeneration + 1 }))
    (fun t ht => by rw [ht]) ?_
  have hmoved := ensures_transitions (s := { u with keyGeneration := u.keyGeneration + 1 })
    hsince.sound (fun record (h : record ∈ u.records.values) => h)
    (by decide : revoked ≠ .issued) now
  refine .bind (hmoved.mono (fun t ht => ht ▸ .refl _) (fun _ _ h => h)
    fun t ht => hsince.trans (ht.since hsince.sound)) fun _ => ?_
  refine .write fun t ht => ?_
  obtain ⟨hshrunk, hspent⟩ := ht
  have hgeneration : t.keyGeneration = u.keyGeneration + 1 := by rw [hshrunk.rest]
  have hobjects : t.objects = u.objects := by rw [hshrunk.rest]
  have hpending : t.pendingIssues = u.pendingIssues := hshrunk.pendingIssues
  have hsoundT := (hshrunk.since hsince.sound).sound
  have hclosed : ∀ object, ¬OpenGrant { t with
      keys := t.keys.set kid ⟨kid, u.keyGeneration + 1, true⟩
      activeKid := kid } object :=
    not_openGrant_of_generation hs hpending (hgeneration ▸ hlt)
  have hrest : Since t { t with
      keys := t.keys.set kid ⟨kid, u.keyGeneration + 1, true⟩
      activeKid := kid } := by
    refine since_rest hsoundT rfl rfl rfl (le_refl _) (fun otherKid key hkey => ?_)
      (fun _ h => h) fun grantId pending hget h => ?_
    · rcases get_set_some hkey with ⟨-, rfl⟩ | ⟨-, hkey⟩
      · exact le_of_eq hgeneration.symm
      · exact hsoundT.keyed otherKid key hkey
    · exact (hclosed pending.object ⟨grantId, pending, hget, rfl, h⟩).elim
  refine ⟨(hsince.trans (hshrunk.since hsince.sound)).trans hrest, fun object hmade => ?_⟩
  refine dead_of_made hmade (hclosed object) (le_of_eq hobjects.symm)
    fun grantId record hget => ?_
  obtain ⟨before, hbefore, -, -, -, -⟩ := hshrunk.back grantId record hget
  have hid := hs.filed grantId before hbefore
  exact hspent before (mem_values_iff.mpr ⟨grantId, hbefore⟩) record (hid.symm ▸ hget)

theorem since_disabled (hs : Sound s) {kid : String} {current : SigningKey}
    (hget : s.keys.get kid = some current) :
    Since s { s with keys := s.keys.set kid { current with enabled := false } } := by
  refine since_rest hs rfl rfl rfl (le_refl _) (fun otherKid key hkey => ?_) (fun _ h => h)
    fun grantId pending _ h => ?_
  · rcases get_set_some hkey with ⟨-, rfl⟩ | ⟨-, hkey⟩
    · exact hs.keyed kid current hget
    · exact hs.keyed otherKid key hkey
  · have hkey := h.key
    rw [get_set] at hkey
    split at hkey
    · have henabled := h.enabled
      rw [← Option.some.inj hkey] at henabled
      cases henabled
    · exact ⟨h.cancelled, h.epoch, hkey, h.enabled, h.active, h.generation⟩

theorem ensures_disableSigningKey (hs : Sound s) (kid : String) (now : Nat) :
    Ensures (· = s) (disableSigningKey kid now)
      (fun _ t => Since s t ∧ ∀ object, Carries s (SignedBy kid) object → Dead t object)
      (Since s) := by
  refine .get_bind fun u hu => ?_
  subst hu
  have hkept : ∀ t, t = u → Since u t := by
    rintro t rfl
    exact .refl hs
  split
  · exact .failed hkept
  · rename_i current hget
    have hsince := since_disabled hs hget
    refine .failWhen_bind hkept fun hactive => ?_
    refine .write_bind (Q := (· = { u with keys := u.keys.set kid { current with
      enabled := false } })) (fun t ht => by rw [ht]) ?_
    refine (ensures_transitions hsince.sound (fun record h => (mem_filter.mp h).1)
      (by decide : revoked ≠ .issued) now).mono (fun t ht => ht ▸ .refl _)
        (fun _ t ht => ⟨hsince.trans (ht.1.since hsince.sound), fun object hcarries => ?_⟩)
        fun t ht => hsince.trans (ht.since hsince.sound)
    rcases hcarries with ⟨grantId, record, hrecord, rfl, hkid⟩
      | ⟨grantId, pending, hpending, rfl, hkid⟩
    · have hmem : record ∈ u.records.values.filter fun record => decide (record.kid = kid) :=
        mem_filter.mpr ⟨mem_values_iff.mpr ⟨grantId, hrecord⟩, decide_eq_true hkid⟩
      have hspent := ht.2 record hmem
      rw [hs.filed grantId record hrecord] at hspent
      exact dead_of_spent hsince.sound ht.1 hrecord hspent
    · refine (ht.1.since hsince.sound).onward.dead (dead_of_reservation hsince.sound hpending ?_)
      exact fun h => hactive (hkid.symm.trans h.active.symm)

/-! ## Expiry -/

/-- A record that expired by now. -/
def Expired (now : Nat) (record : GrantRecord) : Prop := record.grant.expiresAt ≤ now

theorem ensures_prune_expired (hs : Sound s) (config : GrantConfig) (now : Nat) :
    Ensures (· = s) (prune config now)
      (fun _ t => Shrunk s t ∧ ∀ record ∈ s.records.values, Expired now record →
        Spent record.grant.grantId t) (Shrunk s) := by
  refine .get_bind fun u hu => ?_
  subst hu
  refine .mono (.forM_each (I := Shrunk u)
    (D := fun record t => Expired now record → Spent record.grant.grantId t)
    (fun record hrecord => ?_) fun record _ other => ?_) (fun _ h => h ▸ .refl u)
      (fun _ _ h => h) fun _ h => h
  · have hget : u.records.get record.grant.grantId = some record := by
      obtain ⟨grantId, hget⟩ := mem_values_iff.mp hrecord
      rw [hs.filed grantId record hget]
      exact hget
    refine .bind (Q := fun _ t => Shrunk u t ∧ (Expired now record →
      Spent record.grant.grantId t)) ?_ fun _ => ?_
    · rw [expire]
      split
      · exact .bind (ensures_transition hget (fun h => by cases h) now) fun _ =>
          .ret fun _ h => ⟨h.1, fun _ => h.2.1⟩
      · rename_i hkept
        refine .ret fun t h => ⟨h, fun hexpired other hother hissued => ?_⟩
        obtain ⟨before, hbefore, -, -, -, hsame⟩ := h.back _ other hother
        rw [hget] at hbefore
        cases hbefore
        rcases hsame with rfl | hnot
        · exact hkept ⟨hissued, hexpired⟩
        · exact hnot hissued
    · rw [forget]
      split
      · exact .write fun t h => ⟨h.1.erase _, fun hexpired other hother =>
          h.2 hexpired other (get_keep_eq_some_iff.mp hother).1⟩
      · exact .ret fun _ h => h
  · refine .bind (Q := fun _ t => Expired now other → Spent other.grant.grantId t) ?_ fun _ => ?_
    · rw [expire]
      split
      · by_cases hexpired : Expired now other
        · exact .mono (.bind (ensures_spent other.grant.grantId record (fun h => by cases h) now)
            fun _ => .ret fun _ h => h) (fun _ h => h hexpired) (fun _ _ h _ => h) fun _ h => h
        · exact fun _ _ => by split <;> [exact fun h => absurd h hexpired; trivial]
      · exact .ret fun _ h => h
    · rw [forget]
      split
      · exact .write fun t h hexpired found hfound =>
          h hexpired found (get_keep_eq_some_iff.mp hfound).1
      · exact .ret fun _ h => h

end

end BroadcastGrantAuthority

end WebrtcMinimize
