import WebrtcMinimize.SourceGrants

/-!
# One consent for each request

`Good` is what holds of the grants between any two lines of their code, along
a history of calls: the records and the index name each other, a consent the
authority holds active is that of an active record, and every consent that
was returned is still the one of its request, or the request is past its
expiry. The ids in `gone` have lost their consent for good.
-/

namespace WebrtcMinimize

open Attempts Checks

namespace SourceGrants

open KeyedMap Option Ensures Record

/-! ## The authority -/

/-- Records of the authority are only revoked or dropped. -/
structure AuthorityKept (a b : Authority) : Prop where
  records : ∀ id r, b.records.get id = some r →
    ∃ r', a.records.get id = some r' ∧ (r.consent.status = .active → r' = r)
  requests : ∀ rid p, b.requests.get rid = some p → a.requests.get rid = some p

theorem AuthorityKept.refl (a : Authority) : AuthorityKept a a where
  records := fun _ r hr => ⟨r, hr, fun _ => rfl⟩
  requests := fun _ _ hp => hp

theorem AuthorityKept.trans {a b c : Authority} (h : AuthorityKept a b)
    (h' : AuthorityKept b c) : AuthorityKept a c where
  records := by
    intro id r hr
    obtain ⟨r₁, hr₁, hsame₁⟩ := h'.records id r hr
    obtain ⟨r₂, hr₂, hsame₂⟩ := h.records id r₁ hr₁
    refine ⟨r₂, hr₂, fun hactive => ?_⟩
    have heq := hsame₁ hactive
    exact (hsame₂ (by rw [heq]; exact hactive)).trans heq
  requests := fun rid p hp => h.requests rid p (h'.requests rid p hp)

theorem revokeExpired_kept (a : Authority) (now : Int) :
    AuthorityKept a { a with records := a.records.mapValues fun _ r => r.aged now } where
  records := by
    intro id r hr
    rw [get_mapValues, map_eq_some_iff] at hr
    obtain ⟨r', hr', rfl⟩ := hr
    refine ⟨r', hr', fun hactive => ?_⟩
    rw [AuthorityRecord.aged] at hactive ⊢
    split at hactive
    · cases hactive
    · rename_i hno
      rw [if_neg hno]
  requests := fun _ _ hp => hp

theorem dropped_kept (a : Authority) (id requestId : String) :
    AuthorityKept a ⟨a.records.erase id, a.requests.erase requestId⟩ where
  records := by
    intro id' r hr
    by_cases hid : id' = id
    · rw [hid, get_erase_self] at hr
      cases hr
    · rw [get_erase_of_ne _ hid] at hr
      exact ⟨r, hr, fun _ => rfl⟩
  requests := by
    intro rid p hp
    by_cases hid : rid = requestId
    · rw [hid, get_erase_self] at hp
      cases hp
    · rwa [get_erase_of_ne _ hid] at hp

theorem makeRoom_kept (a : Authority) : Ensures (fun b => AuthorityKept a b) makeRoom
    (fun _ b => AuthorityKept a b) (fun b => AuthorityKept a b) := by
  refine .get_bind ?_
  intro b hb
  split
  · exact .failed fun _ heq => heq ▸ hb
  · rintro c rfl
    exact hb.trans (dropped_kept c _ _)

theorem evict_kept (a : Authority) : ∀ rounds, Ensures (fun b => AuthorityKept a b)
    (evict rounds) (fun _ b => AuthorityKept a b) (fun b => AuthorityKept a b)
  | 0 => .ret fun _ hb => hb
  | rounds + 1 => (makeRoom_kept a).bind fun _ => evict_kept a rounds

/-- A consent was added, and what there was is kept. -/
structure Issued (a b : Authority) (q : ConsentRequest) (c : Consent) : Prop where
  records : ∀ id r, b.records.get id = some r → (id = c.consentId ∧ r.consent = c) ∨
    ∃ r', a.records.get id = some r' ∧ (r.consent.status = .active → r' = r)
  requests : ∀ rid p, b.requests.get rid = some p →
    rid = q.requestId ∨ a.requests.get rid = some p

theorem issue_new {a : Authority} {q : ConsentRequest} {c : ConsentContext} {now : Int}
    {drawn : String} (hnew : a.requests.get q.requestId = none) :
    Ensures (· = a) (issue q c now drawn)
      (fun d b => d.consentId = drawn ∧ d.status = .active ∧ Issued a b q d)
      (fun b => AuthorityKept a b) := by
  refine .failWhen_bind (fun _ heq => heq ▸ .refl a) fun _ => ?_
  refine .check_bind (fun _ heq => heq ▸ .refl a) fun _ _ => ?_
  refine .get_bind ?_
  rintro a rfl
  rw [hnew]
  refine .write_bind (Q := fun b => AuthorityKept a b)
    (fun b hb => hb ▸ revokeExpired_kept a now) ?_
  refine .get_bind ?_
  intro b hb
  refine .failWhen_bind (fun _ heq => heq ▸ hb) fun _ => ?_
  generalize b.records.size + 1 - maxRecords = rounds
  have hevict : Ensures (· = b) (evict rounds) (fun _ b' => AuthorityKept a b')
      (fun b' => AuthorityKept a b') := by
    refine (evict_kept a rounds).mono ?_ (fun _ _ h => h) fun _ h => h
    rintro _ rfl
    exact hb
  refine hevict.bind fun _ => ?_
  refine .failWhen_bind (fun _ h => h) fun _ => ?_
  refine .failWhen_bind (fun _ h => h) fun _ => ?_
  refine .write_bind (Q := fun t => Issued a t q
    (newConsent q c now (min (now + q.ttlMs) c.leaseExpiresAt) drawn)) ?_ ?_
  · intro t ht
    refine ⟨?_, ?_⟩
    · intro id r hr
      rw [Authority.store, get_set] at hr
      split at hr
      · rename_i hid
        exact .inl ⟨hid, (some.inj hr) ▸ rfl⟩
      · exact .inr (ht.records id r hr)
    · intro rid p hp
      rw [Authority.store, get_set] at hp
      split at hp
      · rename_i hid
        exact .inl hid
      · exact .inr (ht.requests rid p hp)
  · exact .ret fun t ht => ⟨rfl, rfl, ht⟩

/-- The authority revokes a consent at most, and it then is revoked. -/
theorem revokeConsent_kept (a : Authority) (id subjectRef : String) (now : Int) :
    Ensures (· = a) (revokeConsent id subjectRef now) (fun _ b => AuthorityKept a b ∧
        ∀ r, b.records.get id = some r → r.consent.status = .revoked)
      (fun b => b = a ∧ ∀ r, a.records.get id = some r →
        r.consent.grantorSubjectRef ≠ subjectRef) := by
  refine .get_bind ?_
  rintro a rfl
  cases hr : a.records.get id with
  | none =>
      refine .ret ?_
      rintro _ rfl
      exact ⟨.refl _, fun r hr' => by rw [hr] at hr'; cases hr'⟩
  | some r =>
      rintro a rfl
      by_cases hsubject : r.consent.grantorSubjectRef = subjectRef
      · by_cases hrevoked : r.consent.status = .revoked
        · simp only [failWhen, Checks.failIf_of_not _ (not_not.mpr hsubject), hrevoked, if_true]
          refine ⟨.refl _, fun r' hr' => ?_⟩
          rw [hr] at hr'
          exact some.inj hr' ▸ hrevoked
        · simp only [failWhen, Checks.failIf_of_not _ (not_not.mpr hsubject), hrevoked, if_false]
          refine ⟨⟨?_, fun _ _ hp => hp⟩, ?_⟩
          · intro id' r' hr'
            rw [get_set] at hr'
            split at hr'
            · rename_i hid
              subst hid
              refine ⟨r, hr, fun hactive => ?_⟩
              rw [← some.inj hr'] at hactive
              cases hactive
            · exact ⟨r', hr', fun _ => rfl⟩
          · intro r' hr'
            rw [get_set_self] at hr'
            exact some.inj hr' ▸ rfl
      · simp only [failWhen, Checks.failIf_of _ hsubject]
        exact ⟨rfl, fun r' hr' => some.inj hr' ▸ hsubject⟩

/-! ## Checks -/

theorem checkScope_facts {x : Scope} {b : Option Bindings} {now : Int} {answers : Option Answers}
    {k : Checked} (h : checkScope x b now answers = .ok k) :
    factsOf answers x.invite.publisher x.invite.owner = some
      { publicationEpoch := x.publicationEpoch
        roomEpoch := k.epoch
        leaseId := k.writer.leaseId
        fencingRevision := x.invite.fencingRevision
        sourceAuthorityRevision := k.writer.sourceAuthorityRevision
        generation := k.generation }
    ∧ ∀ d, b = some d → d.roomEpoch = k.epoch ∧ d.leaseId = k.writer.leaseId
      ∧ d.generation = k.generation
      ∧ k.writer.sourceAuthorityRevision = d.sourceAuthorityRevision := by
  unfold checkScope at h
  cases answers with
  | none => cases h
  | some a =>
      simp only at h
      split at h
      · rename_i publisher owner publication hpublisher howner hpublication
        split at h
        · cases h
        · rename_i hpub
          simp only [not_or, not_not, ne_eq] at hpub
          cases hw : a.writer with
          | none => rw [hw] at h; cases h
          | some w =>
              simp only [hw] at h
              split at h
              · cases h
              · rename_i hwriter
                rw [Bool.not_eq_false] at hwriter
                cases hp : a.packager with
                | none => rw [hp] at h; cases h
                | some p =>
                    simp only [hp] at h
                    split at h
                    · rename_i c generation hcap hgen
                      split at h
                      · cases h
                      · split at h
                        · cases h
                        · rename_i hstale
                          rw [Bool.not_eq_false] at hstale
                          cases h
                          have hfence : w.fencingRevision = x.invite.fencingRevision := by
                            simp only [writerOK, Bool.and_eq_true, decide_eq_true_eq] at hwriter
                            tauto
                          refine ⟨?_, ?_⟩
                          · simp [factsOf, hpublisher, howner, hpublication, hw, hp, hgen,
                              hpub.2.1, hfence]
                          · rintro d rfl
                            simp only [boundOK, Bool.and_eq_true, decide_eq_true_eq] at hstale
                            simp only [writerOK, Bool.and_eq_true, decide_eq_true_eq] at hwriter
                            tauto
                    · cases h
      · cases h

/-! ## What holds between two lines -/

/-- The request a record is indexed under. -/
def Record.requestId (r : Record) : String := r.scope.invite.requestId

section Grants

variable (expiry : String → Int) (h : List Call) (gone : List String)

structure Good (s : GrantsState) : Prop where
  linked : ∀ id r, s.records.get id = some r → s.byRequest.get r.requestId = some id
  found : ∀ rid id, s.byRequest.get rid = some id →
    ∃ r, s.records.get id = some r ∧ r.requestId = rid
  held : ∀ id r, s.records.get id = some r → r.active = true →
    ∃ c, r.consent = some c ∧ c.consentId = id
  retained : ∀ id r, s.records.get id = some r →
    expiry r.requestId ≤ r.retainUntil
      ∧ ∀ c, r.active = true → r.consent = some c → c.expiresAt ≤ r.retainUntil
  single : ∀ id r id' r', s.records.get id = some r → s.records.get id' = some r' →
    r.active = true → r'.active = true → r.scope.slot = r'.scope.slot → id = id'
  requests : ∀ rid p, s.authority.requests.get rid = some p →
    s.closed = true ∨ (∃ id, s.byRequest.get rid = some id) ∨ expiry rid ≤ s.lastNow
  agreed : ∀ id ar, s.authority.records.get id = some ar → ar.consent.status = .active →
    ∃ r, s.records.get id = some r ∧ r.active = true ∧ r.consent = some ar.consent
  drawn : ∀ id r, s.records.get id = some r → id ∈ drawnIds h
  issued : ∀ id ar, s.authority.records.get id = some ar → id ∈ drawnIds h
  origin : ∀ id r, s.records.get id = some r →
    ∃ call c, (.approve call, some (.consent c)) ∈ h ∧ c.consentId = id
      ∧ call.invite = .ok r.scope.invite
  /-- every consent returned so far -/
  returned : ∀ call c, (.approve call, some (.consent c)) ∈ h →
    c.consentId ∈ drawnIds h ∧ (s.closed = true
      ∨ (∃ r, s.records.get c.consentId = some r ∧ r.requestId = call.input.requestId
          ∧ (r.active = true → r.consent = some c)
          ∧ factsOf call.answers r.scope.invite.publisher r.scope.invite.owner = some r.facts)
      ∨ (s.records.get c.consentId = none ∧ s.byRequest.get call.input.requestId = none
          ∧ expiry call.input.requestId ≤ s.lastNow))
  once : OneConsent h
  gone : ∀ id ∈ gone, id ∈ drawnIds h ∧ Gone s id

end Grants

theorem good_init (expiry : String → Int) : Good expiry [] [] init where
  linked _ _ hr := by cases hr
  found _ _ hid := by cases hid
  held _ _ hr := by cases hr
  retained _ _ hr := by cases hr
  single _ _ _ _ hr := by cases hr
  requests _ _ hp := by cases hp
  agreed _ _ har := by cases har
  drawn _ _ hr := by cases hr
  issued _ _ har := by cases har
  origin _ _ hr := by cases hr
  returned _ _ hmem := by cases hmem
  once _ _ _ _ hmem := by cases hmem
  gone _ hid := by cases hid

/-! ## What the lines leave alone -/

/-- Between the states at most the record under the id changed, and it holds no consent
any more. -/
structure Ended (s t : GrantsState) (id : String) : Prop where
  clock : t.lastNow = s.lastNow
  closed : t.closed = s.closed
  index : t.byRequest = s.byRequest
  other : ∀ k, k ≠ id → t.records.get k = s.records.get k
  self : ∀ r, t.records.get id = some r →
    r.active = false ∧ ∃ r', s.records.get id = some r' ∧ r'.scope = r.scope

variable {id : String} {s t : GrantsState}

theorem Ended.gone (h : Ended s t id) : Gone t id := by
  refine .inr fun r c hr hactive _ => ?_
  rw [(h.self r hr).1] at hactive
  cases hactive

theorem Ended.still {k : String} (h : Ended s t id) (hk : Gone s k) : Gone t k := by
  rcases hk with hclosed | hk
  · exact .inl (h.closed.trans hclosed)
  · by_cases hid : k = id
    · exact hid ▸ h.gone
    · refine .inr fun r c hr => ?_
      rw [h.clock]
      exact hk r c (h.other k hid ▸ hr)

theorem Ended.inactive {k : String} (h : Ended s t id)
    (hk : ∀ r, s.records.get k = some r → r.active = false) :
    ∀ r, t.records.get k = some r → r.active = false := by
  intro r hr
  by_cases hid : k = id
  · exact (h.self r (hid ▸ hr)).1
  · exact hk r (h.other k hid ▸ hr)

theorem Ended.of_inactive (h : ∀ r, s.records.get id = some r → r.active = false) : Ended s s id :=
  ⟨rfl, rfl, rfl, fun _ _ => rfl, fun r hr => ⟨h r hr, r, hr, rfl⟩⟩

theorem Ended.of_set {r : Record}
    (hr : s.records.get id = some r) (d : Option Consent) (a : Authority) :
    Ended s { s with
      records := s.records.set id { r with active := false, consent := d }
      authority := a } id := by
  refine ⟨rfl, rfl, rfl, fun k hk => get_set_of_ne _ _ hk, ?_⟩
  intro r' hr'
  rw [get_set_self] at hr'
  cases hr'
  exact ⟨rfl, r, hr, rfl⟩

theorem onAuthority_run {α : Type} {x : Stateful Authority α} {P : Authority → Prop}
    {Q : α → Authority → Prop} {E : Authority → Prop} (hx : Ensures P x Q E) (hs : P s.authority) :
    (∃ a t, onAuthority x s = .ok a { s with authority := t } ∧ Q a t)
      ∨ ∃ code t, onAuthority x s = .error code { s with authority := t } ∧ E t := by
  have hrun := hx s.authority hs
  unfold onAuthority
  split at hrun
  · rename_i a t heq
    rw [heq]
    exact .inl ⟨a, t, rfl, hrun⟩
  · rename_i code t heq
    rw [heq]
    exact .inr ⟨code, t, rfl, hrun⟩

theorem onAuthority_ensures {α : Type} {x : Stateful Authority α} {P : Authority → Prop}
    {Q : α → Authority → Prop} {E : Authority → Prop} (hx : Ensures P x Q E) (hs : P s.authority) :
    Ensures (· = s) (onAuthority x) (fun a t => ∃ b, t = { s with authority := b } ∧ Q a b)
      (fun t => ∃ b, t = { s with authority := b } ∧ E b) := by
  rintro s rfl
  rcases onAuthority_run hx hs with ⟨a, b, hrun, hq⟩ | ⟨code, b, hrun, he⟩
  · rw [hrun]
    exact ⟨b, rfl, hq⟩
  · rw [hrun]
    exact ⟨b, rfl, he⟩

/-- All that `invalidate` can do: nothing, or the record loses its consent and
the authority revokes it. -/
theorem invalidate_cases (s : GrantsState) (id : String) (now : Int) :
    (after (invalidate id now s) = s ∧ ∀ r, s.records.get id = some r → r.active = false)
      ∨ ∃ r d a, s.records.get id = some r ∧ r.active = true
        ∧ after (invalidate id now s) = { s with
            records := s.records.set id { r with active := false, consent := d }
            authority := a }
        ∧ (r.consent = none ∧ a = s.authority
          ∨ ∃ c, r.consent = some c ∧ AuthorityKept s.authority a
            ∧ ∀ ar, a.records.get c.consentId = some ar →
              ar.consent.status = .revoked ∨ ar.consent.grantorSubjectRef ≠ c.grantorSubjectRef) := by
  unfold invalidate
  rw [bind_of_ok (get_run s)]
  cases hr : s.records.get id with
  | none => exact .inl ⟨rfl, fun r hr' => by cases hr'⟩
  | some r =>
      obtain ⟨scope, active, consent, epoch, lease, revision, generation, until'⟩ := r
      cases active with
      | false =>
          refine .inl ⟨rfl, fun r' hr' => ?_⟩
          rw [← some.inj hr']
      | true =>
          refine .inr ⟨⟨scope, true, consent, epoch, lease, revision, generation, until'⟩, ?_⟩
          cases consent with
          | none => exact ⟨none, s.authority, rfl, rfl, rfl, .inl ⟨rfl, rfl⟩⟩
          | some c =>
              -- the record is inactive before the authority is asked
              rcases onAuthority_run (revokeConsent_kept s.authority c.consentId
                c.grantorSubjectRef now) (s := s.setRecord id
                  ⟨scope, false, some c, epoch, lease, revision, generation, until'⟩) rfl with
                ⟨d, a, hrun, hkept, hrevoked⟩ | ⟨code, a, hrun, rfl, hsubject⟩
              · refine ⟨d, a, rfl, rfl, ?_, .inr ⟨c, rfl, hkept, fun ar har =>
                  .inl (hrevoked ar har)⟩⟩
                refine (congrArg after (bind_of_ok hrun)).trans ?_
                simp only [modify_run, after_ok, GrantsState.setRecord, set_set]
              · refine ⟨some c, s.authority, rfl, rfl, ?_, .inr ⟨c, rfl, .refl _,
                  fun ar har => .inr (hsubject ar har)⟩⟩
                exact congrArg after (bind_of_error hrun)

/-! ## What the lines keep -/

section Keeping

variable {expiry : String → Int} {h : List Call} {gone : List String}

namespace Good

variable {s : GrantsState}

section

variable (hg : Good expiry h gone s)

include hg

theorem retime {now : Int} (hle : s.lastNow ≤ now)
    (rates : KeyedMap String Rate) :
    Good expiry h gone { s with lastNow := now, rates := rates } := by
  refine { hg with requests := ?_, returned := ?_, gone := ?_ }
  · intro rid p hp
    exact (hg.requests rid p hp).imp_right fun hr => hr.imp_right fun hle' => by
      show expiry rid ≤ now
      omega
  · intro call c hmem
    obtain ⟨hdrawn, hcase⟩ := hg.returned call c hmem
    refine ⟨hdrawn, hcase.imp_right fun hr => hr.imp_right ?_⟩
    rintro ⟨hnone, hreq, hle'⟩
    refine ⟨hnone, hreq, ?_⟩
    show _ ≤ now
    omega
  · intro id hid
    obtain ⟨hdrawn, hgone⟩ := hg.gone id hid
    refine ⟨hdrawn, hgone.imp_right fun hlate r c hr hactive hc => ?_⟩
    have := hlate r c hr hactive hc
    show _ ≤ now
    omega

theorem deactivate {id : String} {r : Record}
    (hr : s.records.get id = some r) (d : Option Consent) {a : Authority}
    (hkept : AuthorityKept s.authority a)
    (hrevoked : ∀ ar, a.records.get id = some ar → ar.consent.status ≠ .active) :
    Good expiry h gone { s with
      records := s.records.set id { r with active := false, consent := d }
      authority := a } := by
  have hself : (s.records.set id { r with active := false, consent := d }).get id
      = some { r with active := false, consent := d } := get_set_self ..
  -- a record there is now is one there was, but for its consent
  have hback : ∀ k r', (s.records.set id { r with active := false, consent := d }).get k = some r' →
      ∃ r₀, s.records.get k = some r₀ ∧ r'.scope = r₀.scope ∧ r'.facts = r₀.facts
        ∧ r'.retainUntil = r₀.retainUntil ∧ (r'.active = true → r' = r₀) := by
    intro k r' hk
    by_cases hkid : k = id
    · subst hkid
      cases hself.symm.trans hk
      exact ⟨r, hr, rfl, rfl, rfl, by intro hactive; cases hactive⟩
    · rw [get_set_of_ne _ _ hkid] at hk
      exact ⟨r', hk, rfl, rfl, rfl, fun _ => rfl⟩
  have hforth : ∀ k r₀, s.records.get k = some r₀ →
      ∃ r', (s.records.set id { r with active := false, consent := d }).get k = some r'
        ∧ r'.scope = r₀.scope ∧ r'.facts = r₀.facts ∧ (r'.active = true → r' = r₀) := by
    intro k r₀ hk
    by_cases hkid : k = id
    · subst hkid
      cases hr.symm.trans hk
      exact ⟨_, hself, rfl, rfl, by intro hactive; cases hactive⟩
    · exact ⟨r₀, by rw [get_set_of_ne _ _ hkid, hk], rfl, rfl, fun _ => rfl⟩
  refine
    { once := hg.once
      linked := ?_, found := ?_, held := ?_, retained := ?_, single := ?_, requests := ?_
      agreed := ?_, drawn := ?_, issued := ?_, origin := ?_, returned := ?_, gone := ?_ }
  · intro k r' hk
    obtain ⟨r₀, hr₀, hscope, -⟩ := hback k r' hk
    rw [requestId, hscope]
    exact hg.linked k r₀ hr₀
  · intro rid k hk
    obtain ⟨r₀, hr₀, hrid⟩ := hg.found rid k hk
    obtain ⟨r', hr', hscope, -⟩ := hforth k r₀ hr₀
    exact ⟨r', hr', by rw [requestId, hscope]; exact hrid⟩
  · intro k r' hk hactive
    obtain ⟨r₀, hr₀, -, -, -, hsame⟩ := hback k r' hk
    obtain rfl := hsame hactive
    exact hg.held k r' hr₀ hactive
  · intro k r' hk
    obtain ⟨r₀, hr₀, hscope, -, hretain, hsame⟩ := hback k r' hk
    rw [requestId, hscope, hretain]
    refine ⟨(hg.retained k r₀ hr₀).1, fun c hactive hc => ?_⟩
    obtain rfl := hsame hactive
    exact (hg.retained k r' hr₀).2 c hactive hc
  · intro k r' k' r'' hk hk' hactive hactive' hslot
    obtain ⟨r₀, hr₀, -, -, -, hsame⟩ := hback k r' hk
    obtain ⟨r₁, hr₁, -, -, -, hsame'⟩ := hback k' r'' hk'
    obtain rfl := hsame hactive
    obtain rfl := hsame' hactive'
    exact hg.single k r' k' r'' hr₀ hr₁ hactive hactive' hslot
  · intro rid p hp
    exact hg.requests rid p (hkept.requests rid p hp)
  · intro k ar har hactive
    obtain ⟨ar', har', hsame⟩ := hkept.records k ar har
    obtain rfl := hsame hactive
    obtain ⟨r₀, hr₀, hractive, hc⟩ := hg.agreed k ar' har' hactive
    have hk : k ≠ id := by
      rintro rfl
      exact hrevoked ar' har hactive
    exact ⟨r₀, by rw [get_set_of_ne _ _ hk, hr₀], hractive, hc⟩
  · intro k r' hk
    obtain ⟨r₀, hr₀, -⟩ := hback k r' hk
    exact hg.drawn k r₀ hr₀
  · intro k ar har
    obtain ⟨ar', har', -⟩ := hkept.records k ar har
    exact hg.issued k ar' har'
  · intro k r' hk
    obtain ⟨r₀, hr₀, hscope, -⟩ := hback k r' hk
    rw [hscope]
    exact hg.origin k r₀ hr₀
  · intro call c hmem
    obtain ⟨hdrawn, hcase⟩ := hg.returned call c hmem
    refine ⟨hdrawn, ?_⟩
    rcases hcase with hclosed | ⟨r₀, hr₀, hrid, hc, hfacts⟩ | ⟨hnone, hreq, hle⟩
    · exact .inl hclosed
    · obtain ⟨r', hr', hscope, hsamefacts, hsame⟩ := hforth _ r₀ hr₀
      refine .inr (.inl ⟨r', hr', by rw [requestId, hscope]; exact hrid, ?_, ?_⟩)
      · intro hactive
        obtain rfl := hsame hactive
        exact hc hactive
      · rw [hscope, hsamefacts]
        exact hfacts
    · refine .inr (.inr ⟨?_, hreq, hle⟩)
      have hne : c.consentId ≠ id := by
        intro heq
        rw [heq, hr] at hnone
        cases hnone
      exact (get_set_of_ne _ _ hne).trans hnone
  · intro k hk
    obtain ⟨hdrawn, hgone⟩ := hg.gone k hk
    exact ⟨hdrawn, (Ended.of_set hr d a).still hgone⟩

/-- A record is dropped that holds no consent and whose request is past its
expiry. -/
theorem remove {id : String} {r : Record}
    (hr : s.records.get id = some r) (hinactive : r.active = false)
    (hlate : r.retainUntil ≤ s.lastNow) :
    Good expiry h gone { s with
      records := s.records.erase id
      byRequest := s.byRequest.erase r.requestId } := by
  have hback : ∀ k r', (s.records.erase id).get k = some r' →
      s.records.get k = some r' ∧ k ≠ id := by
    intro k r' hk
    by_cases hkid : k = id
    · rw [hkid, get_erase_self] at hk
      cases hk
    · rw [get_erase_of_ne _ hkid] at hk
      exact ⟨hk, hkid⟩
  have hlink := hg.linked id r hr
  have hexpired : expiry r.requestId ≤ s.lastNow := Int.le_trans (hg.retained id r hr).1 hlate
  refine
    { once := hg.once
      linked := ?_, found := ?_, held := ?_, retained := ?_, single := ?_, requests := ?_
      agreed := ?_, drawn := ?_, issued := hg.issued, origin := ?_, returned := ?_, gone := ?_ }
  · intro k r' hk
    obtain ⟨hk, hne⟩ := hback k r' hk
    have hlink' := hg.linked k r' hk
    rw [get_erase_of_ne, hlink']
    intro heq
    rw [heq, hlink] at hlink'
    exact hne (some.inj hlink').symm
  · intro rid k hk
    by_cases hrid : rid = r.requestId
    · rw [hrid, get_erase_self] at hk
      cases hk
    · rw [get_erase_of_ne _ hrid] at hk
      obtain ⟨r', hr', hrid'⟩ := hg.found rid k hk
      refine ⟨r', ?_, hrid'⟩
      rw [get_erase_of_ne, hr']
      rintro rfl
      cases hr.symm.trans hr'
      exact hrid hrid'.symm
  · intro k r' hk
    exact hg.held k r' (hback k r' hk).1
  · intro k r' hk
    exact hg.retained k r' (hback k r' hk).1
  · intro k r' k' r'' hk hk'
    exact hg.single k r' k' r'' (hback k r' hk).1 (hback k' r'' hk').1
  · intro rid p hp
    rcases hg.requests rid p hp with hclosed | ⟨k, hk⟩ | hle
    · exact .inl hclosed
    · by_cases hrid : rid = r.requestId
      · exact .inr (.inr (hrid ▸ hexpired))
      · exact .inr (.inl ⟨k, by rw [get_erase_of_ne _ hrid, hk]⟩)
    · exact .inr (.inr hle)
  · intro k ar har hactive
    obtain ⟨r', hr', hactive', hc⟩ := hg.agreed k ar har hactive
    refine ⟨r', ?_, hactive', hc⟩
    rw [get_erase_of_ne, hr']
    rintro rfl
    cases hr.symm.trans hr'
    rw [hinactive] at hactive'
    cases hactive'
  · intro k r' hk
    exact hg.drawn k r' (hback k r' hk).1
  · intro k r' hk
    exact hg.origin k r' (hback k r' hk).1
  · intro call c hmem
    obtain ⟨hdrawn, hcase⟩ := hg.returned call c hmem
    refine ⟨hdrawn, ?_⟩
    rcases hcase with hclosed | ⟨r', hr', hrid, hrest⟩ | ⟨hnone, hreq, hle⟩
    · exact .inl hclosed
    · by_cases hid : c.consentId = id
      · rw [hid, hr] at hr'
        cases hr'
        rw [← hrid]
        exact .inr (.inr ⟨by rw [hid, get_erase_self], get_erase_self .., hexpired⟩)
      · exact .inr (.inl ⟨r', by rw [get_erase_of_ne _ hid, hr'], hrid, hrest⟩)
    · refine .inr (.inr ⟨?_, ?_, hle⟩)
      · rw [get_erase]
        split
        · rfl
        · exact hnone
      · rw [get_erase]
        split
        · rfl
        · exact hreq
  · intro k hk
    obtain ⟨hdrawn, hgone⟩ := hg.gone k hk
    refine ⟨hdrawn, hgone.imp_right fun hlate' r' c hr' => ?_⟩
    exact hlate' r' c (hback k r' hr').1

theorem weaken {a : Authority}
    (hkept : AuthorityKept s.authority a) : Good expiry h gone { s with authority := a } := by
  refine { hg with requests := ?_, agreed := ?_, issued := ?_ }
  · exact fun rid p hp => hg.requests rid p (hkept.requests rid p hp)
  · intro id ar har hactive
    obtain ⟨ar', har', hsame⟩ := hkept.records id ar har
    obtain rfl := hsame hactive
    exact hg.agreed id ar' har' hactive
  · intro id ar har
    obtain ⟨ar', har', -⟩ := hkept.records id ar har
    exact hg.issued id ar' har'

theorem close : Good expiry h gone { s with closed := true } := by
  refine { hg with requests := ?_, returned := ?_, gone := ?_ }
  · exact fun _ _ _ => .inl rfl
  · exact fun call c hmem => ⟨(hg.returned call c hmem).1, .inl rfl⟩
  · exact fun k hk => ⟨(hg.gone k hk).1, .inl rfl⟩

theorem clear (hclosed : s.closed = true)
    (hall : ∀ id r, s.records.get id = some r → r.active = false) :
    Good expiry h gone { s with records := .empty, byRequest := .empty, rates := .empty } := by
  refine
    { hg with
      linked := fun _ _ hr => by cases hr
      found := fun _ _ hid => by cases hid
      held := fun _ _ hr => by cases hr
      retained := fun _ _ hr => by cases hr
      single := fun _ _ _ _ hr => by cases hr
      requests := fun _ _ _ => .inl hclosed
      drawn := fun _ _ hr => by cases hr
      origin := fun _ _ hr => by cases hr
      returned := fun call c hmem => ⟨(hg.returned call c hmem).1, .inl hclosed⟩
      gone := fun k hk => ⟨(hg.gone k hk).1, .inl hclosed⟩
      agreed := ?_ }
  intro k ar har hactive
  obtain ⟨r, hr, hactive', -⟩ := hg.agreed k ar har hactive
  rw [hall k r hr] at hactive'
  cases hactive'

theorem snoc {e : Event} {out : Option Output}
    (hout : ∀ call c, ¬ ((e, out) = (.approve call, some (.consent c)))) :
    Good expiry (h ++ [(e, out)]) gone s := by
  have hin : ∀ call c, (.approve call, some (.consent c)) ∈ h ++ [(e, out)] →
      (.approve call, some (.consent c)) ∈ h := by
    intro call c hmem
    rcases List.mem_append.mp hmem with hmem | hmem
    · exact hmem
    · exact absurd (List.mem_singleton.mp hmem).symm (hout call c)
  have hdrawn : ∀ id, id ∈ drawnIds h → id ∈ drawnIds (h ++ [(e, out)]) := by
    intro id hid
    rw [drawnIds, List.filterMap_append]
    exact List.mem_append_left _ hid
  refine { hg with drawn := ?_, issued := ?_, origin := ?_, returned := ?_, once := ?_, gone := ?_ }
  · exact fun id r hr => hdrawn id (hg.drawn id r hr)
  · exact fun id ar har => hdrawn id (hg.issued id ar har)
  · intro id r hr
    obtain ⟨call, c, hmem, hc⟩ := hg.origin id r hr
    exact ⟨call, c, List.mem_append_left _ hmem, hc⟩
  · intro call c hmem
    obtain ⟨hid, hcase⟩ := hg.returned call c (hin call c hmem)
    exact ⟨hdrawn _ hid, hcase⟩
  · exact fun a b c d ha hb => hg.once a b c d (hin a c ha) (hin b d hb)
  · exact fun id hid => ⟨hdrawn id (hg.gone id hid).1, (hg.gone id hid).2⟩

end

variable {call : ApproveCall}

/-- What the next approval of a request returns is what earlier ones did. -/
theorem once_snoc (hg : Good expiry h gone s) {c : Consent}
    (hsame : ∀ a d, (.approve a, some (.consent d)) ∈ h →
      a.input.requestId = call.input.requestId → d = c) :
    OneConsent (h ++ [(.approve call, some (.consent c))]) := by
  intro a b d d' ha hb hrid
  rcases List.mem_append.mp ha with ha | ha <;> rcases List.mem_append.mp hb with hb | hb
  · exact hg.once a b d d' ha hb hrid
  · cases List.mem_singleton.mp hb
    exact hsame a d ha hrid
  · cases List.mem_singleton.mp ha
    exact (hsame b d' hb hrid.symm).symm
  · cases List.mem_singleton.mp ha
    cases List.mem_singleton.mp hb
    rfl

theorem snoc_replay (hg : Good expiry h gone s)
    {id : String} {r : Record} {c : Consent} (hopen : s.closed = false)
    (hreq : s.byRequest.get call.input.requestId = some id) (hr : s.records.get id = some r)
    (hactive : r.active = true) (hc : r.consent = some c)
    (hfacts : factsOf call.answers r.scope.invite.publisher r.scope.invite.owner = some r.facts) :
    Good expiry (h ++ [(.approve call, some (.consent c))]) gone s := by
  obtain ⟨c', hc', hid⟩ := hg.held id r hr hactive
  cases hc.symm.trans hc'
  obtain ⟨r', hr', hrid⟩ := hg.found _ id hreq
  cases hr.symm.trans hr'
  have hdrawn : ∀ k, k ∈ drawnIds h → k ∈ drawnIds (h ++ [(.approve call, some (.consent c))]) := by
    intro k hk
    rw [drawnIds, List.filterMap_append]
    exact List.mem_append_left _ hk
  refine { hg with drawn := ?_, issued := ?_, origin := ?_, returned := ?_, once := ?_, gone := ?_ }
  · exact fun k r hr => hdrawn k (hg.drawn k r hr)
  · exact fun k ar har => hdrawn k (hg.issued k ar har)
  · intro k r hr
    obtain ⟨a, d, hmem, hd⟩ := hg.origin k r hr
    exact ⟨a, d, List.mem_append_left _ hmem, hd⟩
  · intro a d hmem
    rcases List.mem_append.mp hmem with hmem | hmem
    · obtain ⟨hin, hcase⟩ := hg.returned a d hmem
      exact ⟨hdrawn _ hin, hcase⟩
    · cases List.mem_singleton.mp hmem
      rw [hid]
      exact ⟨hdrawn id (hg.drawn id r hr), .inr (.inl ⟨r, hr, hrid, fun _ => hc, hfacts⟩)⟩
  · refine hg.once_snoc ?_
    intro a d hmem hsame
    obtain ⟨-, hcase⟩ := hg.returned a d hmem
    rcases hcase with hclosed | ⟨r', hr', hrid', hd, -⟩ | ⟨-, hnone, -⟩
    · rw [hopen] at hclosed
      cases hclosed
    · have hlink := hg.linked _ r' hr'
      rw [hrid', hsame, hreq] at hlink
      rw [← some.inj hlink, hr] at hr'
      cases hr'
      exact some.inj ((hd hactive).symm.trans hc)
    · rw [hsame, hreq] at hnone
      cases hnone
  · exact fun k hk => ⟨hdrawn k (hg.gone k hk).1, (hg.gone k hk).2⟩

theorem snoc_admitted (hg : Good expiry h gone s)
    {invite : Invite} {k : Checked} {q : ConsentRequest} {c : Consent} {a : Authority}
    (hopen : s.closed = false) (hnone : s.byRequest.get call.input.requestId = none)
    (hport : call.invite = .ok invite) (hrid : invite.requestId = call.input.requestId)
    (hexpiry : invite.expiresAt = expiry call.input.requestId)
    (hlive : s.lastNow < invite.expiresAt) (hq : q.requestId = call.input.requestId)
    (hissued : Issued s.authority a q c) (hdrawn : c.consentId = call.drawn)
    (hfresh : call.drawn ∉ drawnIds h)
    (hslot : ∀ id r, s.records.get id = some r → r.active = true →
      r.scope.slot ≠ (newScope call invite s.lastNow).slot)
    (hfacts : factsOf call.answers invite.publisher invite.owner
      = some (newRecord (newScope call invite s.lastNow) k c).facts) :
    Good expiry (h ++ [(.approve call, some (.consent c))]) gone { s with
      authority := a
      records := s.records.set c.consentId (newRecord (newScope call invite s.lastNow) k c)
      byRequest := s.byRequest.set call.input.requestId c.consentId } := by
  have hself : (s.records.set c.consentId
      (newRecord (newScope call invite s.lastNow) k c)).get c.consentId
        = some (newRecord (newScope call invite s.lastNow) k c) := get_set_self ..
  have hunused : s.records.get c.consentId = none := by
    cases hr : s.records.get c.consentId with
    | none => rfl
    | some r => exact absurd (hg.drawn _ r hr) (hdrawn ▸ hfresh)
  have hback : ∀ id r, (s.records.set c.consentId
      (newRecord (newScope call invite s.lastNow) k c)).get id = some r →
      (id = c.consentId ∧ r = newRecord (newScope call invite s.lastNow) k c)
        ∨ s.records.get id = some r := by
    intro id r hr
    by_cases hid : id = c.consentId
    · rw [hid, hself] at hr
      exact .inl ⟨hid, (some.inj hr).symm⟩
    · rw [get_set_of_ne _ _ hid] at hr
      exact .inr hr
  have hkept : ∀ {id r}, s.records.get id = some r → (s.records.set c.consentId
      (newRecord (newScope call invite s.lastNow) k c)).get id = some r := by
    intro id r hr
    rw [get_set_of_ne, hr]
    rintro rfl
    rw [hunused] at hr
    cases hr
  have hold : ∀ id, id ∈ drawnIds h →
      id ∈ drawnIds (h ++ [(.approve call, some (.consent c))]) := by
    intro id hid
    rw [drawnIds, List.filterMap_append]
    exact List.mem_append_left _ hid
  have hnew : c.consentId ∈ drawnIds (h ++ [(.approve call, some (.consent c))]) := by
    rw [drawnIds, List.filterMap_append]
    refine List.mem_append_right _ ?_
    simp [drawnOf, hdrawn]
  -- no record has the request
  have hother : ∀ {id r}, s.records.get id = some r → r.requestId ≠ call.input.requestId := by
    intro id r hr heq
    have hlink := hg.linked id r hr
    rw [heq, hnone] at hlink
    cases hlink
  refine
    { linked := ?_, found := ?_, held := ?_, retained := ?_, single := ?_, requests := ?_
      agreed := ?_, drawn := ?_, issued := ?_, origin := ?_, returned := ?_, once := ?_
      gone := ?_ }
  · intro id r hr
    rcases hback id r hr with ⟨rfl, rfl⟩ | hin
    · show (s.byRequest.set _ _).get invite.requestId = _
      rw [hrid, get_set_self]
    · exact (get_set_of_ne _ _ (hother hin)).trans (hg.linked id r hin)
  · intro rid id hid
    by_cases heq : rid = call.input.requestId
    · rw [heq, get_set_self] at hid
      cases hid
      exact ⟨_, hself, hrid.trans heq.symm⟩
    · rw [get_set_of_ne _ _ heq] at hid
      obtain ⟨r, hr, hrid'⟩ := hg.found rid id hid
      exact ⟨r, hkept hr, hrid'⟩
  · intro id r hr hactive
    rcases hback id r hr with ⟨rfl, rfl⟩ | hin
    · exact ⟨c, rfl, rfl⟩
    · exact hg.held id r hin hactive
  · intro id r hr
    rcases hback id r hr with ⟨rfl, rfl⟩ | hin
    · refine ⟨?_, fun d _ hd => ?_⟩
      · show expiry invite.requestId ≤ max invite.expiresAt c.expiresAt
        rw [hrid, ← hexpiry]
        exact Int.le_max_left ..
      · cases hd
        exact Int.le_max_right ..
    · exact hg.retained id r hin
  · intro id r id' r' hr hr' hactive hactive' hsame
    rcases hback id r hr with ⟨hid, hrec⟩ | hin <;>
      rcases hback id' r' hr' with ⟨hid', hrec'⟩ | hin'
    · exact hid.trans hid'.symm
    · rw [hrec] at hsame
      exact absurd hsame.symm (hslot id' r' hin' hactive')
    · rw [hrec'] at hsame
      exact absurd hsame (hslot id r hin hactive)
    · exact hg.single id r id' r' hin hin' hactive hactive' hsame
  · intro rid p hp
    by_cases heq : rid = call.input.requestId
    · exact .inr (.inl ⟨c.consentId, by rw [heq, get_set_self]⟩)
    · have hp' := (hissued.requests rid p hp).resolve_left fun hr => heq (hr.trans hq)
      refine (hg.requests rid p hp').imp_right fun hr => hr.imp_left ?_
      rintro ⟨id, hid⟩
      exact ⟨id, by rw [get_set_of_ne _ _ heq, hid]⟩
  · intro id ar har hactive
    rcases hissued.records id ar har with ⟨rfl, hac⟩ | ⟨ar', har', hsame⟩
    · exact ⟨_, hself, rfl, by rw [hac]; rfl⟩
    · obtain rfl := hsame hactive
      obtain ⟨r, hr, hactive', hc⟩ := hg.agreed id ar' har' hactive
      exact ⟨r, hkept hr, hactive', hc⟩
  · intro id r hr
    rcases hback id r hr with ⟨rfl, -⟩ | hin
    · exact hnew
    · exact hold id (hg.drawn id r hin)
  · intro id ar har
    rcases hissued.records id ar har with ⟨rfl, -⟩ | ⟨ar', har', -⟩
    · exact hnew
    · exact hold id (hg.issued id ar' har')
  · intro id r hr
    rcases hback id r hr with ⟨rfl, rfl⟩ | hin
    · exact ⟨call, c, List.mem_append_right _ (List.mem_singleton.mpr rfl), rfl, hport⟩
    · obtain ⟨b, d, hmem, hd⟩ := hg.origin id r hin
      exact ⟨b, d, List.mem_append_left _ hmem, hd⟩
  · intro b d hmem
    rcases List.mem_append.mp hmem with hmem | hmem
    · obtain ⟨hin, hcase⟩ := hg.returned b d hmem
      refine ⟨hold _ hin, ?_⟩
      rcases hcase with hclosed | ⟨r, hr, hrest⟩ | ⟨hgone, hreq, hle⟩
      · exact .inl hclosed
      · exact .inr (.inl ⟨r, hkept hr, hrest⟩)
      · have hne : b.input.requestId ≠ call.input.requestId := by
          intro heq
          rw [heq, ← hexpiry] at hle
          omega
        have hid : d.consentId ≠ c.consentId := by
          intro heq
          rw [heq, hdrawn] at hin
          exact hfresh hin
        exact .inr (.inr ⟨(get_set_of_ne _ _ hid).trans hgone,
          (get_set_of_ne _ _ hne).trans hreq, hle⟩)
    · cases List.mem_singleton.mp hmem
      exact ⟨hnew, .inr (.inl ⟨_, hself, hrid, fun _ => rfl, hfacts⟩)⟩
  · refine hg.once_snoc ?_
    intro b d hmem hsame
    obtain ⟨-, hcase⟩ := hg.returned b d hmem
    rcases hcase with hclosed | ⟨r, hr, hrid', -⟩ | ⟨-, -, hle⟩
    · rw [hopen] at hclosed
      cases hclosed
    · exact absurd (hrid'.trans hsame) (hother hr)
    · rw [hsame, ← hexpiry] at hle
      omega
  · intro id hid
    obtain ⟨hin, hgone⟩ := hg.gone id hid
    refine ⟨hold id hin, hgone.imp_right fun hlate r d hr => ?_⟩
    rcases hback id r hr with ⟨rfl, -⟩ | hr'
    · exact absurd (hdrawn ▸ hin) hfresh
    · exact hlate r d hr'

end Good

/-! ## The parts of a call -/

theorem invalidate_ended (s : GrantsState) (id : String) (now : Int) :
    Ended s (after (invalidate id now s)) id := by
  rcases invalidate_cases s id now with ⟨hsame, hinactive⟩ | ⟨r, d, a, hr, -, hafter, -⟩
  · rw [hsame]
    exact .of_inactive hinactive
  · rw [hafter]
    exact .of_set hr d a

variable {s : GrantsState}

theorem invalidate_good (hg : Good expiry h gone s) (id : String) (now : Int) :
    Good expiry h gone (after (invalidate id now s)) := by
  rcases invalidate_cases s id now with ⟨hsame, -⟩ | ⟨r, d, a, hr, hactive, hafter, hcase⟩
  · rw [hsame]
    exact hg
  · obtain ⟨c, hc, hid⟩ := hg.held id r hr hactive
    rw [hafter]
    rcases hcase with ⟨hnone, -⟩ | ⟨c', hc', hkept, hrevoked⟩
    · rw [hc] at hnone
      cases hnone
    · cases hc.symm.trans hc'
      rw [hid] at hrevoked
      refine hg.deactivate hr d hkept fun ar har hstatus => ?_
      rcases hrevoked ar har with hno | hsubject
      · rw [hno] at hstatus
        cases hstatus
      · -- the authority's record would be that of this very consent
        obtain ⟨ar', har', hsame⟩ := hkept.records id ar har
        obtain rfl := hsame hstatus
        obtain ⟨r', hr', -, hc'⟩ := hg.agreed id ar' har' hstatus
        cases hr.symm.trans hr'
        rw [hc] at hc'
        exact hsubject (by rw [← some.inj hc'])

/-- The record stands at the reading. -/
def Standing (s : GrantsState) (id : String) (now : Int) (answers : Option Answers) : Prop :=
  ∃ r c k, s.records.get id = some r ∧ r.active = true ∧ r.consent = some c ∧ now < c.expiresAt
    ∧ checkScope r.scope r.bindings now answers = .ok k

variable {id : String} {now : Int}

theorem Standing.not_gone {answers : Option Answers}
    (hs : Standing s id now answers) (hopen : s.closed = false) (hnow : s.lastNow = now) :
    ¬ Gone s id := by
  rintro (hclosed | hlate)
  · rw [hopen] at hclosed
    cases hclosed
  · obtain ⟨r, c, k, hr, hactive, hc, hlt, -⟩ := hs
    have := hlate r c hr hactive hc
    omega

theorem current_frame (s : GrantsState) (id : String) (now : Int) (answers : Option Answers) :
    Ensures (· = s) (current id now answers)
      (fun live t => (live = true → t = s ∧ Standing s id now answers)
        ∧ (live = false → Ended s t id))
      (fun t => t = s ∨ Ended s t id) := by
  have hlost : Ensures (· = s) (do invalidate id now; return false)
      (fun live t => (live = true → t = s ∧ Standing s id now answers)
        ∧ (live = false → Ended s t id))
      (fun t => t = s ∨ Ended s t id) := by
    refine ((of_after (I := fun t => Ended s t id) ?_).mono (fun _ hs => hs)
      (fun _ _ ht => ht) fun _ ht => .inr ht).bind fun _ => ret fun t ht => ?_
    · rintro _ rfl
      exact invalidate_ended _ id now
    · refine ⟨?_, fun _ => ht⟩
      intro hlive
      cases hlive
  refine get_bind ?_
  rintro s rfl
  cases hr : s.records.get id with
  | none =>
      refine ret ?_
      rintro t rfl
      refine ⟨by simp, fun _ => .of_inactive ?_⟩
      intro r hr'
      rw [hr] at hr'
      cases hr'
  | some r =>
      by_cases hactive : r.active = false
      · simp only [hactive, if_true]
        refine ret ?_
        rintro t rfl
        refine ⟨by simp, fun _ => .of_inactive ?_⟩
        intro r' hr'
        rw [hr] at hr'
        exact some.inj hr' ▸ hactive
      · simp only [if_neg hactive]
        cases hc : r.consent with
        | none => exact failed fun t ht => .inl ht
        | some c =>
            by_cases hexpired : c.expiresAt ≤ now
            · simp only [hexpired, if_true]
              exact hlost
            · simp only [hexpired, if_false]
              cases hcheck : checkScope r.scope r.bindings now answers with
              | error code => exact hlost
              | ok k =>
                  refine ret ?_
                  rintro t rfl
                  refine ⟨fun _ => ⟨rfl, r, c, k, hr, ?_, hc, by omega, hcheck⟩, by simp⟩
                  cases hb : r.active with
                  | false => exact absurd hb hactive
                  | true => rfl

theorem current_good (id : String) (now : Int) (answers : Option Answers) :
    Ensures (Good expiry h gone) (current id now answers)
      (fun _ => Good expiry h gone) (Good expiry h gone) := by
  have hlost : Ensures (Good expiry h gone) (do invalidate id now; return false)
      (fun _ => Good expiry h gone) (Good expiry h gone) :=
    (of_after fun s hg => invalidate_good hg id now).bind fun _ => ret fun _ ht => ht
  refine .get_bind ?_
  intro s hg
  refine .mono (P := Good expiry h gone) (Q := fun _ => Good expiry h gone)
    (E := Good expiry h gone) ?_ (fun t ht => ht ▸ hg) (fun _ _ ht => ht) fun _ ht => ht
  split
  · exact .ret fun _ ht => ht
  · split
    · exact .ret fun _ ht => ht
    · split
      · exact .failed fun _ ht => ht
      · split
        · exact hlost
        · split
          · exact .ret fun _ ht => ht
          · exact hlost

/-- The state at one reading. -/
def At (expiry : String → Int) (h : List Call) (gone : List String) (now : Int)
    (s : GrantsState) : Prop :=
  Good expiry h gone s ∧ s.lastNow = now ∧ s.closed = false

theorem current_at (hs : At expiry h gone now s) (id : String) (answers : Option Answers) :
    Ensures (· = s) (current id now answers)
      (fun live t => At expiry h gone now t ∧ (live = true → t = s ∧ Standing s id now answers)
        ∧ (live = false → Ended s t id))
      (Good expiry h gone) := by
  obtain ⟨hg, hnow, hopen⟩ := hs
  refine ((current_good id now answers).and (current_frame s id now answers)).mono
    (fun t ht => ⟨ht ▸ hg, ht⟩) ?_ fun t ht => ht.1
  rintro live t ⟨hgt, hlive, hlost⟩
  refine ⟨⟨hgt, ?_⟩, hlive, hlost⟩
  cases live with
  | true =>
      rw [(hlive rfl).1]
      exact ⟨hnow, hopen⟩
  | false =>
      have he := hlost rfl
      exact ⟨he.clock.trans hnow, he.closed.trans hopen⟩

/-- What a round of `#prune` does after it asked whether the record stands. -/
theorem drop_at {now : Int} {s : GrantsState} {id : String} (hs : At expiry h gone now s)
    (hid : ∀ r, s.records.get id = some r → r.active = true →
      ∃ c, r.consent = some c ∧ now < c.expiresAt) :
    At expiry h gone now (match s.records.get id with
      | none => s
      | some r =>
          if r.retainUntil ≤ now then
            { s with
              records := s.records.erase id
              byRequest := s.byRequest.erase r.scope.invite.requestId }
          else s) := by
  obtain ⟨hg, hnow, hopen⟩ := hs
  split
  · exact ⟨hg, hnow, hopen⟩
  · rename_i r hr
    split
    · rename_i hlate
      refine ⟨hg.remove hr ?_ (by omega), hnow, hopen⟩
      cases hactive : r.active with
      | false => rfl
      | true =>
          obtain ⟨c, hc, hlt⟩ := hid r hr hactive
          have := (hg.retained id r hr).2 c hactive hc
          omega
    · exact ⟨hg, hnow, hopen⟩

theorem pruneRecord_at (answers : String → Option Answers) (id : String) :
    Ensures (At expiry h gone now) (pruneRecord now answers id)
      (fun _ => At expiry h gone now) (Good expiry h gone) := by
  intro s hs
  refine ((current_at hs id (answers id)).bind fun live => ?_) s rfl
  refine .write (Q := fun _ => At expiry h gone now) ?_
  rintro t ⟨hat, hlive, hlost⟩
  refine drop_at hat ?_
  intro r hr hactive
  cases live with
  | true =>
      obtain ⟨rfl, r', c, k, hr', -, hc, hlt, -⟩ := hlive rfl
      cases hr.symm.trans hr'
      exact ⟨c, hc, hlt⟩
  | false =>
      rw [((hlost rfl).self r hr).1] at hactive
      cases hactive

theorem prune_at (answers : String → Option Answers) :
    Ensures (At expiry h gone now) (prune now answers)
      (fun _ => At expiry h gone now) (Good expiry h gone) := by
  refine get_bind ?_
  intro s hs
  refine (bind (Q := fun _ => At expiry h gone now) ?_ fun _ => ?_)
  · refine (forM fun id _ => pruneRecord_at answers id).mono ?_ (fun _ _ ht => ht) fun _ ht => ht
    rintro t rfl
    exact hs
  · refine write_bind (Q := At expiry h gone now) ?_ ?_
    · rintro t ⟨hg, hnow, hopen⟩
      have := hg.retime (Int.le_refl _) (liveRates t.rates now)
      exact ⟨this, hnow, hopen⟩
    · exact get_bind fun t ht => ret fun _ heq => heq ▸ ht

theorem destroy_closed : Ensures (Good expiry h gone) destroy
    (fun _ t => Good expiry h gone t ∧ t.closed = true)
    (fun t => Good expiry h gone t ∧ t.closed = true) := by
  refine get_bind ?_
  intro s hg
  split
  · rename_i hclosed
    exact ret fun t ht => ht ▸ ⟨hg, hclosed⟩
  · refine set_bind (Q := fun t => (Good expiry h gone t ∧ t.closed = true)
        ∧ ∀ id r, t.records.get id = some r → id ∈ s.records.keys) ?_ ?_
    · rintro t rfl
      exact ⟨⟨hg.close, rfl⟩, fun id r hr => mem_keys_iff.mpr ⟨r, hr⟩⟩
    · refine bind (Q := fun _ t => ((Good expiry h gone t ∧ t.closed = true)
          ∧ ∀ id r, t.records.get id = some r → id ∈ s.records.keys)
          ∧ ∀ id ∈ s.records.keys, ∀ r, t.records.get id = some r → r.active = false) ?_ ?_
      · refine forM_each ?_ ?_
        · intro id _
          refine (of_after (I := fun t => ((Good expiry h gone t ∧ t.closed = true)
            ∧ ∀ id r, t.records.get id = some r → id ∈ s.records.keys)
            ∧ ∀ r, t.records.get id = some r → r.active = false) ?_).mono (fun _ ht => ht)
              (fun _ _ ht => ht) fun _ ht => ht.1.1
          rintro t ⟨⟨hgt, hclosed⟩, hkeys⟩
          have he := invalidate_ended t id s.lastNow
          refine ⟨⟨⟨invalidate_good hgt id s.lastNow, he.closed.trans hclosed⟩, ?_⟩,
            fun r hr => (he.self r hr).1⟩
          intro k r hr
          by_cases hk : k = id
          · obtain ⟨-, r', hr', -⟩ := he.self r (hk ▸ hr)
            exact hk ▸ hkeys id r' hr'
          · exact hkeys k r (he.other k hk ▸ hr)
        · intro id _ k
          refine (of_after (I := fun t => ∀ r, t.records.get k = some r →
            r.active = false) ?_).mono (fun _ ht => ht) (fun _ _ ht => ht) fun _ _ => trivial
          exact fun t ht => (invalidate_ended t id s.lastNow).inactive ht
      · intro _
        refine write (Q := fun _ t => Good expiry h gone t ∧ t.closed = true) ?_
        rintro t ⟨⟨⟨hgt, hclosed⟩, hkeys⟩, hall⟩
        exact ⟨hgt.clear hclosed fun id r hr => hall id (hkeys id r hr) r hr, hclosed⟩

theorem readNow_spec (hg : Good expiry h gone s) (reading : Int) : Ensures (· = s) (readNow reading)
      (fun now t => now = reading ∧ At expiry h gone reading t ∧ t.records = s.records
        ∧ t.byRequest = s.byRequest)
      (Good expiry h gone) := by
  refine .get_bind ?_
  rintro s rfl
  refine .failWhen_bind (fun _ ht => ht ▸ hg) fun hopen => ?_
  split
  · refine .bind (Q := fun _ => Good expiry h gone) ?_ fun _ => .failed fun _ ht => ht
    refine destroy_closed.mono ?_ (fun _ _ ht => ht.1) fun _ ht => ht.1
    rintro t rfl
    exact hg
  · rename_i hok
    simp only [not_or, not_lt] at hok
    rintro t rfl
    refine ⟨rfl, ⟨hg.retime hok.2.2 t.rates, rfl, ?_⟩, rfl, rfl⟩
    cases hc : t.closed with
    | false => rfl
    | true => exact absurd hc hopen

theorem readNow_rollback (hg : Good expiry h gone s) {reading : Int} (hback : reading < s.lastNow) :
    Ensures (· = s) (readNow reading) (fun _ _ => False) (fun t => t.closed = true) := by
  refine .get_bind ?_
  rintro s rfl
  by_cases hclosed : s.closed = true
  · rintro t rfl
    simp only [failWhen, Checks.failIf_of _ hclosed]
    exact hclosed
  · refine .failWhen_skip hclosed ?_
    rw [if_pos (.inr (.inr hback))]
    refine .bind (Q := fun _ t => t.closed = true) ?_ fun _ => .failed fun _ ht => ht
    have hdestroy : Ensures (Good expiry h gone) destroy
        (fun _ t => Good expiry h gone t ∧ t.closed = true)
        (fun t => Good expiry h gone t ∧ t.closed = true) := destroy_closed
    refine hdestroy.mono ?_ (fun _ _ ht => ht.2) fun _ ht => ht.2
    rintro t rfl
    exact hg

theorem takeRate_spec (s : GrantsState) (principal : String) (now : Int) :
    Ensures (· = s) (takeRate principal now) (fun _ t => ∃ rates, t = { s with rates := rates })
      (fun t => ∃ rates, t = { s with rates := rates }) := by
  refine .get_bind ?_
  rintro s rfl
  split
  · rename_i rate _
    refine .set_bind (Q := fun t => ∃ rates, t = { s with rates := rates }) (fun _ _ => ⟨_, rfl⟩) ?_
    exact .checked (fun _ ht => ht) fun _ _ _ ht => ht
  · refine .set_bind (Q := fun t => ∃ rates, t = { s with rates := rates }) (fun _ _ => ⟨_, rfl⟩) ?_
    refine .failWhen_bind (fun _ ht => ht) fun _ => ?_
    exact fun _ _ => ⟨_, rfl⟩

theorem takeRate_at (principal : String) :
    Ensures (At expiry h gone now) (takeRate principal now) (fun _ => At expiry h gone now)
      (Good expiry h gone) := by
  refine .each ?_
  rintro s ⟨hg, hnow, hopen⟩
  refine (takeRate_spec s principal now).mono (fun _ ht => ht) ?_ ?_
  · rintro _ t ⟨rates, rfl⟩
    exact ⟨hg.retime (Int.le_refl _) rates, hnow, hopen⟩
  · rintro t ⟨rates, rfl⟩
    exact hg.retime (Int.le_refl _) rates

/-! ## Approvals -/

/-- An approval has returned the consent. -/
def Approved (expiry : String → Int) (h : List Call) (gone : List String) (call : ApproveCall)
    (c : Consent) (t : GrantsState) : Prop :=
  Good expiry (h ++ [(.approve call, some (.consent c))]) gone t ∧ c.consentId ∉ gone

theorem replay_spec (hs : At expiry h gone now s) (call : ApproveCall) (actor : Peer)
    (hreq : s.byRequest.get call.input.requestId = some id) :
    Ensures (· = s) (replay call actor id now) (Approved expiry h gone call)
      (Good expiry h gone) := by
  refine .get_bind ?_
  rintro s rfl
  split
  · exact .failed fun _ ht => ht ▸ hs.1
  · refine .failWhen_bind (fun _ ht => ht ▸ hs.1) fun _ => ?_
    refine .failWhen_bind (fun _ ht => ht ▸ hs.1) fun _ => ?_
    refine .failWhen_bind (fun _ ht => ht ▸ hs.1) fun _ => ?_
    refine (current_at hs id call.answers).bind fun live => ?_
    refine .failWhen_bind (fun _ ht => ht.1.1) fun hlive => ?_
    refine .get_bind ?_
    rintro t ⟨-, hstand, -⟩
    have htrue : live = true := by
      cases live with
      | true => rfl
      | false => exact absurd rfl hlive
    obtain ⟨rfl, hst⟩ := hstand htrue
    have hstands := hst
    obtain ⟨r, c, k, hr, hactive, hc, hlt, hcheck⟩ := hst
    have hbind : (t.records.get id).bind consent = some c := by
      rw [hr, bind_some, hc]
    rw [hbind]
    refine .ret ?_
    rintro _ rfl
    obtain ⟨hg, hnow, hopen⟩ := hs
    obtain ⟨hfacts, hbound⟩ := checkScope_facts hcheck
    obtain ⟨hepoch, hlease, hgen, hrev⟩ := hbound
      ⟨c, r.roomEpoch, r.leaseId, r.sourceAuthorityRevision, r.generation⟩
      (by rw [bindings, hc, map_some])
    refine ⟨hg.snoc_replay hopen hreq hr hactive hc ?_, ?_⟩
    · rw [hfacts, facts, hrev]
      simp only at hepoch hlease hgen
      rw [hepoch, hlease, hgen]
    · intro hmem
      obtain ⟨c', hc', hid⟩ := hg.held id r hr hactive
      cases hc.symm.trans hc'
      rw [hid] at hmem
      exact hstands.not_gone hopen hnow (hg.gone id hmem).2

variable {call : ApproveCall}

/-- The last lines of an approval: the authority issues the consent and it is
recorded. -/
theorem store_spec (hs : At expiry h gone now s) {invite : Invite} {k : Checked} {sourceId : String}
    (hreq : s.byRequest.get call.input.requestId = none) (hport : call.invite = .ok invite)
    (hrid : invite.requestId = call.input.requestId)
    (hexpiry : invite.expiresAt = expiry call.input.requestId) (hlive : now < invite.expiresAt)
    (hfresh : call.drawn ∉ drawnIds h)
    (hslot : ∀ id r, s.records.get id = some r → r.active = true →
      r.scope.slot ≠ (newScope call invite now).slot)
    (hk : checkScope (newScope call invite now) none now call.answers = .ok k) :
    Ensures (· = s) (do
        let consent ← onAuthority (issue (consentRequest (newScope call invite now) k sourceId)
          (consentContext (newScope call invite now) k sourceId) now call.drawn)
        modify fun t : GrantsState => { t with
          records := t.records.set consent.consentId (newRecord (newScope call invite now) k consent)
          byRequest := t.byRequest.set call.input.requestId consent.consentId }
        return consent)
      (Approved expiry h gone call) (Good expiry h gone) := by
  obtain ⟨hg, hnow, hopen⟩ := hs
  have hnew : s.authority.requests.get call.input.requestId = none := by
    cases hp : s.authority.requests.get call.input.requestId with
    | none => rfl
    | some p =>
        exfalso
        rcases hg.requests _ p hp with hclosed | ⟨id, hid⟩ | hlate
        · rw [hopen] at hclosed
          cases hclosed
        · rw [hreq] at hid
          cases hid
        · rw [← hexpiry] at hlate
          omega
  refine .bind (Q := fun c t => ∃ a, t = { s with authority := a }
      ∧ c.consentId = call.drawn ∧ Issued s.authority a
        (consentRequest (newScope call invite now) k sourceId) c) ?_ fun c => ?_
  · have hissue : Ensures (· = s.authority)
        (issue (consentRequest (newScope call invite now) k sourceId)
          (consentContext (newScope call invite now) k sourceId) now call.drawn)
        (fun d b => d.consentId = call.drawn ∧ d.status = .active ∧ Issued s.authority b
          (consentRequest (newScope call invite now) k sourceId) d)
        (fun b => AuthorityKept s.authority b) := issue_new hnew
    refine (onAuthority_ensures hissue rfl).mono (fun _ ht => ht) ?_ ?_
    · rintro c t ⟨a, rfl, hdrawn, -, hissued⟩
      exact ⟨a, rfl, hdrawn, hissued⟩
    · rintro t ⟨a, rfl, hkept⟩
      exact hg.weaken hkept
  · refine .write_bind (Q := fun t => Approved expiry h gone call c t) ?_ (.ret fun _ ht => ht)
    rintro t ⟨a, rfl, hdrawn, hissued⟩
    obtain ⟨hfacts, -⟩ := checkScope_facts hk
    rw [← hnow] at hlive hslot ⊢
    refine ⟨hg.snoc_admitted hopen hreq hport hrid hexpiry hlive rfl hissued hdrawn hfresh hslot ?_, ?_⟩
    · rw [show (newScope call invite now).invite = invite from rfl] at hfacts
      rw [hfacts, hnow]
      rfl
    · intro hmem
      rw [hdrawn] at hmem
      exact hfresh (hg.gone _ hmem).1

theorem admit_spec (hs : At expiry h gone now s) (hhonest : Honest expiry (.approve call))
    (hfresh : call.drawn ∉ drawnIds h) (actor : Peer)
    (hreq : s.byRequest.get call.input.requestId = none) :
    Ensures (· = s) (admitSource call actor) (Approved expiry h gone call) (Good expiry h gone) := by
  refine .check_bind (fun _ ht => ht ▸ hs.1) fun invite hinvite => ?_
  obtain ⟨hrid, hexpiry⟩ := hhonest invite hinvite
  refine (readNow_spec hs.1 call.resolved).bind fun now' => .each ?_
  rintro u ⟨rfl, hu, -, hindex⟩
  have hureq : u.byRequest.get call.input.requestId = none := by rw [hindex, hreq]
  refine .failWhen_bind (fun _ ht => ht ▸ hu.1) fun hinv => ?_
  simp only [ne_eq, not_or, not_not, not_le] at hinv
  refine .check_bind (fun _ ht => ht ▸ hu.1) fun k hk => ?_
  refine .get_bind ?_
  rintro u rfl
  refine .failWhen_bind (fun _ ht => ht ▸ hu.1) fun _ => ?_
  refine .failWhen_bind (fun _ ht => ht ▸ hu.1) fun hslot => ?_
  refine .check_bind (fun _ ht => ht ▸ hu.1) fun sourceId _ => ?_
  refine .failWhen_bind (fun _ ht => ht ▸ hu.1) fun _ => ?_
  refine .failWhen_bind (fun _ ht => ht ▸ hu.1) fun _ => ?_
  refine store_spec hu hureq hinvite hrid hexpiry hinv.2.2.2.2 hfresh ?_ hk
  intro id r hr hactive hsame
  refine hslot (List.any_eq_true.mpr ⟨r, mem_values_iff.mpr ⟨id, hr⟩, ?_⟩)
  rw [hactive, decide_eq_true hsame]
  rfl

theorem approve_spec (hhonest : Honest expiry (.approve call)) (hfresh : call.drawn ∉ drawnIds h) :
    Ensures (Good expiry h gone) (approve call) (Approved expiry h gone call)
      (Good expiry h gone) := by
  refine .failWhen_bind (fun _ hg => hg) fun _ => ?_
  refine .check_bind (fun _ hg => hg) fun principal _ => ?_
  refine .each fun s hg => ?_
  refine (readNow_spec hg call.reading).bind fun now => .each ?_
  rintro t ⟨rfl, ht, -⟩
  refine .mono (P := At expiry h gone call.reading) (Q := Approved expiry h gone call)
    (E := Good expiry h gone) ?_ (fun _ heq => heq ▸ ht) (fun _ _ ht => ht) fun _ ht => ht
  split
  · exact .failed fun _ ht => ht.1
  · rename_i actor _
    refine (takeRate_at principal).bind fun _ => ?_
    refine (prune_at call.pruning).bind fun _ => ?_
    refine .get_bind ?_
    intro u hu
    split
    · rename_i id hreq
      exact replay_spec hu call actor hreq
    · rename_i hreq
      exact admit_spec hu hhonest hfresh actor hreq

/-! ## The other calls -/

/-- A packager's scope shows the record it is for. -/
def Scoped (s : GrantsState) (id : String) (answers : Option Answers) (x : SourceScope) : Prop :=
  ∃ r c, s.records.get id = some r ∧ r.active = true ∧ r.consent = some c
    ∧ x = sourceScope r c
    ∧ factsOf answers r.scope.invite.publisher r.scope.invite.owner = some r.facts

theorem forPackager_spec (id packagerRef deviceRef : String) (reading : Int)
    (answers : Option Answers) (hg : Good expiry h gone s) :
    Ensures (· = s) (forPackager id packagerRef deviceRef reading answers)
      (fun out t => Good expiry h gone t
        ∧ (∀ x, out = some x → t.closed = false ∧ id ∉ gone ∧ Scoped t id answers x)
        ∧ (out = none → ∀ r c, s.records.get id = some r → r.consent = some c →
          r.scope.invite.packagerRef = packagerRef → c.granteeDeviceRef = deviceRef → Gone t id))
      (Good expiry h gone) := by
  refine (readNow_spec hg reading).bind fun now => .each ?_
  rintro t ⟨rfl, ht, hrecords, -⟩
  refine .get_bind ?_
  rintro t rfl
  cases hr : t.records.get id with
  | none =>
      refine .ret ?_
      rintro t rfl
      refine ⟨ht.1, by simp, fun _ r c hr' => ?_⟩
      rw [← hrecords, hr] at hr'
      cases hr'
  | some r =>
      by_cases hpackager : r.scope.invite.packagerRef ≠ packagerRef
      · simp only [if_pos hpackager]
        refine .ret ?_
        rintro t rfl
        refine ⟨ht.1, by simp, fun _ r' c hr' _ hp => ?_⟩
        rw [← hrecords, hr] at hr'
        exact absurd ((some.inj hr') ▸ hp) hpackager
      · simp only [if_neg hpackager]
        cases hc : r.consent with
        | none => exact .failed fun _ heq => heq ▸ ht.1
        | some c =>
            by_cases hdevice : c.granteeDeviceRef ≠ deviceRef
            · simp only [if_pos hdevice]
              refine .ret ?_
              rintro t rfl
              refine ⟨ht.1, by simp, fun _ r' c' hr' hc' _ hd => ?_⟩
              rw [← hrecords, hr] at hr'
              cases hr'
              cases hc.symm.trans hc'
              exact absurd hd hdevice
            · simp only [if_neg hdevice]
              refine (current_at ht id answers).bind fun live => .ret ?_
              rintro u ⟨hu, hlive, hlost⟩
              cases live with
              | false => exact ⟨hu.1, by simp, fun _ r' c' _ _ _ _ => (hlost rfl).gone⟩
              | true =>
                  obtain ⟨rfl, hst⟩ := hlive rfl
                  have hstands := hst
                  obtain ⟨r', c', k, hr', hactive, hc', -, hcheck⟩ := hst
                  cases hr.symm.trans hr'
                  cases hc.symm.trans hc'
                  refine ⟨hu.1, ?_, by simp⟩
                  rintro x hx
                  refine ⟨hu.2.2, fun hmem => ?_, r, c, hr, hactive, hc, ?_, ?_⟩
                  · exact hstands.not_gone hu.2.2 hu.2.1 (hu.1.gone id hmem).2
                  · exact (some.inj hx).symm
                  · obtain ⟨hfacts, hbound⟩ := checkScope_facts hcheck
                    obtain ⟨hepoch, hlease, hgen, hrev⟩ := hbound
                      ⟨c, r.roomEpoch, r.leaseId, r.sourceAuthorityRevision, r.generation⟩
                      (by rw [bindings, hc, map_some])
                    simp only at hepoch hlease hgen
                    rw [hfacts, facts, hrev, hepoch, hlease, hgen]

theorem revoke_spec (identity : Identity) (deviceFingerprint id : String) (reading : Int) :
    Ensures (Good expiry h gone) (revoke identity deviceFingerprint id reading)
      (fun _ t => Good expiry h gone t ∧ Gone t id) (Good expiry h gone) := by
  refine each fun s hg => ?_
  refine (readNow_spec hg reading).bind fun now => each ?_
  rintro t ⟨rfl, ht, -⟩
  refine get_bind ?_
  rintro t rfl
  split
  · exact failed fun _ heq => heq ▸ ht.1
  · refine check_bind (fun _ heq => heq ▸ ht.1) fun principal _ => ?_
    refine failWhen_bind (fun _ heq => heq ▸ ht.1) fun _ => ?_
    refine bind (Q := fun _ u => Good expiry h gone u ∧ Gone u id) ?_ fun _ =>
      get_bind fun u hu => ret fun _ heq => heq ▸ hu
    refine (of_after (I := fun u => Good expiry h gone u ∧ Gone u id) ?_).mono
      (fun _ hs => hs) (fun _ _ hu => hu) fun _ hu => hu.1
    rintro u rfl
    exact ⟨invalidate_good ht.1 id now, (invalidate_ended u id now).gone⟩

theorem owner_spec (c : OwnerCall) : Ensures (Good expiry h gone) (owner c)
      (fun out t => At expiry h gone out.2.2 t) (Good expiry h gone) := by
  refine .each fun s hg => ?_
  refine (readNow_spec hg c.reading).bind fun now => .each ?_
  rintro t ⟨rfl, ht, -⟩
  refine .check_bind (fun _ heq => heq ▸ ht.1) fun principal _ => ?_
  split
  · exact .failed fun _ heq => heq ▸ ht.1
  · refine .mono (P := At expiry h gone c.reading)
      (Q := fun out t => At expiry h gone out.2.2 t) (E := Good expiry h gone) ?_
      (fun _ heq => heq ▸ ht) (fun _ _ hu => hu) fun _ hu => hu
    refine (takeRate_at principal).bind fun _ => ?_
    split
    · exact .failed fun _ hu => hu.1
    · exact .failWhen_bind (fun _ hu => hu.1) fun _ => .ret fun _ hu => hu

theorem listForOwner_spec (c : OwnerCall) :
    Ensures (Good expiry h gone) (listForOwner c) (fun _ => Good expiry h gone)
      (Good expiry h gone) := by
  refine (owner_spec c).bind fun out => ?_
  refine .get_bind fun s hs => ?_
  refine .bind (Q := fun _ => Good expiry h gone) ?_ fun _ =>
    .get_bind fun t ht => .ret fun _ heq => heq ▸ ht
  refine (forM (I := Good expiry h gone) (E := Good expiry h gone) fun id _ => ?_).mono
    (fun _ heq => heq ▸ hs.1) (fun _ _ ht => ht) fun _ ht => ht
  exact (current_good id out.2.2 (c.answers id)).bind fun _ => ret fun _ ht => ht

theorem revokeForOwner_spec (c : OwnerCall) (programRevision fencingRevision : Int) (id : String) :
    Ensures (Good expiry h gone) (revokeForOwner c programRevision fencingRevision id)
      (fun _ t => Good expiry h gone t ∧ Gone t id) (Good expiry h gone) := by
  refine (owner_spec c).bind fun out => ?_
  refine failWhen_bind (fun _ ht => ht.1) fun _ => ?_
  refine get_bind fun s hs => ?_
  cases hr : s.records.get id with
  | none => exact failed fun _ heq => heq ▸ hs.1
  | some r =>
      refine failWhen_bind (fun _ heq => heq ▸ hs.1) fun _ => ?_
      by_cases hactive : r.active = true
      · simp only [if_pos hactive]
        refine (current_at hs id (c.answers id)).bind fun live => ?_
        refine failWhen_bind (fun _ ht => ht.1.1) fun _ => ?_
        refine (of_after (I := fun u => Good expiry h gone u ∧ Gone u id) ?_).mono
          (fun _ ht => ht) (fun _ _ hu => hu) fun _ hu => hu.1
        rintro u ⟨hu, -⟩
        exact ⟨invalidate_good hu.1 id out.2.2, (invalidate_ended u id out.2.2).gone⟩
      · simp only [if_neg hactive]
        refine ret ?_
        rintro t rfl
        refine ⟨hs.1, .inr fun r' c' hr' hactive' _ => ?_⟩
        cases hr.symm.trans hr'
        exact absurd hactive' hactive

/-! ## Records that are found stale -/

/-- The record under the id is as it was, or its consent is over. -/
def Untouched (s t : GrantsState) (id : String) : Prop :=
  t.records.get id = s.records.get id ∨ Gone t id

variable {t : GrantsState}

theorem Ended.untouched {u : GrantsState} {k : String} (h : Ended t u id)
    (hk : Untouched s t k) : Untouched s u k := by
  rcases hk with hsame | hgone
  · by_cases hid : k = id
    · exact .inr (hid ▸ h.gone)
    · exact .inl ((h.other k hid).trans hsame)
  · exact .inr (h.still hgone)

theorem current_gone (id : String) (now : Int) (answers : Option Answers) (k : String) :
    Ensures (Gone · k) (current id now answers) (fun _ t => Gone t k) (Gone · k) := by
  refine .each fun t ht => ?_
  refine (current_frame t id now answers).mono (fun _ hu => hu) ?_ ?_
  · rintro live u ⟨hlive, hlost⟩
    cases live with
    | true => exact (hlive rfl).1 ▸ ht
    | false => exact (hlost rfl).still ht
  · rintro u (rfl | hended)
    · exact ht
    · exact hended.still ht

/-- Asked whether it stands, a record that is stale loses its consent. -/
theorem current_round (id : String) (now : Int) (answers : Option Answers) :
    Ensures (fun t => ∀ k, Untouched s t k) (current id now answers)
      (fun _ t => (∀ k, Untouched s t k) ∧ (Stale s id now answers → Gone t id))
      (fun _ => True) := by
  refine .each fun t ht => ?_
  refine (current_frame t id now answers).mono (fun _ hu => hu) ?_ fun _ _ => trivial
  rintro live u ⟨hlive, hlost⟩
  cases live with
  | false => exact ⟨fun k => (hlost rfl).untouched (ht k), fun _ => (hlost rfl).gone⟩
  | true =>
      obtain ⟨rfl, r, c, k, hr, -, -, -, hcheck⟩ := hlive rfl
      refine ⟨ht, fun hstale => ?_⟩
      rcases ht id with hsame | hgone
      · obtain ⟨r', hr', hno⟩ := hstale
        rw [hsame, hr'] at hr
        cases hr
        exact absurd hcheck (hno k)
      · exact hgone

theorem Gone.dropped {s : GrantsState} {id k : String} {now : Int} (hk : Gone s k) :
    Gone (match s.records.get id with
      | none => s
      | some r =>
          if r.retainUntil ≤ now then
            { s with
              records := s.records.erase id
              byRequest := s.byRequest.erase r.scope.invite.requestId }
          else s) k := by
  split
  · exact hk
  · split
    · refine hk.imp_right fun hlate r c hr hactive hc => ?_
      by_cases hid : k = id
      · rw [hid, get_erase_self] at hr
        cases hr
      · rw [get_erase_of_ne _ hid] at hr
        exact hlate r c hr hactive hc
    · exact hk

theorem Untouched.dropped {s t : GrantsState} {id k : String} {now : Int} (hk : Untouched s t k) :
    Untouched s (match t.records.get id with
      | none => t
      | some r =>
          if r.retainUntil ≤ now then
            { t with
              records := t.records.erase id
              byRequest := t.byRequest.erase r.scope.invite.requestId }
          else t) k := by
  rcases hk with hsame | hgone
  · split
    · exact .inl hsame
    · split
      · by_cases hid : k = id
        · refine .inr (.inr fun r c hr => ?_)
          rw [hid, get_erase_self] at hr
          cases hr
        · exact .inl ((get_erase_of_ne _ hid).trans hsame)
      · exact .inl hsame
  · exact .inr hgone.dropped

theorem pruneRecord_gone (now : Int) (answers : String → Option Answers) (id k : String) :
    Ensures (Gone · k) (pruneRecord now answers id) (fun _ t => Gone t k) (Gone · k) :=
  (current_gone id now (answers id) k).bind fun _ =>
    .write (Q := fun _ t => Gone t k) fun _ ht => ht.dropped

theorem pruneRecord_round (now : Int) (answers : String → Option Answers) (id : String) :
    Ensures (fun t => ∀ k, Untouched s t k) (pruneRecord now answers id)
      (fun _ t => (∀ k, Untouched s t k) ∧ (Stale s id now (answers id) → Gone t id))
      (fun _ => True) := by
  refine (current_round id now (answers id)).bind fun _ => ?_
  refine .write (Q := fun _ t => (∀ k, Untouched s t k)
    ∧ (Stale s id now (answers id) → Gone t id)) ?_
  exact fun t ht => ⟨fun k => (ht.1 k).dropped, fun hstale => (ht.2 hstale).dropped⟩

/-- A loop over records in which each is asked whether it stands. -/
theorem rounds_stale {answers : String → Option Answers}
    {round : String → Stateful GrantsState Unit} {ids : List String}
    (hround : ∀ id, Ensures (fun t => ∀ k, Untouched s t k) (round id)
      (fun _ t => (∀ k, Untouched s t k) ∧ (Stale s id now (answers id) → Gone t id))
      (fun _ => True))
    (hgone : ∀ id k, Ensures (Gone · k) (round id) (fun _ t => Gone t k) (Gone · k)) :
    Ensures (fun t => t.records = s.records) (ids.forM round)
      (fun _ t => ∀ id ∈ ids, Stale s id now (answers id) → Gone t id) (fun _ => True) := by
  refine (forM_each (I := fun t => ∀ k, Untouched s t k)
    (D := fun k t => Stale s k now (answers k) → Gone t k) (fun id _ => hround id) ?_).mono
      ?_ (fun _ _ ht => ht.2) fun _ ht => ht
  · intro id _ k
    by_cases hstale : Stale s k now (answers k)
    · exact (hgone id k).mono (fun _ ht => ht hstale) (fun _ _ ht _ => ht) fun _ _ => trivial
    · refine (of_after (I := fun _ => True) fun _ _ => trivial).mono (fun _ ht => ht) ?_
        fun _ _ => trivial
      exact fun _ _ _ h => absurd h hstale
  · intro t ht k
    exact .inl (by rw [ht])

theorem prune_stale {answers : String → Option Answers} (hstale : Stale s id now (answers id)) :
    Ensures (fun t => t.records = s.records) (prune now answers) (fun _ t => Gone t id)
      (fun _ => True) := by
  have hkey : id ∈ s.records.keys := by
    obtain ⟨r, hr, -⟩ := hstale
    exact mem_keys_iff.mpr ⟨r, hr⟩
  refine .get_bind fun u hu => ?_
  refine .bind (Q := fun _ t => Gone t id) ?_ fun _ => ?_
  · refine (rounds_stale (s := s) (pruneRecord_round now answers)
      (pruneRecord_gone now answers)).mono ?_ ?_ fun _ _ => trivial
    · exact fun t ht => ht ▸ hu
    · exact fun _ t ht => ht id (hu ▸ hkey) hstale
  · refine .write_bind (Q := fun t => Gone t id) (fun t ht => ht) ?_
    exact .get_bind fun t ht => .ret fun _ heq => heq ▸ ht

theorem owner_actor (hg : Good expiry h gone s) (c : OwnerCall) : Ensures (· = s) (owner c)
      (fun out t => c.actor = some out.1 ∧ out.2.2 = c.reading ∧ t.records = s.records)
      (fun _ => True) := by
  refine .bind (Q := fun now t => now = c.reading ∧ t.records = s.records) ?_ fun now => ?_
  · exact (readNow_spec hg c.reading).mono (fun _ ht => ht) (fun _ _ ht => ⟨ht.1, ht.2.2.1⟩)
      fun _ _ => trivial
  refine .check_bind (fun _ _ => trivial) fun principal _ => ?_
  cases hactor : ownerActor c principal with
  | none => exact .failed fun _ _ => trivial
  | some actor =>
      have hsome : c.actor = some actor := by
        unfold ownerActor at hactor
        split at hactor
        · split at hactor
          · rename_i hc _ _
            exact hc.trans hactor
          · cases hactor
        · cases hactor
      refine .bind (Q := fun _ t => now = c.reading ∧ t.records = s.records) ?_ fun _ => ?_
      · refine .each fun t ht => ?_
        refine (takeRate_spec t principal now).mono (fun _ hu => hu) ?_ fun _ _ => trivial
        rintro _ u ⟨rates, rfl⟩
        exact ht
      · split
        · exact .failed fun _ _ => trivial
        · refine .failWhen_bind (fun _ _ => trivial) fun _ => .ret fun t ht => ?_
          exact ⟨hsome, ht⟩

theorem listForOwner_stale (hg : Good expiry h gone s) {c : OwnerCall}
    {actor : Peer} {r : Record} (hr : s.records.get id = some r)
    (hactor : c.actor = some actor) (hmine : owned r actor c = true)
    (hstale : Stale s id c.reading (c.answers id)) :
    Ensures (· = s) (listForOwner c) (fun _ t => Gone t id) (fun _ => True) := by
  refine (owner_actor hg c).bind fun out => ?_
  obtain ⟨actor', w, now⟩ := out
  refine .get_bind ?_
  rintro t ⟨hsome, rfl, hrecords⟩
  obtain rfl := some.inj (hactor.symm.trans hsome)
  have hmem : id ∈ t.records.keys.filter fun k => (t.records.get k).any fun r => owned r actor c := by
    refine List.mem_filter.mpr ⟨mem_keys_iff.mpr ⟨r, hrecords ▸ hr⟩, ?_⟩
    rw [hrecords, hr]
    exact hmine
  refine .bind (Q := fun _ t => Gone t id) ?_ fun _ =>
    .get_bind fun u hu => .ret fun _ heq => heq ▸ hu
  refine (rounds_stale (s := s) (fun k => ?_) fun k k' => ?_).mono
    (fun u hu => hu ▸ hrecords) (fun _ u hu => hu id hmem hstale) fun _ _ => trivial
  · exact (current_round k c.reading (c.answers k)).bind fun _ => .ret fun _ ht => ht
  · exact (current_gone k c.reading (c.answers k) k').bind fun _ => .ret fun _ ht => ht

/-! ## One call -/

theorem Scoped.shown (hg : Good expiry h gone s) (hopen : s.closed = false)
    (packagerRef deviceRef : String) (reading : Int) {answers : Option Answers}
    {x : SourceScope} (hx : Scoped s id answers x) :
    Shown h (.forPackager id packagerRef deviceRef reading answers, some (.scope (some x))) := by
  obtain ⟨r, c, hr, hactive, hc, rfl, hfacts⟩ := hx
  obtain ⟨c', hc', hid⟩ := hg.held id r hr hactive
  cases hc.symm.trans hc'
  have hall : ∀ a d, (.approve a, some (.consent d)) ∈ h → d.consentId = id →
      d = c ∧ factsOf a.answers r.scope.invite.publisher r.scope.invite.owner = some r.facts := by
    intro a d hmem hd
    rcases (hg.returned a d hmem).2 with hclosed | ⟨r', hr', -, hsame, hshown⟩ | ⟨hnone, -⟩
    · rw [hopen] at hclosed
      cases hclosed
    · rw [hd, hr] at hr'
      cases hr'
      exact ⟨some.inj ((hsame hactive).symm.trans hc), hshown⟩
    · rw [hd, hr] at hnone
      cases hnone
  obtain ⟨a, d, hmem, hd, hport⟩ := hg.origin id r hr
  refine ⟨hid, r.scope.invite, r.facts, rfl, hfacts, ⟨a, ?_, hport⟩, hall⟩
  rw [← (hall a d hmem hd).1]
  exact hmem

theorem Good.silent (hg : Good expiry h gone s) (e : Event) :
    Good expiry (h ++ [(e, none)]) gone s :=
  hg.snoc fun _ _ heq => by cases heq

theorem prune_spec (reading : Int) (answers : String → Option Answers) :
    Ensures (Good expiry h gone) (do
        let now ← readNow reading
        prune now answers)
      (fun _ => Good expiry h gone) (Good expiry h gone) := by
  refine .each fun s hg => ?_
  refine (readNow_spec hg reading).bind fun now => .each ?_
  rintro t ⟨rfl, ht, -⟩
  exact (prune_at answers).mono (fun _ heq => heq ▸ ht) (fun _ _ hu => hu.1) fun _ hu => hu

/-- What a call that is no approval keeps, if its computation does. -/
theorem other_good {α : Type} {x : Stateful GrantsState α} {f : α → Output} {e : Event}
    {Q : α → GrantsState → Prop} {E : GrantsState → Prop} (hx : Ensures (Good expiry h gone) x Q E)
    (hQ : ∀ a t, Q a t → Good expiry h gone t) (hE : ∀ t, E t → Good expiry h gone t)
    (he : ∀ call, e ≠ .approve call) (hf : ∀ a id, ¬ Returns (e, some (f a)) id)
    (hg : Good expiry h gone s) :
    Good expiry (h ++ [(e, returned ((f <$> x) s))]) gone (after ((f <$> x) s))
      ∧ ∀ id, ¬ Returns (e, returned ((f <$> x) s)) id := by
  rw [after_map, returned_map]
  have hkeep : Ensures (Good expiry h gone) x (fun _ => Good expiry h gone) (Good expiry h gone) :=
    hx.mono (fun _ hs => hs) hQ hE
  refine ⟨(hkeep.after_of hg).snoc fun call c heq => he call (congrArg Prod.fst heq), fun id => ?_⟩
  cases returned (x s) with
  | none => exact not_false
  | some a => exact hf a id

theorem step_good {call : Call} (hg : Good expiry h gone s)
    (hstep : Step s call t) (hhonest : Honest expiry call.1)
    (hfresh : ∀ d, drawnOf call.1 = some d → d ∉ drawnIds h) :
    Good expiry (h ++ [call]) gone t ∧ Shown h call ∧ ∀ id ∈ gone, ¬ Returns call id := by
  obtain ⟨e, out⟩ := call
  obtain ⟨rfl, hout⟩ := hstep
  change out = returned (run e s) at hout
  subst hout
  cases e with
  | approve c =>
      have hrun := approve_spec hhonest (hfresh _ rfl) s hg
      simp only [run, after_map, returned_map]
      cases happrove : approve c s with
      | ok d t =>
          rw [happrove] at hrun
          refine ⟨hrun.1, trivial, ?_⟩
          rintro id hid rfl
          exact hrun.2 hid
      | error code t =>
          rw [happrove] at hrun
          exact ⟨hrun.silent _, trivial, fun _ _ hfalse => hfalse⟩
  | forPackager id packagerRef deviceRef reading answers =>
      have hrun := forPackager_spec id packagerRef deviceRef reading answers hg s rfl
      simp only [run, after_map, returned_map]
      cases hcall : forPackager id packagerRef deviceRef reading answers s with
      | error code t =>
          rw [hcall] at hrun
          exact ⟨hrun.silent _, trivial, fun _ _ hfalse => hfalse⟩
      | ok x t =>
          rw [hcall] at hrun
          obtain ⟨ht, hshown, -⟩ := hrun
          refine ⟨ht.snoc fun _ _ heq => (by cases heq), ?_⟩
          cases x with
          | none => exact ⟨trivial, fun _ _ hfalse => hfalse⟩
          | some x =>
              obtain ⟨hopen, hgone, hx⟩ := hshown x rfl
              have hsh := hx.shown ht hopen packagerRef deviceRef reading
              refine ⟨hsh, ?_⟩
              rintro k hk rfl
              exact hgone (hsh.1 ▸ hk)
  | revoke identity deviceFingerprint id reading =>
      obtain ⟨hgood, hret⟩ := other_good (e := .revoke identity deviceFingerprint id reading)
        (f := .revoked) (revoke_spec identity deviceFingerprint id reading) (fun _ _ ht => ht.1)
        (fun _ ht => ht) (fun _ heq => by cases heq) (fun _ _ hfalse => hfalse) hg
      exact ⟨hgood, trivial, fun k _ => hret k⟩
  | listForOwner c =>
      obtain ⟨hgood, hret⟩ := other_good (e := .listForOwner c) (f := .sources)
        (listForOwner_spec c) (fun _ _ ht => ht) (fun _ ht => ht) (fun _ heq => by cases heq)
        (fun _ _ hfalse => hfalse) hg
      exact ⟨hgood, trivial, fun k _ => hret k⟩
  | revokeForOwner c programRevision fencingRevision id =>
      obtain ⟨hgood, hret⟩ := other_good
        (e := .revokeForOwner c programRevision fencingRevision id) (f := fun _ => .moderated)
        (revokeForOwner_spec c programRevision fencingRevision id) (fun _ _ ht => ht.1)
        (fun _ ht => ht) (fun _ heq => by cases heq) (fun _ _ hfalse => hfalse) hg
      exact ⟨hgood, trivial, fun k _ => hret k⟩
  | prune reading answers =>
      obtain ⟨hgood, hret⟩ := other_good (e := .prune reading answers) (f := .pruned)
        (prune_spec reading answers) (fun _ _ ht => ht) (fun _ ht => ht)
        (fun _ heq => by cases heq) (fun _ _ hfalse => hfalse) hg
      exact ⟨hgood, trivial, fun k _ => hret k⟩
  | destroy =>
      obtain ⟨hgood, hret⟩ := other_good (e := .destroy) (f := fun _ => .destroyed)
        destroy_closed (fun _ _ ht => ht.1) (fun _ ht => ht.1) (fun _ heq => by cases heq)
        (fun _ _ hfalse => hfalse) hg
      exact ⟨hgood, trivial, fun k _ => hret k⟩

/-- Whatever call meets a clock that went back, the grants are closed. -/
theorem run_rollback (hg : Good expiry h gone s) {e : Event} {reading : Int}
    (hread : readingOf e = some reading) (hback : reading < s.lastNow) :
    (after (run e s)).closed = true := by
  have hnever : ∀ {α : Type} {x : Stateful GrantsState α},
      Ensures (· = s) x (fun _ _ => False) (fun t => t.closed = true) →
        (after (x s)).closed = true := by
    intro α x hx
    have hall : Ensures (· = s) x (fun _ t => t.closed = true) (fun t => t.closed = true) :=
      hx.mono (fun _ ht => ht) (fun _ _ hf => hf.elim) fun _ ht => ht
    exact after_of (I := fun t : GrantsState => t.closed = true) hall rfl
  have hfirst : ∀ {α : Type} {f : Int → Stateful GrantsState α},
      Ensures (· = s) (readNow reading >>= f) (fun _ _ => False) (fun t => t.closed = true) :=
    (readNow_rollback hg hback).bind fun _ _ hf => hf.elim
  cases e with
  | approve c =>
      simp only [readingOf, ite_none_right_eq_some, some.injEq] at hread
      obtain ⟨⟨hok, hprincipal⟩, rfl⟩ := hread
      rw [run, after_map]
      refine hnever (.failWhen_skip (by rw [hok]; simp) ?_)
      cases hp : oidcPrincipal c.identity with
      | error code =>
          rw [hp] at hprincipal
          cases hprincipal
      | ok principal => exact .check_skip rfl hfirst
  | forPackager id packagerRef deviceRef reading' answers =>
      cases hread
      rw [run, after_map]
      exact hnever hfirst
  | revoke identity deviceFingerprint id reading' =>
      cases hread
      rw [run, after_map]
      exact hnever hfirst
  | listForOwner c =>
      cases hread
      rw [run, after_map]
      refine hnever (.bind (Q := fun _ _ => False) hfirst fun _ _ hf => hf.elim)
  | revokeForOwner c programRevision fencingRevision id =>
      cases hread
      rw [run, after_map]
      refine hnever (.bind (Q := fun _ _ => False) hfirst fun _ _ hf => hf.elim)
  | prune reading' answers =>
      cases hread
      rw [run, after_map]
      exact hnever hfirst
  | destroy => cases hread

theorem returned_ensures {α : Type} {x : Stateful GrantsState α} {f : α → Output}
    {P E : GrantsState → Prop} {Q : α → GrantsState → Prop} (hx : Ensures P x Q E)
    (hs : P s) {o : Output} (hout : some o = returned ((f <$> x) s)) :
    ∃ a, f a = o ∧ Q a (after ((f <$> x) s)) := by
  rw [returned_map] at hout
  rw [after_map]
  have hrun := hx s hs
  cases hcall : x s with
  | ok a t =>
      rw [hcall] at hrun hout
      exact ⟨a, (some.inj hout).symm, hrun⟩
  | error code t =>
      rw [hcall] at hout
      cases hout

theorem step_ends {call : Call} (hg : Good expiry h gone s)
    (hstep : Step s call t) (hends : Ends s id call) : Gone t id := by
  obtain ⟨rfl, hout⟩ := hstep
  cases hends with
  | @rollback e out reading hread hback => exact .inl (run_rollback hg hread hback)
  | @revoked identity deviceFingerprint reading c =>
      obtain ⟨_, -, -, hgone⟩ := returned_ensures (revoke_spec identity deviceFingerprint id
        reading) hg hout
      exact hgone
  | @moderated c programRevision fencingRevision =>
      obtain ⟨_, -, -, hgone⟩ := returned_ensures (revokeForOwner_spec c programRevision
        fencingRevision id) hg hout
      exact hgone
  | @found packagerRef deviceRef reading answers r c hr hc hpackager hdevice =>
      obtain ⟨x, hx, -, -, hlost⟩ := returned_ensures (forPackager_spec id packagerRef deviceRef
        reading answers hg) rfl hout
      exact hlost (by cases hx; rfl) r c hr hc hpackager hdevice
  | @pruned reading answers ids hstale =>
      have hx : Ensures (· = s) (do
            let now ← readNow reading
            prune now answers)
          (fun _ t => Gone t id) (fun _ => True) := by
        refine .bind (Q := fun now t => now = reading ∧ t.records = s.records) ?_ fun now => ?_
        · exact (readNow_spec hg reading).mono (fun _ ht => ht) (fun _ _ ht => ⟨ht.1, ht.2.2.1⟩)
            fun _ _ => trivial
        · refine .each ?_
          rintro t ⟨rfl, hrecords⟩
          exact (prune_stale hstale).mono (fun _ heq => heq ▸ hrecords) (fun _ _ ht => ht)
            fun _ _ => trivial
      obtain ⟨_, -, hgone⟩ := returned_ensures hx rfl hout
      exact hgone
  | @listed c xs actor r hr hactor hmine hstale =>
      obtain ⟨_, -, hgone⟩ := returned_ensures (listForOwner_stale hg hr hactor hmine hstale) rfl
        hout
      exact hgone

/-! ## Runs of calls -/

variable {h₂ : List Call}

theorem drawn_fresh {h₁ : List Call} {call : Call} (hdrawn : (drawnIds (h₁ ++ call :: h₂)).Nodup)
    {d : String} (hd : drawnOf call.1 = some d) : d ∉ drawnIds h₁ := by
  have hsome : drawnIds (call :: h₂) = d :: drawnIds h₂ :=
    List.filterMap_cons_some (f := fun call : Call => drawnOf call.1) hd
  rw [drawnIds, List.filterMap_append] at hdrawn
  intro hmem
  refine (List.nodup_append.mp hdrawn).2.2 d hmem d ?_ rfl
  show d ∈ drawnIds (call :: h₂)
  rw [hsome]
  exact List.mem_cons_self

theorem drawn_left {h₁ : List Call} (hdrawn : (drawnIds (h₁ ++ h₂)).Nodup) :
    (drawnIds h₁).Nodup := by
  rw [drawnIds, List.filterMap_append] at hdrawn
  exact (List.nodup_append.mp hdrawn).1

theorem run_good (hrun : Runs.Path Step s h₂ t) :
    ∀ {h₁ : List Call}, Good expiry h₁ gone s → (∀ call ∈ h₂, Honest expiry call.1) →
      (drawnIds (h₁ ++ h₂)).Nodup →
        Good expiry (h₁ ++ h₂) gone t ∧ ∀ call ∈ h₂, ∀ id ∈ gone, ¬ Returns call id := by
  induction hrun with
  | nil s =>
      intro h₁ hg _ _
      rw [List.append_nil]
      exact ⟨hg, fun call hmem => absurd hmem List.not_mem_nil⟩
  | @cons s t u call es hstep _ ih =>
      intro h₁ hg hport hdrawn
      obtain ⟨hcall, hport⟩ := List.forall_mem_cons.mp hport
      obtain ⟨hgood, -, hret⟩ := step_good hg hstep hcall fun d hd => drawn_fresh hdrawn hd
      rw [List.append_cons] at hdrawn ⊢
      obtain ⟨hlast, hrest⟩ := ih hgood hport hdrawn
      refine ⟨hlast, fun call' hmem => ?_⟩
      rcases List.mem_cons.mp hmem with rfl | hmem
      · exact hret
      · exact hrest call' hmem

/-- Ids whose consent is over can be added to those that are gone. -/
theorem Good.lost (hg : Good expiry h [] s)
    (hid : id ∈ drawnIds h) (hgone : Gone s id) : Good expiry h [id] s := by
  refine { hg with gone := ?_ }
  intro k hk
  rw [List.mem_singleton.mp hk]
  exact ⟨hid, hgone⟩

end Keeping

theorem path_good (expiry : String → Int) {h : List Call}
    (hrun : Runs.Path Step init h s) (hport : ∀ call ∈ h, Honest expiry call.1)
    (hdrawn : (drawnIds h).Nodup) : Good expiry h [] s :=
  (run_good hrun (good_init expiry) hport hdrawn).1

/-- The calls a list of events makes, with what they return. -/
def play : GrantsState → List Event → List Call
  | _, [] => []
  | s, e :: es => (e, returned (run e s)) :: play (after (run e s)) es

theorem play_path : ∀ (s : GrantsState) (es : List Event),
    Runs.Path Step s (play s es) (es.foldl (fun s e => after (run e s)) s)
  | s, [] => .nil s
  | s, e :: es => .cons ⟨rfl, rfl⟩ (play_path (after (run e s)) es)

def samplePublisher : Peer :=
  { ref := 1
    id := "p1"
    principal := "i|publisher"
    deviceFingerprint := "ppppppppppppppppppppppppppppppppppppppppppp"
    roomId := "room-1"
    authenticated := true
    machine := false
    creator := false }

def sampleOwner : Peer :=
  { samplePublisher with
    ref := 2
    id := "p2"
    principal := "i|owner"
    deviceFingerprint := "ooooooooooooooooooooooooooooooooooooooooooo"
    creator := true }

/-- The connection as an invitation names it. -/
def Peer.bound (p : Peer) : Bound := ⟨p.id, p.principal, p.deviceFingerprint⟩

def sampleInvite : Invite :=
  { requestId := "bsr_aaaaaaaaaaaaaaaaaaaaaaaa"
    roomId := "room-1"
    programId := "prg_aaaaaaaaaaaaaaaa"
    programRevision := 3
    programEpoch := 1
    packagerRef := "pkr_aaaaaaaaaaaaaaaa"
    fencingRevision := 2
    sourceKind := "camera"
    expiresAt := 60000
    owner := sampleOwner.bound
    publisher := samplePublisher.bound
    ownerIdentity := ⟨"i", "owner"⟩ }

def sampleAnswers : Answers :=
  { members := [samplePublisher, sampleOwner]
    publication := some ⟨"tttttttt", 1, "camera"⟩
    membershipEpoch := 4
    writer := some {
      tenantId := broadcastTenantRef "i"
      ownerSubjectRef := broadcastSubjectRef "i" "owner"
      programEpoch := 1
      programRevision := 3
      fencingRevision := 2
      sourceAuthorityRevision := 3
      packagerRef := "pkr_aaaaaaaaaaaaaaaa"
      leaseId := "lea_aaaaaaaaaaaaaaaa"
      state := "live"
      expiresAt := 100000 }
    packager := some {
      id := "pkr_aaaaaaaaaaaaaaaa"
      online := true
      generation := some 7
      capability := some {
        agentId := "pkr_aaaaaaaaaaaaaaaa"
        tenantId := broadcastTenantRef "i"
        ownerSubjectRef := broadcastSubjectRef "i" "owner"
        deviceRef := "dev_aaaaaaaaaaaaaaaa"
        consentedRoomIds := ["room-1"]
        health := "healthy"
        expiresAt := 90000 } } }

def sampleApproval : ApproveCall :=
  { identity := ⟨"i", "publisher"⟩
    input := {
      requestId := "bsr_aaaaaaaaaaaaaaaaaaaaaaaa"
      roomId := "room-1"
      deviceFingerprint := samplePublisher.deviceFingerprint
      publicationId := "tttttttt"
      expectedPublicationEpoch := 1
      ttlMs := 30000 }
    actor := some samplePublisher
    members := some [samplePublisher, sampleOwner]
    reading := 1000
    pruning := fun _ => none
    invite := .ok sampleInvite
    resolved := 1001
    answers := some sampleAnswers
    sourceId := .ok "src_aaaaaaaaaaaaaaaa"
    drawn := "cns_aaaaaaaaaaaaaaaaaaaaaaaa" }

/-- A source is approved, shown to its packager, revoked and asked for again. -/
def sampleEvents : List Event :=
  [.approve sampleApproval,
    .forPackager "cns_aaaaaaaaaaaaaaaaaaaaaaaa" "pkr_aaaaaaaaaaaaaaaa" "dev_aaaaaaaaaaaaaaaa" 1002
      (some sampleAnswers),
    .revoke ⟨"i", "publisher"⟩ samplePublisher.deviceFingerprint "cns_aaaaaaaaaaaaaaaaaaaaaaaa" 1003,
    .forPackager "cns_aaaaaaaaaaaaaaaaaaaaaaaa" "pkr_aaaaaaaaaaaaaaaa" "dev_aaaaaaaaaaaaaaaa" 1004
      (some sampleAnswers)]

/-- The output shows the packager a source. -/
def shows : Option Output → Bool
  | some (.scope x) => x.isSome
  | _ => false

end SourceGrants

end WebrtcMinimize
