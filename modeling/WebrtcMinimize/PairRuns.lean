import WebrtcMinimize.PairWorkspaces

/-!
# Runs of the pair workspace store

What a call can do to the tables is said once, as an `Effect`, and every
invariant is kept effect by effect.
-/

namespace WebrtcMinimize

namespace Pair

open Checks Runs KeyedMap List Except Prod Nat
open Option hiding all_eq_true

/-! ## Events -/

variable {token : String}

theorem nul_not_mem_token (h : tokenOK token = true) : 0 ∉ utf8 token := by
  unfold tokenOK spanOK at h
  simp only [Bool.and_eq_true, all_eq_true] at h
  intro hmem
  have hbyte := h.1.1 0 hmem
  revert hbyte
  decide

/-- What the digest separates with a zero byte has none. -/
structure ContentOK (content : EventContent) : Prop where
  correlationId : 0 ∉ utf8 content.correlationId
  kind : 0 ∉ utf8 content.kind

variable {input : EventInput}

theorem eventContent_ok {content : EventContent}
    (h : eventContent input = .ok content) : ContentOK content := by
  unfold eventContent at h
  split at h
  · cases h
  next hid =>
  split at h
  · cases h
  next hkind =>
  rw [not_not] at hkind
  split at h
  · cases h
  dsimp only at h
  split at h
  · cases h
  split at h
  · cases h
  next hcorrelation =>
  rw [← ok.inj h]
  constructor
  · split
    · next hgiven => exact nul_not_mem_token (by simpa [hgiven] using hcorrelation)
    · exact nul_not_mem_token (by simpa using hid)
  · have hkinds : ∀ kind ∈ eventKinds, 0 ∉ utf8 kind := by decide
    exact hkinds _ hkind

variable {id : String}

theorem eventText_injective {eventId : String} {c c' : EventContent} (hc : ContentOK c)
    (hc' : ContentOK c') (h : eventText id eventId c = eventText id eventId c') : c = c' := by
  have hid := (cons.inj (append_cancel_left h)).2
  have hevent := (cons.inj (append_cancel_left hid)).2
  have hrest := (cons.inj (append_cancel_left hevent)).2
  obtain ⟨hcorrelation, hrest⟩ := Keys.append_separator_inj hc.correlationId hc'.correlationId hrest
  obtain ⟨hkind, hpayload⟩ := Keys.append_separator_inj hc.kind hc'.kind hrest
  cases c
  cases c'
  rw [EventContent.mk.injEq]
  exact ⟨utf8_injective hcorrelation, utf8_injective hkind, hpayload⟩

/-! ## Effects -/

/-- A member a call has admitted: the invite's hash, the workspace and the
principal. -/
abbrev Admission := String × String × String

/-- What a call does to the tables, with the members it admits. -/
inductive Effect (t : PairTables) : List Admission → PairTables → Prop
  | nothing : Effect t [] t
  | created {id hash roomId title owner tenant : String} {now : Int}
      (hworkspace : t.workspaces.get id = none) (hinvite : t.invites.get hash = none)
      (htenant : tenantOf owner = some tenant) :
      Effect t [] { t with
        workspaces := t.workspaces.set id ⟨roomId, title, owner, tenant, 1, now, now⟩
        memberships := t.memberships.set (id, owner) ⟨.owner, now⟩
        invites := t.invites.set hash ⟨id, .editor, 0, 1, now + 7 * 24 * 60 * 60 * 1000⟩ }
  | admitted {id hash principal : String} {w : Workspace} {i : PairInvite} {now : Int}
      (hworkspace : t.workspaces.get id = some w) (htenant : tenantOf principal = some w.tenantId)
      (hnew : t.memberships.get (id, principal) = none) (hinvite : t.invites.get hash = some i)
      (huses : i.uses < i.maxUses) (hcount : memberCount t id < 2) :
      Effect t [(hash, id, principal)] { t with
        workspaces := t.workspaces.set id (w.revised now)
        memberships := t.memberships.set (id, principal) ⟨i.role, now⟩
        invites := t.invites.set hash { i with uses := i.uses + 1 } }
  | appended {id principal eventId : String} {m : Membership} {w : Workspace}
      {content : EventContent} {now : Int} (hmember : t.memberships.get (id, principal) = some m)
      (hworkspace : t.workspaces.get id = some w)
      (hnew : ∀ e ∈ t.events, ¬(e.workspaceId = id ∧ e.eventId = eventId))
      (hcontent : ContentOK content) :
      Effect t [] { t with
        workspaces := t.workspaces.set id (w.touched now)
        events := t.events ++ [⟨t.lastSequence + 1, id, eventId, principal, content,
          digest (eventText id eventId content), now⟩]
        lastSequence := t.lastSequence + 1
        outbox := t.outbox ++ [⟨id, t.lastSequence + 1, "pending", now⟩] }
  | moved {id principal : String} {sequence : Nat} {now : Int}
      (hevent : sequence = 0 ∨ ∃ e ∈ t.events, e.workspaceId = id ∧ e.sequence = sequence)
      (hforward : ∀ c, t.cursors.get (id, principal) = some c → c.eventSequence ≤ sequence) :
      Effect t [] { t with cursors := t.cursors.set (id, principal) ⟨sequence, now⟩ }
  | present {id principal : String} {row : Presence}
      (hforward : ∀ p, t.presence.get (id, principal) = some p → p.epoch < row.epoch) :
      Effect t [] { t with presence := t.presence.set (id, principal) row }
  | ranked {id principal : String} {w : Workspace} {m : Membership} {role : PairRole} {now : Int}
      (hworkspace : t.workspaces.get id = some w)
      (hmember : t.memberships.get (id, principal) = some m) (howner : m.role ≠ .owner)
      (hrole : role ≠ .owner) :
      Effect t [] { t with
        workspaces := t.workspaces.set id (w.revised now)
        memberships := t.memberships.set (id, principal) { m with role := role } }
  | revoked {id principal : String} {w : Workspace} {m : Membership} {now : Int}
      (hworkspace : t.workspaces.get id = some w)
      (hmember : t.memberships.get (id, principal) = some m) (howner : m.role ≠ .owner) :
      Effect t [] { t with
        workspaces := t.workspaces.set id (w.revised now)
        memberships := t.memberships.erase (id, principal) }

variable {t : PairTables}

/-- The call has failed and changed nothing. -/
def Failed (t : PairTables) (r : PairTables × Except PairError PairResult) : Prop :=
  r.1 = t ∧ ∃ e, r.2 = .error e

theorem Failed.of_error (t : PairTables) (e : PairError) : Failed t (t, .error e) := ⟨rfl, e, rfl⟩

theorem transaction_cases {α : Type} (t : PairTables)
    (body : PairTables → PairTables × Except PairError α) :
    (∃ e, transaction t body = (t, .error e) ∧ (body t).2 = .error e)
    ∨ (∃ a, transaction t body = body t ∧ (body t).2 = .ok a) := by
  unfold transaction
  rcases hbody : body t with ⟨t', e | a⟩
  · exact .inl ⟨e, rfl, rfl⟩
  · exact .inr ⟨a, rfl, rfl⟩

theorem execute_cons {α : Type} {a b : α} {statement : Statement} {rest : List Statement}
    (h : (execute t (statement :: rest) a).2 = .ok b) :
    ∃ t', statement t = .ok t' ∧ execute t (statement :: rest) a = execute t' rest a := by
  rw [execute] at h
  rcases hstatement : statement t with e | t'
  · rw [hstatement] at h
    cases h
  · exact ⟨t', rfl, by rw [execute, hstatement]⟩

/-! ### Statements that have succeeded -/

section Statements

variable {t' : PairTables} {id : String}

theorem insertWorkspace_ok {w : Workspace} (h : insertWorkspace id w t = .ok t') :
    t.workspaces.get id = none ∧ t' = { t with workspaces := t.workspaces.set id w } := by
  unfold insertWorkspace at h
  split at h
  · cases h
  · next hfree =>
      rw [not_or] at hfree
      exact ⟨not_isSome_iff_eq_none.mp hfree.1, (ok.inj h).symm⟩

theorem insertMembership_ok {principal : String} {m : Membership}
    (h : insertMembership id principal m t = .ok t') :
    t.memberships.get (id, principal) = none
      ∧ t' = { t with memberships := t.memberships.set (id, principal) m } := by
  unfold insertMembership at h
  split at h
  · cases h
  · next hfree => exact ⟨not_isSome_iff_eq_none.mp hfree, (ok.inj h).symm⟩

theorem insertInvite_ok {hash : String} {i : PairInvite} (h : insertInvite hash i t = .ok t') :
    t.invites.get hash = none ∧ t' = { t with invites := t.invites.set hash i } := by
  unfold insertInvite at h
  split at h
  · cases h
  · next hfree => exact ⟨not_isSome_iff_eq_none.mp hfree, (ok.inj h).symm⟩

theorem insertEvent_ok {eventId principal text : String} {content : EventContent} {now : Int}
    (h : insertEvent id eventId principal content text now t = .ok t') :
    (∀ e ∈ t.events, ¬(e.workspaceId = id ∧ e.eventId = eventId)) ∧ t' = { t with
        events := t.events ++ [⟨t.lastSequence + 1, id, eventId, principal, content, text, now⟩]
        lastSequence := t.lastSequence + 1 } := by
  unfold insertEvent at h
  split at h
  · cases h
  · next hfree =>
      refine ⟨fun e he hsame => hfree ?_, (ok.inj h).symm⟩
      exact any_eq_true.mpr ⟨e, he, decide_eq_true hsame⟩

theorem updateWorkspace_ok {w : Workspace} {f : Workspace → Workspace}
    (h : updateWorkspace id f t = .ok t') (hworkspace : t.workspaces.get id = some w) :
    t' = { t with workspaces := t.workspaces.set id (f w) } := by
  unfold updateWorkspace at h
  rw [hworkspace] at h
  exact (ok.inj h).symm

theorem useInvite_ok {hash : String} {i : PairInvite} (h : useInvite hash t = .ok t')
    (hinvite : t.invites.get hash = some i) :
    t' = { t with invites := t.invites.set hash { i with uses := i.uses + 1 } } := by
  unfold useInvite at h
  rw [hinvite] at h
  exact (ok.inj h).symm

theorem execute_three {α : Type} {a b : α} {s₁ s₂ s₃ : Statement}
    (h : (execute t [s₁, s₂, s₃] a).2 = .ok b) :
    ∃ t₁ t₂ t₃, s₁ t = .ok t₁ ∧ s₂ t₁ = .ok t₂ ∧ s₃ t₂ = .ok t₃
      ∧ execute t [s₁, s₂, s₃] a = (t₃, .ok a) := by
  obtain ⟨t₁, h₁, heq₁⟩ := execute_cons h
  rw [heq₁] at h
  obtain ⟨t₂, h₂, heq₂⟩ := execute_cons h
  rw [heq₂] at h
  obtain ⟨t₃, h₃, heq₃⟩ := execute_cons h
  exact ⟨t₁, t₂, t₃, h₁, h₂, h₃, by rw [heq₁, heq₂, heq₃, execute]⟩

end Statements

/-! ### The calls -/

/-- A call fails and changes nothing, or it has an effect. -/
def Acts (t : PairTables) (admissions : List Admission)
    (r : PairTables × Except PairError PairResult) : Prop :=
  (Failed t r ∧ admissions = []) ∨ (Effect t admissions r.1 ∧ ∃ a, r.2 = .ok a)

variable {now : Int} {owner roomId : String}

theorem create_acts {title : String} : Acts t [] (create t roomId title owner id token now) := by
  unfold create
  split
  · exact .inl ⟨.of_error t _, rfl⟩
  split
  · exact .inl ⟨.of_error t _, rfl⟩
  split
  · exact .inl ⟨.of_error t _, rfl⟩
  next title _ =>
  generalize hbody : (fun t : PairTables => _) = body
  rcases transaction_cases t body with ⟨e, heq, -⟩ | ⟨a, heq, hok⟩
  · rw [heq]
    exact .inl ⟨.of_error t e, rfl⟩
  · rw [heq]
    subst hbody
    dsimp only at hok ⊢
    split at hok
    · cases hok
    · next tenant htenant =>
        obtain ⟨t₁, t₂, t₃, h₁, h₂, h₃, hexecute⟩ := execute_three hok
        obtain ⟨hworkspace, rfl⟩ := insertWorkspace_ok h₁
        obtain ⟨-, rfl⟩ := insertMembership_ok h₂
        obtain ⟨hinvite, rfl⟩ := insertInvite_ok h₃
        rw [hexecute]
        exact .inr ⟨.created hworkspace hinvite htenant, _, rfl⟩

/-- Whom the call admits: a principal that is not a member yet. -/
def admissions (t : PairTables) : PairCall → List Admission
  | .admitPrincipal roomId principal token now =>
      match (admitPrincipal t roomId principal token now).2 with
      | .ok (.admitted (some (id, _))) =>
          if (t.memberships.get (id, principal)).isSome then []
          else [(digest (utf8 token), id, principal)]
      | _ => []
  | _ => []

variable {w : Workspace}

theorem workspace_found
    (h : (t.workspaces.entries.find? fun e => decide (e.2.roomId = roomId)) = some (id, w)) :
    t.workspaces.get id = some w :=
  get_eq_some_iff.mpr (mem_of_find?_eq_some h)

variable {principal : String}

theorem admit_acts :
    Acts t (admissions t (.admitPrincipal roomId principal token now)) (admitPrincipal t roomId principal token now) := by
  have hfailed : ∀ {e : PairError}, admitPrincipal t roomId principal token now = (t, .error e) →
      Acts t (admissions t (.admitPrincipal roomId principal token now))
        (admitPrincipal t roomId principal token now) := by
    intro e heq
    refine .inl ⟨heq ▸ .of_error t e, ?_⟩
    simp only [admissions, heq]
  generalize hresult : admitPrincipal t roomId principal token now = result at hfailed ⊢
  have hadmissions : admissions t (.admitPrincipal roomId principal token now) = match result.2 with
        | .ok (.admitted (some (id, _))) =>
            if (t.memberships.get (id, principal)).isSome then []
            else [(digest (utf8 token), id, principal)]
        | _ => [] := by
    rw [← hresult]
    rfl
  rw [hadmissions] at hfailed ⊢
  unfold admitPrincipal at hresult
  split at hresult
  · subst hresult
    exact .inr ⟨.nothing, _, rfl⟩
  next id w hfound =>
  have hworkspace := workspace_found hfound
  split at hresult
  · exact hfailed hresult.symm
  split at hresult
  · exact hfailed hresult.symm
  next tenant htenant =>
  split at hresult
  · exact hfailed hresult.symm
  next hsame =>
  rw [ne_eq, not_not] at hsame
  split at hresult
  · next m hmember =>
      subst hresult
      refine .inr ⟨?_, _, rfl⟩
      dsimp only
      rw [hmember, isSome_some, if_pos rfl]
      exact .nothing
  next hnew =>
  split at hresult
  · exact hfailed hresult.symm
  generalize hbody : (fun t : PairTables => _) = body at hresult
  rcases transaction_cases t body with ⟨e, heq, -⟩ | ⟨a, heq, hok⟩
  · exact hfailed (hresult.symm.trans heq)
  rw [heq] at hresult
  subst hbody
  dsimp only at hok hresult
  split at hok
  · cases hok
  next invitation hinvitation =>
  obtain ⟨hinvite, hvalid⟩ := filter_eq_some_iff.mp hinvitation
  rw [decide_eq_true_eq] at hvalid
  rw [hinvitation] at hresult
  dsimp only at hresult
  split at hok
  · cases hok
  next hcount =>
  rw [if_neg hcount] at hresult
  obtain ⟨t₁, t₂, t₃, h₁, h₂, h₃, hexecute⟩ := execute_three hok
  obtain ⟨-, rfl⟩ := insertMembership_ok h₁
  obtain rfl := updateWorkspace_ok h₂ hworkspace
  obtain rfl := useInvite_ok h₃ hinvite
  rw [hexecute] at hresult
  subst hresult
  refine .inr ⟨?_, _, rfl⟩
  dsimp only
  rw [hnew, isSome_none, if_neg (by decide)]
  exact .admitted hworkspace (hsame ▸ htenant) hnew hinvite hvalid.2.1 (by omega)

variable {m : Membership}

theorem membership_ok
    (h : membership t id principal = .ok m) : t.memberships.get (id, principal) = some m := by
  unfold membership at h
  split at h
  · cases h
  · split at h
    · cases h
    · next hmember => rw [hmember, ok.inj h]

/-- A membership is of a workspace that is there. -/
def Referenced (t : PairTables) : Prop :=
  ∀ id principal m, t.memberships.get (id, principal) = some m →
    ∃ w, t.workspaces.get id = some w

theorem appendEvent_acts
    (hreferenced : Referenced t) : Acts t [] (appendEvent t id principal input now) := by
  unfold appendEvent
  split
  · exact .inl ⟨.of_error t _, rfl⟩
  next m hmembership =>
  have hmember := membership_ok hmembership
  obtain ⟨w, hworkspace⟩ := hreferenced id principal m hmember
  split
  · exact .inl ⟨.of_error t _, rfl⟩
  split
  · exact .inl ⟨.of_error t _, rfl⟩
  next content hcontent =>
  dsimp only
  split
  · split
    · exact .inl ⟨.of_error t _, rfl⟩
    · exact .inr ⟨.nothing, _, rfl⟩
  next hnone =>
  generalize hbody : (fun t : PairTables => _) = body
  rcases transaction_cases t body with ⟨e, heq, -⟩ | ⟨a, heq, hok⟩
  · rw [heq]
    exact .inl ⟨.of_error t e, rfl⟩
  rw [heq]
  subst hbody
  dsimp only at hok ⊢
  obtain ⟨t₁, t₂, t₃, h₁, h₂, h₃, hexecute⟩ := execute_three hok
  obtain ⟨hnew, rfl⟩ := insertEvent_ok h₁
  obtain rfl := ok.inj h₂
  obtain rfl := updateWorkspace_ok h₃ hworkspace
  rw [hexecute]
  exact .inr ⟨.appended hmember hworkspace hnew (eventContent_ok hcontent), _, rfl⟩

theorem setCursor_acts {sequence : Option Int} :
    Acts t [] (setCursor t id principal sequence now) := by
  unfold setCursor
  split
  · exact .inl ⟨.of_error t _, rfl⟩
  split
  · exact .inl ⟨.of_error t _, rfl⟩
  next n _ =>
  dsimp only
  split
  · exact .inl ⟨.of_error t _, rfl⟩
  next hevent =>
  split
  · exact .inl ⟨.of_error t _, rfl⟩
  next hforward =>
  refine .inr ⟨.moved ?_ ?_, _, rfl⟩
  · rw [not_and, not_not] at hevent
    rcases Nat.eq_zero_or_pos n.toNat with hzero | hpos
    · exact .inl hzero
    · obtain ⟨e, he, hsame⟩ := any_eq_true.mp (hevent hpos)
      exact .inr ⟨e, he, of_decide_eq_true hsame⟩
  · intro c hc
    rw [hc] at hforward
    simp only [any_some, decide_eq_true_eq] at hforward
    omega

theorem setPresence_acts {input : PresenceInput} :
    Acts t [] (setPresence t id principal input now) := by
  unfold setPresence
  split
  · exact .inl ⟨.of_error t _, rfl⟩
  split
  · exact .inl ⟨.of_error t _, rfl⟩
  split
  · exact .inl ⟨.of_error t _, rfl⟩
  next hforward =>
  refine .inr ⟨.present ?_, _, rfl⟩
  intro p hp
  rw [hp] at hforward
  simp only [any_some, decide_eq_true_eq] at hforward
  omega

theorem settableRole_not_owner {role : String} {target : PairRole}
    (h : settableRole role = some (some target)) : target ≠ .owner := by
  unfold settableRole at h
  split at h
  · cases some.inj h
    decide
  split at h
  · cases some.inj h
    decide
  split at h
  · cases h
  · cases h

theorem raiseRevision_one {expected : Int} {t₁ : PairTables}
    (h : raiseRevision id expected now t = (t₁, 1)) :
    ∃ w, t.workspaces.get id = some w ∧ t₁ = { t with
      workspaces := t.workspaces.set id (w.revised now) } := by
  unfold raiseRevision at h
  split at h
  · cases h
  · next w hworkspace =>
      split at h
      · exact ⟨w, hworkspace, (congrArg fst h).symm⟩
      · cases h

theorem writeRole_one {role : Option PairRole} {t₁ : PairTables}
    (h : writeRole id principal role t = (t₁, 1)) :
    ∃ m, t.memberships.get (id, principal) = some m ∧ m.role ≠ .owner
      ∧ t₁ = { t with memberships := withRole t.memberships (id, principal) m role } := by
  unfold writeRole at h
  split at h
  · cases h
  · next m hmember =>
      split at h
      · cases h
      · next howner => exact ⟨m, hmember, howner, (congrArg fst h).symm⟩

theorem setRole_acts {target role : String} {expected : Option Int} :
    Acts t [] (setRole t id owner target role expected now) := by
  unfold setRole
  split
  · exact .inl ⟨.of_error t _, rfl⟩
  split
  · exact .inl ⟨.of_error t _, rfl⟩
  split
  · next rank revision hrank =>
      split
      · exact .inl ⟨.of_error t _, rfl⟩
      generalize hbody : (fun t : PairTables => _) = body
      rcases transaction_cases t body with ⟨e, heq, -⟩ | ⟨a, heq, hok⟩
      · rw [heq]
        exact .inl ⟨.of_error t e, rfl⟩
      rw [heq]
      subst hbody
      dsimp only at hok ⊢
      split at hok
      · next t₁ hraised =>
          obtain ⟨w, hworkspace, rfl⟩ := raiseRevision_one hraised
          split at hok
          · next t₂ hwritten =>
              obtain ⟨m, hmember, howner, rfl⟩ := writeRole_one hwritten
              cases rank with
              | none => exact .inr ⟨.revoked hworkspace hmember howner, _, rfl⟩
              | some rank =>
                  exact .inr ⟨.ranked hworkspace hmember howner (settableRole_not_owner hrank), _,
                    rfl⟩
          · cases hok
      · cases hok
  · exact .inl ⟨.of_error t _, rfl⟩

/-- **Every call fails and changes nothing, or it has an effect.** -/
theorem call_acts (hreferenced : Referenced t) (c : PairCall) :
    Acts t (admissions t c) (call t c) := by
  cases c with
  | create roomId title owner id token now =>
      show Acts t [] (create t roomId title owner id token now)
      exact create_acts
  | admitPrincipal roomId principal token now => exact admit_acts
  | appendEvent id principal input now =>
      exact appendEvent_acts hreferenced
  | setCursor id principal sequence now =>
      exact setCursor_acts
  | setPresence id principal input now =>
      exact setPresence_acts
  | setRole id owner target role expected now =>
      exact setRole_acts

/-! ## What holds of the tables -/

theorem memberCount_set {memberships : KeyedMap (String × String) Membership}
    (hnew : memberships.get (id, principal) = none) (id' : String) :
    ((memberships.set (id, principal) m).keys.filter fun key => decide (key.1 = id')).length
      = (memberships.keys.filter fun key => decide (key.1 = id')).length
        + if id = id' then 1 else 0 := by
  rw [keys_set_of_none hnew, filter_append, length_append, filter_singleton]
  by_cases h : id = id'
  · simp [h]
  · simp [h]

/-- Who has used an invite. -/
def admittedBy (hash : String) (admitted : List Admission) : Nat :=
  admitted.countP fun a => decide (a.1 = hash)

theorem admittedBy_cons (hash hash' : String) (rest : String × String) (admitted : List Admission) :
    admittedBy hash ((hash', rest) :: admitted)
      = admittedBy hash admitted + if hash' = hash then 1 else 0 := by
  rw [admittedBy, countP_cons, admittedBy]
  by_cases h : hash' = hash
  · simp [h]
  · simp [h]

structure PairOK (t : PairTables) (admitted : List Admission) : Prop where
  owner : ∀ id w, t.workspaces.get id = some w →
    ∃ m, t.memberships.get (id, w.ownerPrincipal) = some m ∧ m.role = .owner
  member : ∀ id p m, t.memberships.get (id, p) = some m → ∃ w, t.workspaces.get id = some w
    ∧ tenantOf p = some w.tenantId ∧ (m.role = .owner → p = w.ownerPrincipal)
  count : ∀ id, memberCount t id ≤ 2
  invite : ∀ hash i, t.invites.get hash = some i → i.role ≠ .owner ∧ i.maxUses = 1
    ∧ i.uses ≤ i.maxUses ∧ i.uses = admittedBy hash admitted
  uninvited : ∀ hash, t.invites.get hash = none → admittedBy hash admitted = 0
  sequence : ∀ e ∈ t.events, 1 ≤ e.sequence ∧ e.sequence ≤ t.lastSequence
  sequences : (t.events.map PairEvent.sequence).Nodup
  once : (t.events.map fun e => (e.workspaceId, e.eventId)).Nodup
  content : ∀ e ∈ t.events, ContentOK e.content
    ∧ e.digest = digest (eventText e.workspaceId e.eventId e.content)
  outbox : (t.outbox.map fun o => (o.workspaceId, o.eventSequence))
    = t.events.map fun e => (e.workspaceId, e.sequence)
  cursor : ∀ id p c, t.cursors.get (id, p) = some c → c.eventSequence = 0
    ∨ ∃ e ∈ t.events, e.workspaceId = id ∧ e.sequence = c.eventSequence

namespace PairOK

variable {admitted : List Admission}

theorem empty : PairOK emptyTables [] where
  owner := fun _ _ h => by cases h
  member := fun _ _ _ h => by cases h
  count := fun _ => zero_le 2
  invite := fun _ _ h => by cases h
  uninvited := fun _ _ => rfl
  sequence := fun _ h => absurd h not_mem_nil
  sequences := nodup_nil
  once := nodup_nil
  content := fun _ h => absurd h not_mem_nil
  outbox := rfl
  cursor := fun _ _ _ h => by cases h

theorem referenced (h : PairOK t admitted) : Referenced t := fun id p m hm => by
  obtain ⟨w, hw, -⟩ := h.member id p m hm
  exact ⟨w, hw⟩

variable {id : String}

theorem no_members (h : PairOK t admitted) (hid : t.workspaces.get id = none) :
    memberCount t id = 0 ∧ ∀ p, t.memberships.get (id, p) = none := by
  have hnone : ∀ p, t.memberships.get (id, p) = none := by
    intro p
    cases hm : t.memberships.get (id, p) with
    | none => rfl
    | some m =>
        obtain ⟨w, hw, -⟩ := h.member id p m hm
        rw [hid] at hw
        cases hw
  refine ⟨?_, hnone⟩
  rw [memberCount, length_eq_zero_iff, filter_eq_nil_iff]
  rintro ⟨id', p⟩ hkey hsame
  obtain rfl : id' = id := of_decide_eq_true hsame
  obtain ⟨m, hm⟩ := mem_keys_iff.mp hkey
  rw [hnone p] at hm
  cases hm

variable {now : Int}

theorem created (h : PairOK t admitted) {hash roomId title owner tenant : String}
    (hworkspace : t.workspaces.get id = none) (hinvite : t.invites.get hash = none)
    (htenant : tenantOf owner = some tenant) :
    PairOK { t with
      workspaces := t.workspaces.set id ⟨roomId, title, owner, tenant, 1, now, now⟩
      memberships := t.memberships.set (id, owner) ⟨.owner, now⟩
      invites := t.invites.set hash ⟨id, .editor, 0, 1, now + 7 * 24 * 60 * 60 * 1000⟩ }
      admitted where
  owner := by
    intro id' w hw
    rw [get_set] at hw
    split at hw
    · next heq =>
        cases hw
        rw [heq]
        exact ⟨_, get_set_self _ _ _, rfl⟩
    · next hne =>
        obtain ⟨m, hm, hrole⟩ := h.owner id' w hw
        refine ⟨m, ?_, hrole⟩
        rw [get_set_of_ne _ _ fun heq => hne (mk.inj heq).1]
        exact hm
  member := by
    intro id' p m hm
    rw [get_set] at hm
    split at hm
    · next heq =>
        obtain ⟨rfl, rfl⟩ := mk.inj heq
        exact ⟨_, get_set_self _ _ _, htenant, fun _ => rfl⟩
    · obtain ⟨w, hw, hrest⟩ := h.member id' p m hm
      refine ⟨w, ?_, hrest⟩
      rw [get_set_of_ne]
      · exact hw
      · rintro rfl
        rw [hworkspace] at hw
        cases hw
  count := by
    intro id'
    obtain ⟨hcount, hnone⟩ := h.no_members hworkspace
    rw [memberCount, memberCount_set (hnone owner)]
    have hold := h.count id'
    rw [memberCount] at hold hcount
    split
    · next heq =>
        rw [heq] at hcount
        omega
    · omega
  invite := by
    intro hash' i hi
    rw [get_set] at hi
    split at hi
    · next heq =>
        cases hi
        rw [heq]
        exact ⟨fun hrole => (by cases hrole), rfl, zero_le _, (h.uninvited hash hinvite).symm⟩
    · exact h.invite hash' i hi
  uninvited := by
    intro hash' hi
    rw [get_set] at hi
    split at hi
    · cases hi
    · exact h.uninvited hash' hi
  __ := h

/-! ### Workspaces that stay -/

section Kept

variable {id : String} {w w' : Workspace}

/-- A workspace whose owner and tenant stay. -/
structure SameHome (w w' : Workspace) : Prop where
  ownerPrincipal : w'.ownerPrincipal = w.ownerPrincipal
  tenantId : w'.tenantId = w.tenantId

theorem SameHome.revised (w : Workspace) (now : Int) : SameHome w (w.revised now) := ⟨rfl, rfl⟩

theorem SameHome.touched (w : Workspace) (now : Int) : SameHome w (w.touched now) := ⟨rfl, rfl⟩

theorem home_before (hworkspace : t.workspaces.get id = some w) (hsame : SameHome w w')
    {id' : String} {x : Workspace} (hx : (t.workspaces.set id w').get id' = some x) :
    ∃ x₀, t.workspaces.get id' = some x₀ ∧ SameHome x₀ x := by
  rw [get_set] at hx
  split at hx
  · next heq =>
      cases hx
      exact ⟨w, heq ▸ hworkspace, hsame⟩
  · exact ⟨x, hx, rfl, rfl⟩

theorem home_after (hworkspace : t.workspaces.get id = some w) (hsame : SameHome w w')
    {id' : String} {x₀ : Workspace} (hx₀ : t.workspaces.get id' = some x₀) :
    ∃ x, (t.workspaces.set id w').get id' = some x ∧ SameHome x₀ x := by
  rw [get_set]
  split
  · next heq =>
      obtain rfl : x₀ = w := some.inj (hx₀.symm.trans (heq ▸ hworkspace))
      exact ⟨w', rfl, hsame⟩
  · exact ⟨x₀, hx₀, rfl, rfl⟩

theorem owners_kept (h : PairOK t admitted) (hworkspace : t.workspaces.get id = some w)
    (hsame : SameHome w w') {memberships : KeyedMap (String × String) Membership}
    (hkept : ∀ id' p m, t.memberships.get (id', p) = some m → m.role = .owner →
      memberships.get (id', p) = some m) :
    ∀ id' x, (t.workspaces.set id w').get id' = some x →
      ∃ m, memberships.get (id', x.ownerPrincipal) = some m ∧ m.role = .owner := by
  intro id' x hx
  obtain ⟨x₀, hx₀, hhome⟩ := home_before hworkspace hsame hx
  obtain ⟨m, hm, hrole⟩ := h.owner id' x₀ hx₀
  rw [hhome.ownerPrincipal]
  exact ⟨m, hkept id' _ m hm hrole, hrole⟩

/-- Memberships that were there, or are a non-owner's of the tenant. -/
theorem members_kept (h : PairOK t admitted) (hworkspace : t.workspaces.get id = some w)
    (hsame : SameHome w w') {memberships : KeyedMap (String × String) Membership}
    (hkept : ∀ id' p m, memberships.get (id', p) = some m → t.memberships.get (id', p) = some m
      ∨ (id' = id ∧ m.role ≠ .owner ∧ tenantOf p = some w.tenantId)) :
    ∀ id' p m, memberships.get (id', p) = some m →
      ∃ x, (t.workspaces.set id w').get id' = some x ∧ tenantOf p = some x.tenantId
        ∧ (m.role = .owner → p = x.ownerPrincipal) := by
  intro id' p m hm
  rcases hkept id' p m hm with hold | ⟨rfl, hrole, htenant⟩
  · obtain ⟨x₀, hx₀, htenant, howner⟩ := h.member id' p m hold
    obtain ⟨x, hx, hhome⟩ := home_after hworkspace hsame hx₀
    exact ⟨x, hx, by rw [hhome.tenantId]; exact htenant, fun hrole => by
      rw [hhome.ownerPrincipal]
      exact howner hrole⟩
  · exact ⟨w', get_set_self _ _ _, by rw [hsame.tenantId]; exact htenant, fun h => absurd h hrole⟩

end Kept

variable {principal : String} {w : Workspace}

section

variable (h : PairOK t admitted)

include h

theorem joined {hash : String} {i : PairInvite}
    (hworkspace : t.workspaces.get id = some w) (htenant : tenantOf principal = some w.tenantId)
    (hnew : t.memberships.get (id, principal) = none) (hinvite : t.invites.get hash = some i)
    (huses : i.uses < i.maxUses) (hcount : memberCount t id < 2) :
    PairOK { t with
      workspaces := t.workspaces.set id (w.revised now)
      memberships := t.memberships.set (id, principal) ⟨i.role, now⟩
      invites := t.invites.set hash { i with uses := i.uses + 1 } }
      ((hash, id, principal) :: admitted) where
  owner := by
    refine h.owners_kept hworkspace (.revised w now) fun id' p m hm _ => ?_
    rw [get_set_of_ne]
    · exact hm
    · intro hkey
      rw [hkey, hnew] at hm
      cases hm
  member := by
    refine h.members_kept hworkspace (.revised w now) fun id' p m hm => ?_
    rw [get_set] at hm
    split at hm
    · next hkey =>
        obtain ⟨rfl, rfl⟩ := mk.inj hkey
        cases hm
        exact .inr ⟨rfl, (h.invite hash i hinvite).1, htenant⟩
    · exact .inl hm
  count := by
    intro id'
    rw [memberCount, memberCount_set hnew]
    have hold := h.count id'
    rw [memberCount] at hold hcount
    split
    · next heq =>
        rw [heq] at hcount
        omega
    · omega
  invite := by
    intro hash' i' hi'
    obtain ⟨hrole, hmax, hle, heq⟩ := h.invite hash i hinvite
    rw [get_set] at hi'
    rw [admittedBy_cons]
    split at hi'
    · next hsame =>
        cases hi'
        refine ⟨hrole, hmax, huses, ?_⟩
        rw [hsame, if_pos rfl, ← heq]
    · next hne =>
        rw [if_neg (Ne.symm hne)]
        exact h.invite hash' i' hi'
  uninvited := by
    intro hash' hi'
    rw [get_set] at hi'
    split at hi'
    · cases hi'
    · next hne =>
        rw [admittedBy_cons, if_neg (Ne.symm hne)]
        exact h.uninvited hash' hi'
  __ := h

theorem ranked {m : Membership}
    {role : PairRole} (hworkspace : t.workspaces.get id = some w)
    (hmember : t.memberships.get (id, principal) = some m) (howner : m.role ≠ .owner)
    (hrole : role ≠ .owner) :
    PairOK { t with
      workspaces := t.workspaces.set id (w.revised now)
      memberships := t.memberships.set (id, principal) { m with role := role } } admitted where
  owner := by
    refine h.owners_kept hworkspace (.revised w now) fun id' p m' hm' hrole' => ?_
    rw [get_set_of_ne]
    · exact hm'
    · intro hkey
      rw [hkey, hmember] at hm'
      cases hm'
      exact howner hrole'
  member := by
    refine h.members_kept hworkspace (.revised w now) fun id' p m' hm' => ?_
    rw [get_set] at hm'
    split at hm'
    · next hkey =>
        obtain ⟨rfl, rfl⟩ := mk.inj hkey
        cases hm'
        obtain ⟨w₀, hw₀, htenant, -⟩ := h.member _ _ m hmember
        obtain rfl : w₀ = w := some.inj (hw₀.symm.trans hworkspace)
        exact .inr ⟨rfl, hrole, htenant⟩
    · exact .inl hm'
  count := by
    intro id'
    rw [memberCount, keys_set_of_some hmember]
    exact h.count id'
  __ := h

theorem revoked {m : Membership} (hworkspace : t.workspaces.get id = some w)
    (hmember : t.memberships.get (id, principal) = some m) (howner : m.role ≠ .owner) :
    PairOK { t with
      workspaces := t.workspaces.set id (w.revised now)
      memberships := t.memberships.erase (id, principal) } admitted where
  owner := by
    refine h.owners_kept hworkspace (.revised w now) fun id' p m' hm' hrole' => ?_
    rw [get_erase_of_ne]
    · exact hm'
    · intro hkey
      rw [hkey, hmember] at hm'
      cases hm'
      exact howner hrole'
  member := by
    refine h.members_kept hworkspace (.revised w now) fun id' p m' hm' => ?_
    rw [get_erase] at hm'
    split at hm'
    · cases hm'
    · exact .inl hm'
  count := by
    intro id'
    have hsub := (t.memberships.keys_erase_sublist (id, principal)).filter
      fun key => decide (key.1 = id')
    exact le_trans hsub.length_le (h.count id')
  __ := h

theorem appended {eventId : String}
    {content : EventContent} (hworkspace : t.workspaces.get id = some w)
    (hnew : ∀ e ∈ t.events, ¬(e.workspaceId = id ∧ e.eventId = eventId))
    (hcontent : ContentOK content) :
    PairOK { t with
      workspaces := t.workspaces.set id (w.touched now)
      events := t.events ++ [⟨t.lastSequence + 1, id, eventId, principal, content,
        digest (eventText id eventId content), now⟩]
      lastSequence := t.lastSequence + 1
      outbox := t.outbox ++ [⟨id, t.lastSequence + 1, "pending", now⟩] } admitted where
  owner := h.owners_kept hworkspace (.touched w now) fun _ _ _ hm _ => hm
  member := h.members_kept hworkspace (.touched w now) fun _ _ _ hm => .inl hm
  __ := h
  sequence := by
    intro e he
    rcases mem_append.mp he with he | he
    · obtain ⟨hlow, hhigh⟩ := h.sequence e he
      exact ⟨hlow, le_succ_of_le hhigh⟩
    · obtain rfl := mem_singleton.mp he
      exact ⟨succ_le_succ (zero_le _), le_refl _⟩
  sequences := by
    rw [map_append, nodup_append]
    refine ⟨h.sequences, nodup_singleton _, fun n hn n' hn' => ?_⟩
    obtain ⟨e, he, rfl⟩ := mem_map.mp hn
    obtain rfl := mem_singleton.mp hn'
    have hhigh := (h.sequence e he).2
    dsimp only
    omega
  once := by
    rw [map_append, nodup_append]
    refine ⟨h.once, nodup_singleton _, fun k hk k' hk' => ?_⟩
    obtain ⟨e, he, rfl⟩ := mem_map.mp hk
    obtain rfl := mem_singleton.mp hk'
    intro hsame
    exact hnew e he ⟨(mk.inj hsame).1, (mk.inj hsame).2⟩
  content := by
    intro e he
    rcases mem_append.mp he with he | he
    · exact h.content e he
    · obtain rfl := mem_singleton.mp he
      exact ⟨hcontent, rfl⟩
  outbox := by
    rw [map_append, map_append, h.outbox]
    rfl
  cursor := by
    intro id' p c hc
    rcases h.cursor id' p c hc with hzero | ⟨e, he, hsame⟩
    · exact .inl hzero
    · exact .inr ⟨e, mem_append_left _ he, hsame⟩

theorem moved {sequence : Nat}
    (hevent : sequence = 0 ∨ ∃ e ∈ t.events, e.workspaceId = id ∧ e.sequence = sequence) :
    PairOK { t with cursors := t.cursors.set (id, principal) ⟨sequence, now⟩ } admitted where
  __ := h
  cursor := by
    intro id' p c hc
    rw [get_set] at hc
    split at hc
    · next hkey =>
        obtain ⟨rfl, rfl⟩ := mk.inj hkey
        cases hc
        exact hevent
    · exact h.cursor id' p c hc

theorem present {row : Presence} :
    PairOK { t with presence := t.presence.set (id, principal) row } admitted :=
  ⟨h.owner, h.member, h.count, h.invite, h.uninvited, h.sequence, h.sequences, h.once, h.content,
    h.outbox, h.cursor⟩

theorem effect {new : List Admission} {t' : PairTables}
    (heffect : Effect t new t') : PairOK t' (new ++ admitted) := by
  cases heffect with
  | nothing => exact h
  | created hworkspace hinvite htenant => exact h.created hworkspace hinvite htenant
  | admitted hworkspace htenant hnew hinvite huses hcount =>
      exact h.joined hworkspace htenant hnew hinvite huses hcount
  | appended _ hworkspace hnew hcontent => exact h.appended hworkspace hnew hcontent
  | moved hevent => exact h.moved hevent
  | present => exact h.present
  | ranked hworkspace hmember howner hrole => exact h.ranked hworkspace hmember howner hrole
  | revoked hworkspace hmember howner => exact h.revoked hworkspace hmember howner

end

end PairOK

/-! ## Runs -/

/-- The tables, and everyone a call has admitted. -/
structure PairHistory where
  tables : PairTables
  admitted : List Admission

def Step (h : PairHistory) (c : PairCall) (h' : PairHistory) : Prop :=
  h' = ⟨(call h.tables c).1, admissions h.tables c ++ h.admitted⟩

/-- The tables as they may be later. -/
structure Since (t t' : PairTables) : Prop where
  events : t.events <+: t'.events
  outbox : t.outbox <+: t'.outbox
  cursors : ∀ key c, t.cursors.get key = some c →
    ∃ c', t'.cursors.get key = some c' ∧ c.eventSequence ≤ c'.eventSequence
  presence : ∀ key p, t.presence.get key = some p →
    ∃ p', t'.presence.get key = some p' ∧ (p' = p ∨ p.epoch < p'.epoch)

theorem Since.refl (t : PairTables) : Since t t :=
  ⟨prefix_rfl, prefix_rfl, fun _ c hc => ⟨c, hc, le_refl _⟩, fun _ p hp => ⟨p, hp, .inl rfl⟩⟩

theorem Since.trans {t t' t'' : PairTables} (h : Since t t') (h' : Since t' t'') : Since t t'' where
  events := h.events.trans h'.events
  outbox := h.outbox.trans h'.outbox
  cursors := by
    intro key c hc
    obtain ⟨c', hc', hle⟩ := h.cursors key c hc
    obtain ⟨c'', hc'', hle'⟩ := h'.cursors key c' hc'
    exact ⟨c'', hc'', le_trans hle hle'⟩
  presence := by
    intro key p hp
    obtain ⟨p', hp', hlater⟩ := h.presence key p hp
    obtain ⟨p'', hp'', hlater'⟩ := h'.presence key p' hp'
    refine ⟨p'', hp'', ?_⟩
    rcases hlater with rfl | hlt
    · exact hlater'
    · rcases hlater' with rfl | hlt'
      · exact .inr hlt
      · exact .inr (by omega)

variable {new : List Admission} {t' : PairTables}

theorem effect_since (heffect : Effect t new t') : Since t t' := by
  have hsame := Since.refl t
  cases heffect with
  | nothing => exact hsame
  | created => exact ⟨hsame.events, hsame.outbox, hsame.cursors, hsame.presence⟩
  | admitted => exact ⟨hsame.events, hsame.outbox, hsame.cursors, hsame.presence⟩
  | appended =>
      exact ⟨prefix_append _ _, prefix_append _ _, hsame.cursors, hsame.presence⟩
  | moved _ hforward =>
      refine ⟨hsame.events, hsame.outbox, fun key c hc => ?_, hsame.presence⟩
      rw [get_set]
      split
      · next hkey =>
          rw [hkey] at hc
          exact ⟨_, rfl, hforward c hc⟩
      · exact ⟨c, hc, le_refl _⟩
  | present hforward =>
      refine ⟨hsame.events, hsame.outbox, hsame.cursors, fun key p hp => ?_⟩
      rw [get_set]
      split
      · next hkey =>
          rw [hkey] at hp
          exact ⟨_, rfl, .inr (hforward p hp)⟩
      · exact ⟨p, hp, .inl rfl⟩
  | ranked => exact ⟨hsame.events, hsame.outbox, hsame.cursors, hsame.presence⟩
  | revoked => exact ⟨hsame.events, hsame.outbox, hsame.cursors, hsame.presence⟩

/-- The members of a workspace are as they were, or its revision is one
higher. -/
def Revised (t t' : PairTables) : Prop :=
  ∀ id w, t.workspaces.get id = some w → ∃ w', t'.workspaces.get id = some w'
    ∧ w'.ownerPrincipal = w.ownerPrincipal ∧ w'.tenantId = w.tenantId
    ∧ ((w'.membershipRevision = w.membershipRevision
        ∧ ∀ p, t'.memberships.get (id, p) = t.memberships.get (id, p))
      ∨ w'.membershipRevision = w.membershipRevision + 1)

theorem revised_set (hworkspaces : t'.workspaces = t.workspaces.set id (w.revised now))
    (hworkspace : t.workspaces.get id = some w)
    (hkept : ∀ id' p, id' ≠ id → t'.memberships.get (id', p) = t.memberships.get (id', p)) :
    Revised t t' := by
  intro id' w' hw'
  rw [hworkspaces, get_set]
  split
  · next heq =>
      obtain rfl : w' = w := some.inj (hw'.symm.trans (heq ▸ hworkspace))
      exact ⟨_, rfl, rfl, rfl, .inr rfl⟩
  · next hne => exact ⟨w', hw', rfl, rfl, .inl ⟨rfl, fun p => hkept id' p hne⟩⟩

theorem effect_revised (heffect : Effect t new t') : Revised t t' := by
  have hother : ∀ {id id' p p' : String}, id' ≠ id → (id', p') ≠ (id, p) :=
    fun hne heq => hne (mk.inj heq).1
  cases heffect with
  | nothing => exact fun id w hw => ⟨w, hw, rfl, rfl, .inl ⟨rfl, fun _ => rfl⟩⟩
  | created hworkspace =>
      intro id' w' hw'
      refine ⟨w', ?_, rfl, rfl, .inl ⟨rfl, fun p => ?_⟩⟩
      · rw [get_set_of_ne]
        · exact hw'
        · rintro rfl
          rw [hworkspace] at hw'
          cases hw'
      · rw [get_set_of_ne]
        apply hother
        rintro rfl
        rw [hworkspace] at hw'
        cases hw'
  | admitted hworkspace =>
      exact revised_set rfl hworkspace fun _ _ hne => get_set_of_ne _ _ (hother hne)
  | @appended id _ _ _ w _ now _ hworkspace =>
      intro id' w' hw'
      rw [get_set]
      split
      · next heq =>
          obtain rfl : w' = w := some.inj (hw'.symm.trans (heq ▸ hworkspace))
          exact ⟨_, rfl, rfl, rfl, .inl ⟨rfl, fun _ => rfl⟩⟩
      · exact ⟨w', hw', rfl, rfl, .inl ⟨rfl, fun _ => rfl⟩⟩
  | moved => exact fun id w hw => ⟨w, hw, rfl, rfl, .inl ⟨rfl, fun _ => rfl⟩⟩
  | present => exact fun id w hw => ⟨w, hw, rfl, rfl, .inl ⟨rfl, fun _ => rfl⟩⟩
  | ranked hworkspace =>
      exact revised_set rfl hworkspace fun _ _ hne => get_set_of_ne _ _ (hother hne)
  | revoked hworkspace =>
      exact revised_set rfl hworkspace fun _ _ hne => get_erase_of_ne _ (hother hne)

/-! ### Every reachable state -/

structure HistoryOK (h : PairHistory) : Prop where
  tables : PairOK h.tables h.admitted
  home : ∀ a ∈ h.admitted, ∃ w, h.tables.workspaces.get a.2.1 = some w

theorem effect_home (heffect : Effect t new t') :
    ∀ a ∈ new, ∃ w, t.workspaces.get a.2.1 = some w := by
  cases heffect with
  | admitted hworkspace =>
      intro a ha
      obtain rfl := mem_singleton.mp ha
      exact ⟨_, hworkspace⟩
  | _ => exact fun a ha => absurd ha not_mem_nil

variable {h : PairHistory}

/-- **Step lemma.** -/
theorem step_ok {h' : PairHistory} {c : PairCall} (hok : HistoryOK h) (hstep : Step h c h') :
    HistoryOK h' ∧ Since h.tables h'.tables ∧ Revised h.tables h'.tables := by
  obtain rfl := hstep
  rcases call_acts hok.tables.referenced c with ⟨⟨hsame, -⟩, hnone⟩ | ⟨heffect, -⟩
  · have hrevised := effect_revised (.nothing : Effect h.tables [] h.tables)
    rw [hsame, hnone]
    exact ⟨hok, .refl _, hrevised⟩
  · have hrevised := effect_revised heffect
    refine ⟨⟨hok.tables.effect heffect, fun a ha => ?_⟩, effect_since heffect, hrevised⟩
    have hhome : ∃ w, h.tables.workspaces.get a.2.1 = some w := by
      rcases mem_append.mp ha with ha | ha
      · exact effect_home heffect a ha
      · exact hok.home a ha
    obtain ⟨w, hw⟩ := hhome
    obtain ⟨w', hw', -⟩ := hrevised _ w hw
    exact ⟨w', hw'⟩

/-- **Run lemma.** -/
theorem run_ok {h' : PairHistory} {cs : List PairCall} (hok : HistoryOK h)
    (hrun : Runs.Path Step h cs h') : HistoryOK h' ∧ Since h.tables h'.tables := by
  induction hrun with
  | nil h => exact ⟨hok, .refl _⟩
  | cons hstep _ ih =>
      obtain ⟨hok', hsince, -⟩ := step_ok hok hstep
      obtain ⟨hlast, hrest⟩ := ih hok'
      exact ⟨hlast, hsince.trans hrest⟩

variable {p : String}

/-- A principal becomes a member of a workspace that is there by an invite
that has a use left. -/
theorem effect_member (heffect : Effect t new t') (hworkspace : t.workspaces.get id = some w)
    (hnone : t.memberships.get (id, p) = none) (hsome : t'.memberships.get (id, p) = some m) :
    ∃ hash i, new = [(hash, id, p)] ∧ t.invites.get hash = some i ∧ i.uses < i.maxUses := by
  have hneither : ∀ {memberships : KeyedMap (String × String) Membership},
      memberships.get (id, p) = t.memberships.get (id, p) → memberships.get (id, p) = some m →
        False := by
    intro memberships hsame hget
    rw [hsame, hnone] at hget
    cases hget
  cases heffect with
  | created hfresh =>
      rw [get_set] at hsome
      split at hsome
      · next heq =>
          obtain ⟨rfl, -⟩ := mk.inj heq
          rw [hfresh] at hworkspace
          cases hworkspace
      · exact (hneither rfl hsome).elim
  | admitted _ _ _ hinvite huses =>
      rw [get_set] at hsome
      split at hsome
      · next heq =>
          obtain ⟨rfl, rfl⟩ := mk.inj heq
          exact ⟨_, _, rfl, hinvite, huses⟩
      · exact (hneither rfl hsome).elim
  | ranked _ hmember =>
      rw [get_set] at hsome
      split at hsome
      · next heq =>
          rw [heq, hmember] at hnone
          cases hnone
      · exact (hneither rfl hsome).elim
  | revoked =>
      rw [get_erase] at hsome
      split at hsome
      · cases hsome
      · exact (hneither rfl hsome).elim
  | nothing => exact (hneither rfl hsome).elim
  | appended => exact (hneither rfl hsome).elim
  | moved => exact (hneither rfl hsome).elim
  | present => exact (hneither rfl hsome).elim

theorem admissions_of_call {hash p' : String}
    (h : admissions t (.admitPrincipal roomId p token now) = [(hash, id, p')]) :
    hash = digest (utf8 token) := by
  simp only [admissions] at h
  split at h
  · split at h
    · cases h
    · exact (congrArg fst (singleton_inj.mp h)).symm
  · cases h

theorem HistoryOK.no_return (hok : HistoryOK h) {hash : String}
    (hmem : (hash, id, p) ∈ h.admitted) (hnone : h.tables.memberships.get (id, p) = none)
    (htoken : digest (utf8 token) = hash) :
    (call h.tables (.admitPrincipal roomId p token now)).1.memberships.get (id, p) = none := by
  rcases call_acts hok.tables.referenced (.admitPrincipal roomId p token now) with ⟨⟨hsame, -⟩, -⟩ |
    ⟨heffect, -⟩
  · rw [hsame]
    exact hnone
  · obtain ⟨w, hw⟩ := hok.home _ hmem
    cases hget : (call h.tables (.admitPrincipal roomId p token now)).1.memberships.get (id, p) with
    | none => rfl
    | some m =>
        obtain ⟨hash', i, hnew, hinvite, huses⟩ := effect_member heffect hw hnone hget
        rw [admissions_of_call hnew, htoken] at hinvite
        obtain ⟨-, hmax, -, hcount⟩ := hok.tables.invite hash i hinvite
        have hpos : 0 < admittedBy hash h.admitted :=
          countP_pos_iff.mpr ⟨_, hmem, decide_eq_true rfl⟩
        omega

theorem setRole_stale {target role : String} {expected : Option Int}
    (hworkspace : t.workspaces.get id = some w)
    (hstale : expected ≠ some (w.membershipRevision : Int)) :
    Failed t (setRole t id owner target role expected now) := by
  unfold setRole
  split
  · exact .of_error t _
  split
  · exact .of_error t _
  split
  · next revision _ =>
      split
      · exact .of_error t _
      have hraised : raiseRevision id revision now t = (t, 0) := by
        unfold raiseRevision
        rw [hworkspace]
        exact if_neg fun heq => hstale (congrArg some heq.symm)
      unfold transaction
      dsimp only
      rw [hraised]
      exact .of_error t _
  · exact .of_error t _

/-- An accepted event is in the table, with what was sent unless the two
texts have one digest. -/
theorem appendEvent_stored {admitted : List Admission} (hok : PairOK t admitted) {a : PairResult}
    (h : (appendEvent t id p input now).2 = .ok a) :
    ∃ content, eventContent input = .ok content
      ∧ ∃ e ∈ (appendEvent t id p input now).1.events, e.workspaceId = id
        ∧ e.eventId = input.eventId
        ∧ digest (eventText id input.eventId e.content) = digest (eventText id input.eventId content)
        ∧ ContentOK content ∧ ContentOK e.content := by
  generalize hresult : appendEvent t id p input now = r at h ⊢
  have hfailed : ∀ {e : PairError}, (t, error e) = r → False := by
    rintro e rfl
    cases h
  unfold appendEvent at hresult
  split at hresult
  · exact (hfailed hresult).elim
  next hmembership =>
  split at hresult
  · exact (hfailed hresult).elim
  split at hresult
  · exact (hfailed hresult).elim
  next content hcontent =>
  refine ⟨content, hcontent, ?_⟩
  dsimp only at hresult
  split at hresult
  · next existing hfound =>
      split at hresult
      · exact (hfailed hresult).elim
      next hsame =>
      rw [ne_eq, not_not] at hsame
      have hmem := mem_of_find?_eq_some hfound
      have hkey : existing.workspaceId = id ∧ existing.eventId = input.eventId := by
        simpa using find?_some hfound
      obtain ⟨hok', hdigest⟩ := hok.content existing hmem
      subst hresult
      refine ⟨existing, hmem, hkey.1, hkey.2, ?_, eventContent_ok hcontent, hok'⟩
      rw [← hsame, hdigest, hkey.1, hkey.2]
  · generalize hbody : (fun t : PairTables => _) = body at hresult
    rcases transaction_cases t body with ⟨e, heq, -⟩ | ⟨b, heq, hok'⟩
    · exact (hfailed (heq.symm.trans hresult)).elim
    rw [heq] at hresult
    subst hbody
    dsimp only at hok' hresult
    obtain ⟨t₁, t₂, t₃, h₁, h₂, h₃, hexecute⟩ := execute_three hok'
    obtain ⟨-, rfl⟩ := insertEvent_ok h₁
    obtain rfl := ok.inj h₂
    obtain ⟨w, hworkspace⟩ := hok.referenced id p _ (membership_ok hmembership)
    obtain rfl := updateWorkspace_ok h₃ hworkspace
    rw [hexecute] at hresult
    subst hresult
    have hstored := eventContent_ok hcontent
    exact ⟨⟨t.lastSequence + 1, id, input.eventId, p, content,
      digest (eventText id input.eventId content), now⟩,
      mem_append_right _ mem_cons_self, rfl, rfl, rfl, hstored, hstored⟩

/-- **The store is consistent.** In every reachable state each workspace has
its owner and at most two members of one tenant, an invite has admitted no
more than it may, and every stored event has one row and one row in the
outbox. A member that is gone does not return by its invite; a membership
change raises the revision by one; cursors and presence only go forward; and
a call that fails leaves the tables as they are. -/
theorem pair_workspaces_consistent {cs : List PairCall} {h : PairHistory}
    (hrun : Runs.Path Step ⟨emptyTables, []⟩ cs h) :
    (∀ id w, h.tables.workspaces.get id = some w →
      (∃ m, h.tables.memberships.get (id, w.ownerPrincipal) = some m ∧ m.role = .owner)
      ∧ (∀ p m, h.tables.memberships.get (id, p) = some m →
        (m.role = .owner → p = w.ownerPrincipal) ∧ tenantOf p = some w.tenantId)
      ∧ memberCount h.tables id ≤ 2)
    ∧ (∀ a ∈ h.admitted, ∃ i, h.tables.invites.get a.1 = some i
      ∧ admittedBy a.1 h.admitted ≤ i.maxUses)
    ∧ (∀ hash id p, (hash, id, p) ∈ h.admitted → h.tables.memberships.get (id, p) = none →
      ∀ roomId token now, digest (utf8 token) = hash →
        (call h.tables (.admitPrincipal roomId p token now)).1.memberships.get (id, p) = none)
    ∧ (∀ c, Revised h.tables (call h.tables c).1)
    ∧ (∀ id w owner target role expected now, h.tables.workspaces.get id = some w →
      expected ≠ some (w.membershipRevision : Int) →
      Failed h.tables (call h.tables (.setRole id owner target role expected now)))
    ∧ (h.tables.events.map fun e => (e.workspaceId, e.eventId)).Nodup
    ∧ (h.tables.events.map PairEvent.sequence).Nodup
    ∧ (h.tables.outbox.map fun o => (o.workspaceId, o.eventSequence))
      = (h.tables.events.map fun e => (e.workspaceId, e.sequence))
    ∧ (∀ id p input now a, (call h.tables (.appendEvent id p input now)).2 = .ok a →
      ∃ content, eventContent input = .ok content
        ∧ ∃ e ∈ (call h.tables (.appendEvent id p input now)).1.events, e.workspaceId = id
          ∧ e.eventId = input.eventId
          ∧ ((digest (eventText id input.eventId e.content)
                = digest (eventText id input.eventId content) →
              eventText id input.eventId e.content = eventText id input.eventId content) →
            e.content = content))
    ∧ (∀ id p c, h.tables.cursors.get (id, p) = some c → c.eventSequence = 0
      ∨ ∃ e ∈ h.tables.events, e.workspaceId = id ∧ e.sequence = c.eventSequence)
    ∧ (∀ cs' h', Runs.Path Step h cs' h' → Since h.tables h'.tables)
    ∧ (∀ c e, (call h.tables c).2 = .error e → (call h.tables c).1 = h.tables) := by
  have hempty : HistoryOK ⟨emptyTables, []⟩ := ⟨PairOK.empty, fun a ha => absurd ha not_mem_nil⟩
  obtain ⟨hok, -⟩ := run_ok hempty hrun
  have htables := hok.tables
  refine ⟨fun id w hw => ⟨htables.owner id w hw, fun p m hm => ?_, htables.count id⟩,
    fun a ha => ?_, fun hash id p hmem hnone roomId token now htoken =>
      hok.no_return hmem hnone htoken, fun c => (step_ok hok rfl).2.2,
    fun id w owner target role expected now hw hstale => setRole_stale hw hstale, htables.once,
    htables.sequences, htables.outbox, fun id p input now a happend => ?_, htables.cursor,
    fun cs' h' hlater => (run_ok hok hlater).2, fun c e herror => ?_⟩
  · obtain ⟨w', hw', htenant, howner⟩ := htables.member id p m hm
    obtain rfl : w' = w := some.inj (hw'.symm.trans hw)
    exact ⟨howner, htenant⟩
  · cases hinvite : h.tables.invites.get a.1 with
    | none =>
        have hpos : 0 < admittedBy a.1 h.admitted := countP_pos_iff.mpr ⟨a, ha, decide_eq_true rfl⟩
        rw [htables.uninvited _ hinvite] at hpos
        exact absurd hpos (lt_irrefl 0)
    | some i =>
        obtain ⟨-, -, hle, hcount⟩ := htables.invite _ i hinvite
        exact ⟨i, rfl, hcount ▸ hle⟩
  · obtain ⟨content, hcontent, e, he, hid, hevent, hdigest, hc, hc'⟩ :=
      appendEvent_stored htables happend
    exact ⟨content, hcontent, e, he, hid, hevent, fun hno => eventText_injective hc' hc (hno hdigest)⟩
  · rcases call_acts htables.referenced c with ⟨⟨hsame, -⟩, -⟩ | ⟨-, a, hok'⟩
    · exact hsame
    · rw [hok'] at herror
      cases herror

def sampleCalls : List PairCall :=
  [.create "room_0001" "Pair" "tenant|alice" "workspace" "invite" 0,
    .setCursor "workspace" "tenant|alice" (some 0) 1]

def sampleTables : PairTables :=
  (call (call emptyTables (.create "room_0001" "Pair" "tenant|alice" "workspace" "invite" 0)).1
    (.setCursor "workspace" "tenant|alice" (some 0) 1)).1

theorem sample_run :
    ∃ h, Runs.Path Step ⟨emptyTables, []⟩ sampleCalls h ∧ h.tables = sampleTables :=
  ⟨_, .cons rfl (.cons rfl (.nil _)), rfl⟩

theorem sample_cursor : ∃ c, sampleTables.cursors.get ("workspace", "tenant|alice") = some c := by
  have hcursor : (sampleTables.cursors.get ("workspace", "tenant|alice")).isSome = true := by
    decide
  exact isSome_iff_exists.mp hcursor

/-- A cursor at the start names no event. -/
theorem cursor_names_no_event : ¬∀ cs h, Runs.Path Step ⟨emptyTables, []⟩ cs h →
      ∀ id p c, h.tables.cursors.get (id, p) = some c →
        ∃ e ∈ h.tables.events, e.workspaceId = id ∧ e.sequence = c.eventSequence := by
  intro hall
  obtain ⟨h, hrun, htables⟩ := sample_run
  obtain ⟨c, hc⟩ := sample_cursor
  have hevents : sampleTables.events.length = 0 := by decide +kernel
  obtain ⟨e, he, -⟩ := hall sampleCalls h hrun _ _ c (htables ▸ hc)
  rw [htables, length_eq_zero_iff.mp hevents] at he
  exact absurd he not_mem_nil

theorem pair_workspaces_consistent_sample : ∃ h, Runs.Path Step ⟨emptyTables, []⟩ sampleCalls h
      ∧ ∃ c, h.tables.cursors.get ("workspace", "tenant|alice") = some c
        ∧ (c.eventSequence = 0
          ∨ ∃ e ∈ h.tables.events, e.workspaceId = "workspace" ∧ e.sequence = c.eventSequence) := by
  obtain ⟨h, hrun, htables⟩ := sample_run
  obtain ⟨c, hc⟩ := sample_cursor
  obtain ⟨-, -, -, -, -, -, -, -, -, hcursors, -⟩ := pair_workspaces_consistent hrun
  exact ⟨h, hrun, c, htables ▸ hc, hcursors _ _ c (htables ▸ hc)⟩

end Pair

end WebrtcMinimize
