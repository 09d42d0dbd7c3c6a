import WebrtcMinimize.Checks
import WebrtcMinimize.Maps
import WebrtcMinimize.Runs

/-!
# Machine session leases

`MachineSessionLeases` owns the sessions of machine participants: one per
task of the second protocol version, with a generation that a renewal
raises and an expiry it moves.

The clock and the ports answer anew at each call, and the answers are
arguments here; a port that throws has answered no. A session lives as long
as its record: `close`, `revoke`, `retire` and the timer delete it, and so
does `live` when it finds the session expired, unauthorized or left.
-/

namespace WebrtcMinimize

namespace Machine

open Checks Runs KeyedMap

/-! ## Bindings -/

inductive BindingKey
  | issuer
  | subject
  | roomId
  | taskId
  | tenantId
  | projectId
  | protocolVersion
  | runtimeId
  | hubSessionId
  | capabilitySet
deriving DecidableEq

def bindingKeys : List BindingKey :=
  [.issuer, .subject, .roomId, .taskId, .tenantId, .projectId, .protocolVersion, .runtimeId,
    .hubSessionId, .capabilitySet]

/-- What a binding has under its keys, where that is text. -/
abbrev MachineBinding := BindingKey → Option String

def sameBinding (a b : MachineBinding) : Bool :=
  bindingKeys.all fun key => (a key).isSome && decide (a key = b key)

def taskOwnerKeys : List BindingKey := [.issuer, .tenantId, .projectId, .taskId]

def sameV2Task (a b : MachineBinding) : Bool :=
  decide (a .protocolVersion = some "v2") && decide (b .protocolVersion = some "v2")
    && taskOwnerKeys.all fun key => decide (a key = b key)

/-! ## State -/

structure MachineIdentity where
  binding : MachineBinding
  /-- When it is a safe integer. -/
  expiresAt : Option Int

structure MachineSession where
  identity : MachineIdentity
  binding : MachineBinding
  fingerprint : String
  createdAt : Int
  lastNow : Int
  expiresAt : Int
  absoluteExpiresAt : Int
  generation : Nat
  /-- `member` and `stop` have been set by `attach`. -/
  attached : Bool
  /-- `attach` was given a `detach`. -/
  detach : Bool

structure SessionView where
  sessionId : String
  generation : Nat
  expiresAt : Int
  absoluteExpiresAt : Int
deriving DecidableEq

def MachineSession.view (id : String) (r : MachineSession) : SessionView :=
  ⟨id, r.generation, r.expiresAt, r.absoluteExpiresAt⟩

structure SessionRetired where
  nonce : String
  sessionId : String
  binding : MachineBinding

inductive SessionOutcome
  | view (v : SessionView)
  | retired (r : SessionRetired)
  | flag (b : Bool)
  | done
  | error (code : String) (status : Nat)

structure MachineSessionLeases where
  maxSessions : Nat
  records : KeyedMap String MachineSession
  /-- The identifiers drawn so far. -/
  issued : List String

def newMachineSessionLeases (maxSessions : Nat) : Option MachineSessionLeases :=
  if maxSessions < 1 ∨ maxSessions > 10000 then none else some ⟨maxSessions, .empty, []⟩

namespace MachineSessionLeases

variable (s : MachineSessionLeases)

def close (id : String) : MachineSessionLeases := { s with records := s.records.erase id }

/-- Also calls the session's `detach`, whatever it answers. -/
def revoke (id : String) : MachineSessionLeases := { s with records := s.records.erase id }

def put (id : String) (r : MachineSession) : MachineSessionLeases :=
  { s with records := s.records.set id r }

/-! ## Live sessions -/

structure LiveAnswers where
  now : Int
  authorized : Bool
  member : Bool

def live (id : String) (a : LiveAnswers) : MachineSessionLeases × Bool :=
  match s.records.get id with
  | none => (s, false)
  | some r =>
      if a.authorized = false then
        (s.revoke id, false)
      else if a.now < r.lastNow ∨ a.now ≥ r.expiresAt ∨ (r.attached = true ∧ a.member = false) then
        (s.close id, false)
      else
        (s.put id { r with lastNow := a.now }, true)

structure PruneAnswers where
  clock : Int
  live : LiveAnswers

/-- A session nobody attached to within 30 seconds is closed. -/
def pruneOne (a : String → PruneAnswers) (s : MachineSessionLeases) (id : String) :
    MachineSessionLeases :=
  match s.records.get id with
  | none => s
  | some r =>
      if r.attached = false ∧ (a id).clock ≥ r.createdAt + 30000 then s.close id
      else (s.live id (a id).live).1

def prune (a : String → PruneAnswers) : MachineSessionLeases :=
  s.records.keys.foldl (pruneOne a) s

/-! ## Operations -/

def scopeInvalid : SessionOutcome := .error "machine_lease_scope_invalid" 401

def unavailable : SessionOutcome := .error "machine_session_unavailable" 401

def deadlineInvalid : SessionOutcome := .error "machine_lease_deadline_invalid" 409

structure IssueAnswers where
  now : Int
  authorized : Bool
  prune : String → PruneAnswers
  /-- `ms_` and 24 random bytes. -/
  id : String

/-- The holder's session of the same task, or with the same binding. -/
def rival (binding : MachineBinding) (fingerprint : String) (r : MachineSession) : Bool :=
  sameV2Task r.binding binding
    || (sameBinding r.binding binding && decide (r.fingerprint = fingerprint))

def issue (identity : MachineIdentity) (fingerprint : String) (a : IssueAnswers) :
    MachineSessionLeases × SessionOutcome :=
  match identity.expiresAt with
  | none => (s, scopeInvalid)
  | some expiresAt =>
      if a.authorized = false ∨ sameBinding identity.binding identity.binding = false
          ∨ fingerprint = "" ∨ expiresAt ≤ a.now ∨ expiresAt > a.now + 600000 then
        (s, scopeInvalid)
      else
        let s := s.prune a.prune
        if s.records.size ≥ s.maxSessions then
          (s, .error "machine_lease_capacity" 429)
        else if s.records.values.any (rival identity.binding fingerprint) then
          (s, .error "machine_session_already_active" 409)
        else
          let r : MachineSession :=
            { identity := identity
              binding := identity.binding
              fingerprint := fingerprint
              createdAt := a.now
              lastNow := a.now
              expiresAt := expiresAt
              absoluteExpiresAt := a.now + 7200000 - 15000
              generation := 1
              attached := false
              detach := false }
          ({ s.put a.id r with issued := a.id :: s.issued }, .view (r.view a.id))

structure AttachAnswers where
  /-- `member` and `stop` are functions. -/
  ports : Bool
  live : LiveAnswers
  clock : Int
  /-- The other ports are functions or null. -/
  optional : Bool
  detach : Bool

def attach (id : String) (a : AttachAnswers) : MachineSessionLeases × SessionOutcome :=
  match s.records.get id with
  | none => (s, unavailable)
  | some r =>
      if r.attached = true ∨ a.ports = false then
        (s, unavailable)
      else
        match s.live id a.live with
        | (s, false) => (s, unavailable)
        | (s, true) =>
            if a.clock ≥ r.createdAt + 30000 ∨ a.optional = false then
              (s, unavailable)
            else
              (s.put id { r with lastNow := a.live.now, attached := true, detach := a.detach },
                .done)

def sessionIdOK (id : String) : Bool := taggedOK "ms_" 32 32 id

def nonceOK (nonce : String) : Bool := spanOK hexByte 32 32 (utf8 nonce)

/-- `detached` is what the session's `detach` answers. -/
def retire (id : String) (binding : MachineBinding) (nonce : String) (detached : Bool) :
    MachineSessionLeases × SessionOutcome :=
  if sameBinding binding binding = false ∨ binding .protocolVersion ≠ some "v2"
      ∨ sessionIdOK id = false ∨ nonceOK nonce = false
      ∨ (s.records.get id).any (fun r => !sameBinding r.binding binding) then
    (s, scopeInvalid)
  else if (s.records.get id).any (fun r => r.attached && !(r.detach && detached)) then
    (s, .error "machine_session_retirement_unconfirmed" 503)
  else
    (s.close id, .retired ⟨nonce, id, binding⟩)

structure RenewAnswers where
  live : LiveAnswers
  now : Int
  authorized : Bool

def renew (id : String) (expectedGeneration : Int) (identity : MachineIdentity)
    (fingerprint : String) (a : RenewAnswers) : MachineSessionLeases × SessionOutcome :=
  match s.live id a.live with
  | (s, false) => (s, unavailable)
  | (s, true) =>
      match s.records.get id with
      | none => (s, unavailable)
      | some r =>
          -- the clock may have moved past the old grant, or back, since `live`
          if a.now < r.lastNow ∨ a.now ≥ r.expiresAt then
            (s.close id, unavailable)
          else
            let s := s.put id { r with lastNow := a.now }
            if a.authorized = false ∨ r.attached = false
                ∨ sameBinding r.binding identity.binding = false
                ∨ r.fingerprint ≠ fingerprint then
              (s, scopeInvalid)
            else if expectedGeneration ≠ r.generation ∨ r.generation ≥ 512 then
              (s, .error "machine_lease_generation_conflict" 409)
            else
              match identity.expiresAt with
              | none => (s, deadlineInvalid)
              | some expiresAt =>
                  if expiresAt ≤ r.expiresAt ∨ expiresAt > a.now + 600000
                      ∨ expiresAt > r.absoluteExpiresAt then
                    (s, deadlineInvalid)
                  else
                    let r := { r with
                      lastNow := a.now
                      expiresAt := expiresAt
                      identity := identity
                      generation := r.generation + 1 }
                    (s.put id r, .view (r.view id))

/-! ## Calls -/

inductive SessionCall
  | issue (identity : MachineIdentity) (fingerprint : String) (a : IssueAnswers)
  | attach (id : String) (a : AttachAnswers)
  | renew (id : String) (expectedGeneration : Int) (identity : MachineIdentity)
      (fingerprint : String) (a : RenewAnswers)
  | retire (id : String) (binding : MachineBinding) (nonce : String) (detached : Bool)
  | revoke (id : String)
  /-- A call of `close`, or the session's timer. -/
  | close (id : String)
  | live (id : String) (a : LiveAnswers)
  | prune (a : String → PruneAnswers)

def call : SessionCall → MachineSessionLeases × SessionOutcome
  | .issue identity fingerprint a => s.issue identity fingerprint a
  | .attach id a => s.attach id a
  | .renew id expectedGeneration identity fingerprint a =>
      s.renew id expectedGeneration identity fingerprint a
  | .retire id binding nonce detached => s.retire id binding nonce detached
  | .revoke id => (s.revoke id, .done)
  | .close id => (s.close id, .done)
  | .live id a => ((s.live id a).1, .flag (s.live id a).2)
  | .prune a => (s.prune a, .done)

/-- Random identifiers do not repeat. -/
def Fresh : SessionCall → Prop
  | .issue _ _ a => a.id ∉ s.issued
  | _ => True

def Step (s : MachineSessionLeases) (c : SessionCall) (t : MachineSessionLeases) : Prop :=
  s.Fresh c ∧ (s.call c).1 = t

/-! ## Records across calls -/

/-- Neither renewed nor replaced. -/
structure Kept (r r' : MachineSession) : Prop where
  binding : r'.binding = r.binding
  fingerprint : r'.fingerprint = r.fingerprint
  absoluteExpiresAt : r'.absoluteExpiresAt = r.absoluteExpiresAt
  generation : r'.generation = r.generation
  expiresAt : r'.expiresAt = r.expiresAt

theorem Kept.refl (r : MachineSession) : Kept r r := ⟨rfl, rfl, rfl, rfl, rfl⟩

theorem Kept.trans {r r' r'' : MachineSession} (h : Kept r r') (h' : Kept r' r'') : Kept r r'' :=
  ⟨h'.binding.trans h.binding, h'.fingerprint.trans h.fingerprint,
    h'.absoluteExpiresAt.trans h.absoluteExpiresAt, h'.generation.trans h.generation,
    h'.expiresAt.trans h.expiresAt⟩

/-- Sessions may have ended; none was issued or renewed. -/
structure Fewer (s t : MachineSessionLeases) : Prop where
  maxSessions : t.maxSessions = s.maxSessions
  issued : t.issued = s.issued
  kept : ∀ id r', t.records.get id = some r' → ∃ r, s.records.get id = some r ∧ Kept r r'

theorem Fewer.refl (s : MachineSessionLeases) : Fewer s s :=
  ⟨rfl, rfl, fun _ r' h => ⟨r', h, .refl r'⟩⟩

theorem Fewer.trans {s t u : MachineSessionLeases} (h : Fewer s t) (h' : Fewer t u) :
    Fewer s u where
  maxSessions := h'.maxSessions.trans h.maxSessions
  issued := h'.issued.trans h.issued
  kept := by
    intro id r'' hr''
    obtain ⟨r', hr', hkept'⟩ := h'.kept id r'' hr''
    obtain ⟨r, hr, hkept⟩ := h.kept id r' hr'
    exact ⟨r, hr, hkept.trans hkept'⟩

theorem close_fewer (id : String) : Fewer s (s.close id) := by
  refine ⟨rfl, rfl, fun id' r' hr' => ?_⟩
  have herase := get_erase s.records id id'
  rw [show (s.close id).records = s.records.erase id from rfl, herase] at hr'
  split at hr'
  · cases hr'
  · exact ⟨r', hr', .refl r'⟩

theorem close_none (id : String) : (s.close id).records.get id = none := by
  rw [show (s.close id).records = s.records.erase id from rfl, get_erase, if_pos rfl]

variable {id : String} {r r' : MachineSession}

theorem put_fewer (hr : s.records.get id = some r) (hkept : Kept r r') : Fewer s (s.put id r') := by
  refine ⟨rfl, rfl, fun id' r'' hr'' => ?_⟩
  rw [show (s.put id r').records = s.records.set id r' from rfl, get_set] at hr''
  split at hr''
  · next heq =>
      cases hr''
      exact ⟨r, heq ▸ hr, hkept⟩
  · exact ⟨r'', hr'', .refl r''⟩

theorem live_fewer (id : String) (a : LiveAnswers) : Fewer s (s.live id a).1 := by
  unfold live
  split
  · exact .refl s
  · next r hr =>
      split
      · exact s.close_fewer id
      · split
        · exact s.close_fewer id
        · exact s.put_fewer hr ⟨rfl, rfl, rfl, rfl, rfl⟩

theorem live_false {a : LiveAnswers} (h : (s.live id a).2 = false) :
    (s.live id a).1.records.get id = none := by
  unfold live at h ⊢
  split
  · assumption
  · next r hr =>
      rw [hr] at h
      dsimp only at h
      split
      · exact s.close_none id
      · next hauthorized =>
          rw [if_neg hauthorized] at h
          split
          · exact s.close_none id
          · next hcurrent =>
              rw [if_neg hcurrent] at h
              cases h

theorem live_true {a : LiveAnswers} (h : (s.live id a).2 = true) :
    ∃ r, s.records.get id = some r ∧ a.now < r.expiresAt
      ∧ (s.live id a).1 = s.put id { r with lastNow := a.now } := by
  unfold live at h ⊢
  split
  · next hnone =>
      rw [hnone] at h
      cases h
  · next r hr =>
      rw [hr] at h
      dsimp only at h
      split at h
      · cases h
      · next hauthorized =>
          split at h
          · cases h
          · next hcurrent =>
              refine ⟨r, hr, by omega, ?_⟩
              rw [if_neg hauthorized, if_neg hcurrent]

theorem pruneOne_fewer (a : String → PruneAnswers) (id : String) : Fewer s (pruneOne a s id) := by
  unfold pruneOne
  split
  · exact .refl s
  · split
    · exact s.close_fewer id
    · exact s.live_fewer id _

theorem prune_fewer (a : String → PruneAnswers) : Fewer s (s.prune a) := by
  have hgo : ∀ (ids : List String) (s : MachineSessionLeases), Fewer s (ids.foldl (pruneOne a) s) := by
    intro ids
    induction ids with
    | nil => exact Fewer.refl
    | cons id ids ih => exact fun s => (s.pruneOne_fewer a id).trans (ih _)
  exact hgo _ s

theorem attach_fewer (id : String) (a : AttachAnswers) : Fewer s (s.attach id a).1 := by
  unfold attach
  split
  · exact .refl s
  · next r hr =>
      split
      · exact .refl s
      · have hlive := s.live_fewer id a.live
        rcases hresult : s.live id a.live with ⟨t, _ | _⟩
        · rw [hresult] at hlive
          exact hlive
        · rw [hresult] at hlive
          dsimp only
          split
          · exact hlive
          · obtain ⟨r₁, hr₁, -, ht⟩ := s.live_true (by rw [hresult])
            rw [hresult] at ht
            cases hr.symm.trans hr₁
            refine hlive.trans (put_fewer _ (r := { r with lastNow := a.live.now }) ?_
              ⟨rfl, rfl, rfl, rfl, rfl⟩)
            rw [show t = s.put id { r with lastNow := a.live.now } from ht]
            exact get_set_self _ _ _

theorem retire_fewer (id : String) (binding : MachineBinding) (nonce : String) (detached : Bool) :
    Fewer s (s.retire id binding nonce detached).1 := by
  unfold retire
  split
  · exact .refl s
  · split
    · exact .refl s
    · exact s.close_fewer id

/-! ## Renewals -/

/-- The record of a renewed session. -/
structure Renewed (r r' : MachineSession) : Prop where
  binding : r'.binding = r.binding
  fingerprint : r'.fingerprint = r.fingerprint
  absoluteExpiresAt : r'.absoluteExpiresAt = r.absoluteExpiresAt
  generation : r'.generation = r.generation + 1
  later : r.expiresAt < r'.expiresAt
  deadline : r'.expiresAt ≤ r'.absoluteExpiresAt

/-- A renewal is refused, and renews nothing, or it is of the holder's
session at the generation it names. -/
theorem renew_cases (id : String) (expectedGeneration : Int) (identity : MachineIdentity)
    (fingerprint : String) (a : RenewAnswers) :
    (Fewer s (s.renew id expectedGeneration identity fingerprint a).1 ∧ ∃ code status,
        (s.renew id expectedGeneration identity fingerprint a).2 = .error code status)
    ∨ ∃ t r r', Fewer s t ∧ t.records.get id = some r ∧ Renewed r r'
        ∧ expectedGeneration = r.generation ∧ sameBinding r.binding identity.binding = true
        ∧ r.fingerprint = fingerprint
        ∧ s.renew id expectedGeneration identity fingerprint a = (t.put id r', .view (r'.view id)) := by
  have hlive := s.live_fewer id a.live
  unfold renew
  rcases hresult : s.live id a.live with ⟨t, _ | _⟩
  · rw [hresult] at hlive
    exact .inl ⟨hlive, _, _, rfl⟩
  · obtain ⟨r, hr, -, ht⟩ := s.live_true (by rw [hresult])
    rw [hresult] at hlive ht
    dsimp only at ht hlive ⊢
    have htr : t.records.get id = some { r with lastNow := a.live.now } := by
      rw [ht]
      exact get_set_self _ _ _
    rw [htr]
    dsimp only
    split
    · exact .inl ⟨hlive.trans (t.close_fewer id), _, _, rfl⟩
    · have hput : Fewer s (t.put id { r with lastNow := a.now }) :=
        hlive.trans (t.put_fewer htr ⟨rfl, rfl, rfl, rfl, rfl⟩)
      split
      · exact .inl ⟨hput, _, _, rfl⟩
      · next hscope =>
          simp only [not_or, Bool.not_eq_false, ne_eq, not_not] at hscope
          split
          · exact .inl ⟨hput, _, _, rfl⟩
          · next hgeneration =>
              simp only [not_or, ne_eq, not_not] at hgeneration
              split
              · exact .inl ⟨hput, _, _, rfl⟩
              · next expiresAt _ =>
                  split
                  · exact .inl ⟨hput, _, _, rfl⟩
                  · next hdeadline =>
                      have hlater : r.expiresAt < expiresAt := by omega
                      have hinside : expiresAt ≤ r.absoluteExpiresAt := by omega
                      exact .inr ⟨_, { r with lastNow := a.now }, { r with
                          lastNow := a.now
                          expiresAt := expiresAt
                          identity := identity
                          generation := r.generation + 1 }, hput, get_set_self _ _ _,
                        ⟨rfl, rfl, rfl, rfl, hlater, hinside⟩, hgeneration.1, hscope.2.2.1,
                        hscope.2.2.2, rfl⟩

/-- An issue is refused, or the session is new and has no rival. -/
theorem issue_cases (identity : MachineIdentity) (fingerprint : String) (a : IssueAnswers) :
    (Fewer s (s.issue identity fingerprint a).1
      ∧ ∃ code status, (s.issue identity fingerprint a).2 = .error code status)
    ∨ ∃ t r, Fewer s t ∧ r.binding = identity.binding ∧ r.generation = 1
        ∧ r.expiresAt ≤ r.absoluteExpiresAt ∧ r.absoluteExpiresAt = a.now + 7200000 - 15000
        ∧ (∀ id r', t.records.get id = some r' → rival identity.binding fingerprint r' = false)
        ∧ s.issue identity fingerprint a
          = ({ t.put a.id r with issued := a.id :: t.issued }, .view (r.view a.id)) := by
  have hprune := s.prune_fewer a.prune
  unfold issue
  split
  · exact .inl ⟨.refl s, _, _, rfl⟩
  · next expiresAt _ =>
      split
      · exact .inl ⟨.refl s, _, _, rfl⟩
      · next hscope =>
          dsimp only
          split
          · exact .inl ⟨hprune, _, _, rfl⟩
          · split
            · exact .inl ⟨hprune, _, _, rfl⟩
            · next hrivals =>
                refine .inr ⟨_, _, hprune, rfl, rfl, by dsimp only; omega, rfl, ?_, rfl⟩
                intro id r' hr'
                by_contra hrival
                refine hrivals (List.any_eq_true.mpr ⟨r', ?_, by simpa using hrival⟩)
                exact mem_values_iff.mpr ⟨id, hr'⟩

theorem sameV2Task_comm (a b : MachineBinding) : sameV2Task a b = sameV2Task b a := by
  unfold sameV2Task
  have hkeys : (taskOwnerKeys.all fun key => decide (a key = b key))
      = taskOwnerKeys.all fun key => decide (b key = a key) := by
    simp only [eq_comm]
  rw [hkeys, Bool.and_comm (decide (a .protocolVersion = some "v2"))]

/-! ## Reachable registries -/

structure SessionsOK (s : MachineSessionLeases) : Prop where
  known : ∀ id r, s.records.get id = some r → id ∈ s.issued
  deadline : ∀ id r, s.records.get id = some r → r.expiresAt ≤ r.absoluteExpiresAt
  oneTask : ∀ id id' r r', s.records.get id = some r → s.records.get id' = some r' →
    sameV2Task r.binding r'.binding = true → id = id'

variable {t : MachineSessionLeases}

theorem SessionsOK.fewer {s : MachineSessionLeases} (hok : SessionsOK s) (h : Fewer s t) :
    SessionsOK t where
  known := by
    intro id r' hr'
    obtain ⟨r, hr, -⟩ := h.kept id r' hr'
    exact h.issued ▸ hok.known id r hr
  deadline := by
    intro id r' hr'
    obtain ⟨r, hr, hkept⟩ := h.kept id r' hr'
    rw [hkept.expiresAt, hkept.absoluteExpiresAt]
    exact hok.deadline id r hr
  oneTask := by
    intro id id' r₁ r₂ hr₁ hr₂ hsame
    obtain ⟨r, hr, hkept⟩ := h.kept id r₁ hr₁
    obtain ⟨r', hr', hkept'⟩ := h.kept id' r₂ hr₂
    rw [hkept.binding, hkept'.binding] at hsame
    exact hok.oneTask id id' r r' hr hr' hsame

theorem SessionsOK.renewed {s : MachineSessionLeases} (hok : SessionsOK s)
    (hr : s.records.get id = some r) (h : Renewed r r') :
    SessionsOK (s.put id r') := by
  -- every record has the binding of the record that was there
  have hbefore : ∀ id₁ r₁, (s.put id r').records.get id₁ = some r₁ →
      ∃ r₀, s.records.get id₁ = some r₀ ∧ r₁.binding = r₀.binding
        ∧ r₁.expiresAt ≤ r₁.absoluteExpiresAt := by
    intro id₁ r₁ hr₁
    rw [show (s.put id r').records = s.records.set id r' from rfl, get_set] at hr₁
    split at hr₁
    · next heq =>
        cases hr₁
        exact ⟨r, heq ▸ hr, h.binding, h.deadline⟩
    · exact ⟨r₁, hr₁, rfl, hok.deadline id₁ r₁ hr₁⟩
  refine ⟨fun id₁ r₁ hr₁ => ?_, fun id₁ r₁ hr₁ => ?_, fun id₁ id₂ r₁ r₂ hr₁ hr₂ hsame => ?_⟩
  · obtain ⟨r₀, hr₀, -⟩ := hbefore id₁ r₁ hr₁
    exact hok.known id₁ r₀ hr₀
  · obtain ⟨-, -, -, hdeadline⟩ := hbefore id₁ r₁ hr₁
    exact hdeadline
  · obtain ⟨r₀, hr₀, hbinding, -⟩ := hbefore id₁ r₁ hr₁
    obtain ⟨r₀', hr₀', hbinding', -⟩ := hbefore id₂ r₂ hr₂
    rw [hbinding, hbinding'] at hsame
    exact hok.oneTask id₁ id₂ r₀ r₀' hr₀ hr₀' hsame

theorem SessionsOK.issued {s : MachineSessionLeases} (hok : SessionsOK s) {id : String}
    {r : MachineSession} (hdeadline : r.expiresAt ≤ r.absoluteExpiresAt)
    (hrivals : ∀ id' r', s.records.get id' = some r' → sameV2Task r'.binding r.binding = false) :
    SessionsOK { s.put id r with issued := id :: s.issued } := by
  have hnew : ∀ id₁ r₁, ({ s.put id r with issued := id :: s.issued } : MachineSessionLeases).records.get
      id₁ = some r₁ → (id₁ = id ∧ r₁ = r) ∨ (id₁ ≠ id ∧ s.records.get id₁ = some r₁) := by
    intro id₁ r₁ hr₁
    rw [show ({ s.put id r with issued := id :: s.issued } : MachineSessionLeases).records
      = s.records.set id r from rfl, get_set] at hr₁
    split at hr₁
    · next heq => exact .inl ⟨heq, (Option.some.inj hr₁).symm⟩
    · next hne => exact .inr ⟨hne, hr₁⟩
  refine ⟨fun id₁ r₁ hr₁ => ?_, fun id₁ r₁ hr₁ => ?_, fun id₁ id₂ r₁ r₂ hr₁ hr₂ hsame => ?_⟩
  · rcases hnew id₁ r₁ hr₁ with ⟨rfl, -⟩ | ⟨-, hold⟩
    · exact List.mem_cons_self
    · exact List.mem_cons_of_mem _ (hok.known id₁ r₁ hold)
  · rcases hnew id₁ r₁ hr₁ with ⟨-, rfl⟩ | ⟨-, hold⟩
    · exact hdeadline
    · exact hok.deadline id₁ r₁ hold
  · rcases hnew id₁ r₁ hr₁ with ⟨rfl, rfl⟩ | ⟨-, hold₁⟩ <;>
      rcases hnew id₂ r₂ hr₂ with ⟨rfl, rfl⟩ | ⟨-, hold₂⟩
    · rfl
    · rw [sameV2Task_comm, hrivals id₂ r₂ hold₂] at hsame
      cases hsame
    · rw [hrivals id₁ r₁ hold₁] at hsame
      cases hsame
    · exact hok.oneTask id₁ id₂ r₁ r₂ hold₁ hold₂ hsame

/-- A session as it may be after some calls. -/
structure Grown (r r' : MachineSession) : Prop where
  binding : r'.binding = r.binding
  fingerprint : r'.fingerprint = r.fingerprint
  absoluteExpiresAt : r'.absoluteExpiresAt = r.absoluteExpiresAt
  generation : r.generation ≤ r'.generation
  expiresAt : r.expiresAt ≤ r'.expiresAt

theorem Kept.grown (h : Kept r r') : Grown r r' :=
  ⟨h.binding, h.fingerprint, h.absoluteExpiresAt, h.generation.ge, h.expiresAt.ge⟩

theorem Renewed.grown (h : Renewed r r') : Grown r r' :=
  ⟨h.binding, h.fingerprint, h.absoluteExpiresAt, by rw [h.generation]; omega, h.later.le⟩

/-- A session that was issued is still its old self, or gone for good. -/
structure Since (s t : MachineSessionLeases) : Prop where
  issued : ∀ id ∈ s.issued, id ∈ t.issued
  since : ∀ id ∈ s.issued, ∀ r', t.records.get id = some r' →
    ∃ r, s.records.get id = some r ∧ Grown r r'

theorem Since.refl (s : MachineSessionLeases) : Since s s :=
  ⟨fun _ h => h, fun _ _ r' hr' => ⟨r', hr', (Kept.refl r').grown⟩⟩

theorem Since.trans {s t u : MachineSessionLeases} (h : Since s t) (h' : Since t u) :
    Since s u where
  issued := fun id hid => h'.issued id (h.issued id hid)
  since := by
    intro id hid r'' hr''
    obtain ⟨r', hr', hgrown'⟩ := h'.since id (h.issued id hid) r'' hr''
    obtain ⟨r, hr, hgrown⟩ := h.since id hid r' hr'
    exact ⟨r, hr, hgrown'.binding.trans hgrown.binding,
      hgrown'.fingerprint.trans hgrown.fingerprint,
      hgrown'.absoluteExpiresAt.trans hgrown.absoluteExpiresAt,
      hgrown.generation.trans hgrown'.generation, hgrown.expiresAt.trans hgrown'.expiresAt⟩

theorem Fewer.since {s : MachineSessionLeases} (h : Fewer s t) : Since s t := by
  refine ⟨fun id hid => h.issued ▸ hid, fun id _ r' hr' => ?_⟩
  obtain ⟨r, hr, hkept⟩ := h.kept id r' hr'
  exact ⟨r, hr, hkept.grown⟩

/-! ## One call -/

variable {s}

/-- What a call other than an accepted `issue` or `renew` does. -/
theorem call_cases (c : SessionCall) : Fewer s (s.call c).1
    ∨ (∃ id t r r', Fewer s t ∧ t.records.get id = some r ∧ Renewed r r'
        ∧ (s.call c).1 = t.put id r')
    ∨ (∃ t id r, Fewer s t ∧ (s.Fresh c → id ∉ s.issued) ∧ r.expiresAt ≤ r.absoluteExpiresAt
        ∧ (∀ id' r', t.records.get id' = some r' → sameV2Task r'.binding r.binding = false)
        ∧ (s.call c).1 = { t.put id r with issued := id :: t.issued }) := by
  cases c with
  | issue identity fingerprint a =>
      rcases s.issue_cases identity fingerprint a with ⟨h, -⟩ | ⟨t, r, h, hb, -, hd, -, hr, heq⟩
      · exact .inl h
      · refine .inr (.inr ⟨t, a.id, r, h, fun hfresh => hfresh, hd, ?_, by rw [call, heq]⟩)
        intro id' r' hr'
        have := hr id' r' hr'
        rw [rival, Bool.or_eq_false_iff] at this
        rw [hb]
        exact this.1
  | attach id a => exact .inl (s.attach_fewer id a)
  | renew id expectedGeneration identity fingerprint a =>
      rcases s.renew_cases id expectedGeneration identity fingerprint a with
        ⟨h, -⟩ | ⟨t, r, r', h, hr, hrenewed, -, -, -, heq⟩
      · exact .inl h
      · exact .inr (.inl ⟨id, t, r, r', h, hr, hrenewed, by rw [call, heq]⟩)
  | retire id binding nonce detached => exact .inl (s.retire_fewer id binding nonce detached)
  | revoke id => exact .inl (s.close_fewer id)
  | close id => exact .inl (s.close_fewer id)
  | live id a => exact .inl (s.live_fewer id a)
  | prune a => exact .inl (s.prune_fewer a)

/-- **Step lemma.** -/
theorem step_ok {c : SessionCall} (hok : SessionsOK s) (hstep : Step s c t) : SessionsOK t := by
  obtain ⟨-, rfl⟩ := hstep
  rcases s.call_cases c with h | ⟨id, t, r, r', h, hr, hrenewed, heq⟩ |
    ⟨t, id, r, h, -, hdeadline, hrivals, heq⟩
  · exact hok.fewer h
  · rw [heq]
    exact (hok.fewer h).renewed hr hrenewed
  · rw [heq]
    exact (hok.fewer h).issued hdeadline hrivals

/-- **Step lemma.** -/
theorem step_since {c : SessionCall} (hstep : Step s c t) : Since s t := by
  obtain ⟨hfresh, rfl⟩ := hstep
  rcases s.call_cases c with h | ⟨id, t, r, r', h, hr, hrenewed, heq⟩ |
    ⟨t, id, r, h, hid, -, -, heq⟩
  · exact h.since
  · rw [heq]
    refine h.since.trans ⟨fun _ hid => hid, fun id₁ _ r₁ hr₁ => ?_⟩
    rw [show (t.put id r').records = t.records.set id r' from rfl, get_set] at hr₁
    split at hr₁
    · next heq =>
        cases hr₁
        exact ⟨r, heq ▸ hr, hrenewed.grown⟩
    · exact ⟨r₁, hr₁, (Kept.refl r₁).grown⟩
  · rw [heq]
    refine h.since.trans ⟨fun _ hid => List.mem_cons_of_mem _ hid, fun id₁ hid₁ r₁ hr₁ => ?_⟩
    have hne : id₁ ≠ id := fun heq => hid hfresh (heq ▸ h.issued ▸ hid₁)
    rw [show ({ t.put id r with issued := id :: t.issued } : MachineSessionLeases).records
      = t.records.set id r from rfl, get_set_of_ne _ _ hne] at hr₁
    exact ⟨r₁, hr₁, (Kept.refl r₁).grown⟩

/-! ## Runs -/

theorem newMachineSessionLeases_ok {maxSessions : Nat} {s₀ : MachineSessionLeases}
    (hnew : newMachineSessionLeases maxSessions = some s₀) : SessionsOK s₀ := by
  unfold newMachineSessionLeases at hnew
  split at hnew
  · cases hnew
  · cases hnew
    constructor
    · intro id r h
      cases h
    · intro id r h
      cases h
    · intro id id' r r' h
      cases h

theorem run_ok {es : List SessionCall} (hok : SessionsOK s)
    (hrun : Path Step s es t) : SessionsOK t := by
  induction hrun with
  | nil s => exact hok
  | cons hstep _ ih => exact ih (step_ok hok hstep)

/-- **Run lemma.** -/
theorem run_since {es : List SessionCall} (hrun : Path Step s es t) : Since s t := by
  induction hrun with
  | nil s => exact .refl s
  | cons hstep _ ih => exact (step_since hstep).trans ih

variable (s) in
/-- The session is neither live nor renewable. -/
def Ended (id : String) : Prop :=
  (∀ a, (s.live id a).2 = false)
  ∧ ∀ expectedGeneration identity fingerprint a,
    (s.renew id expectedGeneration identity fingerprint a).2 = unavailable

theorem ended_of_none (hnone : s.records.get id = none) : s.Ended id := by
  have hlive : ∀ a, s.live id a = (s, false) := by
    intro a
    rw [live, hnone]
  refine ⟨fun a => by rw [hlive], fun expectedGeneration identity fingerprint a => ?_⟩
  rw [renew, hlive]

theorem Since.none {t : MachineSessionLeases} (h : Since s t) {id : String} (hid : id ∈ s.issued)
    (hnone : s.records.get id = none) : t.records.get id = none := by
  cases ht : t.records.get id with
  | none => rfl
  | some r' =>
      obtain ⟨r, hr, -⟩ := h.since id hid r' ht
      rw [hnone] at hr
      cases hr

/-- **Machine sessions are fenced.** In every reachable registry a task of
the second protocol has one session; a renewal that succeeds raises the
generation by one and the expiry, not beyond the deadline its issue fixed;
one that names another generation, binding or fingerprint renews nothing; a
session that was not live once is never live or renewable again; and an
attached session is retired when its `detach` has succeeded. -/
theorem machine_sessions_fenced {maxSessions : Nat} {s₀ : MachineSessionLeases}
    {es : List SessionCall} (hnew : newMachineSessionLeases maxSessions = some s₀)
    (hrun : Path Step s₀ es s) :
    (∀ id id' r r', s.records.get id = some r → s.records.get id' = some r' →
      sameV2Task r.binding r'.binding = true → id = id')
    ∧ (∀ id expectedGeneration identity fingerprint a v,
      (s.renew id expectedGeneration identity fingerprint a).2 = .view v →
      ∃ r r', s.records.get id = some r
        ∧ (s.renew id expectedGeneration identity fingerprint a).1.records.get id = some r'
        ∧ r'.generation = r.generation + 1 ∧ r.expiresAt < r'.expiresAt
        ∧ r'.expiresAt ≤ r'.absoluteExpiresAt ∧ v = r'.view id)
    ∧ (∀ identity fingerprint a v, (s.issue identity fingerprint a).2 = .view v →
      ∃ r, (s.issue identity fingerprint a).1.records.get a.id = some r
        ∧ r.absoluteExpiresAt = a.now + 7200000 - 15000)
    ∧ (∀ t fs, Path Step s fs t → ∀ id ∈ s.issued, ∀ r', t.records.get id = some r' →
      ∃ r, s.records.get id = some r ∧ r'.absoluteExpiresAt = r.absoluteExpiresAt
        ∧ r'.expiresAt ≤ r.absoluteExpiresAt)
    ∧ (∀ id (expectedGeneration : Int) identity fingerprint a,
      (∀ r, s.records.get id = some r → expectedGeneration ≠ r.generation
        ∨ sameBinding r.binding identity.binding = false ∨ r.fingerprint ≠ fingerprint) →
      (∃ code status, (s.renew id expectedGeneration identity fingerprint a).2 = .error code status)
      ∧ ∀ id' r', (s.renew id expectedGeneration identity fingerprint a).1.records.get id'
          = some r' →
        ∃ r, s.records.get id' = some r ∧ r'.generation = r.generation ∧ r'.expiresAt = r.expiresAt)
    ∧ (∀ id ∈ s.issued, ∀ a, (s.live id a).2 = false →
      ∀ fs t, Path Step (s.live id a).1 fs t → t.Ended id)
    ∧ (∀ id ∈ s.issued, s.records.get id = none → ∀ fs t, Path Step s fs t → t.Ended id)
    ∧ (∀ id binding nonce detached r, s.records.get id = some r → r.attached = true →
      (∃ receipt, (s.retire id binding nonce detached).2 = .retired receipt) →
      r.detach = true ∧ detached = true) := by
  have hok := run_ok (newMachineSessionLeases_ok hnew) hrun
  refine ⟨hok.oneTask, ?_, ?_, ?_, ?_, ?_, ?_, ?_⟩
  · intro id expectedGeneration identity fingerprint a v hview
    rcases s.renew_cases id expectedGeneration identity fingerprint a with
      ⟨-, code, status, herror⟩ | ⟨t, r, r', h, hr, hrenewed, -, -, -, heq⟩
    · rw [hview] at herror
      cases herror
    · obtain ⟨r₀, hr₀, hkept⟩ := h.kept id r hr
      rw [heq] at hview ⊢
      refine ⟨r₀, r', hr₀, get_set_self _ _ _, ?_, ?_, hrenewed.deadline, ?_⟩
      · rw [hrenewed.generation, hkept.generation]
      · rw [← hkept.expiresAt]
        exact hrenewed.later
      · exact (SessionOutcome.view.inj hview).symm
  · intro identity fingerprint a v hview
    rcases s.issue_cases identity fingerprint a with
      ⟨-, code, status, herror⟩ | ⟨t, r, -, -, -, -, hdeadline, -, heq⟩
    · rw [hview] at herror
      cases herror
    · rw [heq]
      exact ⟨r, get_set_self _ _ _, hdeadline⟩
  · intro t fs hfs id hid r' hr'
    obtain ⟨r, hr, hgrown⟩ := (run_since hfs).since id hid r' hr'
    refine ⟨r, hr, hgrown.absoluteExpiresAt, ?_⟩
    rw [← hgrown.absoluteExpiresAt]
    exact (run_ok hok hfs).deadline id r' hr'
  · intro id expectedGeneration identity fingerprint a hstale
    rcases s.renew_cases id expectedGeneration identity fingerprint a with
      ⟨h, herror⟩ | ⟨t, r, r', h, hr, -, hgeneration, hbinding, hfingerprint, -⟩
    · refine ⟨herror, fun id' r' hr' => ?_⟩
      obtain ⟨r, hr, hkept⟩ := h.kept id' r' hr'
      exact ⟨r, hr, hkept.generation, hkept.expiresAt⟩
    · obtain ⟨r₀, hr₀, hkept⟩ := h.kept id r hr
      rcases hstale r₀ hr₀ with hg | hb | hf
      · rw [hgeneration, hkept.generation] at hg
        exact absurd rfl hg
      · rw [← hkept.binding, hbinding] at hb
        cases hb
      · exact absurd (hkept.fingerprint ▸ hfingerprint) hf
  · intro id hid a hfalse fs t hfs
    have hfewer := s.live_fewer id a
    exact ended_of_none ((run_since hfs).none (hfewer.issued ▸ hid) (s.live_false hfalse))
  · intro id hid hnone fs t hfs
    exact ended_of_none ((run_since hfs).none hid hnone)
  · rintro id binding nonce detached r hr hattached ⟨receipt, hreceipt⟩
    unfold retire at hreceipt
    split at hreceipt
    · cases hreceipt
    · split at hreceipt
      · cases hreceipt
      · next hconfirmed =>
          simpa [hr, hattached] using hconfirmed

def sampleIdentity (expiresAt : Int) : MachineIdentity := ⟨fun _ => some "v2", some expiresAt⟩

def sampleCalls : List SessionCall :=
  [.issue (sampleIdentity 300000) "holder" ⟨0, true, fun _ => ⟨0, ⟨0, true, true⟩⟩, "ms_1"⟩,
    .attach "ms_1" ⟨true, ⟨1, true, true⟩, 2, true, true⟩]

/-- An attached session is renewed, at the generation its issue gave it. -/
theorem machine_sessions_fenced_sample :
    ∃ s₀ s, newMachineSessionLeases 4 = some s₀ ∧ Path Step s₀ sampleCalls s
      ∧ ∃ r r' : MachineSession, s.records.get "ms_1" = some r ∧ r'.generation = r.generation + 1
        ∧ r.expiresAt < r'.expiresAt := by
  have hnew : newMachineSessionLeases 4 = some ⟨4, .empty, []⟩ := rfl
  have hrun : Path Step ⟨4, .empty, []⟩ sampleCalls _ :=
    .cons ⟨List.not_mem_nil, rfl⟩ (.cons ⟨trivial, rfl⟩ (.nil _))
  obtain ⟨-, hrenew, -⟩ := machine_sessions_fenced hnew hrun
  obtain ⟨r, r', hr, -, hgeneration, hlater, -, -⟩ := hrenew "ms_1" 1 (sampleIdentity 500000)
    "holder" ⟨⟨3, true, true⟩, 4, true⟩ ⟨"ms_1", 2, 500000, 7185000⟩ rfl
  exact ⟨_, _, hnew, hrun, r, r', hr, hgeneration, hlater⟩

end MachineSessionLeases

end Machine

end WebrtcMinimize
