import WebrtcMinimize.DecryptLifecycle
import WebrtcMinimize.Logs
import WebrtcMinimize.Runs

/-!
# Keys and their consents over a run

A suspended call goes on as if nothing had happened meanwhile. `Timely` keeps
the runs in which that is so: an `authorize` goes on only while its consent is
neither registered nor revoked, an `install` only while the entry it has found
is the registered one and has not expired. In these runs no key is installed
under a consent that is revoked, expired or destroyed, and none outlives it.
-/

namespace WebrtcMinimize

namespace DecryptLifecycle

open Runs Logs Action Vault KeyedMap List Option

/-! ## The condition -/

/-- What the task relies on still holds. -/
def OnTime (v : Vault) (answer : Vault.Answer) : Task → Prop
  | .exportKey consent _ _ =>
      v.entries.get consent.consentId = none ∧ .revoked consent ∉ v.log
  | .decrypt x => ∀ entry, v.objects[x.entry]? = some entry →
      v.entries.get entry.consent.consentId = some x.entry ∧ answer.now < entry.consent.expiresAt
  | _ => True

def Timely (v : Vault) : Event → Prop
  | .resume i answer => ∀ task, v.tasks[i]? = some task → OnTime v answer task
  | _ => True

/-! ## The invariant -/

def Task.install? : Task → Option Install
  | .importKey x => some x
  | .deriveKey x => some x
  | .decrypt x => some x
  | _ => none

def Task.consent? : Task → Option Consent
  | .generateKey consent _ => some consent
  | .exportKey consent _ _ => some consent
  | _ => none

/-- A key was installed, from which envelope and under which consent. -/
def Action.installed? : Action → Option (Consent × String)
  | .installKey consent _ _ envelopeId _ true => some (consent, envelopeId)
  | _ => none

def Vault.installed (v : Vault) : List (Consent × String) := v.log.filterMap installed?

/-- `installKey` is called for a consent that is neither revoked nor expired,
in a vault that is not destroyed. -/
def Allowed (before : List Action) : Action → Prop
  | .installKey consent _ _ _ now _ =>
      .revoked consent ∉ before ∧ .destroyed ∉ before ∧ now < consent.expiresAt
  | _ => True

def Registered (v : Vault) (i : Nat) : Prop := ∃ consentId, v.entries.get consentId = some i

/-- What holds of a task that is taken out, or put in. -/
structure Fresh (v : Vault) (task : Task) : Prop where
  known : ∀ consent, task.consent? = some consent → consent ∈ v.known
  found : ∀ x, task.install? = some x → ∃ entry, v.objects[x.entry]? = some entry
    ∧ (Registered v x.entry → x.envelope.envelopeId ∈ entry.seen
      ∧ (entry.consent, x.envelope.envelopeId) ∉ v.installed)
  alone : ∀ x, task.install? = some x → Registered v x.entry → ∀ other ∈ v.tasks, ∀ y,
    other.install? = some y → y.entry = x.entry → y.envelope.envelopeId ≠ x.envelope.envelopeId

/-- What holds of the vault, but for the tasks. -/
structure Core (v : Vault) : Prop where
  refs : ∀ consentId i, v.entries.get consentId = some i →
    ∃ entry, v.objects[i]? = some entry ∧ entry.consent.consentId = consentId
  gone : ∀ (i : Nat) (entry : Entry), v.objects[i]? = some entry →
    v.entries.get entry.consent.consentId = some i ∨ .revoked entry.consent ∈ v.log
  one : ∀ (i j : Nat) (entry entry' : Entry), v.objects[i]? = some entry → v.objects[j]? = some entry' →
    entry.consent = entry'.consent → i = j
  known : ∀ (i : Nat) (entry : Entry), v.objects[i]? = some entry → entry.consent ∈ v.known
  calls : Justified Allowed v.log
  held : ∀ consent contextId keyId envelopeId now,
    Lasting v.log (.installKey consent contextId keyId envelopeId now true)
      (.clearContext contextId) →
    ∃ (i : Nat) (entry : Entry), v.entries.get consent.consentId = some i ∧ v.objects[i]? = some entry
      ∧ entry.consent = consent ∧ contextId ∈ entry.contexts
  used : ∀ e ∈ v.installed, .revoked e.1 ∈ v.log
    ∨ ∃ (i : Nat) (entry : Entry), v.objects[i]? = some entry ∧ entry.consent = e.1 ∧ e.2 ∈ entry.seen
  once : v.installed.Nodup
  closed : v.destroyed = true →
    (∀ consentId, v.entries.get consentId = none) ∧ ∀ consent ∈ v.known, .revoked consent ∈ v.log
  destroyed : .destroyed ∈ v.log → v.destroyed = true

/-- What holds of the tasks. -/
structure Waiting (v : Vault) : Prop where
  known : ∀ task ∈ v.tasks, ∀ consent, task.consent? = some consent → consent ∈ v.known
  found : ∀ task ∈ v.tasks, ∀ x, task.install? = some x →
    ∃ entry, v.objects[x.entry]? = some entry
      ∧ (Registered v x.entry → x.envelope.envelopeId ∈ entry.seen
        ∧ (entry.consent, x.envelope.envelopeId) ∉ v.installed)
  apart : v.tasks.Pairwise fun task other => ∀ x y, task.install? = some x →
    other.install? = some y → y.entry = x.entry → Registered v x.entry →
      y.envelope.envelopeId ≠ x.envelope.envelopeId

/-- What is registered has not been revoked. -/
def Live (v : Vault) : Prop :=
  ∀ consentId i entry, v.entries.get consentId = some i → v.objects[i]? = some entry →
    .revoked entry.consent ∉ v.log

structure Kept (v : Vault) : Prop where
  core : Core v
  waiting : Waiting v
  live : Live v

theorem empty_kept : Kept empty := by
  refine ⟨⟨?_, ?_, ?_, ?_, .nil, ?_, ?_, .nil, ?_, ?_⟩, ⟨?_, ?_, .nil⟩, ?_⟩
  · intro _ _ h
    cases h
  · intro _ _ h
    cases h
  · intro _ _ _ _ h
    cases h
  · intro _ _ h
    cases h
  · intro _ _ _ _ _ h
    exact absurd h.mem not_mem_nil
  · intro _ h
    exact absurd h not_mem_nil
  · intro h
    cases h
  · intro h
    exact absurd h not_mem_nil
  · intro _ h
    exact absurd h not_mem_nil
  · intro _ h
    exact absurd h not_mem_nil
  · intro _ _ _ h
    cases h

/-! ## Steps of the vault -/

section Steps

variable {v : Vault}

@[simp] theorem installed_emit (actions : List Action) :
    (v.emit actions).installed = v.installed ++ actions.filterMap installed? :=
  filterMap_append

theorem objects_setEntry (i : Nat) (f : Entry → Entry) (j : Nat) :
    (v.setEntry i f).objects[j]? = (v.objects[j]?).map (if j = i then f else id) := by
  rw [setEntry, getElem?_modify]
  by_cases h : i = j
  · subst h
    simp only [if_true]
    rfl
  · simp only [if_neg h, if_neg (Ne.symm h)]
    rfl

/-- Actions that neither install nor clear nor destroy. -/
def Action.plain : Action → Prop
  | .installKey _ _ _ _ _ _ => False
  | .clearContext _ => False
  | .destroyed => False
  | _ => True

theorem installed_plain {actions : List Action} (h : ∀ a ∈ actions, a.plain) :
    actions.filterMap installed? = [] := by
  refine filterMap_eq_nil_iff.mpr fun a ha => ?_
  have hplain := h a ha
  cases a <;> first | rfl | exact hplain.elim

theorem Core.emit (h : Core v) {actions : List Action} (hplain : ∀ a ∈ actions, a.plain) :
    Core (v.emit actions) where
  __ := h
  gone i entry hi := (h.gone i entry hi).imp_right (mem_append_left _)
  calls := by
    refine h.calls.append fun a ha before => ?_
    have hplain := hplain a ha
    cases a <;> trivial
  held := by
    intro consent contextId keyId envelopeId now hlast
    rcases hlast.append with hmem | ⟨-, hlast⟩
    · exact (hplain _ hmem).elim
    · exact h.held consent contextId keyId envelopeId now hlast
  used := by
    intro e he
    rw [installed_emit, installed_plain hplain, append_nil] at he
    exact (h.used e he).imp_left (mem_append_left _)
  once := by
    rw [installed_emit, installed_plain hplain, append_nil]
    exact h.once
  closed hdestroyed := by
    refine ⟨(h.closed hdestroyed).1, fun consent hc => mem_append_left _ ?_⟩
    exact (h.closed hdestroyed).2 consent hc
  destroyed hmem := by
    rcases mem_append.mp hmem with hmem | hmem
    · exact h.destroyed hmem
    · exact (hplain _ hmem).elim

theorem Waiting.emit (h : Waiting v) {actions : List Action} (hplain : ∀ a ∈ actions, a.plain) :
    Waiting (v.emit actions) where
  __ := h
  found := by
    rw [installed_emit, installed_plain hplain, append_nil]
    exact h.found

theorem Live.emit (h : Live v) {actions : List Action}
    (hnone : ∀ consent, .revoked consent ∉ actions) : Live (v.emit actions) := by
  intro consentId i entry hget hi hmem
  rcases mem_append.mp hmem with hmem | hmem
  · exact h consentId i entry hget hi hmem
  · exact hnone _ hmem

section

variable (h : Kept v)

include h

theorem Kept.fail (code : String) : Kept (v.fail code) := by
  have hplain : ∀ a ∈ [failed code], a.plain := by
    intro a ha
    obtain rfl := mem_singleton.mp ha
    trivial
  refine ⟨h.core.emit hplain, h.waiting.emit hplain, h.live.emit fun consent hmem => ?_⟩
  cases mem_singleton.mp hmem

theorem Kept.suspend {task : Task} (htask : Fresh v task) : Kept (v.suspend task) := by
  refine ⟨⟨h.core.refs, h.core.gone, h.core.one, h.core.known, h.core.calls, h.core.held,
    h.core.used, h.core.once, h.core.closed, h.core.destroyed⟩, ⟨?_, ?_, ?_⟩, h.live⟩
  · intro other hother consent hconsent
    rcases mem_append.mp hother with hother | hother
    · exact h.waiting.known other hother consent hconsent
    · exact htask.known consent (mem_singleton.mp hother ▸ hconsent)
  · intro other hother x hx
    rcases mem_append.mp hother with hother | hother
    · exact h.waiting.found other hother x hx
    · exact htask.found x (mem_singleton.mp hother ▸ hx)
  · refine pairwise_append.mpr ⟨h.waiting.apart, pairwise_singleton .., ?_⟩
    intro other hother task' htask' y x hy hx heq hregistered
    rw [mem_singleton.mp htask'] at hx
    exact (htask.alone x hx (heq ▸ hregistered) other hother y hy heq.symm).symm

theorem Kept.take {i : Nat} {task : Task} (hi : v.tasks[i]? = some task) :
    Kept { v with tasks := v.tasks.eraseIdx i }
      ∧ Fresh { v with tasks := v.tasks.eraseIdx i } task := by
  have hsub := eraseIdx_sublist v.tasks i
  have hmem : task ∈ v.tasks := mem_of_getElem? hi
  refine ⟨⟨⟨h.core.refs, h.core.gone, h.core.one, h.core.known, h.core.calls, h.core.held,
    h.core.used, h.core.once, h.core.closed, h.core.destroyed⟩,
    ⟨fun other hother => h.waiting.known other (hsub.subset hother),
      fun other hother => h.waiting.found other (hsub.subset hother),
      h.waiting.apart.sublist hsub⟩, h.live⟩,
    ⟨h.waiting.known task hmem, h.waiting.found task hmem, ?_⟩⟩
  intro x hx hregistered other hother y hy heq
  obtain ⟨j, hne, hj⟩ := mem_eraseIdx_iff_getElem?.mp hother
  obtain ⟨hj', rfl⟩ := List.getElem?_eq_some_iff.mp hj
  obtain ⟨hi', rfl⟩ := List.getElem?_eq_some_iff.mp hi
  have hapart := pairwise_iff_getElem.mp h.waiting.apart
  rcases Nat.lt_or_gt_of_ne hne with hlt | hlt
  · exact (hapart j i hj' hi' hlt y x hy hx heq.symm (heq ▸ hregistered)).symm
  · exact hapart i j hi' hj' hlt x y hx hy heq hregistered

/-- An entry changes, and keeps its consent, its contexts and what it has to
have seen. -/
theorem Kept.setEntry (i : Nat) (f : Entry → Entry)
    (hconsent : ∀ e, (f e).consent = e.consent)
    (hcontexts : ∀ e, ∀ contextId ∈ e.contexts, contextId ∈ (f e).contexts)
    (hseen : ∀ entry, v.objects[i]? = some entry → ∀ id ∈ entry.seen,
      (.revoked entry.consent ∉ v.log → (entry.consent, id) ∈ v.installed → id ∈ (f entry).seen)
      ∧ (Registered v i → ∀ task ∈ v.tasks, ∀ x, task.install? = some x → x.entry = i →
        x.envelope.envelopeId = id → id ∈ (f entry).seen)) :
    Kept (v.setEntry i f) := by
  have hold : ∀ (j : Nat) (entry : Entry), (v.setEntry i f).objects[j]? = some entry →
      ∃ entry', v.objects[j]? = some entry' ∧ entry = (if j = i then f else id) entry'
        ∧ entry.consent = entry'.consent := by
    intro j entry hj
    rw [objects_setEntry] at hj
    obtain ⟨entry', hentry', rfl⟩ := map_eq_some_iff.mp hj
    refine ⟨entry', hentry', rfl, ?_⟩
    split
    · exact hconsent entry'
    · rfl
  have hnew : ∀ (j : Nat) (entry : Entry), v.objects[j]? = some entry →
      (v.setEntry i f).objects[j]? = some ((if j = i then f else id) entry) := by
    intro j entry hj
    rw [objects_setEntry, hj]
    rfl
  have hkeeps : ∀ (j : Nat) (entry : Entry), ((if j = i then f else id) entry).consent = entry.consent := by
    intro j entry
    split
    · exact hconsent entry
    · rfl
  refine ⟨⟨?_, ?_, ?_, ?_, h.core.calls, ?_, ?_, h.core.once, h.core.closed, h.core.destroyed⟩,
    ⟨h.waiting.known, ?_, h.waiting.apart⟩, ?_⟩
  · intro consentId j hget
    obtain ⟨entry, hj, hid⟩ := h.core.refs consentId j hget
    exact ⟨_, hnew j entry hj, (congrArg Consent.consentId (hkeeps j entry)).trans hid⟩
  · intro j entry hj
    obtain ⟨entry', hj', -, heq⟩ := hold j entry hj
    rw [heq]
    exact h.core.gone j entry' hj'
  · intro j k entry entry' hj hk heq
    obtain ⟨entry₁, hj₁, -, heq₁⟩ := hold j entry hj
    obtain ⟨entry₂, hk₂, -, heq₂⟩ := hold k entry' hk
    exact h.core.one j k entry₁ entry₂ hj₁ hk₂ (heq₁.symm.trans (heq.trans heq₂))
  · intro j entry hj
    obtain ⟨entry', hj', -, heq⟩ := hold j entry hj
    rw [heq]
    exact h.core.known j entry' hj'
  · intro consent contextId keyId envelopeId now hlast
    obtain ⟨j, entry, hget, hj, hc, hmem⟩ :=
      h.core.held consent contextId keyId envelopeId now hlast
    refine ⟨j, _, hget, hnew j entry hj, (hkeeps j entry).trans hc, ?_⟩
    split
    · exact hcontexts entry contextId hmem
    · exact hmem
  · intro e he
    by_cases hrevoked : .revoked e.1 ∈ v.log
    · exact .inl hrevoked
    · obtain ⟨j, entry, hj, hc, hmem⟩ := (h.core.used e he).resolve_left hrevoked
      refine .inr ⟨j, _, hnew j entry hj, (hkeeps j entry).trans hc, ?_⟩
      split
      · rename_i heq
        subst heq
        exact (hseen entry hj e.2 hmem).1 (hc ▸ hrevoked) (hc ▸ he)
      · exact hmem
  · intro task htask x hx
    obtain ⟨entry, hj, hregistered⟩ := h.waiting.found task htask x hx
    refine ⟨_, hnew _ entry hj, fun hreg => ?_⟩
    obtain ⟨hmem, hnot⟩ := hregistered hreg
    refine ⟨?_, ?_⟩
    · split
      · rename_i heq
        rw [heq] at hj hreg
        exact (hseen entry hj _ hmem).2 hreg task htask x hx heq rfl
      · exact hmem
    · rw [hkeeps]
      exact hnot
  · intro consentId j entry hget hj
    obtain ⟨entry', hj', -, heq⟩ := hold j entry hj
    rw [heq]
    exact h.live consentId j entry' hget hj'

theorem Kept.giveUp {task : Task} {x : Install} (hx : task.install? = some x)
    (htask : Fresh v task) (code : String) : Kept (v.giveUp x code) := by
  have hforgotten : Kept (v.setEntry x.entry fun e => { e with
      seen := e.seen.filter fun id => id ≠ x.envelope.envelopeId }) := ?_
  · exact hforgotten.fail code
  refine h.setEntry x.entry _ (fun _ => rfl) (fun _ _ hmem => hmem) ?_
  intro entry hentry id hid
  refine ⟨fun hrevoked hinstalled => ?_, fun hregistered other hother y hy heq hyid => ?_⟩
  · refine mem_filter.mpr ⟨hid, decide_eq_true ?_⟩
    rintro rfl
    have hregistered : Registered v x.entry :=
      ⟨_, (h.core.gone x.entry entry hentry).resolve_right hrevoked⟩
    obtain ⟨entry', hentry', hfound⟩ := htask.found x hx
    cases hentry.symm.trans hentry'
    exact (hfound hregistered).2 hinstalled
  · refine mem_filter.mpr ⟨hid, decide_eq_true ?_⟩
    rw [← hyid]
    exact htask.alone x hx hregistered other hother y hy heq

theorem Kept.install (envelope : Envelope) (consent : Consent) (contextId : String)
    (now : Int) : Kept (v.install envelope consent contextId now) := by
  unfold Vault.install
  split
  · exact h.fail _
  · split
    · exact h.fail _
    · split
      · exact h.fail _
      · rename_i i hget
        split
        · exact h.fail _
        · rename_i entry hentry
          repeat' split
          · exact h.fail _
          · exact h.fail _
          · exact h.fail _
          · exact h.fail _
          · rename_i hconsent _ _ hunseen
            have hregistered : Registered v i := ⟨_, hget⟩
            have hadded : Kept (v.setEntry i fun e => { e with
                seen := envelope.envelopeId :: e.seen }) := by
              refine h.setEntry i _ (fun _ => rfl) (fun _ _ hmem => hmem) ?_
              intro entry' hentry' id hid
              exact ⟨fun _ _ => mem_cons_of_mem _ hid, fun _ _ _ _ _ _ _ => mem_cons_of_mem _ hid⟩
            refine hadded.suspend ⟨?_, fun x hx => ?_, fun x hx _ other hother y hy heq => ?_⟩
            · intro _ hc
              cases hc
            · cases hx
              refine ⟨{ entry with seen := envelope.envelopeId :: entry.seen }, ?_,
                fun _ => ⟨mem_cons_self, fun hinstalled => ?_⟩⟩
              · rw [objects_setEntry, hentry, if_pos rfl]
                rfl
              · rcases h.core.used _ hinstalled with hrevoked | ⟨j, entry', hj, hc, hmem⟩
                · exact h.live _ i entry hget hentry hrevoked
                · obtain rfl := h.core.one j i entry' entry hj hentry hc
                  cases hentry.symm.trans hj
                  exact hunseen hmem
            · cases hx
              obtain ⟨entry', hentry', hfound⟩ := h.waiting.found other hother y hy
              rw [heq] at hentry' hfound
              cases hentry.symm.trans hentry'
              intro hsame
              exact hunseen (hsame ▸ (hfound hregistered).1)

theorem Kept.authorize (consent : Consent) (now : Int) :
    Kept (v.authorize consent now) := by
  unfold Vault.authorize
  split
  · exact h.fail _
  · rename_i hopen
    split
    · exact h.fail _
    · split
      · exact h.fail _
      · have hmore : Kept { v with known := consent :: v.known } := by
          refine ⟨⟨h.core.refs, h.core.gone, h.core.one, ?_, h.core.calls, h.core.held, h.core.used,
            h.core.once, fun hdestroyed => absurd hdestroyed hopen, h.core.destroyed⟩,
            ⟨?_, h.waiting.found, h.waiting.apart⟩, h.live⟩
          · exact fun i entry hi => mem_cons_of_mem _ (h.core.known i entry hi)
          · exact fun task htask c hc => mem_cons_of_mem _ (h.waiting.known task htask c hc)
        refine hmore.suspend ⟨fun c hc => ?_, fun x hx => ?_, fun x hx => ?_⟩
        · cases hc
          exact mem_cons_self
        · cases hx
        · cases hx

theorem Kept.register {consent : Consent} (hknown : consent ∈ v.known)
    (hnone : v.entries.get consent.consentId = none) (hrevoked : .revoked consent ∉ v.log)
    (now : Int) (agreementKeyId : String) (publicKey : Jwk) :
    Kept (v.register consent now agreementKeyId publicKey) := by
  have hopen : v.destroyed = false := by
    by_contra hdestroyed
    rw [Bool.not_eq_false] at hdestroyed
    exact hrevoked ((h.core.closed hdestroyed).2 consent hknown)
  obtain ⟨actions, hplain, hnorevoke, hactions⟩ : ∃ actions : List Action, (∀ a ∈ actions, a.plain)
      ∧ (∀ c, .revoked c ∉ actions)
      ∧ v.register consent now agreementKeyId publicKey = { v.emit actions with
        objects := v.objects ++ [⟨consent, agreementKeyId, [], []⟩]
        timers := v.timers ++ [v.objects.length]
        entries := v.entries.set consent.consentId v.objects.length } := by
    refine ⟨_, ?_, ?_, rfl⟩
    · simp [plain]
    · simp
  rw [hactions]
  have hcore := h.core.emit hplain
  have hwaiting := h.waiting.emit hplain
  have hlive := h.live.emit hnorevoke
  -- an object of the consent would be registered, or revoked
  have hfirst : ∀ (i : Nat) (entry : Entry), v.objects[i]? = some entry → entry.consent ≠ consent := by
    rintro i entry hi rfl
    rcases h.core.gone i entry hi with hget | hmem
    · rw [hnone] at hget
      cases hget
    · exact hrevoked hmem
  have hold : ∀ (i : Nat) (entry : Entry), (v.objects ++ [⟨consent, agreementKeyId, [], []⟩])[i]?
      = some entry → v.objects[i]? = some entry
        ∨ i = v.objects.length ∧ entry = ⟨consent, agreementKeyId, [], []⟩ := by
    intro i entry hi
    rcases Nat.lt_or_ge i v.objects.length with hlt | hge
    · rw [getElem?_append_left hlt] at hi
      exact .inl hi
    · rw [getElem?_append_right hge, getElem?_singleton] at hi
      split at hi
      · exact .inr ⟨by omega, (some.inj hi).symm⟩
      · cases hi
  have hnew : ∀ (i : Nat) (entry : Entry), v.objects[i]? = some entry →
      (v.objects ++ [⟨consent, agreementKeyId, [], []⟩])[i]? = some entry := by
    intro i entry hi
    obtain ⟨hlt, -⟩ := List.getElem?_eq_some_iff.mp hi
    rw [getElem?_append_left hlt]
    exact hi
  have hlast : (v.objects ++ [⟨consent, agreementKeyId, [], []⟩])[v.objects.length]?
      = some ⟨consent, agreementKeyId, [], []⟩ := getElem?_concat_length
  have hget : ∀ consentId i, v.entries.get consentId = some i →
      (v.entries.set consent.consentId v.objects.length).get consentId = some i := by
    intro consentId i hget
    rw [get_set_of_ne]
    · exact hget
    · rintro rfl
      rw [hnone] at hget
      cases hget
  have hregistered : ∀ i, i < v.objects.length →
      (∃ consentId, (v.entries.set consent.consentId v.objects.length).get consentId = some i) →
      Registered v i := by
    rintro i hlt ⟨consentId, hi⟩
    rw [get_set] at hi
    split at hi
    · exact absurd (some.inj hi) hlt.ne'
    · exact ⟨consentId, hi⟩
  refine ⟨⟨?_, ?_, ?_, ?_, hcore.calls, ?_, ?_, hcore.once, ?_, hcore.destroyed⟩,
    ⟨hwaiting.known, ?_, ?_⟩, ?_⟩
  · intro consentId i hi
    rcases get_set_some hi with ⟨hid, rfl⟩ | ⟨-, hi⟩
    · exact ⟨_, hlast, hid.symm⟩
    · obtain ⟨entry, hentry, hid⟩ := h.core.refs consentId i hi
      exact ⟨entry, hnew i entry hentry, hid⟩
  · intro i entry hi
    rcases hold i entry hi with hi | ⟨rfl, rfl⟩
    · exact (hcore.gone i entry hi).imp_left (hget _ _)
    · exact .inl (get_set_self ..)
  · intro i j entry entry' hi hj heq
    rcases hold i entry hi with hi | ⟨rfl, rfl⟩ <;> rcases hold j entry' hj with hj | ⟨rfl, rfl⟩
    · exact h.core.one i j entry entry' hi hj heq
    · exact absurd heq (hfirst i entry hi)
    · exact absurd heq.symm (hfirst j entry' hj)
    · rfl
  · intro i entry hi
    rcases hold i entry hi with hi | ⟨rfl, rfl⟩
    · exact h.core.known i entry hi
    · exact hknown
  · intro c contextId keyId envelopeId at' hlasting
    obtain ⟨i, entry, hi, hentry, hc, hmem⟩ := hcore.held c contextId keyId envelopeId at' hlasting
    exact ⟨i, entry, hget _ _ hi, hnew i entry hentry, hc, hmem⟩
  · intro e he
    refine (hcore.used e he).imp_right ?_
    rintro ⟨i, entry, hi, hc, hmem⟩
    exact ⟨i, entry, hnew i entry hi, hc, hmem⟩
  · intro hdestroyed
    exact absurd (hopen.symm.trans hdestroyed) Bool.false_ne_true
  · intro task htask x hx
    obtain ⟨entry, hentry, hfound⟩ := hwaiting.found task htask x hx
    obtain ⟨hlt, -⟩ := List.getElem?_eq_some_iff.mp hentry
    exact ⟨entry, hnew _ entry hentry, fun hreg => hfound (hregistered _ hlt hreg)⟩
  · refine hwaiting.apart.imp_of_mem ?_
    intro task other htask _ hapart x y hx hy heq hreg
    obtain ⟨entry, hentry, -⟩ := hwaiting.found task htask x hx
    obtain ⟨hlt, -⟩ := List.getElem?_eq_some_iff.mp hentry
    exact hapart x y hx hy heq (hregistered _ hlt hreg)
  · intro consentId i entry hi hentry
    rcases hold i entry hentry with hentry | ⟨rfl, rfl⟩
    · obtain ⟨consentId, hi⟩ := hregistered i (List.getElem?_eq_some_iff.mp hentry).1 ⟨_, hi⟩
      exact hlive consentId i entry hi hentry
    · intro hmem
      rcases mem_append.mp hmem with hmem | hmem
      · exact hrevoked hmem
      · exact hnorevoke _ hmem

end

theorem installed_refused (consent : Consent) (contextId keyId envelopeId : String) (now : Int) :
    (v.emit [.installKey consent contextId keyId envelopeId now false]).installed = v.installed := by
  rw [installed_emit]
  exact append_nil _

theorem Kept.refused (h : Kept v) {consent : Consent} {contextId keyId envelopeId : String} {now : Int}
    (hallowed : Allowed v.log (.installKey consent contextId keyId envelopeId now false)) :
    Kept (v.emit [.installKey consent contextId keyId envelopeId now false]) := by
  refine ⟨⟨h.core.refs, ?_, h.core.one, h.core.known, h.core.calls.concat hallowed, ?_, ?_, ?_, ?_,
    ?_⟩, ⟨h.waiting.known, ?_, h.waiting.apart⟩, h.live.emit fun c hmem => ?_⟩
  · exact fun i entry hi => (h.core.gone i entry hi).imp_right (mem_append_left _)
  · intro c contextId' keyId' envelopeId' now' hlast
    rcases hlast.concat with heq | ⟨-, hlast⟩
    · cases heq
    · exact h.core.held c contextId' keyId' envelopeId' now' hlast
  · rw [installed_refused]
    exact fun e he => (h.core.used e he).imp_left (mem_append_left _)
  · rw [installed_refused]
    exact h.core.once
  · exact fun hd => ⟨(h.core.closed hd).1, fun c hc => mem_append_left _ ((h.core.closed hd).2 c hc)⟩
  · intro hmem
    rcases mem_append.mp hmem with hmem | hmem
    · exact h.core.destroyed hmem
    · cases mem_singleton.mp hmem
  · rw [installed_refused]
    exact h.waiting.found
  · cases mem_singleton.mp hmem

/-- A call of `installKey` that is accepted, and the entry's context. -/
theorem Kept.accepted (h : Kept v) {task : Task} {x : Install} (hx : task.install? = some x)
    (htask : Fresh v task) {entry : Entry} (hentry : v.objects[x.entry]? = some entry)
    (hget : v.entries.get entry.consent.consentId = some x.entry) {now : Int}
    (hallowed : Allowed v.log (.installKey entry.consent x.contextId x.envelope.keyId
      x.envelope.envelopeId now true)) (f : Entry → Entry)
    (hconsent : ∀ e, (f e).consent = e.consent) (hkeeps : ∀ e, (f e).seen = e.seen)
    (hcontexts : ∀ e, ∀ contextId ∈ e.contexts, contextId ∈ (f e).contexts)
    (hcontext : x.contextId ∈ (f entry).contexts) :
    Kept ((v.emit [.installKey entry.consent x.contextId x.envelope.keyId x.envelope.envelopeId now
      true]).setEntry x.entry f) := by
  -- the context first, so that the entry has it when the key is installed
  have hset : Kept (v.setEntry x.entry f) := by
    refine h.setEntry x.entry f hconsent hcontexts fun entry' _ id hid => ?_
    rw [hkeeps]
    exact ⟨fun _ _ => hid, fun _ _ _ _ _ _ _ => hid⟩
  have hobject : (v.setEntry x.entry f).objects[x.entry]? = some (f entry) := by
    rw [objects_setEntry, hentry, if_pos rfl]
    rfl
  have hregistered : Registered v x.entry := ⟨_, hget⟩
  obtain ⟨entry', hentry', hfound⟩ := htask.found x hx
  cases hentry.symm.trans hentry'
  obtain ⟨hmem, hnot⟩ := hfound hregistered
  have hinstalled : ((v.emit [.installKey entry.consent x.contextId x.envelope.keyId
      x.envelope.envelopeId now true]).setEntry x.entry f).installed
      = v.installed ++ [(entry.consent, x.envelope.envelopeId)] := filterMap_append
  refine ⟨⟨hset.core.refs, ?_, hset.core.one, hset.core.known, h.core.calls.concat hallowed, ?_, ?_, ?_,
    ?_, ?_⟩, ⟨hset.waiting.known, ?_, hset.waiting.apart⟩, ?_⟩
  · exact fun i e hi => (hset.core.gone i e hi).imp_right (mem_append_left _)
  · intro c contextId keyId envelopeId now' hlast
    rcases hlast.concat with heq | ⟨-, hlast⟩
    · cases heq
      exact ⟨x.entry, f entry, hget, hobject, hconsent entry, hcontext⟩
    · exact hset.core.held c contextId keyId envelopeId now' hlast
  · rw [hinstalled]
    intro e he
    rcases mem_append.mp he with he | he
    · exact (hset.core.used e he).imp_left (mem_append_left _)
    · obtain rfl := mem_singleton.mp he
      exact .inr ⟨x.entry, f entry, hobject, hconsent entry, hkeeps entry ▸ hmem⟩
  · rw [hinstalled]
    refine nodup_append.mpr ⟨h.core.once, nodup_singleton _, ?_⟩
    intro e he e' he' heq
    rw [mem_singleton.mp he'] at heq
    exact hnot (heq ▸ he)
  · exact fun hd => ⟨(h.core.closed hd).1, fun c hc => mem_append_left _ ((h.core.closed hd).2 c hc)⟩
  · intro hmem
    rcases mem_append.mp hmem with hmem | hmem
    · exact h.core.destroyed hmem
    · cases mem_singleton.mp hmem
  · rw [hinstalled]
    intro other hother y hy
    obtain ⟨e, he, hfound'⟩ := hset.waiting.found other hother y hy
    refine ⟨e, he, fun hreg => ?_⟩
    obtain ⟨hseen, hnot'⟩ := hfound' hreg
    refine ⟨hseen, fun hmem => ?_⟩
    rcases mem_append.mp hmem with hmem | hmem
    · exact hnot' hmem
    · -- the same consent would be the same entry, of which no two installs have one envelope
      obtain ⟨hc, hid⟩ := Prod.mk.inj (mem_singleton.mp hmem)
      have hsame := hset.core.one y.entry x.entry e (f entry) he hobject (hc.trans (hconsent entry).symm)
      exact htask.alone x hx hregistered other hother y hy hsame hid
  · intro consentId i e hi he hmem
    rcases mem_append.mp hmem with hmem | hmem
    · exact hset.live consentId i e hi he hmem
    · cases mem_singleton.mp hmem

theorem Kept.complete (h : Kept v) {task : Task} {x : Install} (hx : task.install? = some x)
    (htask : Fresh v task) (answer : Vault.Answer)
    (htimely : ∀ entry, v.objects[x.entry]? = some entry →
      v.entries.get entry.consent.consentId = some x.entry
        ∧ answer.now < entry.consent.expiresAt) : Kept (v.complete x answer) := by
  unfold Vault.complete
  split
  · exact h
  · rename_i entry hentry
    obtain ⟨hget, hnow⟩ := htimely entry hentry
    split
    · exact h.giveUp hx htask _
    · have hallowed : ∀ accepted, Allowed v.log (.installKey entry.consent x.contextId
          x.envelope.keyId x.envelope.envelopeId answer.now accepted) := by
        refine fun _ => ⟨h.live _ _ entry hget hentry, fun hmem => ?_, hnow⟩
        rw [(h.core.closed (h.core.destroyed hmem)).1] at hget
        cases hget
      split
      · rename_i hrefused
        rw [hrefused]
        have hcalled := h.refused (hallowed false)
        refine hcalled.giveUp hx ⟨htask.known, ?_, htask.alone⟩ _
        intro y hy
        rw [installed_refused]
        exact htask.found y hy
      · rename_i haccepted
        rw [Bool.not_eq_false] at haccepted
        rw [haccepted]
        have hdone := h.accepted hx htask hentry hget (hallowed true) (fun e => { e with
          contexts := if x.contextId ∈ e.contexts then e.contexts else e.contexts ++ [x.contextId] })
          (fun _ => rfl) (fun _ => rfl) ?_ ?_
        · refine ⟨hdone.core.emit ?_, hdone.waiting.emit ?_, hdone.live.emit ?_⟩
          · simp [plain]
          · simp [plain]
          · simp
        · intro e contextId hmem
          split
          · exact hmem
          · exact mem_append_left _ hmem
        · split
          · assumption
          · exact mem_append_right _ (mem_singleton_self _)

/-! ### Revoking -/

theorem Core.mark (h : Core v) (p : Consent → Bool) : Core (v.mark p) := by
  refine h.emit fun a ha => ?_
  obtain ⟨consent, -, rfl⟩ := mem_map.mp ha
  trivial

theorem Waiting.mark (h : Waiting v) (p : Consent → Bool) : Waiting (v.mark p) := by
  refine h.emit fun a ha => ?_
  obtain ⟨consent, -, rfl⟩ := mem_map.mp ha
  trivial

theorem mem_mark {p : Consent → Bool} {consent : Consent} : .revoked consent ∈ (v.mark p).log
      ↔ .revoked consent ∈ v.log ∨ consent ∈ v.known ∧ p consent = true := by
  simp [mark, emit]

theorem revoke_cases (h : Core v) (consentId reasonCode : String) (now : Int) :
    v.entries.get consentId = none ∧ v.revoke consentId reasonCode now = v
      ∨ ∃ i entry, v.entries.get consentId = some i ∧ v.objects[i]? = some entry
        ∧ entry.consent.consentId = consentId ∧ v.revoke consentId reasonCode now
          = { (v.setEntry i fun e => { e with contexts := [], seen := [] }).emit
                (entry.contexts.map .clearContext
                  ++ [.audit .consentRevoked entry.consent reasonCode now]) with
              timers := v.timers.filter fun j => decide (j ≠ i)
              entries := v.entries.erase consentId } := by
  unfold revoke
  cases hget : v.entries.get consentId with
  | none => exact .inl ⟨rfl, rfl⟩
  | some i =>
      obtain ⟨entry, hentry, hid⟩ := h.refs consentId i hget
      simp only [hentry]
      exact .inr ⟨i, entry, rfl, hentry, hid, rfl⟩

/-- What is left when the entries of these ids are revoked. -/
structure Ends (v w : Vault) (ids : List String) : Prop where
  entries : ∀ id i, w.entries.get id = some i ↔ id ∉ ids ∧ v.entries.get id = some i
  objects : ∀ (i : Nat) (entry : Entry), w.objects[i]? = some entry →
    ∃ entry', v.objects[i]? = some entry' ∧ entry.consent = entry'.consent
  known : w.known = v.known
  revoked : ∀ consent, .revoked consent ∈ w.log ↔ .revoked consent ∈ v.log

/-- **A revocation** of a consent that is marked. -/
theorem revoke_core (h : Core v) (hwaiting : Waiting v) {consentId : String}
    (hmarked : ∀ i entry, v.entries.get consentId = some i → v.objects[i]? = some entry →
      .revoked entry.consent ∈ v.log) (reasonCode : String) (now : Int) :
    Core (v.revoke consentId reasonCode now) ∧ Waiting (v.revoke consentId reasonCode now)
      ∧ Ends v (v.revoke consentId reasonCode now) [consentId] := by
  rcases revoke_cases h consentId reasonCode now with
    ⟨hnone, heq⟩ | ⟨i, entry, hget, hentry, hid, heq⟩ <;> rw [heq]
  · refine ⟨h, hwaiting, fun id i => ?_, fun j e hj => ⟨e, hj, rfl⟩, rfl, fun _ => Iff.rfl⟩
    refine ⟨fun hget => ⟨fun hmem => ?_, hget⟩, fun hget => hget.2⟩
    rw [mem_singleton.mp hmem, hnone] at hget
    cases hget
  · have hrevoked := hmarked i entry hget hentry
    have hold : ∀ (j : Nat) (e : Entry), (v.setEntry i fun e => { e with contexts := [], seen := []
        }).objects[j]? = some e →
        ∃ e', v.objects[j]? = some e' ∧ e.consent = e'.consent ∧ (j ≠ i → e = e') := by
      intro j e hj
      rw [objects_setEntry] at hj
      obtain ⟨e', he', rfl⟩ := map_eq_some_iff.mp hj
      refine ⟨e', he', ?_, fun hne => ?_⟩
      · split <;> rfl
      · rw [if_neg hne]
        rfl
    have hnew : ∀ (j : Nat) (e : Entry), v.objects[j]? = some e → ∃ e',
        (v.setEntry i fun e => { e with contexts := [], seen := [] }).objects[j]? = some e'
        ∧ e'.consent = e.consent ∧ (j ≠ i → e' = e) := by
      intro j e hj
      rw [objects_setEntry, hj]
      refine ⟨_, rfl, ?_, fun hne => ?_⟩
      · split <;> rfl
      · rw [if_neg hne]
        rfl
    have hgets : ∀ id j, (v.entries.erase consentId).get id = some j →
        id ≠ consentId ∧ v.entries.get id = some j := by
      intro id j hj
      rw [get_erase] at hj
      split at hj
      · cases hj
      · rename_i hne
        exact ⟨hne, hj⟩
    have hother : ∀ id j, id ≠ consentId → v.entries.get id = some j → j ≠ i := by
      rintro id j hne hj rfl
      obtain ⟨e, he, hid'⟩ := h.refs id j hj
      cases hentry.symm.trans he
      exact hne (hid'.symm.trans hid)
    have hplain : ∀ a ∈ entry.contexts.map clearContext
        ++ [audit .consentRevoked entry.consent reasonCode now],
        a.installed? = none ∧ (∀ before, Allowed before a) ∧ a ≠ .destroyed
          ∧ ∀ c, a ≠ .revoked c := by
      intro a ha
      rcases mem_append.mp ha with ha | ha
      · obtain ⟨contextId, -, rfl⟩ := mem_map.mp ha
        refine ⟨rfl, fun _ => trivial, ?_, fun c => ?_⟩ <;> exact fun heq => by cases heq
      · obtain rfl := mem_singleton.mp ha
        refine ⟨rfl, fun _ => trivial, ?_, fun c => ?_⟩ <;> exact fun heq => by cases heq
    have hinstalled : (v.log ++ (entry.contexts.map clearContext
        ++ [audit .consentRevoked entry.consent reasonCode now])).filterMap installed?
        = v.installed := by
      rw [filterMap_append, filterMap_eq_nil_iff.mpr fun a ha => (hplain a ha).1, append_nil]
      rfl
    refine ⟨⟨?_, ?_, ?_, ?_, ?_, ?_, ?_, ?_, ?_, ?_⟩, ⟨hwaiting.known, ?_, ?_⟩, ?_, ?_, rfl, ?_⟩
    · intro id j hj
      obtain ⟨-, hj⟩ := hgets id j hj
      obtain ⟨e, he, hid'⟩ := h.refs id j hj
      obtain ⟨e', he', hc, -⟩ := hnew j e he
      exact ⟨e', he', (congrArg Consent.consentId hc).trans hid'⟩
    · intro j e hj
      obtain ⟨e', he', hc, -⟩ := hold j e hj
      rw [hc]
      by_cases heq : e'.consent.consentId = consentId
      · right
        refine mem_append_left _ ((h.gone j e' he').elim (fun hj => ?_) id)
        exact hmarked j e' (heq ▸ hj) he'
      · refine (h.gone j e' he').imp (fun hj => ?_) (mem_append_left _)
        rw [get_erase_of_ne _ heq]
        exact hj
    · intro j k e e' hj hk hsame
      obtain ⟨e₁, hj₁, hc₁, -⟩ := hold j e hj
      obtain ⟨e₂, hk₂, hc₂, -⟩ := hold k e' hk
      exact h.one j k e₁ e₂ hj₁ hk₂ (hc₁.symm.trans (hsame.trans hc₂))
    · intro j e hj
      obtain ⟨e', he', hc, -⟩ := hold j e hj
      rw [hc]
      exact h.known j e' he'
    · exact h.calls.append fun a ha => (hplain a ha).2.1
    · intro consent contextId keyId envelopeId at' hlast
      rcases hlast.append with hmem | ⟨hclear, hlast⟩
      · have := (hplain _ hmem).1
        cases this
      · obtain ⟨j, e, hj, he, hc, hmem⟩ := h.held consent contextId keyId envelopeId at' hlast
        have hne : consent.consentId ≠ consentId := by
          rintro rfl
          cases hget.symm.trans hj
          cases hentry.symm.trans he
          exact hclear (mem_append_left _ (mem_map_of_mem hmem))
        obtain ⟨e', he', hc', hkeeps⟩ := hnew j e he
        refine ⟨j, e', ?_, he', hc'.trans hc, hkeeps (hother _ j hne hj) ▸ hmem⟩
        rw [get_erase_of_ne _ hne]
        exact hj
    · show ∀ e ∈ (v.log ++ _).filterMap installed?, _
      rw [hinstalled]
      intro e he
      by_cases hmem : .revoked e.1 ∈ v.log
      · exact .inl (mem_append_left _ hmem)
      · obtain ⟨j, e', he', hc, hseen⟩ := (h.used e he).resolve_left hmem
        right
        obtain ⟨e'', he'', hc', hkeeps⟩ := hnew j e' he'
        refine ⟨j, e'', he'', hc'.trans hc, ?_⟩
        rw [hkeeps]
        · exact hseen
        · rintro rfl
          cases hentry.symm.trans he'
          exact hmem (hc ▸ hrevoked)
    · show ((v.log ++ _).filterMap installed?).Nodup
      rw [hinstalled]
      exact h.once
    · intro hdestroyed
      refine ⟨fun id => ?_, fun c hc => mem_append_left _ ((h.closed hdestroyed).2 c hc)⟩
      rw [get_erase, (h.closed hdestroyed).1, ite_self]
    · intro hmem
      rcases mem_append.mp hmem with hmem | hmem
      · exact h.destroyed hmem
      · exact absurd rfl (hplain _ hmem).2.2.1
    · show ∀ task ∈ v.tasks, ∀ x, task.install? = some x → ∃ entry', _
        ∧ (_ → _ ∧ (_, _) ∉ (v.log ++ _).filterMap installed?)
      rw [hinstalled]
      intro task htask x hx
      obtain ⟨e, he, hfound⟩ := hwaiting.found task htask x hx
      obtain ⟨e', he', hc, hkeeps⟩ := hnew _ e he
      refine ⟨e', he', ?_⟩
      rintro ⟨id, hj⟩
      obtain ⟨hne, hj⟩ := hgets id _ hj
      rw [hkeeps (hother id _ hne hj)]
      exact hfound ⟨id, hj⟩
    · refine hwaiting.apart.imp fun hapart x y hx hy hsame hreg => ?_
      obtain ⟨id, hj⟩ := hreg
      exact hapart x y hx hy hsame ⟨id, (hgets id _ hj).2⟩
    · intro id j
      rw [mem_singleton]
      refine ⟨hgets id j, fun hj => ?_⟩
      rw [get_erase_of_ne _ hj.1]
      exact hj.2
    · intro j e hj
      obtain ⟨e', he', hc, -⟩ := hold j e hj
      exact ⟨e', he', hc⟩
    · intro c
      show _ ∈ v.log ++ _ ↔ _
      rw [mem_append]
      exact ⟨fun hmem => hmem.elim id fun hmem => absurd rfl ((hplain _ hmem).2.2.2 c), .inl⟩

theorem revokeEach_core : ∀ (ids : List String) {v : Vault}, Core v → Waiting v →
    (∀ id ∈ ids, ∀ i entry, v.entries.get id = some i → v.objects[i]? = some entry →
      .revoked entry.consent ∈ v.log) → ∀ (reasonCode : String) (now : Int),
    Core (v.revokeEach ids reasonCode now) ∧ Waiting (v.revokeEach ids reasonCode now)
      ∧ Ends v (v.revokeEach ids reasonCode now) ids
  | [], v, h, hwaiting, _, _, _ =>
      ⟨h, hwaiting, fun _ _ => ⟨fun hget => ⟨not_mem_nil, hget⟩, And.right⟩,
        fun i entry hi => ⟨entry, hi, rfl⟩, rfl, fun _ => Iff.rfl⟩
  | id :: ids, v, h, hwaiting, hmarked, reasonCode, now => by
      obtain ⟨hcore, hwait, hends⟩ :=
        revoke_core h hwaiting (hmarked id mem_cons_self) reasonCode now
      obtain ⟨hcore', hwait', hends'⟩ := revokeEach_core ids hcore hwait (by
        intro k hk i entry hget hi
        obtain ⟨-, hget⟩ := (hends.entries k i).mp hget
        obtain ⟨entry', hi', hc⟩ := hends.objects i entry hi
        rw [hc]
        exact (hends.revoked _).mpr (hmarked k (mem_cons_of_mem _ hk) i entry' hget hi'))
        reasonCode now
      refine ⟨hcore', hwait', fun k i => ?_, fun i entry hi => ?_, hends'.known.trans hends.known,
        fun c => (hends'.revoked c).trans (hends.revoked c)⟩
      · show ((v.revoke id reasonCode now).revokeEach ids reasonCode now).entries.get k = some i ↔ _
        rw [hends'.entries, hends.entries, mem_singleton, mem_cons, not_or]
        constructor
        · rintro ⟨hmem, hne, hget⟩
          exact ⟨⟨hne, hmem⟩, hget⟩
        · rintro ⟨⟨hne, hmem⟩, hget⟩
          exact ⟨hmem, hne, hget⟩
      · obtain ⟨entry', hi', hc⟩ := hends'.objects i entry hi
        obtain ⟨entry'', hi'', hc'⟩ := hends.objects i entry' hi'
        exact ⟨entry'', hi'', hc.trans hc'⟩

/-- The consents with a property are revoked, and so are their entries. -/
theorem Kept.revokeEach (h : Kept v) (p : Consent → Bool) (ids : List String)
    (hids : ∀ id i entry, v.entries.get id = some i → v.objects[i]? = some entry →
      (id ∈ ids ↔ p entry.consent = true)) (reasonCode : String) (now : Int) :
    Kept ((v.mark p).revokeEach ids reasonCode now)
      ∧ Ends (v.mark p) ((v.mark p).revokeEach ids reasonCode now) ids := by
  obtain ⟨hcore, hwaiting, hends⟩ := revokeEach_core ids (h.core.mark p) (h.waiting.mark p) (by
    intro id hid i entry hget hi
    exact mem_mark.mpr (.inr ⟨h.core.known i entry hi, (hids id i entry hget hi).mp hid⟩))
    reasonCode now
  refine ⟨⟨hcore, hwaiting, fun id i entry hget hi hmem => ?_⟩, hends⟩
  obtain ⟨hid, hget⟩ := (hends.entries id i).mp hget
  obtain ⟨entry', hi', hc⟩ := hends.objects i entry hi
  rw [hc] at hmem
  rcases mem_mark.mp ((hends.revoked _).mp hmem) with hmem | ⟨-, hp⟩
  · exact h.live id i entry' hget hi' hmem
  · exact hid ((hids id i entry' hget hi').mpr hp)

theorem mem_matching {p : Consent → Bool} {id : String} {i : Nat} {entry : Entry}
    (hget : v.entries.get id = some i) (hi : v.objects[i]? = some entry) :
    id ∈ v.matching p ↔ p entry.consent = true := by
  have hentry : v.entry? id = some entry := by rw [Vault.entry?, hget, bind_some, hi]
  rw [matching, mem_filter, hentry, any_some]
  exact and_iff_right (mem_keys_iff.mpr ⟨i, hget⟩)

theorem Kept.revokeMatching (h : Kept v) (p : Consent → Bool) (reasonCode : String) (now : Int) :
    Kept ((v.mark p).revokeEach ((v.mark p).matching p) reasonCode now) :=
  (h.revokeEach p (v.matching p) (fun _ _ _ hget hi => mem_matching hget hi) reasonCode now).1

theorem Kept.revoke (h : Kept v) (consentId reasonCode : String) (now : Int) :
    Kept ((v.mark fun c => c.consentId == consentId).revoke consentId reasonCode now) := by
  refine (h.revokeEach (fun c => c.consentId == consentId) [consentId] ?_ reasonCode now).1
  intro id i entry hget hi
  obtain ⟨entry', hi', hid⟩ := h.core.refs id i hget
  cases hi.symm.trans hi'
  rw [mem_singleton, beq_iff_eq, hid]

theorem Kept.destroy (h : Kept v) (now : Int) : Kept ((v.mark fun _ => true).destroy now) := by
  obtain ⟨hkept, hends⟩ := h.revokeEach (fun _ => true) v.entries.keys (by
    intro id i entry hget _
    exact iff_of_true (mem_keys_iff.mpr ⟨i, hget⟩) rfl) "destroyed" now
  have hnone : ∀ id, ((v.mark fun _ => true).revokeEach v.entries.keys "destroyed" now).entries.get id
      = none := by
    intro id
    by_contra hsome
    obtain ⟨i, hget⟩ := ne_none_iff_exists'.mp hsome
    obtain ⟨hid, hget⟩ := (hends.entries id i).mp hget
    exact hid (mem_keys_iff.mpr ⟨i, hget⟩)
  have hinstalled : (((v.mark fun _ => true).revokeEach v.entries.keys "destroyed" now).emit
      [.destroyed]).installed
      = ((v.mark fun _ => true).revokeEach v.entries.keys "destroyed" now).installed := by
    rw [installed_emit]
    exact append_nil _
  obtain ⟨hcore, hwaiting, hlive⟩ := hkept
  refine ⟨⟨hcore.refs, ?_, hcore.one, hcore.known, hcore.calls.concat trivial, ?_, ?_, ?_, ?_,
    fun _ => rfl⟩, ⟨hwaiting.known, ?_, hwaiting.apart⟩, hlive.emit fun c hmem => ?_⟩
  · exact fun i entry hi => (hcore.gone i entry hi).imp_right (mem_append_left _)
  · intro c contextId keyId envelopeId at' hlast
    rcases hlast.concat with heq | ⟨-, hlast⟩
    · cases heq
    · exact hcore.held c contextId keyId envelopeId at' hlast
  · intro e he
    exact (hcore.used e (hinstalled ▸ he)).imp_left (mem_append_left _)
  · exact hinstalled ▸ hcore.once
  · refine fun _ => ⟨hnone, fun c hc => mem_append_left _ ((hends.revoked c).mpr ?_)⟩
    exact mem_mark.mpr (.inr ⟨hends.known ▸ hc, rfl⟩)
  · intro task htask x hx
    obtain ⟨entry, hi, hfound⟩ := hwaiting.found task htask x hx
    exact ⟨entry, hi, fun hreg => ⟨(hfound hreg).1, hinstalled ▸ (hfound hreg).2⟩⟩
  · cases mem_singleton.mp hmem

theorem Kept.goOn (h : Kept v) {task : Task} (htask : Fresh v task) (answer : Vault.Answer)
    (htimely : OnTime v answer task) : Kept (v.goOn answer task) := by
  cases task with
  | generateKey consent now =>
      simp only [Vault.goOn]
      split
      · exact h.fail _
      · exact h.suspend ⟨htask.known, htask.found, htask.alone⟩
  | exportKey consent now agreementKeyId =>
      simp only [Vault.goOn]
      split
      · exact h.fail _
      · exact h.register (htask.known consent rfl) htimely.1 htimely.2 now agreementKeyId _
  | importKey x =>
      simp only [Vault.goOn]
      split
      · exact h.giveUp rfl htask _
      · exact h.suspend ⟨htask.known, htask.found, htask.alone⟩
  | deriveKey x =>
      simp only [Vault.goOn]
      split
      · exact h.giveUp rfl htask _
      · exact h.suspend ⟨htask.known, htask.found, htask.alone⟩
  | decrypt x =>
      simp only [Vault.goOn]
      split
      · exact h.giveUp rfl htask _
      · exact h.complete rfl htask answer htimely

/-- **Step.** -/
theorem Kept.step {w : Vault} {e : Event} (h : Kept v) (hstep : Vault.Step v e w)
    (htimely : Timely v e) : Kept w := by
  subst hstep
  cases e with
  | authorize consent now => exact h.authorize consent now
  | install envelope consent contextId now => exact h.install envelope consent contextId now
  | resume i answer =>
      simp only [Vault.next]
      split
      · exact h
      · rename_i task hi
        obtain ⟨hkept, htask⟩ := h.take hi
        refine hkept.goOn htask answer ?_
        have honTime := htimely task hi
        cases task <;> exact honTime
  | revoke consentId reasonCode now => exact h.revoke consentId reasonCode now
  | revokeProgram programId now => exact h.revokeMatching _ _ now
  | revokeRoom roomId now => exact h.revokeMatching _ _ now
  | retainEpochs roomId roomEpoch programId programEpoch now => exact h.revokeMatching _ _ now
  | revokeExpired now => exact h.revokeMatching _ _ now
  | expiry i =>
      simp only [Vault.next]
      split
      · exact h
      · rename_i entry _
        split
        · exact h
        · have htimers : Kept { v with timers := v.timers.erase i } :=
            ⟨⟨h.core.refs, h.core.gone, h.core.one, h.core.known, h.core.calls, h.core.held,
              h.core.used, h.core.once, h.core.closed, h.core.destroyed⟩,
              ⟨h.waiting.known, h.waiting.found, h.waiting.apart⟩, h.live⟩
          exact htimers.revoke entry.consent.consentId "expired" entry.consent.expiresAt
  | destroy now => exact h.destroy now

end Steps

def sampleConsent : Consent :=
  ⟨"cns_aaaaaaaaaaaaaaaa", "tn_aaaaaaaaaaaaaaaa", "room-aaaa", 1, "prg_aaaaaaaaaaaaaaaa", 1,
    "sub_aaaaaaaaaaaaaaaa", "pkr_aaaaaaaaaaaaaaaa", "dev_aaaaaaaaaaaaaaaa", "src_aaaaaaaaaaaaaaaa",
    .camera, 0, 60000⟩

def sampleJwk : Jwk :=
  ⟨String.ofList (replicate 43 'A'), String.ofList (replicate 43 'B')⟩

def sampleEnvelope : Envelope :=
  ⟨"eeeeeeeeeeeeeeee", "cns_aaaaaaaaaaaaaaaa", "tn_aaaaaaaaaaaaaaaa", "room-aaaa", 1,
    "prg_aaaaaaaaaaaaaaaa", 1, "sub_aaaaaaaaaaaaaaaa", "pkr_aaaaaaaaaaaaaaaa",
    "dev_aaaaaaaaaaaaaaaa", "src_aaaaaaaaaaaaaaaa", .camera, "0011223344556677",
    "kkkkkkkkkkkkkkkk", sampleJwk, 0, 50000, String.ofList (replicate 16 'A'),
    String.ofList (replicate 43 'A')⟩

def sampleAnswer : Vault.Answer :=
  ⟨true, "kkkkkkkkkkkkkkkk", sampleJwk, replicate 16 7, true, 1000⟩

def sampleAuthorized : Vault :=
  ((empty.next (.authorize sampleConsent 0)).next (.resume 0 sampleAnswer)).next
    (.resume 0 sampleAnswer)

/-- A key is about to be installed. -/
def sampleDecrypting : Vault :=
  ((sampleAuthorized.next (.install sampleEnvelope sampleConsent "broadcast:camera" 1000)).next
    (.resume 0 sampleAnswer)).next (.resume 0 sampleAnswer)

theorem timely_resume {v : Vault} {i : Nat} {answer : Vault.Answer} {task : Task}
    (hi : v.tasks[i]? = some task) (h : OnTime v answer task) : Timely v (.resume i answer) := by
  intro other hother
  cases hi.symm.trans hother
  exact h

theorem sampleDecrypting_run : Runs.Path (Guarded Vault.Step Timely) empty
      [.authorize sampleConsent 0, .resume 0 sampleAnswer, .resume 0 sampleAnswer,
        .install sampleEnvelope sampleConsent "broadcast:camera" 1000, .resume 0 sampleAnswer,
        .resume 0 sampleAnswer] sampleDecrypting := by
  have hgenerate : ((empty.next (.authorize sampleConsent 0))).tasks[0]?
      = some (.generateKey sampleConsent 0) := by decide
  have hexport : ((empty.next (.authorize sampleConsent 0)).next (.resume 0 sampleAnswer)).tasks[0]?
      = some (.exportKey sampleConsent 0 "kkkkkkkkkkkkkkkk") := by decide
  have himport : (sampleAuthorized.next
      (.install sampleEnvelope sampleConsent "broadcast:camera" 1000)).tasks[0]?
      = some (.importKey ⟨0, sampleEnvelope, "broadcast:camera", 1000⟩) := by decide
  have hderive : ((sampleAuthorized.next
      (.install sampleEnvelope sampleConsent "broadcast:camera" 1000)).next
        (.resume 0 sampleAnswer)).tasks[0]?
      = some (.deriveKey ⟨0, sampleEnvelope, "broadcast:camera", 1000⟩) := by decide
  refine .cons ⟨rfl, trivial⟩ (.cons ⟨rfl, timely_resume hgenerate trivial⟩
    (.cons ⟨rfl, timely_resume hexport ⟨by decide +kernel, by decide⟩⟩
      (.cons ⟨rfl, trivial⟩ (.cons ⟨rfl, timely_resume himport trivial⟩
        (.cons ⟨rfl, timely_resume hderive trivial⟩ (.nil _))))))

end DecryptLifecycle

end WebrtcMinimize
