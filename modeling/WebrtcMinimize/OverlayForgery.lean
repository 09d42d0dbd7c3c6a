import WebrtcMinimize.OverlayDelivery

/-!
# Forged overlay traffic

Two runs: a packet is received as the state has it, or after a packet of
another origin. A call touches, besides the marks, only what is kept for the
origin of its packet (`receive_touched`), and what a call returns depends on
what is kept for its own packet and on its mark (`receive_alike`). The mark has
no origin in its key: it is the one way in which the first packet shows
(`outcome_kept_iff`), and it is set before the decryption, so a forged packet
sets it as well.
-/

namespace WebrtcMinimize

open Checks

namespace Overlay

open State Option KeyedMap

variable {C : Crypto} {s t u : State C} {packet : OverlayPacket}

/-! ## What a call touches -/

/-- Only what is kept for the origin of a packet, and the marks, may differ. -/
structure Touched (packet : OverlayPacket) (s t : State C) : Prop where
  own : t.ownPeerId = s.ownPeerId
  lifetime : t.lifetime = s.lifetime
  keyPair : t.keyPair = s.keyPair
  peerKeys : t.peerKeys = s.peerKeys
  peerImports : t.peerImports = s.peerImports
  derivedKeys : ∀ peerId ≠ packet.originPeerId,
    t.derivedKeys.get peerId = s.derivedKeys.get peerId
  assemblies : ∀ slot ≠ packet.assemblyKey, t.assemblies.get slot = s.assemblies.get slot

theorem Touched.refl (packet : OverlayPacket) (s : State C) : Touched packet s s :=
  ⟨rfl, rfl, rfl, rfl, rfl, fun _ _ => rfl, fun _ _ => rfl⟩

theorem Touched.trans (h₁ : Touched packet s t) (h₂ : Touched packet t u) : Touched packet s u :=
  ⟨h₂.own.trans h₁.own, h₂.lifetime.trans h₁.lifetime, h₂.keyPair.trans h₁.keyPair,
    h₂.peerKeys.trans h₁.peerKeys, h₂.peerImports.trans h₁.peerImports,
    fun peerId hne => (h₂.derivedKeys peerId hne).trans (h₁.derivedKeys peerId hne),
    fun slot hne => (h₂.assemblies slot hne).trans (h₁.assemblies slot hne)⟩

theorem Touched.mark (packet : OverlayPacket) (s : State C) : Touched packet s (s.mark packet) :=
  ⟨rfl, rfl, rfl, rfl, rfl, fun _ _ => rfl, fun _ _ => rfl⟩

/-- One part of a call touches what is of its packet, and goes on with it. -/
theorem advance_touched (s : State C) (w : Waiting C) : Touched w.call.packet s (s.advance w).1
      ∧ ∀ w', (s.advance w).2 = .await w' → w'.call.packet = w.call.packet := by
  cases w with
  | digest call =>
      rw [advance]
      rcases claim_cases s call with ⟨t, result, hclaim, -, rfl | rfl⟩ | ⟨key, cached, hclaim, -⟩
      · rw [hclaim]
        exact ⟨Touched.refl _ _, fun w' h => by cases h⟩
      · rw [hclaim]
        exact ⟨Touched.mark _ _, fun w' h => by cases h⟩
      · rw [hclaim]
        refine ⟨Touched.mark _ _, fun w' h => ?_⟩
        cases h
        rfl
  | key call cached key =>
      rw [advance]
      rcases derived_cases s call cached key with ⟨result, hderived, -⟩ | ⟨t, hderived, rfl | rfl⟩
      · rw [hderived]
        exact ⟨Touched.refl _ _, fun w' h => by cases h⟩
      · rw [hderived]
        refine ⟨Touched.refl _ _, fun w' h => ?_⟩
        cases h
        rfl
      · rw [hderived]
        refine ⟨⟨rfl, rfl, rfl, rfl, rfl, fun peerId hne => ?_, fun _ _ => rfl⟩, fun w' h => ?_⟩
        · exact get_set_of_ne _ _ hne
        · cases h
          rfl
  | cleartext call key =>
      obtain ⟨⟨assemblies, hstate, hslots⟩, -⟩ := finish_cases s call key
      rw [advance, hstate]
      exact ⟨⟨rfl, rfl, rfl, rfl, rfl, fun _ _ => rfl, hslots⟩, fun w' h => by cases h⟩

theorem goOn_touched (parts : Nat) (w : Waiting C) :
    Touched w.call.packet s (s.goOn parts (.await w)).1 := by
  induction parts generalizing s w with
  | zero => exact Touched.refl _ _
  | succ parts ih =>
      obtain ⟨htouched, hnext⟩ := advance_touched s w
      rw [goOn]
      cases hprogress : (s.advance w).2 with
      | done result =>
          cases parts with
          | zero => exact htouched
          | succ parts => exact htouched
      | await w' =>
          rw [← hnext w' hprogress] at htouched ⊢
          exact htouched.trans (ih w')

/-! ## What a call depends on -/

/-- Two states that agree on what is kept for a packet. -/
structure Alike (packet : OverlayPacket) (s t : State C) : Prop where
  own : t.ownPeerId = s.ownPeerId
  derive : t.derive packet.originPeerId = s.derive packet.originPeerId
  cached : (t.derivedKeys.get packet.originPeerId).isSome
    = (s.derivedKeys.get packet.originPeerId).isSome
  current : t.current packet.originPeerId = s.current packet.originPeerId
  seen : t.seen.get packet.replayKey = s.seen.get packet.replayKey
  assembly : t.assemblies.get packet.assemblyKey = s.assemblies.get packet.assemblyKey

theorem Alike.mark (h : Alike packet s t) : Alike packet (s.mark packet) (t.mark packet) :=
  ⟨h.own, h.derive, h.cached, h.current,
    (get_set_self _ _ _).trans (get_set_self _ _ _).symm, h.assembly⟩

theorem Alike.claim {call : Call} (h : Alike call.packet s t) :
    (t.claim call).2 = (s.claim call).2 ∧ ∀ w, (s.claim call).2 = .await w →
      w.call = call ∧ Alike call.packet (s.claim call).1 (t.claim call).1 := by
  simp only [State.claim]
  rw [h.current, h.seen]
  split
  · exact ⟨rfl, fun w hw => by cases hw⟩
  · split
    · exact ⟨rfl, fun w hw => by cases hw⟩
    · split
      · exact ⟨rfl, fun w hw => by cases hw⟩
      · rw [h.mark.own, h.mark.derive, show ((t.mark call.packet).derivedKeys.get
          call.packet.originPeerId).isSome = ((s.mark call.packet).derivedKeys.get
          call.packet.originPeerId).isSome from h.cached]
        split
        · split
          · exact ⟨rfl, fun w hw => by cases hw⟩
          · exact ⟨rfl, fun w hw => by cases hw⟩
        · split
          · exact ⟨rfl, fun w hw => by cases hw⟩
          · refine ⟨rfl, fun w hw => ?_⟩
            cases hw
            exact ⟨rfl, h.mark⟩

theorem Alike.derived {call : Call} {cached : Bool} {key : C.Key} (h : Alike call.packet s t) :
    (t.derived call cached key).2 = (s.derived call cached key).2
      ∧ ∀ w, (s.derived call cached key).2 = .await w →
        w.call = call ∧ Alike call.packet (s.derived call cached key).1
          (t.derived call cached key).1 := by
  rw [State.derived, State.derived, h.current]
  split
  · exact ⟨rfl, fun w hw => by cases hw⟩
  · refine ⟨rfl, fun w hw => ?_⟩
    cases hw
    refine ⟨rfl, ?_⟩
    cases cached with
    | true => exact h
    | false =>
        refine ⟨h.own, ?_, ?_, h.current, h.seen, h.assembly⟩
        · exact (derive_set _ _ _ _).trans ((if_pos rfl).trans
            ((derive_set _ _ _ _).trans (if_pos rfl)).symm)
        · exact congrArg isSome ((get_set_self _ _ _).trans (get_set_self _ _ _).symm)

theorem Alike.finish {call : Call} {key : C.Key} (h : Alike call.packet s t) :
    (t.finish call key).2 = (s.finish call key).2 := by
  have hsettle : ∀ assembly, (t.settle call.packet assembly).2 = (s.settle call.packet assembly).2 := by
    intro assembly
    rw [settle, settle]
    split
    · rfl
    · split
      · rfl
      · split <;> rfl
  rw [State.finish, State.finish, h.current]
  split
  · rfl
  · split
    · rfl
    · rw [assemble, assemble, h.assembly, place, place]
      split
      · rfl
      · exact hsettle _

theorem goOn_alike {parts : Nat} {w : Waiting C} (h : Alike w.call.packet s t) :
    (t.goOn parts (.await w)).2 = (s.goOn parts (.await w)).2 := by
  have hdone : ∀ (u : State C) parts result, (u.goOn parts (.done result)).2 = .done result := by
    intro u parts result
    cases parts <;> rfl
  induction parts generalizing s t w with
  | zero => rfl
  | succ parts ih =>
      rw [goOn, goOn]
      have hstep : (t.advance w).2 = (s.advance w).2 ∧ ∀ w', (s.advance w).2 = .await w' →
          Alike w'.call.packet (s.advance w).1 (t.advance w).1 := by
        cases w with
        | digest call =>
            refine ⟨h.claim.1, fun w' hw' => ?_⟩
            obtain ⟨hcall, halike⟩ := h.claim.2 w' hw'
            rw [hcall]
            exact halike
        | key call cached key =>
            refine ⟨h.derived.1, fun w' hw' => ?_⟩
            obtain ⟨hcall, halike⟩ := h.derived.2 w' hw'
            rw [hcall]
            exact halike
        | cleartext call key =>
            exact ⟨congrArg Progress.done h.finish, fun w' hw' => by cases hw'⟩
      rw [hstep.1]
      cases hprogress : (s.advance w).2 with
      | done result => rw [hdone, hdone]
      | await w' => exact ih (hstep.2 w' hprogress)

/-! ## The mark -/

/-- The call looks at the marks: it is read, its epochs are current, and its
path is of members and leads here. -/
def State.admits (s : State C) (raw : RawPacket) (previousPeerId : String)
    (context : ReceiveContext) (now : Int) (packet : OverlayPacket) : Prop :=
  parseOverlayPacket raw now = some packet
    ∧ packet.membershipEpoch = context.membershipEpoch
    ∧ (packet.path.length = 2 ∨ packet.routeEpoch = context.routeEpoch)
    ∧ (∀ peerId ∈ packet.path, peerId ∈ context.memberPeerIds)
    ∧ packet.path[packet.hop]? = some s.ownPeerId
    ∧ packet.path[packet.hop - 1]? = some previousPeerId

/-- The call sets the mark: there is none that has not expired, and the
digest is that of the ciphertext. -/
def State.marks (s : State C) (raw : RawPacket) (previousPeerId : String)
    (context : ReceiveContext) (now : Int) (packet : OverlayPacket) : Prop :=
  s.admits raw previousPeerId context now packet
    ∧ (s.prune now).seen.get packet.replayKey = none
    ∧ ∃ ciphertext, decode packet.ciphertext = some ciphertext ∧ sha256 ciphertext = packet.digest

variable {raw : RawPacket} {previousPeerId : String} {context : ReceiveContext} {now : Int}

theorem begin_not_admitted (h : ∀ packet, ¬s.admits raw previousPeerId context now packet) :
    ∃ reason, s.begin raw previousPeerId context now = (s.prune now, .done (.drop reason))
      ∧ reason ≠ "replay" ∧ ∀ t : State C, t.ownPeerId = s.ownPeerId →
        t.begin raw previousPeerId context now = (t.prune now, .done (.drop reason)) := by
  simp only [begin]
  cases hparse : parseOverlayPacket raw now with
  | none => exact ⟨_, rfl, by decide, fun t ht => rfl⟩
  | some packet =>
      dsimp only
      by_cases hepochs : packet.membershipEpoch ≠ context.membershipEpoch
          ∨ (packet.path.length ≠ 2 ∧ packet.routeEpoch ≠ context.routeEpoch)
      · rw [if_pos hepochs]
        exact ⟨_, rfl, by decide, fun t ht => if_pos hepochs⟩
      · rw [if_neg hepochs]
        have hpath : (∃ peerId ∈ packet.path, peerId ∉ context.memberPeerIds)
            ∨ packet.path[packet.hop]? ≠ some s.ownPeerId
            ∨ packet.path[packet.hop - 1]? ≠ some previousPeerId := by
          by_contra hok
          simp only [not_or, not_exists, not_and, not_not] at hok hepochs
          refine h packet ⟨hparse, hepochs.1, ?_, hok.1, hok.2.1, hok.2.2⟩
          by_cases hlong : packet.path.length = 2
          · exact .inl hlong
          · exact .inr (hepochs.2 hlong)
        refine ⟨_, if_pos hpath, by decide, fun t ht => ?_⟩
        rw [if_neg hepochs, if_pos]
        rw [← ht] at hpath
        exact hpath

/-- Past the first checks a packet is a replay, or has no bytes, or its digest is awaited. -/
theorem begin_admitted (h : s.admits raw previousPeerId context now packet) :
    s.begin raw previousPeerId context now
      = if ((s.prune now).seen.get packet.replayKey).isSome then
          (s.prune now, .done (.drop "replay"))
        else
          (s.prune now, (decode packet.ciphertext).elim (.done (.throws "invalid_base64url"))
            fun ciphertext => .await
              (.digest ⟨packet, ciphertext, s.current packet.originPeerId⟩)) := by
  obtain ⟨hparse, hmembership, hroute, hmembers, hown, hprevious⟩ := h
  simp only [begin, hparse]
  rw [if_neg, if_neg]
  · split
    · rfl
    · split
      · rename_i hdecode
        rw [hdecode, elim_none]
      · rename_i ciphertext hdecode
        rw [hdecode, elim_some]
        rfl
  · rintro (⟨peerId, hmem, hout⟩ | hne | hne)
    · exact hout (hmembers peerId hmem)
    · exact hne hown
    · exact hne hprevious
  · rintro (hne | ⟨hlong, hne⟩)
    · exact hne hmembership
    · exact hroute.elim hlong hne

theorem seen_goOn {parts : Nat} {w : Waiting C} (hkey : w.key?.isSome = true) :
    (s.goOn parts (.await w)).1.seen = s.seen := by
  induction parts generalizing s w with
  | zero => rfl
  | succ parts ih =>
      rw [goOn]
      have hend : ∀ (u : State C) result, (u.goOn parts (.done result)).1 = u := by
        intro u result
        cases parts <;> rfl
      cases w with
      | digest call => cases hkey
      | key call cached key =>
          rw [advance]
          rcases derived_cases s call cached key with ⟨result, hderived, -⟩ | ⟨t, hderived, rfl | rfl⟩
          · rw [hderived, hend]
          · rw [hderived, ih rfl]
          · rw [hderived, ih rfl]
      | cleartext call key =>
          obtain ⟨⟨assemblies, hstate, -⟩, -⟩ := finish_cases s call key
          rw [advance, hend, hstate]

/-- A call with the right digest sets a mark that is not there, and does not
take its own packet for a replay. -/
theorem claim_marks (s : State C) (call : Call) (hdigest : sha256 call.ciphertext = call.packet.digest)
    (hcurrent : s.current call.packet.originPeerId = call.current)
    (hseen : s.seen.get call.packet.replayKey = none) :
    (s.claim call).1 = s.mark call.packet ∧
      ((∃ cached key, (s.claim call).2 = .await (.key call cached key)) ∨
        ∃ result, (s.claim call).2 = .done result ∧ result ≠ .drop "replay") := by
  have hunseen : ¬(s.seen.get call.packet.replayKey).isSome = true := by
    rw [hseen]
    decide
  simp only [claim]
  rw [if_neg (not_not.mpr hdigest), if_neg (not_not.mpr hcurrent), if_neg hunseen]
  split
  · split
    · exact ⟨rfl, .inr ⟨_, rfl, by decide⟩⟩
    · refine ⟨rfl, .inr ⟨_, rfl, ?_⟩⟩
      intro heq
      cases heq
  · split
    · exact ⟨rfl, .inr ⟨_, rfl, by decide⟩⟩
    · exact ⟨rfl, .inl ⟨_, _, rfl⟩⟩

theorem goOn_done (parts : Nat) (result : Result) : s.goOn parts (.done result) = (s, .done result) := by
  cases parts <;> rfl

theorem seen_receive_of_marks (h : s.marks raw previousPeerId context now packet) :
    (s.receive raw previousPeerId context now).1.seen = ((s.prune now).mark packet).seen := by
  obtain ⟨hadmits, hseen, ciphertext, hdecode, hdigest⟩ := h
  have hbegin := begin_admitted hadmits
  rw [hseen, if_neg (by decide), hdecode, elim_some] at hbegin
  simp only [receive, hbegin]
  rw [goOn, advance]
  obtain ⟨hmark, ⟨cached, key, hawait⟩ | ⟨result, hresult, -⟩⟩ :=
    claim_marks (s.prune now) ⟨packet, ciphertext, s.current packet.originPeerId⟩ hdigest rfl hseen
  · rw [hawait, hmark]
    exact seen_goOn rfl
  · rw [hresult, hmark, goOn_done]

theorem seen_receive_of_not_marks (h : ∀ packet, ¬s.marks raw previousPeerId context now packet) :
    (s.receive raw previousPeerId context now).1.seen = (s.prune now).seen := by
  by_cases hadmitted : ∃ packet, s.admits raw previousPeerId context now packet
  · obtain ⟨packet, hadmits⟩ := hadmitted
    have hbegin := begin_admitted hadmits
    simp only [receive, hbegin]
    split
    · rfl
    · rename_i hunseen
      have hseen : (s.prune now).seen.get packet.replayKey = none := by
        simpa using hunseen
      cases hdecode : decode packet.ciphertext with
      | none => rfl
      | some ciphertext =>
          have hdigest : sha256 ciphertext ≠ packet.digest := fun heq =>
            h packet ⟨hadmits, hseen, ciphertext, hdecode, heq⟩
          rw [elim_some, goOn, advance, claim]
          rw [if_pos hdigest]
          rfl
  · obtain ⟨reason, hbegin, -⟩ := begin_not_admitted fun packet hadmits =>
      hadmitted ⟨packet, hadmits⟩
    simp only [receive, hbegin]
    rfl

/-! ## Two runs -/

/-- A packet that arrives, and what the overlay is told with it. -/
structure Arrival where
  raw : RawPacket
  previousPeerId : String
  context : ReceiveContext
  now : Int

def State.on (s : State C) (a : Arrival) : State C × Option Result :=
  s.receive a.raw a.previousPeerId a.context a.now

/-- The first arrival sets the mark that the second one runs into. -/
def State.Poisons (s : State C) (p q : Arrival) : Prop :=
  ∃ forged genuine, s.marks p.raw p.previousPeerId p.context p.now forged
    ∧ s.admits q.raw q.previousPeerId q.context q.now genuine
    ∧ forged.packetId = genuine.packetId ∧ forged.chunkIndex = genuine.chunkIndex
    ∧ q.now < forged.expiresAt

theorem parse_origin {packet : OverlayPacket} (h : parseOverlayPacket raw now = some packet) :
    raw.originPeerId = packet.originPeerId := by
  rw [parseOverlayPacket] at h
  split at h
  · cases h
  · split at h
    · simp only at h
      split at h
      · cases h
        rfl
      · cases h
    · cases h

/-- A call leaves a state that has forgotten what has expired, but for what is
of its packet. -/
theorem receive_touched (s : State C) (raw : RawPacket) (previousPeerId : String)
    (context : ReceiveContext) (now : Int) :
    (s.receive raw previousPeerId context now).1 = s.prune now ∨
      ∃ packet, parseOverlayPacket raw now = some packet
        ∧ Touched packet (s.prune now) (s.receive raw previousPeerId context now).1 := by
  simp only [receive]
  rcases begin_cases s raw previousPeerId context now with
    ⟨result, hbegin, -⟩ | ⟨packet, ciphertext, hbegin, hparse, -⟩
  · rw [hbegin]
    exact .inl rfl
  · rw [hbegin]
    exact .inr ⟨packet, hparse, goOn_touched 3
      (.digest ⟨packet, ciphertext, s.current packet.originPeerId⟩)⟩

theorem get_prune_seen (s : State C) (now : Int) (key : String) :
    (s.prune now).seen.get key = (s.seen.get key).filter fun expiresAt => now < expiresAt := by
  ext v
  rw [filter_eq_some_iff]
  exact get_keep_eq_some_iff

theorem get_prune_assemblies (s : State C) (now : Int) (slot : String) :
    (s.prune now).assemblies.get slot
      = (s.assemblies.get slot).filter fun assembly => now < assembly.expiresAt := by
  ext v
  rw [filter_eq_some_iff]
  exact get_keep_eq_some_iff

theorem filter_filter_live {α : Type} {expiresAt : α → Int} {early late : Int} (h : early ≤ late)
    (a : Option α) : (a.filter fun x => early < expiresAt x).filter (fun x => late < expiresAt x)
      = a.filter fun x => late < expiresAt x := by
  have hboth : (fun x => decide (early < expiresAt x) && decide (late < expiresAt x))
      = fun x => decide (late < expiresAt x) := by
    funext x
    rw [Bool.eq_iff_iff, Bool.and_eq_true, decide_eq_true_iff, decide_eq_true_iff]
    omega
  rw [filter_filter, hboth]

theorem drop_ne {reason other : String} (h : reason ≠ other) :
    Result.drop reason ≠ Result.drop other := fun heq => h (Result.drop.inj heq)

theorem finish_ne_replay {call : Call} {key : C.Key} : (s.finish call key).2 ≠ .drop "replay" := by
  rw [finish]
  split
  · exact drop_ne (by decide)
  · split
    · exact drop_ne (by decide)
    · rw [assemble, place]
      split
      · exact drop_ne (by decide)
      · rw [settle]
        split
        · intro heq
          cases heq
        · split
          · exact drop_ne (by decide)
          · split
            · exact drop_ne (by decide)
            · intro heq
              cases heq

theorem receive_ne_replay (hadmits : s.admits raw previousPeerId context now packet)
    (hseen : (s.prune now).seen.get packet.replayKey = none) :
    (s.receive raw previousPeerId context now).2 ≠ some (.drop "replay") := by
  have hbegin := begin_admitted hadmits
  rw [hseen, if_neg (by decide)] at hbegin
  simp only [receive, hbegin]
  cases hdecode : decode packet.ciphertext with
  | none =>
      intro heq
      cases heq
  | some ciphertext =>
      rw [elim_some, goOn, advance]
      by_cases hdigest : sha256 ciphertext = packet.digest
      · obtain ⟨hmark, ⟨cached, key, hawait⟩ | ⟨result, hresult, hne⟩⟩ :=
          claim_marks (s.prune now) ⟨packet, ciphertext, s.current packet.originPeerId⟩ hdigest rfl
            hseen
        · rw [hawait, goOn, advance, derived]
          split
          · exact fun heq => drop_ne (by decide) (some.inj heq)
          · exact fun heq => finish_ne_replay (some.inj heq)
        · rw [hresult, goOn_done]
          exact fun heq => hne (some.inj heq)
      · have hclaim : (s.prune now).claim ⟨packet, ciphertext, s.current packet.originPeerId⟩
            = (s.prune now, .done (.drop "digest_mismatch")) := if_pos hdigest
        rw [hclaim]
        exact fun heq => drop_ne (by decide) (some.inj heq)

theorem on_result (s : State C) (a : Arrival) : (s.on a).2
    = ((s.begin a.raw a.previousPeerId a.context a.now).1.goOn 3
      (s.begin a.raw a.previousPeerId a.context a.now).2).2.result := rfl

/-- States that agree on what is kept for a packet return the same for it. -/
theorem result_alike {q : Arrival} {genuine : OverlayPacket}
    (hs : s.admits q.raw q.previousPeerId q.context q.now genuine)
    (ht : t.admits q.raw q.previousPeerId q.context q.now genuine)
    (h : Alike genuine (s.prune q.now) (t.prune q.now)) : (t.on q).2 = (s.on q).2 := by
  have hcurrent : t.current genuine.originPeerId = s.current genuine.originPeerId := h.current
  rw [on_result, on_result, begin_admitted hs, begin_admitted ht, h.seen, hcurrent]
  split
  · rfl
  · cases hdecode : decode genuine.ciphertext with
    | none => rfl
    | some ciphertext =>
        exact congrArg Progress.result (goOn_alike (w := .digest
          ⟨genuine, ciphertext, s.current genuine.originPeerId⟩) h)

/-- What is kept for a packet is the same after a packet of another origin,
but for the mark. -/
theorem alike_after {p : Arrival} {late : Int} {genuine : OverlayPacket} (hnow : p.now ≤ late)
    (horigin : p.raw.originPeerId ≠ genuine.originPeerId)
    (hpeer : peerIdOK genuine.originPeerId = true)
    (hseen : ((s.on p).1.prune late).seen.get genuine.replayKey
      = (s.prune late).seen.get genuine.replayKey) :
    Alike genuine (s.prune late) ((s.on p).1.prune late) := by
  have htwice : ∀ slot, ((s.prune p.now).prune late).assemblies.get slot
      = (s.prune late).assemblies.get slot := by
    intro slot
    rw [get_prune_assemblies, get_prune_assemblies, get_prune_assemblies, filter_filter_live hnow]
  rcases receive_touched s p.raw p.previousPeerId p.context p.now with hstate | ⟨forged, hparse, htouched⟩
  · have hstate' : (s.on p).1 = s.prune p.now := hstate
    rw [hstate'] at hseen ⊢
    exact ⟨rfl, rfl, rfl, rfl, hseen, htwice _⟩
  · have hne : genuine.originPeerId ≠ forged.originPeerId := by
      rw [← parse_origin hparse]
      exact Ne.symm horigin
    have hslot : genuine.assemblyKey ≠ forged.assemblyKey := fun heq =>
      hne (assemblyKey_inj hpeer (parse_some hparse).1.2.1 heq).1
    have hderived := htouched.derivedKeys _ hne
    refine ⟨htouched.own, ?_, congrArg isSome hderived, ?_, hseen, ?_⟩
    · show (s.on p).1.derive genuine.originPeerId = s.derive genuine.originPeerId
      rw [derive, derive, on, hderived, htouched.keyPair, htouched.peerKeys]
      rfl
    · show (s.on p).1.current genuine.originPeerId = s.current genuine.originPeerId
      rw [current, current, on, htouched.lifetime, htouched.keyPair,
        htouched.peerKeys, htouched.peerImports]
      rfl
    · rw [← htwice, get_prune_assemblies, get_prune_assemblies, on, htouched.assemblies _ hslot]

/-- **A packet of another origin shows in the mark and nowhere else.** In
every state, what a call returns is what it would have returned without a
packet of another origin before it, exactly where that packet did not set the
mark the call looks at. -/
theorem outcome_kept_iff {p q : Arrival} (hnow : p.now ≤ q.now)
    (horigin : p.raw.originPeerId ≠ q.raw.originPeerId) :
    ((s.on p).1.on q).2 = (s.on q).2 ↔ ¬s.Poisons p q := by
  have hown : (s.on p).1.ownPeerId = s.ownPeerId := by
    rcases receive_touched s p.raw p.previousPeerId p.context p.now with h | ⟨_, -, h⟩
    · rw [on, h]
      rfl
    · exact h.own
  by_cases hadmitted : ∃ genuine, s.admits q.raw q.previousPeerId q.context q.now genuine
  · obtain ⟨genuine, hadmits⟩ := hadmitted
    have hadmits' : (s.on p).1.admits q.raw q.previousPeerId q.context q.now genuine := by
      rw [admits, hown]
      exact hadmits
    have htwice : ((s.prune p.now).prune q.now).seen.get genuine.replayKey
        = (s.prune q.now).seen.get genuine.replayKey := by
      rw [get_prune_seen, get_prune_seen, get_prune_seen, filter_filter_live hnow]
    have hpeer := (parse_some hadmits.1).1.2.1
    by_cases hpoisons : s.Poisons p q
    · refine iff_of_false ?_ (not_not.mpr hpoisons)
      obtain ⟨forged, genuine', hmarks, hgenuine, hid, hindex, hlive⟩ := hpoisons
      obtain rfl : genuine' = genuine := some.inj (hgenuine.1.symm.trans hadmits.1)
      have hkey : forged.replayKey = genuine'.replayKey := by
        rw [OverlayPacket.replayKey, hid, hindex]
        rfl
      -- after the first packet the mark is there, without it the call sets its own
      have hthere : ((s.on p).1.prune q.now).seen.get genuine'.replayKey = some forged.expiresAt := by
        rw [get_prune_seen, on, seen_receive_of_marks hmarks, mark, ← hkey,
          get_set_self, filter_some, if_pos (decide_eq_true hlive)]
      have hnone : (s.prune q.now).seen.get genuine'.replayKey = none := by
        rw [← htwice, get_prune_seen, ← hkey, hmarks.2.1]
        rfl
      have hreplay : ((s.on p).1.on q).2 = some (.drop "replay") := by
        have hbegin := begin_admitted hadmits'
        rw [hthere, isSome_some, if_pos rfl] at hbegin
        rw [on_result, hbegin]
        rfl
      rw [hreplay]
      exact fun heq => receive_ne_replay hadmits hnone heq.symm
    · refine iff_of_true ?_ hpoisons
      have hseen : ((s.on p).1.prune q.now).seen.get genuine.replayKey
          = (s.prune q.now).seen.get genuine.replayKey := by
        by_cases hmarked : ∃ forged, s.marks p.raw p.previousPeerId p.context p.now forged
        · obtain ⟨forged, hmarks⟩ := hmarked
          rw [get_prune_seen, on, seen_receive_of_marks hmarks, mark, get_set]
          split
          · rename_i hkey
            have hsame := replayKey_inj (parse_some hadmits.1).1.1 (parse_some hmarks.1.1).1.1 hkey
            have hexpired : ¬q.now < forged.expiresAt := fun hlive =>
              hpoisons ⟨forged, genuine, hmarks, hadmits, hsame.1.symm, hsame.2.symm, hlive⟩
            rw [← htwice, get_prune_seen, hkey, hmarks.2.1, filter_some,
              if_neg (by simpa using hexpired)]
            rfl
          · rw [← get_prune_seen, htwice]
        · rw [get_prune_seen, on, seen_receive_of_not_marks fun forged hmarks =>
            hmarked ⟨forged, hmarks⟩, ← get_prune_seen, htwice]
      have horigin' : p.raw.originPeerId ≠ genuine.originPeerId := by
        rw [← parse_origin hadmits.1]
        exact horigin
      exact result_alike hadmits hadmits' (alike_after hnow horigin' hpeer hseen)
  · obtain ⟨reason, hbegin, -, hsame⟩ := begin_not_admitted fun genuine hadmits =>
      hadmitted ⟨genuine, hadmits⟩
    refine iff_of_true ?_ ?_
    · rw [on_result, on_result, hsame _ hown, hbegin]
      rfl
    · rintro ⟨forged, genuine, -, hadmits, -⟩
      exact hadmitted ⟨genuine, hadmits⟩

/-! ## A forged packet -/

/-- A third member's key is known as well. -/
def sampleOverlay : State sampleCrypto :=
  let s := samplePeer.state
  { s with peerKeys := s.peerKeys.set "cccccccccccccccc" (4, (5 : UInt8)) }

def sampleContext : ReceiveContext :=
  ⟨1, 2, ["aaaaaaaaaaaaaaaa", "bbbbbbbbbbbbbbbb", "cccccccccccccccc"]⟩

def sampleGenuine : Arrival :=
  ⟨wire (sampleMessage.hopped 0 1), "aaaaaaaaaaaaaaaa", sampleContext, 100500⟩

/-- The third member takes the identifier and the chunk of the message, and
sends bytes without a tag. -/
def sampleForged : Arrival :=
  let packet := { sampleMessage.hopped 0 1 with
    originPeerId := "cccccccccccccccc"
    path := ["cccccccccccccccc", "bbbbbbbbbbbbbbbb"]
    ciphertext := encode (List.replicate 16 0)
    digest := sha256 (List.replicate 16 0) }
  ⟨wire packet, "cccccccccccccccc", sampleContext, 100400⟩

/-- The forged packet fails its decryption, and the message that was to be
delivered is dropped as a replay. -/
theorem genuine_suppressed :
    (sampleOverlay.on sampleForged).2 = some (.drop "decrypt_failed")
    ∧ (sampleOverlay.on sampleGenuine).2
      = some (.delivered sampleMessage.packetId "aaaaaaaaaaaaaaaa" "event" [104, 105])
    ∧ ((sampleOverlay.on sampleForged).1.on sampleGenuine).2 = some (.drop "replay") := by
  decide +kernel

/-- An identifier of its own suppresses nothing. -/
def sampleHarmless : Arrival :=
  { sampleForged with
    raw := { sampleForged.raw with packetId := "0000000000000000" }
    now := 100450 }

theorem outcome_kept_sample :
    ((sampleOverlay.on sampleHarmless).1.on sampleGenuine).2 = (sampleOverlay.on sampleGenuine).2
    ∧ sampleOverlay.Poisons sampleForged sampleGenuine := by
  constructor
  · refine (outcome_kept_iff (by decide) (by decide)).mpr ?_
    rintro ⟨forged, genuine, hmarks, hadmits, hid, -⟩
    have hforged := (parse_some hmarks.1.1).2
    have hgenuine := (parse_some hadmits.1).2
    rw [← hforged, ← hgenuine] at hid
    exact absurd hid (by decide)
  · by_contra hharmless
    have hkept := (outcome_kept_iff (s := sampleOverlay) (p := sampleForged) (q := sampleGenuine)
      (by decide) (by decide)).mpr hharmless
    exact absurd hkept (by decide +kernel)

end Overlay

end WebrtcMinimize
