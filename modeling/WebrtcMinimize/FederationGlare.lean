import WebrtcMinimize.FederationTurns

/-!
# No glare

Every step of the two ends is one of the moves that keep the turn, and the
queue to the end that asks for its turns keeps the initiator's answer before
its next offer (`orderly_step`). So a signal finds an open peer in a state
that accepts it (`Orderly.accepts`).
-/

namespace WebrtcMinimize

open Checks Runs NegotiatedLink NegotiationEvent List ControlMessage Turns Side
open FederationPeer hiding new

/-! ## What one end does -/

namespace FederationPeer

variable (f : FederationPeer)

/-- Negotiating waits, asks for a turn, or offers with the turn at hand. -/
theorem negotiate_cases (isInitiator created : Bool) :
    (∃ needs, f.negotiate isInitiator created = ({ f with needsNegotiation := needs }, .wait))
      ∨ (isInitiator = false ∧ f.signaling = .stable ∧ f.localNegotiationGrant = 0
        ∧ f.localNegotiationRequest = 0 ∧ f.negotiate isInitiator created = ({ f with
              needsNegotiation := true
              nextNegotiationSequence := f.nextNegotiationSequence + 1
              localNegotiationRequest := f.nextNegotiationSequence + 1 },
            .request (f.nextNegotiationSequence + 1)))
      ∨ (f.signaling = .stable ∧ (isInitiator = true → f.remoteNegotiationGrant = 0)
        ∧ (isInitiator = false → f.localNegotiationGrant ≠ 0) ∧ f.negotiate isInitiator created
          = ({ f with
              signaling := .haveLocalOffer
              needsNegotiation := false
              localNegotiationGrant := 0 }, .offer)) := by
  rw [negotiate]
  split
  · exact .inl ⟨f.needsNegotiation, rfl⟩
  · dsimp only
    split
    · exact .inl ⟨true, rfl⟩
    · rename_i hturn
      simp only [not_or, not_not, not_and] at hturn
      obtain ⟨-, hstable, haway⟩ := hturn
      split
      · exact .inl ⟨true, rfl⟩
      · split
        · rename_i hask
          split
          · exact .inl ⟨true, rfl⟩
          · rename_i hrequest
            exact .inr (.inl ⟨hask.1, hstable, hask.2, not_not.mp hrequest, rfl⟩)
        · rename_i hask
          rw [hstable]
          cases created with
          | false => exact .inl ⟨true, rfl⟩
          | true =>
              exact .inr (.inr ⟨rfl, haway, fun hother hgrant => hask ⟨hother, hgrant⟩, rfl⟩)

theorem takeRemoteNegotiationGrant_cases (isInitiator : Bool) :
    f.takeRemoteNegotiationGrant isInitiator = (f, none)
      ∨ (isInitiator = true ∧ f.remoteNegotiationRequest ≠ 0 ∧ f.remoteNegotiationGrant = 0
        ∧ f.signaling = .stable ∧ f.takeRemoteNegotiationGrant isInitiator = ({ f with
              remoteNegotiationRequest := 0
              remoteNegotiationGrant := f.remoteNegotiationRequest },
            some f.remoteNegotiationRequest)) := by
  rw [takeRemoteNegotiationGrant]
  split
  · exact .inl rfl
  · rename_i htake
    simp only [not_or, not_not] at htake
    obtain ⟨hinitiator, -, hrequest, hgrant, -, hstable⟩ := htake
    exact .inr ⟨by simpa using hinitiator, hrequest, hgrant, hstable, rfl⟩

theorem markReady_eq : f.markReady = { f with ready := f.markReady.ready } := by
  rw [markReady]
  split <;> rfl

end FederationPeer

/-! ## The link -/

/-- What is under way on a link. -/
def NegotiatedLink.underway (s : NegotiatedLink) : Underway where
  offersI := offers s.initiator.signals + offers s.responder.unsentSignals
  answersI := answers s.initiator.signals + answers s.responder.unsentSignals
  offersN := offers s.responder.signals + offers s.initiator.unsentSignals
  answersN := answers s.responder.signals + answers s.initiator.unsentSignals
  requests := requests s.initiator.controls ++ requests s.responder.unsentControls
  grants := grants s.responder.controls ++ grants s.initiator.unsentControls

/-- The turn of a link, and the order its signals come in. -/
structure Orderly (s : NegotiatedLink) : Prop where
  turns : Turns s.initiator.peer s.responder.peer s.underway
  /-- No offer of the initiator overtakes its answer. -/
  ordered : s.responder.signals.Pairwise fun earlier later => earlier = .offer → later ≠ .answer
  /-- Answers are sent under the lock. -/
  prompt : .answer ∉ s.initiator.unsentSignals ∧ .answer ∉ s.responder.unsentSignals

theorem orderly_new : Orderly .new := ⟨.start, .nil, by simp [new, LinkEnd.new],
  by simp [new, LinkEnd.new]⟩

section

variable {s : NegotiatedLink}

section

variable (h : Orderly s) (side : Side)

include h

theorem Orderly.negotiate (created : Bool) :
    Orderly ((negotiate side created).apply s) := by
  cases side with
  | initiator =>
      simp only [apply, own, other, put, isInitiator]
      rcases s.initiator.peer.negotiate_cases true created with ⟨needs, heq⟩ | ⟨hother, -⟩ |
        ⟨hstable, haway, -, heq⟩
      · rw [heq]
        exact ⟨h.turns.congrI rfl rfl rfl rfl rfl rfl, h.ordered, h.prompt⟩
      · cases hother
      · rw [heq]
        refine ⟨?_, h.ordered, by simpa using h.prompt⟩
        have hturns : Turns { s.initiator.peer with
            signaling := .haveLocalOffer
            needsNegotiation := false
            localNegotiationGrant := 0 } s.responder.peer _ :=
          (h.turns.offerI hstable (haway rfl)).congrI rfl rfl rfl rfl rfl rfl
        simpa [underway, Nat.add_assoc] using hturns
  | responder =>
      simp only [apply, own, other, put, isInitiator]
      rcases s.responder.peer.negotiate_cases false created with ⟨needs, heq⟩ |
        ⟨-, hstable, hgrant, hrequest, heq⟩ | ⟨hstable, -, hgrant, heq⟩
      · rw [heq]
        exact ⟨h.turns.congrN rfl rfl rfl rfl rfl rfl, h.ordered, h.prompt⟩
      · rw [heq]
        refine ⟨?_, h.ordered, h.prompt⟩
        have hturns : Turns s.initiator.peer { s.responder.peer with
            needsNegotiation := true
            nextNegotiationSequence := s.responder.peer.nextNegotiationSequence + 1
            localNegotiationRequest := s.responder.peer.nextNegotiationSequence + 1 } _ :=
          (h.turns.askN hstable hgrant hrequest).congrN rfl rfl rfl rfl rfl rfl
        simpa [underway, request?] using hturns
      · rw [heq]
        refine ⟨?_, h.ordered, by simpa using h.prompt⟩
        have hturns : Turns s.initiator.peer { s.responder.peer with
            signaling := .haveLocalOffer
            needsNegotiation := false
            localNegotiationGrant := 0 } _ :=
          (h.turns.offerN hstable (hgrant rfl)).congrN rfl rfl rfl rfl rfl rfl
        simpa [underway, Nat.add_assoc] using hturns

theorem Orderly.continueNegotiation :
    Orderly ((continueNegotiation side).apply s) := by
  cases side with
  | initiator =>
      simp only [apply, own, other, put, isInitiator]
      rcases s.initiator.peer.takeRemoteNegotiationGrant_cases true with heq |
        ⟨-, hrequest, hturn, hstable, heq⟩
      · rw [heq]
        refine ⟨?_, h.ordered, h.prompt⟩
        simpa [underway] using h.turns
      · rw [heq]
        refine ⟨?_, h.ordered, h.prompt⟩
        have hturns := h.turns.grantI hstable hrequest hturn
        simpa [underway, grant?] using hturns
  | responder =>
      simp only [apply, own, other, put, isInitiator]
      rcases s.responder.peer.takeRemoteNegotiationGrant_cases false with heq | ⟨hother, -⟩
      · rw [heq]
        refine ⟨?_, h.ordered, h.prompt⟩
        simpa [underway] using h.turns
      · cases hother

theorem Orderly.markReady : Orderly ((markReady side).apply s) := by
  cases side with
  | initiator =>
      simp only [apply, own, put]
      rw [markReady_eq]
      exact ⟨h.turns.congrI rfl rfl rfl rfl rfl rfl, h.ordered, h.prompt⟩
  | responder =>
      simp only [apply, own, put]
      rw [markReady_eq]
      exact ⟨h.turns.congrN rfl rfl rfl rfl rfl rfl, h.ordered, h.prompt⟩

/-- A control message about anything but turns changes nothing. -/
theorem Orderly.announce {message : ControlMessage}
    (hrequest : message.request? = none) (hgrant : message.grant? = none) (sequence : Nat) :
    Orderly (.put side { s.own side with
      peer := { (s.own side).peer with statsSequence := sequence }
      unsentControls := (s.own side).unsentControls ++ [message] } (s.other side)) := by
  cases side with
  | initiator =>
      refine ⟨?_, h.ordered, h.prompt⟩
      have hturns : Turns { s.initiator.peer with statsSequence := sequence } s.responder.peer _ :=
        h.turns.congrI rfl rfl rfl rfl rfl rfl
      simpa [underway, put, own, other, hrequest, hgrant] using hturns
  | responder =>
      refine ⟨?_, h.ordered, h.prompt⟩
      have hturns : Turns s.initiator.peer { s.responder.peer with statsSequence := sequence } _ :=
        h.turns.congrN rfl rfl rfl rfl rfl rfl
      simpa [underway, put, own, other, hrequest, hgrant] using hturns

theorem Orderly.candidateGathered :
    Orderly ((candidateGathered side).apply s) := by
  cases side with
  | initiator =>
      refine ⟨?_, ?_, h.prompt⟩
      · simpa [apply, underway, put, own, other] using h.turns
      · simp only [apply, put, other, pairwise_append, pairwise_singleton, mem_singleton, true_and]
        exact ⟨h.ordered, by rintro _ - _ rfl -; simp⟩
  | responder =>
      refine ⟨?_, h.ordered, h.prompt⟩
      simpa [apply, underway, put, own, other] using h.turns

theorem Orderly.close : Orderly ((close side).apply s) := by
  cases side with
  | initiator => exact ⟨h.turns.closeI, h.ordered, h.prompt⟩
  | responder => exact ⟨h.turns.closeN, h.ordered, h.prompt⟩

theorem Orderly.deliverSignal {message : SignalMessage}
    (hmem : message ∈ (s.own side).unsentSignals) :
    Orderly (.put side { s.own side with unsentSignals := (s.own side).unsentSignals.erase message }
      { s.other side with signals := (s.other side).signals ++ [message] }) := by
  have hoffers := offers_erase hmem
  have hanswers := answers_erase hmem
  have hturns := h.turns
  cases side with
  | initiator =>
      simp only [own] at hmem hoffers hanswers
      simp only [underway, hoffers, hanswers] at hturns
      refine ⟨?_, ?_, fun hin => h.prompt.1 (mem_of_mem_erase hin), h.prompt.2⟩
      · simpa [underway, put, own,
          other, Nat.add_assoc, Nat.add_comm, Nat.add_left_comm] using hturns
      · simp only [put, other, pairwise_append, pairwise_singleton, mem_singleton, true_and]
        refine ⟨h.ordered, ?_⟩
        rintro _ - _ rfl - rfl
        exact h.prompt.1 hmem
  | responder =>
      simp only [own] at hmem hoffers hanswers
      simp only [underway, hoffers, hanswers] at hturns
      refine ⟨?_, h.ordered, h.prompt.1, fun hin => h.prompt.2 (mem_of_mem_erase hin)⟩
      simpa [underway, put, own, other, Nat.add_assoc, Nat.add_comm, Nat.add_left_comm] using hturns

/-- A signal that cannot be sent is lost, and the link is closed. -/
theorem Orderly.loseSignal {message : SignalMessage}
    (hmem : message ∈ (s.own side).unsentSignals) :
    Orderly (.put side { s.own side with
        peer := (s.own side).peer.close
        unsentSignals := (s.own side).unsentSignals.erase message } (s.other side)) := by
  have hoffers := offers_erase hmem
  have hanswers := answers_erase hmem
  cases side with
  | initiator =>
      have hturns := h.turns.closeI
      simp only [own] at hmem hoffers hanswers
      refine ⟨?_, h.ordered, fun hin => h.prompt.1 (mem_of_mem_erase hin), h.prompt.2⟩
      simp only [underway, hoffers, hanswers] at hturns
      cases message with
      | offer => exact dropOfferN hturns
      | answer => exact absurd hmem h.prompt.1
      | candidate => exact hturns
  | responder =>
      have hturns := h.turns.closeN
      simp only [own] at hmem hoffers hanswers
      refine ⟨?_, h.ordered, h.prompt.1, fun hin => h.prompt.2 (mem_of_mem_erase hin)⟩
      simp only [underway, hoffers, hanswers] at hturns
      cases message with
      | offer => exact dropOfferI hturns (.inr rfl)
      | answer => exact absurd hmem h.prompt.2
      | candidate => exact hturns

theorem Orderly.sendSignal (message : SignalMessage)
    (delivered : Bool) :
    Orderly ((sendSignal side message delivered).apply s) := by
  simp only [apply]
  split
  · exact h
  · rename_i hmem
    rw [not_not] at hmem
    cases delivered with
    | true => exact h.deliverSignal side hmem
    | false => exact h.loseSignal side hmem

end

theorem subperm_filterMap {α β : Type} {f : α → Option β} {as bs : List α} (h : as.Subperm bs) :
    (as.filterMap f).Subperm (bs.filterMap f) := by
  obtain ⟨cs, hperm, hsub⟩ := h
  exact ⟨cs.filterMap f, hperm.filterMap f, hsub.filterMap f⟩

/-- Control messages that are sent change places, and some get lost. -/
theorem Orderly.moveControls (h : Orderly s) (side : Side) {controls unsentControls : List ControlMessage}
    (sent : List ControlMessage) (hfewer : (controls ++ unsentControls).Subperm
      ((s.other side).controls ++ (s.own side).unsentControls)) :
    Orderly (.put side { s.own side with unsentControls := unsentControls, sent := sent }
      { s.other side with controls := controls }) := by
  cases side with
  | initiator =>
      refine ⟨?_, h.ordered, h.prompt⟩
      have hgrants : (grants controls ++ grants unsentControls).Subperm s.underway.grants := by
        have hmapped := subperm_filterMap (f := grant?) hfewer
        rw [filterMap_append, filterMap_append] at hmapped
        exact hmapped
      exact h.turns.fewer (.refl _) hgrants
  | responder =>
      refine ⟨?_, h.ordered, h.prompt⟩
      have hrequests : (requests controls ++ requests unsentControls).Subperm
          s.underway.requests := by
        have hmapped := subperm_filterMap (f := request?) hfewer
        rw [filterMap_append, filterMap_append] at hmapped
        exact hmapped
      exact h.turns.fewer hrequests (.refl _)

theorem Orderly.giveUp {side : Side} {own other : LinkEnd} (h : Orderly (.put side own other))
    (message : ControlMessage) : Orderly (.put side (giveUp own message) other) := by
  have hclosed : Orderly (.put side own.close other) := by
    cases side with
    | initiator => exact h.close .initiator
    | responder => exact h.close .responder
  cases message with
  | negotiationRequest sequence => exact hclosed
  | negotiationGrant sequence => exact hclosed
  | hello => exact h
  | ack accepted => exact h
  | stats sequence => exact h

theorem Orderly.sendControl (h : Orderly s) (side : Side) (message : ControlMessage)
    (delivered : Bool) :
    Orderly ((sendControl side message delivered).apply s) := by
  simp only [apply]
  split
  · exact h
  · rename_i hmem
    rw [not_not] at hmem
    split
    · refine h.moveControls side _ ?_
      rw [append_assoc]
      exact ((perm_cons_erase hmem).symm.append_left _).subperm
    · refine Orderly.giveUp ?_ message
      exact h.moveControls side _
        ((erase_sublist (a := message)).append_left (s.other side).controls).subperm

/-! ## Receiving -/

end

namespace FederationPeer

variable {f : FederationPeer}

theorem acceptSignal_closed (hclosed : f.closed = true) (isInitiator retry : Bool)
    (message : SignalMessage) :
    f.acceptSignal isInitiator retry message = .error "federation peer closed" := by
  cases message <;> rw [acceptSignal, failIf_of _ hclosed, error_bind]

theorem acceptSignal_candidate (hopen : f.closed = false) (isInitiator retry : Bool) :
    f.acceptSignal isInitiator retry .candidate = .ok (f, none) := by
  rw [acceptSignal, failIf_of_not _ (by simp [hopen]), ok_bind]
  rfl

theorem acceptSignal_offer (hopen : f.closed = false) (hmaking : f.makingOffer = false)
    (hstable : f.signaling = .stable) {isInitiator : Bool}
    (haway : isInitiator = true → f.remoteNegotiationGrant ≠ 0)
    (hturn : isInitiator = false → f.localNegotiationGrant = 0) (retry : Bool) :
    f.acceptSignal isInitiator retry .offer = .ok ({ f with
      signaling := .stable
      remoteNegotiationGrant := if isInitiator then 0 else f.remoteNegotiationGrant },
      some .answer) := by
  rw [acceptSignal, failIf_of_not _ (by simp [hopen]), ok_bind]
  rw [failIf_of_not _ (by simp [hmaking, hstable]), ok_bind,
    failIf_of_not _ fun h => haway h.1 h.2, ok_bind,
    failIf_of_not _ fun h => h.2 (hturn h.1), ok_bind, hstable]
  rfl

theorem acceptSignal_answer (hopen : f.closed = false) (hoffering : f.signaling = .haveLocalOffer)
    (isInitiator retry : Bool) :
    f.acceptSignal isInitiator retry .answer = .ok ({ f with
      signaling := .stable
      needsNegotiation := f.needsNegotiation || retry }, none) := by
  rw [acceptSignal, failIf_of_not _ (by simp [hopen]), ok_bind]
  rw [hoffering]
  rfl

end FederationPeer

section

variable {s : NegotiatedLink}

/-- **No glare, one step.** An open end accepts the next signal. -/
theorem Orderly.accepts (h : Orderly s) {side : Side} {message : SignalMessage}
    {rest : List SignalMessage} (hsignals : (s.own side).signals = message :: rest)
    (hopen : (s.own side).peer.closed = false) (retry : Bool) :
    ∃ peer reply, (s.own side).peer.acceptSignal side.isInitiator retry message = .ok (peer, reply)
      ∧ Orderly (.put side { s.own side with signals := rest, peer := peer }
        { s.other side with signals := (s.other side).signals ++ reply.toList }) := by
  cases side with
  | initiator =>
      simp only [own, isInitiator] at hsignals hopen ⊢
      have hturns := h.turns
      simp only [underway, hsignals] at hturns
      cases message with
      | candidate =>
          refine ⟨_, _, acceptSignal_candidate hopen _ _, ?_, ?_, h.prompt⟩
          · simpa [underway, put, other] using hturns
          · simpa [put, other] using h.ordered
      | offer =>
          have hoffer : Turns s.initiator.peer s.responder.peer
              { s.underway with
                offersI := offers rest + offers s.responder.unsentSignals + 1
                answersI := answers rest + answers s.responder.unsentSignals } := by
            simpa [underway, Nat.add_right_comm] using hturns
          obtain ⟨hstable, haway, hanswered⟩ := answerI (w := { s.underway with
            offersI := offers rest + offers s.responder.unsentSignals
            answersI := answers rest + answers s.responder.unsentSignals }) hoffer hopen
          obtain ⟨-, hnone, -⟩ := h.turns.waiting haway
          refine ⟨_, _, acceptSignal_offer hopen h.turns.making.1 hstable
            (fun _ => haway) (fun hother => by cases hother) _, ?_, ?_, h.prompt⟩
          · have hkept : Turns { s.initiator.peer with
                signaling := .stable
                remoteNegotiationGrant := 0 } s.responder.peer _ :=
              hanswered.congrI rfl rfl hstable.symm rfl rfl rfl
            simpa [underway, put, other, Nat.add_right_comm] using hkept
          · simp only [put, other, Option.toList_some,
              pairwise_append, pairwise_singleton, mem_singleton, true_and]
            refine ⟨h.ordered, ?_⟩
            rintro _ hearlier _ rfl rfl
            have hcount : 0 < offers s.responder.signals := count_pos_iff.mpr hearlier
            have hzero : offers s.responder.signals + offers s.initiator.unsentSignals = 0 := hnone
            omega
      | answer =>
          have hanswer : Turns s.initiator.peer s.responder.peer
              { s.underway with
                offersI := offers rest + offers s.responder.unsentSignals
                answersI := answers rest + answers s.responder.unsentSignals + 1 } := by
            simpa [underway, Nat.add_right_comm] using hturns
          obtain ⟨hoffering, hanswered⟩ := answeredI (w := { s.underway with
            offersI := offers rest + offers s.responder.unsentSignals
            answersI := answers rest + answers s.responder.unsentSignals }) hanswer hopen
          refine ⟨_, _, acceptSignal_answer hopen hoffering _ _, ?_, ?_, h.prompt⟩
          · have hkept : Turns { s.initiator.peer with
                signaling := .stable
                needsNegotiation := s.initiator.peer.needsNegotiation || retry }
                s.responder.peer _ := hanswered.congrI rfl rfl rfl rfl rfl rfl
            simpa [underway, put, other] using hkept
          · simpa [put, other] using h.ordered
  | responder =>
      simp only [own, isInitiator] at hsignals hopen ⊢
      have hturns := h.turns
      have hordered := h.ordered
      rw [hsignals, pairwise_cons] at hordered
      simp only [underway, hsignals] at hturns
      cases message with
      | candidate =>
          refine ⟨_, _, acceptSignal_candidate hopen _ _, ?_, hordered.2, h.prompt⟩
          simpa [underway, put, other] using hturns
      | offer =>
          have hoffer : Turns s.initiator.peer s.responder.peer
              { s.underway with
                offersN := offers rest + offers s.initiator.unsentSignals + 1
                answersN := answers rest + answers s.initiator.unsentSignals } := by
            simpa [underway, Nat.add_right_comm] using hturns
          -- an answer still under way would come before the offer
          have hnone : answers rest + answers s.initiator.unsentSignals = 0 := by
            have hrest : answers rest = 0 := count_eq_zero.mpr fun hin =>
              hordered.1 _ hin rfl rfl
            have hunsent : answers s.initiator.unsentSignals = 0 := count_eq_zero.mpr h.prompt.1
            omega
          obtain ⟨hstable, hgrant, hanswered⟩ := answerN (w := { s.underway with
            offersN := offers rest + offers s.initiator.unsentSignals
            answersN := answers rest + answers s.initiator.unsentSignals }) hoffer hopen hnone
          refine ⟨_, _, acceptSignal_offer hopen h.turns.making.2 hstable
            (fun hother => by cases hother) (fun _ => hgrant) _, ?_, hordered.2, h.prompt⟩
          have hkept : Turns s.initiator.peer { s.responder.peer with
              signaling := .stable
              remoteNegotiationGrant := s.responder.peer.remoteNegotiationGrant } _ :=
            hanswered.congrN rfl rfl hstable.symm rfl rfl rfl
          simpa [underway, put, other, Nat.add_right_comm] using hkept
      | answer =>
          have hanswer : Turns s.initiator.peer s.responder.peer
              { s.underway with
                offersN := offers rest + offers s.initiator.unsentSignals
                answersN := answers rest + answers s.initiator.unsentSignals + 1 } := by
            simpa [underway, Nat.add_right_comm] using hturns
          obtain ⟨hoffering, hanswered⟩ := answeredN (w := { s.underway with
            offersN := offers rest + offers s.initiator.unsentSignals
            answersN := answers rest + answers s.initiator.unsentSignals }) hanswer hopen
          refine ⟨_, _, acceptSignal_answer hopen hoffering _ _, ?_, hordered.2,
            h.prompt⟩
          have hkept : Turns s.initiator.peer { s.responder.peer with
              signaling := .stable
              needsNegotiation := s.responder.peer.needsNegotiation || retry } _ :=
            hanswered.congrN rfl rfl rfl rfl rfl rfl
          simpa [underway, put, other] using hkept

theorem Orderly.dropSignal (h : Orderly s) {side : Side} {message : SignalMessage}
    {rest : List SignalMessage} (hsignals : (s.own side).signals = message :: rest)
    (hclosed : (s.own side).peer.closed = true) :
    Orderly (.put side { s.own side with signals := rest } (s.other side)) := by
  have hturns := h.turns
  cases side with
  | initiator =>
      simp only [own] at hsignals hclosed
      refine ⟨?_, h.ordered, h.prompt⟩
      simp only [underway, hsignals, offers_cons, answers_cons,
        Nat.add_right_comm _ (ite _ _ _)] at hturns
      cases message with
      | candidate => exact hturns
      | offer => exact dropOfferI hturns (.inl hclosed)
      | answer => exact dropAnswerI hturns
  | responder =>
      have hordered := h.ordered
      simp only [own] at hsignals hclosed
      rw [hsignals, pairwise_cons] at hordered
      refine ⟨?_, hordered.2, h.prompt⟩
      simp only [underway, hsignals, offers_cons, answers_cons,
        Nat.add_right_comm _ (ite _ _ _)] at hturns
      cases message with
      | candidate => exact hturns
      | offer => exact dropOfferN hturns
      | answer => exact dropAnswerN hturns hclosed

theorem Orderly.receiveSignal (h : Orderly s) (side : Side) (retry : Bool) :
    Orderly ((receiveSignal side retry).apply s) := by
  simp only [apply]
  cases hsignals : (s.own side).signals with
  | nil => exact h
  | cons message rest =>
      dsimp only
      cases hclosed : (s.own side).peer.closed with
      | true =>
          rw [acceptSignal_closed hclosed]
          exact h.dropSignal hsignals hclosed
      | false =>
          obtain ⟨peer, reply, haccept, hkept⟩ := h.accepts hsignals hclosed retry
          rw [haccept]
          exact hkept

theorem Orderly.dropControl (h : Orderly s) {side : Side} {message : ControlMessage}
    {rest : List ControlMessage} (hcontrols : (s.own side).controls = message :: rest) :
    Orderly (.put side { s.own side with controls := rest } (s.other side)) := by
  cases side with
  | initiator =>
      refine ⟨h.turns.fewer ?_ (.refl _), h.ordered, h.prompt⟩
      simp only [own] at hcontrols
      simp only [underway, hcontrols, requests_cons, append_assoc]
      exact (sublist_append_right _ _).subperm
  | responder =>
      refine ⟨h.turns.fewer (.refl _) ?_, h.ordered, h.prompt⟩
      simp only [own] at hcontrols
      simp only [underway, hcontrols, grants_cons, append_assoc]
      exact (sublist_append_right _ _).subperm

end

/-- A control message is news about the link, a request that is noted, or the
grant of the request under way. -/
theorem FederationPeer.acceptControl_cases (f : FederationPeer) {isInitiator leaseActive : Bool}
    {message : ControlMessage} {peer : FederationPeer} {reply : Option ControlMessage}
    (h : f.acceptControl isInitiator leaseActive message = .ok (peer, reply)) :
    (∃ hello ack stats, peer = { f with
        remoteHello := hello
        remoteAck := ack
        lastStatsSequence := stats } ∧ (reply = none ∨ reply = some (.ack true)))
      ∨ (∃ sequence, message = .negotiationRequest sequence ∧ isInitiator = true
        ∧ f.lastRemoteNegotiationRequest < sequence
        ∧ ∃ grant, ({ f with
            lastRemoteNegotiationRequest := sequence
            remoteNegotiationRequest := sequence } : FederationPeer).takeRemoteNegotiationGrant
              isInitiator = (peer, grant) ∧ reply = grant.map .negotiationGrant)
      ∨ (∃ sequence, message = .negotiationGrant sequence ∧ isInitiator = false
        ∧ sequence = f.localNegotiationRequest
        ∧ peer = { f with localNegotiationRequest := 0, localNegotiationGrant := sequence }
        ∧ reply = none) := by
  by_cases hclosed : f.closed = true
  · cases message <;> rw [acceptControl] at h <;> obtain ⟨_, -, h⟩ := bind_ok_iff.mp h <;>
      rw [if_pos hclosed] at h <;> cases h <;> exact .inl ⟨_, _, _, rfl, .inl rfl⟩
  · cases message with
    | hello =>
        simp only [acceptControl, bind_ok_iff, if_neg hclosed] at h
        obtain ⟨_, -, _, -, h⟩ := h
        cases h
        exact .inl ⟨_, _, _, rfl, .inr rfl⟩
    | ack accepted =>
        simp only [acceptControl, bind_ok_iff, if_neg hclosed] at h
        obtain ⟨_, -, _, -, h⟩ := h
        cases h
        exact .inl ⟨_, _, _, rfl, .inl rfl⟩
    | negotiationRequest sequence =>
        simp only [acceptControl, bind_ok_iff, failIf_ok_iff, if_neg hclosed] at h
        obtain ⟨_, -, _, hvalid, h⟩ := h
        simp only [not_or, Bool.not_eq_false, Nat.not_le] at hvalid
        cases h
        exact .inr (.inl ⟨sequence, rfl, hvalid.1, hvalid.2, _, rfl, rfl⟩)
    | negotiationGrant sequence =>
        simp only [acceptControl, bind_ok_iff, failIf_ok_iff, if_neg hclosed] at h
        obtain ⟨_, -, _, hvalid, h⟩ := h
        simp only [not_or, Bool.not_eq_true, not_not] at hvalid
        cases h
        exact .inr (.inr ⟨sequence, rfl, hvalid.1, hvalid.2, rfl, rfl⟩)
    | stats sequence =>
        simp only [acceptControl, bind_ok_iff, if_neg hclosed] at h
        obtain ⟨_, -, _, -, h⟩ := h
        cases h
        exact .inl ⟨_, _, _, rfl, .inl rfl⟩

section

variable {s : NegotiatedLink}

theorem Orderly.hears (h : Orderly s) {side : Side} {message : ControlMessage}
    {rest : List ControlMessage} (hcontrols : (s.own side).controls = message :: rest)
    {leaseActive : Bool} {peer : FederationPeer} {reply : Option ControlMessage}
    (haccept : (s.own side).peer.acceptControl side.isInitiator leaseActive message
      = .ok (peer, reply)) :
    Orderly (.put side { s.own side with
      controls := rest
      peer := peer
      unsentControls := (s.own side).unsentControls ++ reply.toList } (s.other side)) := by
  have hdropped := h.dropControl hcontrols
  rcases acceptControl_cases _ haccept with ⟨hello, ack, stats, rfl, hreply⟩ |
    ⟨sequence, rfl, hinitiator, -, grant, htake, rfl⟩ | ⟨sequence, rfl, hother, -, rfl, rfl⟩
  · have hneutral : requests reply.toList = [] ∧ grants reply.toList = [] := by
      rcases hreply with rfl | rfl <;> exact ⟨rfl, rfl⟩
    cases side with
    | initiator =>
        refine ⟨?_, h.ordered, h.prompt⟩
        have hturns : Turns { s.initiator.peer with
            remoteHello := hello
            remoteAck := ack
            lastStatsSequence := stats } s.responder.peer _ :=
          hdropped.turns.congrI rfl rfl rfl rfl rfl rfl
        simpa [underway, put, own, other, hneutral] using hturns
    | responder =>
        refine ⟨?_, h.ordered, h.prompt⟩
        have hturns : Turns s.initiator.peer { s.responder.peer with
            remoteHello := hello
            remoteAck := ack
            lastStatsSequence := stats } _ :=
          hdropped.turns.congrN rfl rfl rfl rfl rfl rfl
        simpa [underway, put, own, other, hneutral] using hturns
  · cases side with
    | responder => cases hinitiator
    | initiator =>
        refine ⟨?_, h.ordered, h.prompt⟩
        have hturns := h.turns
        simp only [own] at hcontrols htake
        simp only [underway, hcontrols, requests_cons, request?,
          Option.toList_some, cons_append, nil_append] at hturns
        have hnoted := noteI (w := s.underway) hturns
        rcases takeRemoteNegotiationGrant_cases _ _ |>.imp htake.symm.trans
          (fun hgive => hgive) with heq | ⟨-, hrequest, hturn, hstable, hgive⟩
        · cases heq
          simpa [underway, put, own, other] using hnoted
        · cases htake.symm.trans hgive
          have hgranted := hnoted.grantI hstable hrequest hturn
          simpa [underway, put, own, other, grant?] using hgranted
  · cases side with
    | initiator => cases hother
    | responder =>
        refine ⟨?_, h.ordered, h.prompt⟩
        have hturns := h.turns
        simp only [own] at hcontrols
        simp only [underway, hcontrols, grants_cons, grant?,
          Option.toList_some, cons_append, nil_append] at hturns
        have htaken := takeN (w := s.underway) hturns
        simpa [underway, put, own, other] using htaken

theorem Orderly.receiveControl (h : Orderly s) (side : Side) (leaseActive : Bool) :
    Orderly ((receiveControl side leaseActive).apply s) := by
  simp only [apply]
  cases hcontrols : (s.own side).controls with
  | nil => exact h
  | cons message rest =>
      dsimp only
      cases haccept : (s.own side).peer.acceptControl side.isInitiator leaseActive message with
      | ok result => exact h.hears hcontrols haccept
      | error reason =>
          have hdropped := h.dropControl hcontrols
          cases side with
          | initiator => exact hdropped.close .initiator
          | responder => exact hdropped.close .responder

theorem orderly_step {event : NegotiationEvent} {t : NegotiatedLink}
    (hstep : NegotiationStep s event t) (h : Orderly s) : Orderly t := by
  cases hstep
  cases event with
  | negotiate side created => exact h.negotiate side created
  | continueNegotiation side => exact h.continueNegotiation side
  | markReady side => exact h.markReady side
  | controlOpened side => exact h.announce side rfl rfl (s.own side).peer.statsSequence
  | statsTicked side => exact h.announce side rfl rfl ((s.own side).peer.statsSequence + 1)
  | candidateGathered side => exact h.candidateGathered side
  | sendSignal side message delivered => exact h.sendSignal side message delivered
  | sendControl side message delivered => exact h.sendControl side message delivered
  | receiveSignal side retry => exact h.receiveSignal side retry
  | receiveControl side leaseActive => exact h.receiveControl side leaseActive
  | close side => exact h.close side

end

end WebrtcMinimize
