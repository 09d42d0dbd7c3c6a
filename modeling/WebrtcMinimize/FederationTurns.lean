import Mathlib.Data.List.Perm.Subperm
import WebrtcMinimize.FederationModel

/-!
# Turns on a federation link

The turn to offer is a token. The initiator has it until it grants a
request; then it is the grant under way, the grant the other end holds, or
the offer made with it, and it comes back with that offer. `Turns` states
this for the messages under way in any order; each of the ways the two ends
move keeps it. Order matters once: an answer of the initiator is not
overtaken by its next offer, which is what the queue adds (`Ordered`).
-/

namespace WebrtcMinimize

open Checks Runs FederationPeer List

/-! ## The messages under way -/

def ControlMessage.request? : ControlMessage → Option Nat
  | .negotiationRequest sequence => some sequence
  | _ => none

def ControlMessage.grant? : ControlMessage → Option Nat
  | .negotiationGrant sequence => some sequence
  | _ => none

def requests (messages : List ControlMessage) : List Nat := messages.filterMap ControlMessage.request?

def grants (messages : List ControlMessage) : List Nat := messages.filterMap ControlMessage.grant?

def offers (messages : List SignalMessage) : Nat := messages.count .offer

def answers (messages : List SignalMessage) : Nat := messages.count .answer

@[simp] theorem offers_append (left right : List SignalMessage) :
    offers (left ++ right) = offers left + offers right := count_append

@[simp] theorem answers_append (left right : List SignalMessage) :
    answers (left ++ right) = answers left + answers right := count_append

@[simp] theorem requests_append (left right : List ControlMessage) :
    requests (left ++ right) = requests left ++ requests right := filterMap_append

@[simp] theorem grants_append (left right : List ControlMessage) :
    grants (left ++ right) = grants left ++ grants right := filterMap_append

@[simp] theorem offers_nil : offers [] = 0 := rfl

@[simp] theorem answers_nil : answers [] = 0 := rfl

@[simp] theorem offers_cons (message : SignalMessage) (messages : List SignalMessage) :
    offers (message :: messages) = offers messages + if message = .offer then 1 else 0 := by
  cases message <;> simp [offers]

@[simp] theorem answers_cons (message : SignalMessage) (messages : List SignalMessage) :
    answers (message :: messages) = answers messages + if message = .answer then 1 else 0 := by
  cases message <;> simp [answers]

theorem offers_erase {message : SignalMessage} {messages : List SignalMessage}
    (h : message ∈ messages) : offers messages
      = offers (messages.erase message) + if message = .offer then 1 else 0 :=
  ((perm_cons_erase h).count_eq _).trans (offers_cons message _)

theorem answers_erase {message : SignalMessage} {messages : List SignalMessage}
    (h : message ∈ messages) : answers messages
      = answers (messages.erase message) + if message = .answer then 1 else 0 :=
  ((perm_cons_erase h).count_eq _).trans (answers_cons message _)

@[simp] theorem requests_nil : requests [] = [] := rfl

@[simp] theorem grants_nil : grants [] = [] := rfl

@[simp] theorem requests_cons (message : ControlMessage) (messages : List ControlMessage) :
    requests (message :: messages) = message.request?.toList ++ requests messages := by
  cases message <;> rfl

@[simp] theorem grants_cons (message : ControlMessage) (messages : List ControlMessage) :
    grants (message :: messages) = message.grant?.toList ++ grants messages := by
  cases message <;> rfl

/-- What is under way between the ends: offers and answers to the initiator
(`I`) and to the other end (`N`), and the sequences of the requests to the
one and the grants to the other. -/
structure Underway where
  offersI : Nat
  answersI : Nat
  offersN : Nat
  answersN : Nat
  requests : List Nat
  grants : List Nat
deriving DecidableEq

/-- Where the turn is. -/
structure Turns (i n : FederationPeer) (w : Underway) : Prop where
  making : i.makingOffer = false ∧ n.makingOffer = false
  shutI : i.closed = true ↔ i.signaling = .closed
  shutN : n.closed = true ↔ n.signaling = .closed
  settled : i.signaling ≠ .haveRemoteOffer ∧ n.signaling ≠ .haveRemoteOffer
  /-- An offer of the initiator or the answer to it. -/
  exchangeN : w.offersN + w.answersI ≤ 1
  exchangeI : w.offersI + w.answersN ≤ 1
  stableI : i.signaling = .stable → w.offersN = 0 ∧ w.answersI = 0
  stableN : n.signaling = .stable → w.offersI = 0 ∧ w.answersN = 0
  pendingN : n.signaling = .haveLocalOffer → w.offersI + w.answersN = 1
    ∨ i.closed = true ∧ i.remoteNegotiationGrant ≠ 0
  /-- While the turn is away the initiator has no offer of its own. -/
  waiting : i.remoteNegotiationGrant ≠ 0 →
    i.signaling ≠ .haveLocalOffer ∧ w.offersN = 0 ∧ w.answersI = 0
  token : w.grants.length + (if n.localNegotiationGrant = 0 then 0 else 1) + w.offersI ≤ 1
  held : i.remoteNegotiationGrant = 0 →
    w.grants.length = 0 ∧ n.localNegotiationGrant = 0 ∧ w.offersI = 0
  asked : w.requests.length + (if i.remoteNegotiationRequest = 0 then 0 else 1)
    + w.grants.length ≤ 1
  request : ∀ k ∈ w.requests, k = n.localNegotiationRequest ∧ i.lastRemoteNegotiationRequest < k
  noted : i.remoteNegotiationRequest ≠ 0 →
    i.remoteNegotiationRequest = n.localNegotiationRequest
  grant : ∀ k ∈ w.grants, k = n.localNegotiationRequest ∧ k ≠ 0
  requesting : n.localNegotiationRequest ≠ 0 → n.signaling ≠ .haveLocalOffer
    ∧ n.localNegotiationGrant = 0 ∧ n.localNegotiationRequest = n.nextNegotiationSequence
  offering : n.signaling = .haveLocalOffer → n.localNegotiationGrant = 0
  counted : i.lastRemoteNegotiationRequest ≤ n.nextNegotiationSequence

theorem Turns.start : Turns .new .new ⟨0, 0, 0, 0, [], []⟩ := by
  constructor <;> simp [new]

section

variable {i n : FederationPeer} {w : Underway}

section

variable (h : Turns i n w)

include h

theorem Turns.fewer {rs gs : List Nat} (hrs : rs.Subperm w.requests)
    (hgs : gs.Subperm w.grants) : Turns i n { w with requests := rs, grants := gs } := by
  have hrequests := hrs.length_le
  have hgrants := hgs.length_le
  have htoken := h.token
  have hasked := h.asked
  exact { h with
    token := by dsimp only; omega
    held := fun haway => ⟨by have := (h.held haway).1; dsimp only; omega, (h.held haway).2⟩
    asked := by dsimp only; omega
    request := fun k hk => h.request k (hrs.subset hk)
    grant := fun k hk => h.grant k (hgs.subset hk) }

theorem Turns.openI (hstable : i.signaling = .stable) : i.closed ≠ true := by
  intro hclosed
  rw [h.shutI.mp hclosed] at hstable
  cases hstable

theorem Turns.openN (hstable : n.signaling = .stable) : n.closed ≠ true := by
  intro hclosed
  rw [h.shutN.mp hclosed] at hstable
  cases hstable

theorem Turns.offerI (hstable : i.signaling = .stable)
    (hturn : i.remoteNegotiationGrant = 0) :
    Turns { i with signaling := .haveLocalOffer } n { w with offersN := w.offersN + 1 } := by
  obtain ⟨hoffers, hanswers⟩ := h.stableI hstable
  have hopen := h.openI hstable
  exact { h with
    shutI := by simp [hopen]
    settled := ⟨by simp, h.settled.2⟩
    exchangeN := by dsimp only; omega
    stableI := by simp
    waiting := fun haway => absurd hturn haway }

theorem Turns.askN (hstable : n.signaling = .stable)
    (hgrant : n.localNegotiationGrant = 0) (hrequest : n.localNegotiationRequest = 0) :
    Turns i { n with
        nextNegotiationSequence := n.nextNegotiationSequence + 1
        localNegotiationRequest := n.nextNegotiationSequence + 1 }
      { w with requests := w.requests ++ [n.nextNegotiationSequence + 1] } := by
  have hrequests : w.requests = [] := eq_nil_iff_forall_not_mem.mpr fun k hk => by
    have := h.request k hk
    omega
  have hgrants : w.grants = [] := eq_nil_iff_forall_not_mem.mpr fun k hk => by
    have := h.grant k hk
    omega
  have hnoted : i.remoteNegotiationRequest = 0 := by
    by_contra hne
    exact hne ((h.noted hne).trans hrequest)
  have hcounted := h.counted
  exact { h with
    asked := by simp [hrequests, hgrants, hnoted]
    request := by
      rw [hrequests, nil_append, forall_mem_singleton]
      exact ⟨rfl, Nat.lt_succ_of_le hcounted⟩
    noted := fun hne => absurd hnoted hne
    grant := by simp [hgrants]
    requesting := fun _ => ⟨by simp [hstable], hgrant, rfl⟩
    counted := Nat.le_succ_of_le hcounted }

theorem Turns.offerN (hstable : n.signaling = .stable)
    (hgrant : n.localNegotiationGrant ≠ 0) :
    Turns i { n with signaling := .haveLocalOffer, localNegotiationGrant := 0 }
      { w with offersI := w.offersI + 1 } := by
  obtain ⟨hoffers, hanswers⟩ := h.stableN hstable
  have hopen := h.openN hstable
  have htoken := h.token
  have haway : i.remoteNegotiationGrant ≠ 0 := fun hheld => hgrant (h.held hheld).2.1
  have hrequest : n.localNegotiationRequest = 0 := by
    by_contra hne
    exact hgrant (h.requesting hne).2.1
  rw [if_neg hgrant] at htoken
  exact { h with
    shutN := by simp [hopen]
    settled := ⟨h.settled.1, by simp⟩
    exchangeI := by dsimp only; omega
    stableN := by simp
    pendingN := fun _ => .inl (by dsimp only; omega)
    token := by simp only [if_true]; omega
    held := fun hheld => absurd hheld haway
    requesting := fun hne => absurd hrequest hne
    offering := fun _ => rfl }

theorem Turns.grantI (hstable : i.signaling = .stable)
    (hrequest : i.remoteNegotiationRequest ≠ 0) (hturn : i.remoteNegotiationGrant = 0) :
    Turns { i with
        remoteNegotiationRequest := 0
        remoteNegotiationGrant := i.remoteNegotiationRequest } n
      { w with grants := w.grants ++ [i.remoteNegotiationRequest] } := by
  obtain ⟨hgrants, hgrant, hoffers⟩ := h.held hturn
  have hasked := h.asked
  rw [if_neg hrequest] at hasked
  exact { h with
    pendingN := fun hpending => (h.pendingN hpending).imp_right fun hlost => ⟨hlost.1, hrequest⟩
    waiting := fun _ => ⟨by rw [hstable]; simp, h.stableI hstable⟩
    token := by simp [hgrants, hgrant, hoffers]
    held := fun hheld => absurd hheld hrequest
    asked := by simp; omega
    noted := fun hne => absurd rfl hne
    grant := by
      rw [eq_nil_of_length_eq_zero hgrants, nil_append, forall_mem_singleton]
      exact ⟨h.noted hrequest, hrequest⟩ }

end

theorem Turns.noteI {k : Nat} {rs : List Nat} (h : Turns i n { w with requests := k :: rs }) :
    Turns { i with
        lastRemoteNegotiationRequest := k
        remoteNegotiationRequest := k } n { w with requests := rs } := by
  have hasked : rs.length + 1 + (if i.remoteNegotiationRequest = 0 then 0 else 1) + w.grants.length
      ≤ 1 := h.asked
  obtain ⟨hk, hlast⟩ := h.request k mem_cons_self
  have hrest : rs = [] := eq_nil_of_length_eq_zero (by omega)
  have hrequesting := h.requesting (by omega)
  exact { h with
    asked := by simp [hrest]; split <;> omega
    request := by simp [hrest]
    noted := fun _ => hk
    counted := Nat.le_of_eq (hk.trans hrequesting.2.2) }

theorem Turns.takeN {k : Nat} {gs : List Nat} (h : Turns i n { w with grants := k :: gs }) :
    Turns i { n with localNegotiationRequest := 0, localNegotiationGrant := k }
      { w with grants := gs } := by
  have htoken : gs.length + 1 + (if n.localNegotiationGrant = 0 then 0 else 1) + w.offersI ≤ 1 :=
    h.token
  have hasked : w.requests.length + (if i.remoteNegotiationRequest = 0 then 0 else 1)
      + (gs.length + 1) ≤ 1 := h.asked
  obtain ⟨hk, hne⟩ := h.grant k mem_cons_self
  have hrest : gs = [] := eq_nil_of_length_eq_zero (by omega)
  have hrequests : w.requests = [] := eq_nil_of_length_eq_zero (by omega)
  have hnoted : i.remoteNegotiationRequest = 0 := by
    by_contra hnoted
    rw [if_neg hnoted] at hasked
    omega
  have hsignaling := (h.requesting (hk ▸ hne)).1
  exact { h with
    token := by simp [hrest, hne]; omega
    held := fun hheld => absurd (h.held hheld).1 (by simp)
    asked := by simp [hrest, hrequests, hnoted]
    request := by simp [hrequests]
    noted := fun hne' => absurd hnoted hne'
    grant := by simp [hrest]
    requesting := fun hne' => absurd rfl hne'
    offering := fun hoffering => absurd hoffering hsignaling }

theorem Turns.answerI (h : Turns i n { w with offersI := w.offersI + 1 })
    (hopen : i.closed = false) :
    i.signaling = .stable ∧ i.remoteNegotiationGrant ≠ 0
      ∧ Turns { i with remoteNegotiationGrant := 0 } n { w with answersN := w.answersN + 1 } := by
  have haway : i.remoteNegotiationGrant ≠ 0 := fun hheld => absurd (h.held hheld).2.2 (by simp)
  obtain ⟨hoffering, hoffers, hanswers⟩ := h.waiting haway
  have hstable : i.signaling = .stable := by
    cases hsignaling : i.signaling with
    | stable => rfl
    | haveLocalOffer => exact absurd hsignaling hoffering
    | haveRemoteOffer => exact absurd hsignaling h.settled.1
    | closed =>
        rw [h.shutI.mpr hsignaling] at hopen
        cases hopen
  have htoken : w.grants.length + (if n.localNegotiationGrant = 0 then 0 else 1)
      + (w.offersI + 1) ≤ 1 := h.token
  have hexchange : w.offersI + 1 + w.answersN ≤ 1 := h.exchangeI
  have hgrant : n.localNegotiationGrant = 0 := by
    by_contra hgrant
    rw [if_neg hgrant] at htoken
    omega
  refine ⟨hstable, haway, { h with
    exchangeI := by dsimp only; omega
    stableN := fun hidle => absurd (h.stableN hidle).1 (by simp)
    pendingN := fun _ => .inl (by dsimp only; omega)
    waiting := fun hne => absurd rfl hne
    token := by simp only [hgrant, if_true]; omega
    held := fun _ => ⟨by dsimp only; omega, hgrant, by dsimp only; omega⟩ }⟩

theorem Turns.answeredI (h : Turns i n { w with answersI := w.answersI + 1 })
    (hopen : i.closed = false) :
    i.signaling = .haveLocalOffer ∧ Turns { i with signaling := .stable } n w := by
  have hexchange : w.offersN + (w.answersI + 1) ≤ 1 := h.exchangeN
  have hoffering : i.signaling = .haveLocalOffer := by
    cases hsignaling : i.signaling with
    | stable => exact absurd (h.stableI hsignaling).2 (by simp)
    | haveLocalOffer => rfl
    | haveRemoteOffer => exact absurd hsignaling h.settled.1
    | closed =>
        rw [h.shutI.mpr hsignaling] at hopen
        cases hopen
  have hheld : i.remoteNegotiationGrant = 0 := by
    by_contra haway
    exact (h.waiting haway).1 hoffering
  refine ⟨hoffering, { h with
    shutI := by simp [hopen]
    settled := ⟨by simp, h.settled.2⟩
    exchangeN := by omega
    stableI := fun _ => ⟨by omega, by omega⟩
    waiting := fun hne => absurd hheld hne }⟩

/-- The other end answers an offer of the initiator, provided that it has no
offer of its own. -/
theorem Turns.answerN (h : Turns i n { w with offersN := w.offersN + 1 })
    (hopen : n.closed = false) (hnone : w.answersN = 0) :
    n.signaling = .stable ∧ n.localNegotiationGrant = 0
      ∧ Turns i n { w with answersI := w.answersI + 1 } := by
  have hheld : i.remoteNegotiationGrant = 0 := by
    by_contra haway
    exact absurd (h.waiting haway).2.1 (by simp)
  obtain ⟨hgrants, hgrant, hoffers⟩ := h.held hheld
  have hexchange : w.offersN + 1 + w.answersI ≤ 1 := h.exchangeN
  have hstable : n.signaling = .stable := by
    cases hsignaling : n.signaling with
    | stable => rfl
    | haveLocalOffer =>
        rcases h.pendingN hsignaling with hpending | ⟨-, haway⟩
        · have hone : w.offersI + w.answersN = 1 := hpending
          have hzero : w.offersI = 0 := hoffers
          omega
        · exact absurd hheld haway
    | haveRemoteOffer => exact absurd hsignaling h.settled.2
    | closed =>
        rw [h.shutN.mpr hsignaling] at hopen
        cases hopen
  refine ⟨hstable, hgrant, { h with
    exchangeN := by dsimp only; omega
    stableI := fun hidle => absurd (h.stableI hidle).1 (by simp)
    waiting := fun haway => absurd hheld haway }⟩

theorem Turns.answeredN (h : Turns i n { w with answersN := w.answersN + 1 })
    (hopen : n.closed = false) :
    n.signaling = .haveLocalOffer ∧ Turns i { n with signaling := .stable } w := by
  have hexchange : w.offersI + (w.answersN + 1) ≤ 1 := h.exchangeI
  have hoffering : n.signaling = .haveLocalOffer := by
    cases hsignaling : n.signaling with
    | stable => exact absurd (h.stableN hsignaling).2 (by simp)
    | haveLocalOffer => rfl
    | haveRemoteOffer => exact absurd hsignaling h.settled.2
    | closed =>
        rw [h.shutN.mpr hsignaling] at hopen
        cases hopen
  refine ⟨hoffering, { h with
    shutN := by simp [hopen]
    settled := ⟨h.settled.1, by simp⟩
    exchangeI := by omega
    stableN := fun _ => ⟨by omega, by omega⟩
    pendingN := by simp
    requesting := fun hne => absurd hoffering (h.requesting hne).1
    offering := by simp }⟩

/-! ## Ends that close -/

theorem Turns.closeI (h : Turns i n w) : Turns i.close n w :=
  { h with
    shutI := by simp [close]
    settled := ⟨by simp [close], h.settled.2⟩
    stableI := by simp [close]
    pendingN := fun hpending => (h.pendingN hpending).imp_right fun hlost => ⟨rfl, hlost.2⟩
    waiting := fun haway => ⟨by simp [close], (h.waiting haway).2⟩ }

theorem Turns.closeN (h : Turns i n w) : Turns i n.close w :=
  { h with
    shutN := by simp [close]
    settled := ⟨h.settled.1, by simp [close]⟩
    stableN := by simp [close]
    pendingN := by simp [close]
    requesting := fun hne => ⟨by simp [close], (h.requesting hne).2⟩
    offering := by simp [close] }

/-- An offer that a closed end drops leaves the turn away for good. -/
theorem Turns.dropOfferI (h : Turns i n { w with offersI := w.offersI + 1 })
    (hclosed : i.closed = true ∨ n.closed = true) : Turns i n w := by
  have haway : i.remoteNegotiationGrant ≠ 0 := fun hheld => absurd (h.held hheld).2.2 (by simp)
  have htoken : w.grants.length + (if n.localNegotiationGrant = 0 then 0 else 1)
      + (w.offersI + 1) ≤ 1 := h.token
  have hexchange : w.offersI + 1 + w.answersN ≤ 1 := h.exchangeI
  exact { h with
    exchangeI := by omega
    stableN := fun hidle => absurd (h.stableN hidle).1 (by simp)
    pendingN := fun hpending => .inr ⟨hclosed.resolve_right fun hshut => (by
      rw [h.shutN.mp hshut] at hpending
      cases hpending), haway⟩
    token := by omega
    held := fun hheld => absurd hheld haway }

theorem Turns.dropAnswerI (h : Turns i n { w with answersI := w.answersI + 1 }) : Turns i n w := by
  have hexchange : w.offersN + (w.answersI + 1) ≤ 1 := h.exchangeN
  exact { h with
    exchangeN := by omega
    stableI := fun hidle => absurd (h.stableI hidle).2 (by simp)
    waiting := fun haway => absurd (h.waiting haway).2.2 (by simp) }

theorem Turns.dropOfferN (h : Turns i n { w with offersN := w.offersN + 1 }) : Turns i n w := by
  have hexchange : w.offersN + 1 + w.answersI ≤ 1 := h.exchangeN
  exact { h with
    exchangeN := by omega
    stableI := fun hidle => absurd (h.stableI hidle).1 (by simp)
    waiting := fun haway => absurd (h.waiting haway).2.1 (by simp) }

theorem Turns.dropAnswerN (h : Turns i n { w with answersN := w.answersN + 1 })
    (hclosed : n.closed = true) : Turns i n w := by
  have hexchange : w.offersI + (w.answersN + 1) ≤ 1 := h.exchangeI
  have hshut := h.shutN.mp hclosed
  exact { h with
    exchangeI := by omega
    stableN := fun hidle => absurd (h.stableN hidle).2 (by simp)
    pendingN := fun hpending => by rw [hshut] at hpending; cases hpending }

/-! ## What a turn depends on -/

theorem Turns.congrI (h : Turns i n w) {i' : FederationPeer} (hm : i'.makingOffer = i.makingOffer)
    (hc : i'.closed = i.closed) (hs : i'.signaling = i.signaling)
    (hg : i'.remoteNegotiationGrant = i.remoteNegotiationGrant)
    (hr : i'.remoteNegotiationRequest = i.remoteNegotiationRequest)
    (hl : i'.lastRemoteNegotiationRequest = i.lastRemoteNegotiationRequest) : Turns i' n w := by
  obtain ⟨h1, h2, h3, h4, h5, h6, h7, h8, h9, h10, h11, h12, h13, h14, h15, h16, h17, h18, h19⟩ := h
  rw [← hc, ← hs] at h2
  rw [← hs] at h4 h7
  rw [← hg] at h10 h12
  rw [← hr] at h13 h15
  rw [← hl] at h19
  refine ⟨hm ▸ h1, h2, h3, h4, h5, h6, h7, h8, ?_, ?_, h11, h12, h13, ?_, h15, h16, h17, h18, h19⟩
  · rw [hc, hg]
    exact h9
  · rw [hs]
    exact h10
  · rw [hl]
    exact h14

theorem Turns.congrN (h : Turns i n w) {n' : FederationPeer} (hm : n'.makingOffer = n.makingOffer)
    (hc : n'.closed = n.closed) (hs : n'.signaling = n.signaling)
    (hg : n'.localNegotiationGrant = n.localNegotiationGrant)
    (hr : n'.localNegotiationRequest = n.localNegotiationRequest)
    (hq : n'.nextNegotiationSequence = n.nextNegotiationSequence) : Turns i n' w := by
  obtain ⟨h1, h2, h3, h4, h5, h6, h7, h8, h9, h10, h11, h12, h13, h14, h15, h16, h17, h18, h19⟩ := h
  rw [← hc, ← hs] at h3
  rw [← hs] at h4 h8 h9
  rw [← hg] at h11 h12
  rw [← hr] at h15
  rw [← hs, ← hg] at h18
  rw [← hq] at h19
  refine ⟨hm ▸ h1, h2, h3, h4, h5, h6, h7, h8, h9, h10, h11, h12, h13, ?_, h15, ?_, ?_, h18, h19⟩
  · rw [hr]
    exact h14
  · rw [hr]
    exact h16
  · rw [hr, hs, hg, hq]
    exact h17

end

end WebrtcMinimize
