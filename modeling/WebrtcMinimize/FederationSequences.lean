import WebrtcMinimize.FederationGlare

/-!
# Negotiation sequences

The end that asks for turns numbers its requests, and a grant carries the
number of the request it answers. `Rising` says that what was sent so far
rises and that what is yet to be sent will go on rising; with the turn
(`Orderly`), which leaves room for one request or grant at a time, every
step keeps it.
-/

namespace WebrtcMinimize

open Checks Runs NegotiatedLink NegotiationEvent ControlMessage List Nat

/-- The numbers of a link: the request of the last turn asked for, the last
request that came in and the one noted, and the requests and grants that the
ends sent and have yet to send. -/
structure Numbers where
  next : Nat
  last : Nat
  noted : Nat
  asked : List Nat
  asking : List Nat
  granted : List Nat
  granting : List Nat

def NegotiatedLink.numbers (s : NegotiatedLink) : Numbers where
  next := s.responder.peer.nextNegotiationSequence
  last := s.initiator.peer.lastRemoteNegotiationRequest
  noted := s.initiator.peer.remoteNegotiationRequest
  asked := requests s.responder.sent
  asking := requests s.responder.unsentControls
  granted := grants s.initiator.sent
  granting := grants s.initiator.unsentControls

structure Rising (v : Numbers) : Prop where
  asked : v.asked.Pairwise (· < ·)
  asking : ∀ k ∈ v.asked, ∀ l ∈ v.asking, k < l
  upTo : ∀ k ∈ v.asked ++ v.asking, k ≤ v.next
  granted : v.granted.Pairwise (· < ·)
  granting : ∀ k ∈ v.granted, ∀ l ∈ v.granting, k < l
  noted : v.noted ≠ 0 → ∀ k ∈ v.granted, k < v.noted
  heard : ∀ k ∈ v.granted ++ v.granting, k ≤ v.last
  kept : v.noted ≤ v.last

theorem rising_new : Rising new.numbers := by
  constructor <;>
    simp [numbers, new, LinkEnd.new, FederationPeer.new]

section

variable {v : Numbers}

theorem Rising.ask (h : Rising v) (hidle : v.asking = []) :
    Rising { v with next := v.next + 1, asking := v.asking ++ [v.next + 1] } := by
  have hle : ∀ k ∈ v.asked, k ≤ v.next := fun k hk => h.upTo k (mem_append_left _ hk)
  exact { h with
    asking := by
      rw [hidle, nil_append]
      intro k hk l hl
      rw [mem_singleton.mp hl]
      exact lt_succ_of_le (hle k hk)
    upTo := by
      rw [hidle, nil_append]
      intro k hk
      rcases mem_append.mp hk with hk | hk
      · exact le_succ_of_le (hle k hk)
      · exact le_of_eq (mem_singleton.mp hk) }

theorem Rising.note (h : Rising v) {k : Nat} (hk : v.last < k) :
    Rising { v with last := k, noted := k } :=
  { h with
    noted := fun _ l hl =>
      lt_of_le_of_lt (h.heard l (mem_append_left _ hl)) hk
    heard := fun l hl => le_of_lt (lt_of_le_of_lt (h.heard l hl) hk)
    kept := le_refl k }

theorem Rising.grant (h : Rising v) (hnoted : v.noted ≠ 0) (hidle : v.granting = []) :
    Rising { v with noted := 0, granting := v.granting ++ [v.noted] } := by
  exact { h with
    granting := by
      rw [hidle, nil_append]
      intro k hk l hl
      rw [mem_singleton.mp hl]
      exact h.noted hnoted k hk
    noted := fun hne => absurd rfl hne
    heard := by
      rw [hidle, nil_append]
      intro k hk
      rcases mem_append.mp hk with hk | hk
      · exact h.heard k (mem_append_left _ hk)
      · exact le_trans (le_of_eq (mem_singleton.mp hk)) h.kept
    kept := zero_le _ }

theorem subset_append {α : Type} {as bs cs : List α} (h : bs ⊆ cs) : as ++ bs ⊆ as ++ cs :=
  fun _ ha => mem_append.mpr ((mem_append.mp ha).imp_right fun hb => h hb)

theorem Rising.fewer (h : Rising v) {asking granting : List Nat} (hasking : asking ⊆ v.asking)
    (hgranting : granting ⊆ v.granting) :
    Rising { v with asking := asking, granting := granting } :=
  { h with
    asking := fun k hk l hl => h.asking k hk l (hasking hl)
    upTo := fun k hk => h.upTo k (subset_append hasking hk)
    granting := fun k hk l hl => h.granting k hk l (hgranting hl)
    heard := fun k hk => h.heard k (subset_append hgranting hk) }

theorem pairwise_snoc {ks : List Nat} {l : Nat} (h : ks.Pairwise (· < ·))
    (hl : ∀ k ∈ ks, k < l) : (ks ++ [l]).Pairwise (· < ·) :=
  pairwise_append.mpr ⟨h, pairwise_singleton _ l, fun k hk _ hm =>
    mem_singleton.mp hm ▸ hl k hk⟩

theorem Rising.sendRequest (h : Rising v) {k : Nat} (hone : v.asking = [k]) :
    Rising { v with asked := v.asked ++ [k], asking := [] } := by
  have hnext := h.asking
  have hupTo := h.upTo
  rw [hone] at hnext hupTo
  exact { h with
    asked := pairwise_snoc h.asked fun l hl => hnext l hl k mem_cons_self
    asking := fun _ _ _ hl => absurd hl not_mem_nil
    upTo := by rwa [append_nil] }

theorem Rising.sendGrant (h : Rising v) {k : Nat} (hone : v.granting = [k]) (hidle : v.noted = 0) :
    Rising { v with granted := v.granted ++ [k], granting := [] } := by
  have hnext := h.granting
  have hheard := h.heard
  rw [hone] at hnext hheard
  exact { h with
    granted := pairwise_snoc h.granted fun l hl => hnext l hl k mem_cons_self
    granting := fun _ _ _ hl => absurd hl not_mem_nil
    noted := fun hne => absurd hidle hne
    heard := by rwa [append_nil] }

end

/-! ## What is sent one at a time -/

theorem requests_erase {k : Nat} {messages : List ControlMessage}
    (h : .negotiationRequest k ∈ messages) :
    (requests messages).Perm (k :: requests (messages.erase (.negotiationRequest k))) :=
  (perm_cons_erase h).filterMap _

theorem grants_erase {k : Nat} {messages : List ControlMessage}
    (h : .negotiationGrant k ∈ messages) :
    (grants messages).Perm (k :: grants (messages.erase (.negotiationGrant k))) :=
  (perm_cons_erase h).filterMap _

theorem filterMap_erase_subset {message : ControlMessage} (f : ControlMessage → Option Nat)
    (messages : List ControlMessage) :
    (messages.erase message).filterMap f ⊆ messages.filterMap f :=
  (erase_sublist.filterMap f).subset

theorem singleton_of_perm_cons {ks rest : List Nat} {k : Nat} (h : ks.Perm (k :: rest))
    (hone : ks.length ≤ 1) : ks = [k] ∧ rest = [] := by
  have hlength := h.length_eq
  rw [length_cons] at hlength
  obtain rfl : rest = [] := eq_nil_of_length_eq_zero (by omega)
  exact ⟨perm_singleton.mp h, rfl⟩

structure Sequenced (s : NegotiatedLink) : Prop where
  rising : Rising s.numbers
  initiator : requests s.initiator.sent = [] ∧ requests s.initiator.unsentControls = []
  responder : grants s.responder.sent = [] ∧ grants s.responder.unsentControls = []

section

variable {s : NegotiatedLink}

section

variable (h : Sequenced s)

include h

theorem Sequenced.negotiate (horderly : Orderly s) (side : Side)
    (created : Bool) : Sequenced ((negotiate side created).apply s) := by
  cases side with
  | initiator =>
      simp only [apply, own, other, put, Side.isInitiator]
      rcases s.initiator.peer.negotiate_cases true created with ⟨needs, heq⟩ | ⟨hother, -⟩ |
        ⟨-, -, -, heq⟩
      · rw [heq]
        exact ⟨h.rising, h.initiator, h.responder⟩
      · cases hother
      · rw [heq]
        exact ⟨h.rising, h.initiator, h.responder⟩
  | responder =>
      simp only [apply, own, other, put, Side.isInitiator]
      rcases s.responder.peer.negotiate_cases false created with ⟨needs, heq⟩ |
        ⟨-, -, -, hrequest, heq⟩ | ⟨-, -, -, heq⟩
      · rw [heq]
        exact ⟨h.rising, h.initiator, h.responder⟩
      · rw [heq]
        have hidle : requests s.responder.unsentControls = [] :=
          eq_nil_iff_forall_not_mem.mpr fun k hk => by
            have := horderly.turns.request k (mem_append_right _ hk)
            omega
        have hrising := h.rising.ask hidle
        refine ⟨?_, h.initiator, h.responder.1, ?_⟩
        · simpa [numbers, request?] using hrising
        · simpa [grant?] using h.responder.2
      · rw [heq]
        exact ⟨h.rising, h.initiator, h.responder⟩

theorem Sequenced.continueNegotiation (horderly : Orderly s) (side : Side) :
    Sequenced ((continueNegotiation side).apply s) := by
  cases side with
  | initiator =>
      simp only [apply, own, other, put, Side.isInitiator]
      rcases s.initiator.peer.takeRemoteNegotiationGrant_cases true with heq |
        ⟨-, hrequest, -, -, heq⟩
      · rw [heq]
        refine ⟨?_, ?_, h.responder⟩
        · simpa [numbers] using h.rising
        · simpa using h.initiator
      · rw [heq]
        have hasked := horderly.turns.asked
        rw [if_neg hrequest] at hasked
        have hidle : grants s.initiator.unsentControls = [] := by
          refine eq_nil_of_length_eq_zero ?_
          simp only [underway, length_append] at hasked
          omega
        have hrising := h.rising.grant hrequest hidle
        refine ⟨?_, ⟨h.initiator.1, ?_⟩, h.responder⟩
        · simpa [numbers, grant?] using hrising
        · simpa [request?] using h.initiator.2
  | responder =>
      simp only [apply, own, other, put, Side.isInitiator]
      rcases s.responder.peer.takeRemoteNegotiationGrant_cases false with heq | ⟨hother, -⟩
      · rw [heq]
        refine ⟨?_, h.initiator, ?_⟩
        · simpa [numbers] using h.rising
        · simpa using h.responder
      · cases hother

theorem Sequenced.announce (side : Side) {message : ControlMessage}
    (hrequest : message.request? = none) (hgrant : message.grant? = none) (sequence : Nat) :
    Sequenced (.put side { s.own side with
      peer := { (s.own side).peer with statsSequence := sequence }
      unsentControls := (s.own side).unsentControls ++ [message] } (s.other side)) := by
  cases side with
  | initiator =>
      refine ⟨?_, ⟨h.initiator.1, ?_⟩, h.responder⟩
      · simpa [numbers, put, own, other, hgrant] using h.rising
      · simpa [put, own, hrequest] using h.initiator.2
  | responder =>
      refine ⟨?_, h.initiator, h.responder.1, ?_⟩
      · simpa [numbers, put, own, other, hrequest] using h.rising
      · simpa [put, own, hgrant] using h.responder.2

theorem Sequenced.markReady (side : Side) :
    Sequenced ((markReady side).apply s) := by
  cases side <;> simp only [apply, own, put] <;>
    rw [FederationPeer.markReady_eq] <;> exact ⟨h.rising, h.initiator, h.responder⟩

theorem Sequenced.close (side : Side) : Sequenced ((close side).apply s) := by
  cases side <;> exact ⟨h.rising, h.initiator, h.responder⟩

theorem Sequenced.sendSignal (side : Side) (message : SignalMessage)
    (delivered : Bool) :
    Sequenced ((sendSignal side message delivered).apply s) := by
  simp only [apply]
  split
  · exact h
  · cases side <;> cases delivered <;> exact ⟨h.rising, h.initiator, h.responder⟩

end

theorem Sequenced.giveUp {side : Side} {own other : LinkEnd} (h : Sequenced (.put side own other))
    (message : ControlMessage) :
    Sequenced (.put side (giveUp own message) other) := by
  have hclosed : Sequenced (.put side own.close other) := by
    cases side with
    | initiator => exact h.close .initiator
    | responder => exact h.close .responder
  cases message with
  | negotiationRequest sequence => exact hclosed
  | negotiationGrant sequence => exact hclosed
  | hello => exact h
  | ack accepted => exact h
  | stats sequence => exact h

section

variable (h : Sequenced s)

include h

theorem Sequenced.drop (side : Side) (message : ControlMessage) :
    Sequenced (.put side
      { s.own side with unsentControls := (s.own side).unsentControls.erase message }
      (s.other side)) := by
  cases side with
  | initiator =>
      refine ⟨h.rising.fewer (List.Subset.refl _) (filterMap_erase_subset _ _),
        ⟨h.initiator.1, ?_⟩, h.responder⟩
      exact subset_nil.mp (h.initiator.2 ▸ filterMap_erase_subset _ _)
  | responder =>
      refine ⟨h.rising.fewer (filterMap_erase_subset _ _) (List.Subset.refl _), h.initiator,
        h.responder.1, ?_⟩
      exact subset_nil.mp (h.responder.2 ▸ filterMap_erase_subset _ _)

theorem Sequenced.say (side : Side) {message : ControlMessage}
    (hrequest : message.request? = none) (hgrant : message.grant? = none)
    (controls : List ControlMessage) :
    Sequenced (.put side { s.own side with
        unsentControls := (s.own side).unsentControls.erase message
        sent := (s.own side).sent ++ [message] }
      { s.other side with controls := controls }) := by
  have hdropped := h.drop side message
  cases side with
  | initiator =>
      refine ⟨?_, ⟨?_, hdropped.initiator.2⟩, h.responder⟩
      · simpa [numbers, put, own, other, hgrant] using hdropped.rising
      · simpa [put, own, hrequest] using h.initiator.1
  | responder =>
      refine ⟨?_, h.initiator, ?_, hdropped.responder.2⟩
      · simpa [numbers, put, own, other, hrequest] using hdropped.rising
      · simpa [put, own, hgrant] using h.responder.1

theorem Sequenced.request (horderly : Orderly s) {side : Side} {k : Nat}
    (hmem : .negotiationRequest k ∈ (s.own side).unsentControls) (controls : List ControlMessage) :
    Sequenced (.put side { s.own side with
        unsentControls := (s.own side).unsentControls.erase (.negotiationRequest k)
        sent := (s.own side).sent ++ [.negotiationRequest k] }
      { s.other side with controls := controls }) := by
  have hperm := requests_erase hmem
  cases side with
  | initiator =>
      simp only [own] at hperm
      rw [h.initiator.2] at hperm
      exact absurd hperm.length_eq (by simp)
  | responder =>
      simp only [own] at hperm
      have hasked := horderly.turns.asked
      simp only [underway, length_append] at hasked
      obtain ⟨hone, hrest⟩ := singleton_of_perm_cons hperm (by omega)
      refine ⟨?_, h.initiator, ?_, (h.drop .responder _).responder.2⟩
      · have hrising := h.rising.sendRequest hone
        simpa [numbers, put, own, other, hrest, request?] using hrising
      · simpa [put, own, grant?] using h.responder.1

theorem Sequenced.grant (horderly : Orderly s) {side : Side} {k : Nat}
    (hmem : .negotiationGrant k ∈ (s.own side).unsentControls) (controls : List ControlMessage) :
    Sequenced (.put side { s.own side with
        unsentControls := (s.own side).unsentControls.erase (.negotiationGrant k)
        sent := (s.own side).sent ++ [.negotiationGrant k] }
      { s.other side with controls := controls }) := by
  have hperm := grants_erase hmem
  cases side with
  | responder =>
      simp only [own] at hperm
      rw [h.responder.2] at hperm
      exact absurd hperm.length_eq (by simp)
  | initiator =>
      simp only [own] at hperm
      have hlength := hperm.length_eq
      rw [length_cons] at hlength
      have hasked := horderly.turns.asked
      simp only [underway, length_append] at hasked
      obtain ⟨hone, hrest⟩ := singleton_of_perm_cons hperm (by omega)
      have hidle : s.initiator.peer.remoteNegotiationRequest = 0 := by
        by_contra hne
        rw [if_neg hne] at hasked
        omega
      refine ⟨?_, ⟨?_, (h.drop .initiator _).initiator.2⟩, h.responder⟩
      · have hrising := h.rising.sendGrant hone hidle
        simpa [numbers, put, own, other, hrest, grant?] using hrising
      · simpa [put, own, request?] using h.initiator.1

theorem Sequenced.sendControl (horderly : Orderly s) (side : Side)
    (message : ControlMessage) (delivered : Bool) :
    Sequenced ((sendControl side message delivered).apply s) := by
  simp only [apply]
  split
  · exact h
  · rename_i hmem
    rw [not_not] at hmem
    split
    · cases message with
      | negotiationRequest k => exact h.request horderly hmem _
      | negotiationGrant k => exact h.grant horderly hmem _
      | hello => exact h.say side rfl rfl _
      | ack accepted => exact h.say side rfl rfl _
      | stats sequence => exact h.say side rfl rfl _
    · exact (h.drop side message).giveUp message

end

end

theorem FederationPeer.acceptSignal_numbers {f peer : FederationPeer} {isInitiator retry : Bool}
    {message : SignalMessage} {reply : Option SignalMessage}
    (h : f.acceptSignal isInitiator retry message = .ok (peer, reply)) :
    peer.nextNegotiationSequence = f.nextNegotiationSequence
      ∧ peer.lastRemoteNegotiationRequest = f.lastRemoteNegotiationRequest
      ∧ peer.remoteNegotiationRequest = f.remoteNegotiationRequest := by
  cases message with
  | candidate =>
      obtain ⟨_, -, h⟩ := bind_ok_iff.mp h
      cases h
      exact ⟨rfl, rfl, rfl⟩
  | offer =>
      obtain ⟨_, -, h⟩ := bind_ok_iff.mp h
      obtain ⟨_, -, h⟩ := bind_ok_iff.mp h
      obtain ⟨_, -, h⟩ := bind_ok_iff.mp h
      obtain ⟨_, -, h⟩ := bind_ok_iff.mp h
      split at h
      · cases h
      · cases h
        exact ⟨rfl, rfl, rfl⟩
  | answer =>
      rw [acceptSignal] at h
      obtain ⟨_, -, h⟩ := bind_ok_iff.mp h
      split at h
      · cases h
      · cases h
        exact ⟨rfl, rfl, rfl⟩

section

variable {s : NegotiatedLink}

theorem Sequenced.receiveSignal (h : Sequenced s) (side : Side) (retry : Bool) :
    Sequenced ((receiveSignal side retry).apply s) := by
  simp only [apply]
  cases hsignals : (s.own side).signals with
  | nil => exact h
  | cons message rest =>
      dsimp only
      cases haccept : (s.own side).peer.acceptSignal side.isInitiator retry message with
      | error code => cases side <;> exact ⟨h.rising, h.initiator, h.responder⟩
      | ok result =>
          obtain ⟨hnext, hlast, hnoted⟩ := FederationPeer.acceptSignal_numbers haccept
          have hrising := h.rising
          cases side with
          | initiator =>
              simp only [own] at hlast hnoted
              rw [numbers, ← hlast, ← hnoted] at hrising
              exact ⟨hrising, h.initiator, h.responder⟩
          | responder =>
              simp only [own] at hnext
              rw [numbers, ← hnext] at hrising
              exact ⟨hrising, h.initiator, h.responder⟩

theorem Sequenced.hears (h : Sequenced s) (horderly : Orderly s) {side : Side}
    {message : ControlMessage} {rest : List ControlMessage}
    (hcontrols : (s.own side).controls = message :: rest) {leaseActive : Bool}
    {peer : FederationPeer} {reply : Option ControlMessage}
    (haccept : (s.own side).peer.acceptControl side.isInitiator leaseActive message
      = .ok (peer, reply)) :
    Sequenced (.put side { s.own side with
      controls := rest
      peer := peer
      unsentControls := (s.own side).unsentControls ++ reply.toList } (s.other side)) := by
  rcases FederationPeer.acceptControl_cases _ haccept with ⟨hello, ack, stats, rfl, hreply⟩ |
    ⟨sequence, rfl, hinitiator, hlast, grant, htake, rfl⟩ | ⟨sequence, rfl, hother, -, rfl, rfl⟩
  · have hneutral : requests reply.toList = [] ∧ grants reply.toList = [] := by
      rcases hreply with rfl | rfl <;> exact ⟨rfl, rfl⟩
    cases side with
    | initiator =>
        refine ⟨?_, ⟨h.initiator.1, ?_⟩, h.responder⟩
        · simpa [numbers, put, own, other, hneutral] using h.rising
        · simpa [put, own, hneutral] using h.initiator.2
    | responder =>
        refine ⟨?_, h.initiator, h.responder.1, ?_⟩
        · simpa [numbers, put, own, other, hneutral] using h.rising
        · simpa [put, own, hneutral] using h.responder.2
  · cases side with
    | responder => cases hinitiator
    | initiator =>
        simp only [own] at hcontrols htake hlast
        have hnoted := h.rising.note hlast
        have hasked := horderly.turns.asked
        simp only [underway, hcontrols, requests_cons, request?,
          Option.toList_some, length_append, length_singleton] at hasked
        rcases FederationPeer.takeRemoteNegotiationGrant_cases _ _ |>.imp htake.symm.trans
          (fun hgive => hgive) with heq | ⟨-, hrequest, -, -, hgive⟩
        · cases heq
          refine ⟨?_, ⟨h.initiator.1, ?_⟩, h.responder⟩
          · simpa [numbers, put, own, other] using hnoted
          · simpa [put, own] using h.initiator.2
        · cases htake.symm.trans hgive
          have hidle : grants s.initiator.unsentControls = [] := eq_nil_of_length_eq_zero (by omega)
          have hrising := hnoted.grant hrequest hidle
          refine ⟨?_, ⟨h.initiator.1, ?_⟩, h.responder⟩
          · simpa [numbers, put, own, other, grant?] using hrising
          · simpa [put, own, request?] using h.initiator.2
  · cases side with
    | initiator => cases hother
    | responder =>
        refine ⟨?_, h.initiator, h.responder.1, ?_⟩
        · simpa [numbers, put, own, other] using h.rising
        · simpa [put, own] using h.responder.2

theorem Sequenced.receiveControl (h : Sequenced s) (horderly : Orderly s) (side : Side)
    (leaseActive : Bool) :
    Sequenced ((receiveControl side leaseActive).apply s) := by
  simp only [apply]
  cases hcontrols : (s.own side).controls with
  | nil => exact h
  | cons message rest =>
      dsimp only
      cases haccept : (s.own side).peer.acceptControl side.isInitiator leaseActive message with
      | ok result => exact h.hears horderly hcontrols haccept
      | error reason => cases side <;> exact ⟨h.rising, h.initiator, h.responder⟩

theorem sequenced_run {es : List NegotiationEvent} (h : Path NegotiationStep .new es s) :
    Orderly s ∧ Sequenced s := by
  refine h.inv (I := fun s => Orderly s ∧ Sequenced s) ?_
    ⟨orderly_new, rising_new, ⟨rfl, rfl⟩, rfl, rfl⟩
  rintro s event t hstep ⟨horderly, hs⟩
  refine ⟨orderly_step hstep horderly, ?_⟩
  cases hstep
  cases event with
  | negotiate side created => exact hs.negotiate horderly side created
  | continueNegotiation side => exact hs.continueNegotiation horderly side
  | markReady side => exact hs.markReady side
  | controlOpened side => exact hs.announce side rfl rfl (s.own side).peer.statsSequence
  | statsTicked side => exact hs.announce side rfl rfl ((s.own side).peer.statsSequence + 1)
  | candidateGathered side => cases side <;> exact ⟨hs.rising, hs.initiator, hs.responder⟩
  | sendSignal side message delivered => exact hs.sendSignal side message delivered
  | sendControl side message delivered => exact hs.sendControl horderly side message delivered
  | receiveSignal side retry => exact hs.receiveSignal side retry
  | receiveControl side leaseActive => exact hs.receiveControl horderly side leaseActive
  | close side => exact hs.close side

/-- The offers that are made and not answered. -/
def NegotiatedLink.outstanding (s : NegotiatedLink) : Nat :=
  offers s.initiator.unsentSignals + offers s.responder.signals
    + (offers s.responder.unsentSignals + offers s.initiator.signals)

end

/-- The link after a list of events. -/
def negotiated (es : List NegotiationEvent) : NegotiatedLink := es.foldl apply .new

/-- Both ends want to negotiate at once: the initiator offers, answers come
in, and the other end offers with the turn it was granted. -/
def sampleNegotiation : List NegotiationEvent :=
  [.controlOpened .initiator, .sendControl .initiator .hello true,
    .controlOpened .responder, .sendControl .responder .hello true,
    .receiveControl .initiator true, .sendControl .initiator (.ack true) true,
    .receiveControl .responder true, .sendControl .responder (.ack true) true,
    .receiveControl .initiator true, .markReady .initiator,
    .receiveControl .responder true, .markReady .responder,
    .negotiate .responder true, .sendControl .responder (.negotiationRequest 1) true,
    .negotiate .initiator true, .receiveControl .initiator true,
    .sendSignal .initiator .offer true, .receiveSignal .responder false,
    .receiveSignal .initiator false, .continueNegotiation .initiator,
    .sendControl .initiator (.negotiationGrant 1) true, .receiveControl .responder true,
    .negotiate .responder true, .sendSignal .responder .offer true]

end WebrtcMinimize
