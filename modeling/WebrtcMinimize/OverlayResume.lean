import WebrtcMinimize.OverlayForgery

/-!
# Resuming over a relay

The peers of a path with the packets that travel between them. A chunk is
lost past a relay when the relay has marked it, nothing of it is on its way
behind the relay, and its peer at the end has not seen it (`LostPast`). What is
sent again takes the same path and meets the mark: no event within the
lifetime brings the chunk past the relay (`LostPast.next`), so the message is
never delivered (`never_delivered`).
-/

namespace WebrtcMinimize

open Checks Runs

namespace Overlay

open State Peer KeyedMap Option Function
open List hiding after

variable {C : Crypto} {m : Message C} {s : State C} {p : Peer C}

/-! ## Peers and packets between them -/

/-- A packet on its way to the next peer. -/
structure Flying where
  packet : OverlayPacket
  sender : String
  receiver : String

structure Net (C : Crypto) where
  peers : String → Peer C
  flight : List Flying

inductive NetEvent (C : Crypto) where
  /-- something at one peer that needs no packet of these -/
  | peer (peerId : String) (e : Event C)
  /-- the packet at the index arrives -/
  | deliver (index : Nat) (context : ReceiveContext) (now : Int)
  /-- the packet at the index is lost -/
  | lose (index : Nat)
  /-- a sender resumes, and sends again what that gives -/
  | resume (peerId packetId : String) (missing : List Int)

/-- What a call returns that an event ends. -/
def Peer.returned (p : Peer C) : Event C → Option Result
  | .arrive raw previousPeerId context now =>
      (p.state.begin raw previousPeerId context now).2.result
  | .advance index => p.waiting[index]?.bind fun w => (p.state.advance w).2.result
  | _ => none

/-- What a peer sends on when a call returns. -/
def sendOn (peerId : String) : Option Result → List Flying
  | some (.forward nextPeerId packet) => [⟨packet, peerId, nextPeerId⟩]
  | _ => []

def Net.act (n : Net C) (peerId : String) (e : Event C) : Net C where
  peers := update n.peers peerId ((n.peers peerId).next e)
  flight := sendOn peerId ((n.peers peerId).returned e) ++ n.flight

def Net.next (n : Net C) : NetEvent C → Net C
  | .peer peerId e => n.act peerId e
  | .deliver index context now =>
      match n.flight[index]? with
      | none => n
      | some f =>
          Net.act { n with flight := n.flight.eraseIdx index } f.receiver
            (.arrive (wire f.packet) f.sender context now)
  | .lose index => { n with flight := n.flight.eraseIdx index }
  | .resume peerId packetId missing => {
      peers := update n.peers peerId ((n.peers peerId).next (.resume packetId missing))
      flight := (((n.peers peerId).state.resume packetId missing).2.filterMap fun packet =>
        packet.path[1]?.map fun nextPeerId => ⟨packet, peerId, nextPeerId⟩) ++ n.flight }

/-! ## One event at a peer -/

/-- The second part marks its packet only where there was no mark. -/
theorem claim_state (s : State C) (call : Call) : (s.claim call).1 = s ∨
    ((s.claim call).1 = s.mark call.packet ∧ s.seen.get call.packet.replayKey = none) := by
  by_cases hdigest : sha256 call.ciphertext = call.packet.digest
  · by_cases hcurrent : s.current call.packet.originPeerId = call.current
    · cases hseen : s.seen.get call.packet.replayKey with
      | some expiresAt =>
          rw [claim_replay hdigest hcurrent (by rw [hseen, isSome_some])]
          exact .inl rfl
      | none => exact .inr ⟨(claim_marks _ _ hdigest hcurrent hseen).1, rfl⟩
    · refine .inl ?_
      simp only [claim]
      rw [if_neg (not_not.mpr hdigest), if_pos hcurrent]
  · refine .inl ?_
    simp only [claim]
    rw [if_pos hdigest]

theorem advance_seen (s : State C) (w : Waiting C) : (s.advance w).1.seen = s.seen ∨
    ∃ call, w = .digest call ∧ (s.advance w).1.seen = (s.mark call.packet).seen
      ∧ s.seen.get call.packet.replayKey = none := by
  cases w with
  | digest call =>
      rcases claim_state s call with hsame | ⟨hmark, hnone⟩
      · exact .inl (congrArg seen hsame)
      · exact .inr ⟨call, rfl, congrArg seen hmark, hnone⟩
  | key call cached key =>
      refine .inl ?_
      rw [advance]
      rcases derived_cases s call cached key with ⟨result, hderived, -⟩ | ⟨t, hderived, rfl | rfl⟩
      · rw [hderived]
      · rw [hderived]
      · rw [hderived]
  | cleartext call key =>
      obtain ⟨⟨assemblies, hstate, -⟩, -⟩ := finish_cases s call key
      rw [advance, hstate]
      exact .inl rfl

theorem begin_state (s : State C) (raw : RawPacket) (previousPeerId : String)
    (context : ReceiveContext) (now : Int) :
    (s.begin raw previousPeerId context now).1 = s.prune now := by
  rcases begin_cases s raw previousPeerId context now with ⟨_, h, -⟩ | ⟨_, _, h, -⟩
  · rw [h]
  · rw [h]

/-- The time an event reads. -/
def Event.now? : Event C → Option Int
  | .arrive _ _ _ now => some now
  | _ => none

theorem seen_imported (peerId : String) (operation : Nat) (key : C.PublicKey) :
    (s.imported peerId operation key).seen = s.seen := by
  rw [imported]
  split <;> rfl

theorem seen_encrypt {t : State C} {destinationPeerId : String} {data : List UInt8}
    {context : EncryptContext} {randoms : Randoms} {now : Int} {packets : List OverlayPacket}
    (h : s.encrypt destinationPeerId data context randoms now = .ok (t, packets)) :
    t.seen = s.seen := by
  simp only [encrypt, bind_ok_iff, failIf_ok_iff, pure_ok_iff] at h
  obtain ⟨_, -, _, -, key, -, heq⟩ := h
  cases heq
  rfl

theorem seen_resume (packetId : String) (missing : List Int) :
    (s.resume packetId missing).1.seen = s.seen := by
  rw [resume]
  split
  · rfl
  · split
    · rfl
    · split <;> rfl

theorem seen_kept {e : Event C} {key : String} {expiresAt : Int}
    (h : p.state.seen.get key = some expiresAt) (he : ∀ now ∈ e.now?, now < expiresAt) :
    (p.next e).state.seen.get key = some expiresAt := by
  cases e with
  | arrive raw previousPeerId context now =>
      rw [Peer.next, after_state, begin_state, get_prune_seen, h, filter_some,
        if_pos (decide_eq_true (he now rfl))]
  | advance index =>
      rw [Peer.next]
      split
      · exact h
      · rename_i w hw
        rw [after_state]
        rcases advance_seen p.state w with hsame | ⟨call, -, hmark, hnone⟩
        · rw [hsame, h]
        · rw [hmark, mark, get_set_of_ne _ _ fun heq => ?_, h]
          rw [heq, hnone] at h
          cases h
  | removePeer peerId => exact h
  | setPeerKey peerId => exact h
  | imported peerId operation key =>
      rw [Peer.next, seen_imported]
      exact h
  | encrypt destinationPeerId data context randoms now =>
      rw [Peer.next]
      split
      · exact h
      · rename_i t packets hsent
        rw [seen_encrypt hsent]
        exact h
  | resume packetId missing =>
      rw [Peer.next, seen_resume]
      exact h

theorem seen_new {e : Event C} {key : String} (h : p.state.seen.get key = none) :
    (p.next e).state.seen.get key = none ∨
      ∃ call, .digest call ∈ p.waiting ∧ key = call.packet.replayKey := by
  cases e with
  | arrive raw previousPeerId context now =>
      rw [Peer.next, after_state, begin_state, get_prune_seen, h]
      exact .inl rfl
  | advance index =>
      rw [Peer.next]
      split
      · exact .inl h
      · rename_i w hw
        rw [after_state]
        rcases advance_seen p.state w with hsame | ⟨call, rfl, hmark, -⟩
        · rw [hsame]
          exact .inl h
        · by_cases heq : key = call.packet.replayKey
          · exact .inr ⟨call, mem_of_getElem? hw, heq⟩
          · rw [hmark, mark, get_set_of_ne _ _ heq]
            exact .inl h
  | removePeer peerId => exact .inl h
  | setPeerKey peerId => exact .inl h
  | imported peerId operation key =>
      rw [Peer.next, seen_imported]
      exact .inl h
  | encrypt destinationPeerId data context randoms now =>
      rw [Peer.next]
      split
      · exact .inl h
      · rename_i t packets hsent
        rw [seen_encrypt hsent]
        exact .inl h
  | resume packetId missing =>
      rw [Peer.next, seen_resume]
      exact .inl h

/-- A call that waits after an event waited before, or has just come in. -/
theorem waiting_next {e : Event C} {w : Waiting C} (h : w ∈ (p.next e).waiting) :
    (∃ v ∈ p.waiting, v.call.packet = w.call.packet) ∨
      ∃ raw previousPeerId context now, e = .arrive raw previousPeerId context now
        ∧ parseOverlayPacket raw now = some w.call.packet := by
  have hafter : ∀ {waiting : List (Waiting C)} {results : List Result}
      {part : State C × Progress C}, w ∈ (after waiting results part).waiting →
        w ∈ waiting ∨ part.2 = .await w := by
    intro waiting results part hw
    rw [after] at hw
    split at hw
    · exact .inl hw
    · rename_i v hv
      rcases mem_cons.mp hw with rfl | hw
      · exact .inr hv
      · exact .inl hw
  cases e with
  | arrive raw previousPeerId context now =>
      rcases hafter h with hold | hnew
      · exact .inl ⟨w, hold, rfl⟩
      · rcases begin_cases p.state raw previousPeerId context now with
          ⟨result, hbegin, -⟩ | ⟨packet, ciphertext, hbegin, hparse, -⟩
        · rw [hbegin] at hnew
          cases hnew
        · rw [hbegin] at hnew
          cases hnew
          exact .inr ⟨raw, previousPeerId, context, now, rfl, hparse⟩
  | advance index =>
      rw [Peer.next] at h
      split at h
      · exact .inl ⟨w, h, rfl⟩
      · rename_i v hv
        rcases hafter h with hold | hnew
        · exact .inl ⟨w, mem_of_mem_eraseIdx hold, rfl⟩
        · exact .inl ⟨v, mem_of_getElem? hv, ((advance_touched p.state v).2 w hnew).symm⟩
  | removePeer peerId => exact .inl ⟨w, h, rfl⟩
  | setPeerKey peerId => exact .inl ⟨w, h, rfl⟩
  | imported peerId operation key => exact .inl ⟨w, h, rfl⟩
  | encrypt destinationPeerId data context randoms now =>
      rw [Peer.next] at h
      split at h
      · exact .inl ⟨w, h, rfl⟩
      · exact .inl ⟨w, h, rfl⟩
  | resume packetId missing => exact .inl ⟨w, h, rfl⟩

/-- What is kept for sending again is from before, or is encrypted now. -/
theorem outbound_next {e : Event C} {packetId : String} {outbound : Outbound}
    (h : (p.next e).state.outbound.get packetId = some outbound) :
    p.state.outbound.get packetId = some outbound ∨ ∃ destinationPeerId data context randoms now,
        e = .encrypt destinationPeerId data context randoms now
          ∧ ∀ packet ∈ outbound.packets, packet.packetId = encode randoms.packetId := by
  have hkeep : ∀ {s : State C} {keep}, (s.outbound.keep keep).get packetId = some outbound →
      s.outbound.get packetId = some outbound := fun hs => (get_keep_eq_some_iff.mp hs).1
  cases e with
  | arrive raw previousPeerId context now =>
      rw [Peer.next, after_state, begin_state] at h
      exact .inl (hkeep h)
  | advance index =>
      rw [Peer.next] at h
      split at h
      · exact .inl h
      · rename_i w hw
        rw [after_state] at h
        refine .inl ?_
        cases w with
        | digest call =>
            rw [advance] at h
            rcases claim_state p.state call with hsame | ⟨hmark, -⟩
            · rwa [hsame] at h
            · rw [hmark] at h
              exact h
        | key call cached key =>
            rw [advance] at h
            rcases derived_cases p.state call cached key with ⟨_, hd, -⟩ | ⟨t, hd, rfl | rfl⟩
            · rwa [hd] at h
            · rwa [hd] at h
            · rw [hd] at h
              exact h
        | cleartext call key =>
            obtain ⟨⟨assemblies, hstate, -⟩, -⟩ := finish_cases p.state call key
            rw [advance, hstate] at h
            exact h
  | removePeer peerId => exact .inl (hkeep h)
  | setPeerKey peerId => exact .inl (hkeep h)
  | imported peerId operation key =>
      refine .inl ?_
      rw [Peer.next, imported] at h
      split at h
      · exact h
      · exact h
  | encrypt destinationPeerId data context randoms now =>
      rw [Peer.next] at h
      split at h
      · exact .inl h
      · rename_i t packets hsent
        simp only [encrypt, bind_ok_iff, failIf_ok_iff, pure_ok_iff] at hsent
        obtain ⟨_, -, _, -, key, -, heq⟩ := hsent
        cases heq
        rcases get_set_some h with ⟨-, rfl⟩ | ⟨-, h⟩
        · refine .inr ⟨_, _, _, _, _, rfl, fun packet hpacket => ?_⟩
          obtain ⟨index, -, rfl⟩ := mem_map.mp hpacket
          rfl
        · exact .inl h
  | resume resumed missing =>
      rw [Peer.next, resume] at h
      refine .inl ?_
      split at h
      · exact h
      · split at h
        · exact h
        · split at h
          · exact hkeep h
          · exact h

/-- Only the part that claims a packet forwards it, one hop further, and only
where there was no mark. -/
theorem returned_forward {e : Event C} {nextPeerId : String} {packet : OverlayPacket}
    (h : p.returned e = some (.forward nextPeerId packet)) :
    ∃ call, .digest call ∈ p.waiting ∧ p.state.seen.get call.packet.replayKey = none
      ∧ call.packet.path[call.packet.hop + 1]? = some nextPeerId
      ∧ packet = { call.packet with hop := call.packet.hop + 1 } := by
  cases e with
  | arrive raw previousPeerId context now =>
      exfalso
      rw [returned] at h
      by_cases hadmitted : ∃ packet, p.state.admits raw previousPeerId context now packet
      · obtain ⟨q, hadmits⟩ := hadmitted
        rw [begin_admitted hadmits] at h
        split at h
        · cases h
        · cases hdecode : decode q.ciphertext with
          | none =>
              rw [hdecode] at h
              cases h
          | some ciphertext =>
              rw [hdecode] at h
              cases h
      · obtain ⟨reason, hbegin, -⟩ := begin_not_admitted fun q hadmits => hadmitted ⟨q, hadmits⟩
        rw [hbegin] at h
        cases h
  | advance index =>
      rw [returned, bind_eq_some_iff] at h
      obtain ⟨w, hw, hresult⟩ := h
      have hmem := mem_of_getElem? hw
      cases w with
      | digest call =>
          refine ⟨call, hmem, ?_⟩
          simp only [advance, claim] at hresult
          split at hresult
          · cases hresult
          · split at hresult
            · cases hresult
            · split at hresult
              · cases hresult
              · rename_i hseen
                split at hresult
                · split at hresult
                  · cases hresult
                  · rename_i next hnext
                    cases hresult
                    exact ⟨by simpa using hseen, hnext, rfl⟩
                · split at hresult
                  · cases hresult
                  · cases hresult
      | key call cached key =>
          exfalso
          rw [advance, derived] at hresult
          split at hresult
          · cases hresult
          · cases hresult
      | cleartext call key =>
          exfalso
          have hfinish : (p.state.finish call key).2 = .forward nextPeerId packet :=
            some.inj hresult
          rw [finish] at hfinish
          split at hfinish
          · cases hfinish
          · split at hfinish
            · cases hfinish
            · rw [assemble, place] at hfinish
              split at hfinish
              · cases hfinish
              · rw [settle] at hfinish
                split at hfinish
                · cases hfinish
                · split at hfinish
                  · cases hfinish
                  · split at hfinish
                    · cases hfinish
                    · cases hfinish
  | removePeer peerId => cases h
  | setPeerKey peerId => cases h
  | imported peerId operation key => cases h
  | encrypt destinationPeerId data context randoms now => cases h
  | resume packetId missing => cases h

/-! ## A chunk that is lost past a relay -/

namespace Message

/-- A chunk at its place on the path, and the lost one no further than the
relay. -/
def Behind (m : Message C) (i k : Nat) (packet : OverlayPacket) (peerId : String) : Prop :=
  ∃ j hop, j < m.chunks ∧ packet = m.hopped j hop ∧ m.context.path[hop]? = some peerId
    ∧ (j = i → hop ≤ k)

/-- The relay at the place `k` of the path has marked the chunk `i`, and
nothing of the chunk is beyond it. The peer the message is for awaits it. -/
structure LostPast (m : Message C) (i k : Nat) (n : Net C) : Prop where
  chunk : i < m.chunks
  relay : 1 ≤ k ∧ k + 1 < m.context.path.length
  marked : ∀ peerId, m.context.path[k]? = some peerId →
    (n.peers peerId).state.seen.get (m.mark i) = some m.expiresAt
  flight : ∀ f ∈ n.flight, f.packet.packetId = m.packetId → m.Behind i k f.packet f.receiver
  calls : ∀ peerId, ∀ w ∈ (n.peers peerId).waiting, tokenOK w.call.packet.packetId = true
    ∧ (w.call.packet.packetId = m.packetId → m.Behind i k w.call.packet peerId)
  kept : ∀ peerId packetId outbound,
    (n.peers peerId).state.outbound.get packetId = some outbound →
      ∀ packet ∈ outbound.packets, packet.packetId = m.packetId → ∃ j < m.chunks, packet = m.packet j
  unseen : (n.peers m.destinationPeerId).state.seen.get (m.mark i) = none
  awaiting : m.Reassembly (n.peers m.destinationPeerId)

/-- What may happen at a peer besides the message: other packets within the
lifetime, other messages under other identifiers, and no change of the
sender's key where the message goes. -/
def Elsewhere (m : Message C) (peerId : String) : Event C → Prop
  | .arrive raw _ _ now => now < m.expiresAt ∧ raw.packetId ≠ m.packetId
  | .advance _ => True
  | .removePeer other => peerId = m.destinationPeerId → other ≠ m.originPeerId
  | .setPeerKey other => peerId = m.destinationPeerId → other ≠ m.originPeerId
  | .imported other _ _ => peerId = m.destinationPeerId → other ≠ m.originPeerId
  | .encrypt _ _ _ randoms _ => encode randoms.packetId ≠ m.packetId
  | .resume _ _ => True

/-- The events of a run within the lifetime; any packet may be delivered,
lost and sent again. -/
def Permitted (m : Message C) : NetEvent C → Prop
  | .peer peerId e => m.Elsewhere peerId e
  | .deliver _ _ now => now < m.expiresAt
  | .lose _ => True
  | .resume _ _ _ => True

variable {i k : Nat} {n : Net C}

theorem Routable.place_unique (hm : m.Routable) {a b : Nat} {peerId : String}
    (ha : m.context.path[a]? = some peerId) (hb : m.context.path[b]? = some peerId) : a = b :=
  (List.getElem?_inj (List.getElem?_eq_some_iff.mp ha).1 hm.distinct).mp (ha.trans hb.symm)

theorem Routable.destination_place (hm : m.Routable) :
    m.context.path[m.context.path.length - 1]? = some m.destinationPeerId := by
  rw [← getLast?_eq_getElem?, hm.destination]

/-- An event at one peer, with or without a packet of the message. -/
theorem LostPast.act (h : m.LostPast i k n) (hm : m.Routable) (hC : C.Lawful) {peerId : String}
    {e : Event C} (hnow : ∀ now ∈ e.now?, now < m.expiresAt)
    (harrive : ∀ raw previousPeerId context now, e = .arrive raw previousPeerId context now →
      raw.packetId = m.packetId → ∃ packet, raw = wire packet ∧ m.Behind i k packet peerId)
    (hencrypt : ∀ destinationPeerId data context randoms now,
      e = .encrypt destinationPeerId data context randoms now → encode randoms.packetId ≠ m.packetId)
    (hallowed : peerId = m.destinationPeerId → m.Allowed e) : m.LostPast i k (n.act peerId e) := by
  have hself : (n.act peerId e).peers peerId = (n.peers peerId).next e := update_self _ _ _
  have hother : ∀ {other}, other ≠ peerId → (n.act peerId e).peers other = n.peers other :=
    fun hne => update_of_ne hne _ _
  refine ⟨h.chunk, h.relay, fun r hr => ?_, fun f hf hid => ?_, fun x w hw => ?_,
    fun x packetId outbound hx => ?_, ?_, ?_⟩
  · by_cases heq : r = peerId
    · subst heq
      rw [hself]
      exact seen_kept (h.marked r hr) hnow
    · rw [hother heq]
      exact h.marked r hr
  · rcases mem_append.mp hf with hnew | hold
    · cases hreturned : (n.peers peerId).returned e with
      | none =>
          rw [hreturned] at hnew
          cases hnew
      | some result =>
          rw [hreturned] at hnew
          cases result with
          | forward nextPeerId packet =>
              rw [sendOn, mem_singleton] at hnew
              subst hnew
              obtain ⟨call, hcall, hunmarked, hnext, rfl⟩ := returned_forward hreturned
              obtain ⟨j, hop, hj, hpacket, hplace, hbound⟩ := (h.calls peerId _ hcall).2 hid
              have hpacket' : call.packet = m.hopped j hop := hpacket
              rw [hpacket'] at hunmarked hnext
              refine ⟨j, hop + 1, hj, ?_, hnext, fun hji => ?_⟩
              · rw [hpacket']
                rfl
              · -- the relay itself has the mark, so the packet was not forwarded there
                by_contra hbeyond
                obtain rfl : hop = k := by omega
                have hmark := h.marked peerId hplace
                have hnone : (n.peers peerId).state.seen.get (m.mark j) = none := hunmarked
                rw [hji, hmark] at hnone
                cases hnone
          | delivered _ _ _ _ => cases hnew
          | pending _ _ _ => cases hnew
          | drop _ => cases hnew
          | throws _ => cases hnew
    · exact h.flight f hold hid
  · by_cases heq : x = peerId
    · subst heq
      rw [hself] at hw
      rcases waiting_next hw with ⟨v, hv, hcall⟩ | ⟨raw, previousPeerId, context, now, rfl, hparse⟩
      · rw [← hcall]
        exact h.calls x v hv
      · refine ⟨(parse_some hparse).1.1, fun hid => ?_⟩
        obtain ⟨packet, rfl, hbehind⟩ :=
          harrive raw previousPeerId context now rfl ((parse_some hparse).2.trans hid)
        rw [parse_wire] at hparse
        split at hparse
        · rw [← some.inj hparse]
          exact hbehind
        · cases hparse
    · rw [hother heq] at hw
      exact h.calls x w hw
  · by_cases heq : x = peerId
    · subst heq
      rw [hself] at hx
      rcases outbound_next hx with hold | ⟨d, data, context, randoms, now, rfl, hids⟩
      · exact h.kept x packetId outbound hold
      · intro packet hpacket hid
        exact absurd ((hids packet hpacket).symm.trans hid) (hencrypt d data context randoms now rfl)
    · rw [hother heq] at hx
      exact h.kept x packetId outbound hx
  · by_cases heq : m.destinationPeerId = peerId
    · subst heq
      rw [hself]
      rcases seen_new h.unseen with hnone | ⟨call, hcall, hkey⟩
      · exact hnone
      · -- a call for the chunk would be past the relay
        exfalso
        obtain ⟨htoken, hbehind⟩ := h.calls _ _ hcall
        obtain ⟨hid, hindex⟩ := hm.mark_inj htoken hkey.symm
        obtain ⟨j, hop, -, hpacket, hplace, hbound⟩ := hbehind hid
        have hlast := hm.place_unique hplace hm.destination_place
        have hji : j = i := by
          rw [← hindex, hpacket]
          rfl
        have hrelay := h.relay
        omega
    · rw [hother heq]
      exact h.unseen
  · by_cases heq : m.destinationPeerId = peerId
    · subst heq
      rw [hself]
      exact h.awaiting.next hm hC (hallowed rfl)
    · rw [hother heq]
      exact h.awaiting

/-- **Nothing brings the chunk past the relay.** -/
theorem LostPast.next (h : m.LostPast i k n) (hm : m.Routable) (hC : C.Lawful) {e : NetEvent C}
    (he : m.Permitted e) : m.LostPast i k (n.next e) := by
  have hdrop : ∀ index, m.LostPast i k { n with flight := n.flight.eraseIdx index } := fun index =>
    { h with flight := fun f hf => h.flight f (mem_of_mem_eraseIdx hf) }
  cases e with
  | peer peerId e =>
      refine h.act hm hC ?_ ?_ ?_ ?_
      · intro now hnow
        cases e with
        | arrive raw previousPeerId context t =>
            cases hnow
            exact he.1
        | _ => cases hnow
      · rintro raw previousPeerId context now rfl hid
        exact absurd hid he.2
      · rintro destinationPeerId data context randoms now rfl
        exact he
      · intro heq
        cases e with
        | arrive raw previousPeerId context now => exact ⟨he.1, fun hid => absurd hid he.2⟩
        | advance index => trivial
        | removePeer other => exact he heq
        | setPeerKey other => exact he heq
        | imported other operation key => exact he heq
        | encrypt destinationPeerId data context randoms now => trivial
        | resume packetId missing => trivial
  | deliver index context now =>
      rw [Net.next]
      cases hf : n.flight[index]? with
      | none => exact h
      | some f =>
          have hbehind := h.flight f (mem_of_getElem? hf)
          refine (hdrop index).act hm hC ?_ ?_ ?_ ?_
          · intro t ht
            cases ht
            exact he
          · intro raw previousPeerId context' now' heq hid
            cases heq
            exact ⟨f.packet, rfl, hbehind hid⟩
          · intro destinationPeerId data context' randoms now' heq
            cases heq
          · refine fun _ => ⟨he, fun hid => ?_⟩
            obtain ⟨j, hop, hj, hpacket, -⟩ := hbehind hid
            exact ⟨j, hop, hj, by rw [hpacket]⟩
  | lose index => exact hdrop index
  | resume peerId packetId missing =>
      have hact : m.LostPast i k (n.act peerId (.resume packetId missing)) := by
        refine h.act hm hC (fun now hnow => by cases hnow) (fun _ _ _ _ heq => by cases heq)
          (fun _ _ _ _ _ heq => by cases heq) fun _ => trivial
      refine { hact with flight := fun f hf hid => ?_ }
      rcases mem_append.mp hf with hnew | hold
      · obtain ⟨packet, hpacket, hflying⟩ := mem_filterMap.mp hnew
        obtain ⟨nextPeerId, hnext, rfl⟩ := map_eq_some_iff.mp hflying
        -- what is sent again is a chunk at the first hop
        have hkept : ∃ outbound, (n.peers peerId).state.outbound.get packetId = some outbound
            ∧ packet ∈ outbound.packets := by
          rw [resume] at hpacket
          split at hpacket
          · cases hpacket
          · rename_i outbound houtbound
            refine ⟨outbound, houtbound, ?_⟩
            split at hpacket
            · cases hpacket
            · split at hpacket
              · cases hpacket
              · obtain ⟨index, -, hget⟩ := mem_filterMap.mp hpacket
                exact mem_of_getElem? hget
        obtain ⟨outbound, houtbound, hmem⟩ := hkept
        obtain ⟨j, hj, rfl⟩ := h.kept peerId packetId outbound houtbound packet hmem hid
        exact ⟨j, 1, hj, rfl, hnext, fun _ => h.relay.1⟩
      · exact h.flight f hold hid

/-- **Sending again does not help.** After a chunk is lost past a relay that
has seen it, no run within the lifetime delivers the message, whatever is
sent again and however it is delivered. -/
theorem never_delivered (hC : C.Lawful) {sender : State C} (hsent : m.SentBy sender) (hm : m.Asked)
    (hn : m.LostPast i k n) {n' : Net C} {es : List (NetEvent C)}
    (hrun : Path (fun n e n' => n' = n.next e) n es n') (hes : ∀ e ∈ es, m.Permitted e) :
    (n'.peers m.destinationPeerId).results.filter m.delivers = [] := by
  have hroute := hm.routable hsent
  have hend : m.LostPast i k n' := by
    induction hrun with
    | nil n => exact hn
    | @cons n u n' e es hstep _ ih =>
        refine ih ?_ fun f hf => hes f (mem_cons_of_mem e hf)
        rw [hstep]
        exact hn.next hroute hC (hes e mem_cons_self)
  rcases hend.awaiting.progress with ⟨parts, hpending⟩ | hcomplete
  · exact hpending.results
  · have hplaced := (hcomplete.placed i hend.chunk).1
    rw [hend.unseen] at hplaced
    cases hplaced

end Message

/-! ## One relay -/

/-- The message of one chunk, over a relay. -/
def relayMessage : Message sampleCrypto :=
  { sampleMessage with
    context := ⟨1, 1, "event", ["aaaaaaaaaaaaaaaa", "cccccccccccccccc", "bbbbbbbbbbbbbbbb"]⟩ }

def relaySender : State sampleCrypto :=
  { sampleState "aaaaaaaaaaaaaaaa" "bbbbbbbbbbbbbbbb" 1 2 with
    outbound := empty.set relayMessage.packetId
      ⟨relayMessage.expiresAt, [relayMessage.packet 0]⟩ }

def relayContext : ReceiveContext :=
  ⟨1, 1, ["aaaaaaaaaaaaaaaa", "bbbbbbbbbbbbbbbb", "cccccccccccccccc"]⟩

def relayNet (relay : State sampleCrypto) (flight : List Flying) : Net sampleCrypto where
  peers peerId :=
    if peerId = "cccccccccccccccc" then ⟨relay, [], []⟩
    else if peerId = "bbbbbbbbbbbbbbbb" then samplePeer
    else ⟨relaySender, [], []⟩
  flight := flight

def relayState : State sampleCrypto := sampleState "cccccccccccccccc" "aaaaaaaaaaaaaaaa" 6 1

/-- The relay sends the chunk on, and it is lost. -/
def relayLost : Net sampleCrypto :=
  [.deliver 0 relayContext 100500, .peer "cccccccccccccccc" (.advance 0), .lose 0].foldl Net.next
    (relayNet relayState [⟨relayMessage.packet 0, "aaaaaaaaaaaaaaaa", "cccccccccccccccc"⟩])

def relayResumed : Net sampleCrypto :=
  relayLost.next (.resume "aaaaaaaaaaaaaaaa" relayMessage.packetId [0])

def relayOver : Net sampleCrypto := relayResumed.next (.deliver 0 relayContext 101000)

/-- The sender sends the chunk again, the relay drops it, nothing is left on
the way or waiting, and nothing is delivered. -/
theorem resumed_dropped :
    (relayLost.peers "cccccccccccccccc").results
      = [.forward "bbbbbbbbbbbbbbbb" (relayMessage.hopped 0 2)]
    ∧ relayResumed.flight.map Flying.packet = [relayMessage.packet 0]
    ∧ (relayOver.peers "cccccccccccccccc").results.head? = some (.drop "replay")
    ∧ relayOver.flight.isEmpty = true
    ∧ (["aaaaaaaaaaaaaaaa", "bbbbbbbbbbbbbbbb", "cccccccccccccccc"].all fun peerId =>
      (relayOver.peers peerId).waiting.isEmpty) = true
    ∧ (relayOver.peers "bbbbbbbbbbbbbbbb").results = [] := by
  decide +kernel

/-- The relay after it sent the chunk on. -/
def relayMarked : State sampleCrypto :=
  { relayState with
    seen := relayState.seen.set (relayMessage.mark 0) relayMessage.expiresAt }

theorem never_delivered_sample :
    ((([.resume "aaaaaaaaaaaaaaaa" relayMessage.packetId [0],
      .deliver 0 relayContext 101000].foldl Net.next (relayNet relayMarked [])).peers
        "bbbbbbbbbbbbbbbb").results.filter relayMessage.delivers) = [] := by
  have hsent : relayMessage.SentBy (sampleState "aaaaaaaaaaaaaaaa" "bbbbbbbbbbbbbbbb" 1 2) :=
    Message.sentBy_of_encrypt rfl rfl (by decide) rfl rfl
  have hasked : relayMessage.Asked :=
    ⟨rfl, fun _ => rfl, by decide, by decide, by decide, by decide, by decide, by decide, by decide⟩
  have hawaited : relayMessage.Awaited samplePeer := ⟨rfl, rfl, rfl, fun _ => rfl, rfl, rfl⟩
  have hwaiting : ∀ peerId, ((relayNet relayMarked []).peers peerId).waiting = [] := by
    intro peerId
    simp only [relayNet]
    split
    · rfl
    · split <;> rfl
  have hlost : relayMessage.LostPast 0 1 (relayNet relayMarked []) := by
    refine ⟨by decide, by decide, fun peerId hplace => ?_, fun f hf => absurd hf not_mem_nil,
      fun peerId w hw => ?_, fun peerId packetId outbound hkept packet hpacket _ => ?_, rfl,
      hawaited.reassembly⟩
    · cases hplace
      exact get_set_self _ _ _
    · rw [hwaiting] at hw
      exact absurd hw not_mem_nil
    · simp only [relayNet] at hkept
      split at hkept
      · cases hkept
      · split at hkept
        · cases hkept
        · have hentry : (relaySender.outbound.get packetId) = some outbound := hkept
          rw [relaySender, get_set] at hentry
          split at hentry
          · cases hentry
            exact ⟨0, by decide, mem_singleton.mp hpacket⟩
          · cases hentry
  exact Message.never_delivered sampleCrypto_lawful hsent hasked hlost
    (Path.foldl Net.next [.resume "aaaaaaaaaaaaaaaa" relayMessage.packetId [0],
      .deliver 0 relayContext 101000] (relayNet relayMarked [])) (by
      simp only [forall_mem_cons]
      exact ⟨trivial, (by decide : (101000 : Int) < relayMessage.expiresAt),
        fun e he => absurd he not_mem_nil⟩)

end Overlay

end WebrtcMinimize
