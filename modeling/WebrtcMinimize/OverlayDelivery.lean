import WebrtcMinimize.OverlayReassembly
import WebrtcMinimize.Runs

/-!
# Delivery over the overlay

Every event of a peer keeps the machine of a message that is for it
(`Reassembly.next`), and a chunk that has arrived stays noticed until it is
marked (`Noticed.next`). A run in which every chunk arrived and every call is
over has placed all of them, so it delivered once (`delivered_once`).
-/

namespace WebrtcMinimize

open Checks Runs

namespace Overlay

open Peer List State KeyedMap Option

variable {C : Crypto} {m : Message C} {s t : State C} {p : Peer C}

/-! ## Runs -/

theorem Peer.after_state (waiting : List (Waiting C)) (results : List Result)
    (part : State C × Progress C) : (after waiting results part).state = part.1 := by
  rw [after]
  split <;> rfl

theorem Peer.mem_after {waiting : List (Waiting C)} {results : List Result}
    {part : State C × Progress C} {w : Waiting C} (h : w ∈ waiting) :
    w ∈ (after waiting results part).waiting := by
  rw [after]
  split
  · exact h
  · exact mem_cons_of_mem _ h

namespace Message

/-- The events a run may have: within the lifetime, with no packet under the
id of the message but its chunks, and no change of the sender's key. -/
def Allowed (m : Message C) : Event C → Prop
  | .arrive raw _ _ now => now < m.expiresAt ∧ m.Expected raw
  | .advance _ => True
  | .removePeer peerId => peerId ≠ m.originPeerId
  | .setPeerKey peerId => peerId ≠ m.originPeerId
  | .imported peerId _ _ => peerId ≠ m.originPeerId
  | .encrypt _ _ _ _ _ => True
  | .resume _ _ => True

/-- **Every event keeps the machine of the message.** -/
theorem Reassembly.next (h : m.Reassembly p) (hm : m.Routable) (hC : C.Lawful) {e : Event C}
    (he : m.Allowed e) : m.Reassembly (p.next e) := by
  cases e with
  | arrive raw previousPeerId context now => exact h.arrive hC he.1 he.2
  | advance index =>
      rw [Peer.next]
      cases hw : p.waiting[index]? with
      | none => exact h
      | some w =>
          by_cases hid : w.call.packet.packetId = m.packetId
          · cases w with
            | digest call => exact h.claim_own hm hw hid
            | key call cached key => exact h.derived_own hw hid
            | cleartext call key => exact h.finish_own hm hC hw hid
          · exact h.advance_foreign hm hw hid
  | removePeer peerId =>
      exact h.alike (h.alike_removePeer he) (fun w hw => .inl hw) (List.Perm.refl _) rfl
  | setPeerKey peerId =>
      exact h.alike (h.alike_setPeerKey he) (fun w hw => .inl hw) (List.Perm.refl _) rfl
  | imported peerId operation key =>
      exact h.alike (alike_imported he) (fun w hw => .inl hw) (List.Perm.refl _) rfl
  | encrypt destinationPeerId data context randoms now =>
      rw [Peer.next]
      split
      · exact h
      · rename_i t packets hsent
        exact h.alike (alike_encrypt hsent) (fun w hw => .inl hw) (List.Perm.refl _) rfl
  | resume packetId missing =>
      exact h.alike alike_resume (fun w hw => .inl hw) (List.Perm.refl _) rfl

/-- A chunk that has come in: it is marked, or a call for it awaits the
digest. -/
def Noticed (m : Message C) (p : Peer C) (i : Nat) : Prop :=
  (p.state.seen.get (m.mark i)).isSome = true ∨
    ∃ call, .digest call ∈ p.waiting ∧ call.packet.packetId = m.packetId
      ∧ call.packet.chunkIndex = i

theorem seen_advance {i : Nat} {w : Waiting C} (h : (s.seen.get (m.mark i)).isSome = true) :
    ((s.advance w).1.seen.get (m.mark i)).isSome = true := by
  have hmarked : ∀ packet, ((s.mark packet).seen.get (m.mark i)).isSome = true := by
    intro packet
    rw [State.mark, get_set]
    split
    · rfl
    · exact h
  cases w with
  | digest call =>
      rw [advance]
      rcases claim_cases s call with ⟨t, result, hclaim, -, rfl | rfl⟩ | ⟨key, cached, hclaim, -⟩
      · rw [hclaim]
        exact h
      · rw [hclaim]
        exact hmarked _
      · rw [hclaim]
        exact hmarked _
  | key call cached key =>
      rw [advance]
      rcases derived_cases s call cached key with ⟨result, hderived, -⟩ | ⟨t, hderived, rfl | rfl⟩
      · rw [hderived]
        exact h
      · rw [hderived]
        exact h
      · rw [hderived]
        exact h
  | cleartext call key =>
      obtain ⟨⟨assemblies, hstate, -⟩, -⟩ := finish_cases s call key
      rw [advance, hstate]
      exact h

theorem Noticed.next (h : m.Reassembly p) {i : Nat} (hi : m.Noticed p i) {e : Event C}
    (he : m.Allowed e) : m.Noticed (p.next e) i := by
  cases e with
  | arrive raw previousPeerId context now =>
      rw [Peer.next]
      have hprune : m.Alike p.state (p.state.prune now) := h.alike_prune he.1
      rcases hi with hseen | ⟨call, hcall, hid⟩
      · refine .inl ?_
        have hstate : (p.state.begin raw previousPeerId context now).1 = p.state.prune now := by
          rcases begin_cases p.state raw previousPeerId context now with ⟨_, h, -⟩ | ⟨_, _, h, -⟩
          · rw [h]
          · rw [h]
        rw [after_state, hstate, hprune.seen]
        exact hseen
      · exact .inr ⟨call, mem_after hcall, hid⟩
  | advance index =>
      rw [Peer.next]
      cases hw : p.waiting[index]? with
      | none => exact hi
      | some w =>
          dsimp only
          rcases hi with hseen | ⟨call, hcall, hid, hindex⟩
          · refine .inl ?_
            rw [after_state]
            exact seen_advance hseen
          · obtain ⟨hlt, rfl⟩ := List.getElem?_eq_some_iff.mp hw
            have hperm := getElem_cons_eraseIdx_perm hlt
            rcases mem_cons.mp (hperm.mem_iff.mpr hcall) with heq | hrest
            · refine .inl ?_
              obtain ⟨j, hop, -, hj⟩ := h.call_eq hcall hid
              have hj' : call = m.callOf p.state j hop := hj
              obtain rfl : j = i := by rw [← hindex, hj']; rfl
              rw [after_state, ← heq, advance, hj']
              cases hseen : p.state.seen.get (m.mark j) with
              | some expiresAt =>
                  refine seen_advance (w := .digest (m.callOf p.state j hop)) ?_
                  rw [hseen, isSome_some]
              | none =>
                  have hclaim : p.state.claim (m.callOf p.state j hop) = _ :=
                    claim_await rfl rfl hseen h.own h.derive
                  rw [hclaim]
                  exact congrArg isSome (get_set_self _ _ _)
            · exact .inr ⟨call, mem_after hrest, hid, hindex⟩
  | removePeer peerId => exact hi
  | setPeerKey peerId => exact hi
  | imported peerId operation key =>
      refine hi.imp_left fun hseen => ?_
      exact (alike_imported (m := m) (s := p.state) he).seen i ▸ hseen
  | encrypt destinationPeerId data context randoms now =>
      rw [Peer.next]
      split
      · exact hi
      · rename_i t packets hsent
        refine hi.imp_left fun hseen => ?_
        exact (alike_encrypt (m := m) hsent).seen i ▸ hseen
  | resume packetId missing =>
      refine hi.imp_left fun hseen => ?_
      exact (alike_resume (m := m) (s := p.state)).seen i ▸ hseen

/-- The event in which a chunk arrives over the path: from the peer before,
in the epochs of the message, while the path is of members. -/
def Arrives (m : Message C) (i : Nat) (e : Event C) : Prop :=
  ∃ previousPeerId context now,
    e = .arrive (wire (m.hopped i (m.context.path.length - 1))) previousPeerId context now
      ∧ m.now ≤ now + 5000 ∧ context.membershipEpoch = m.context.membershipEpoch
      ∧ (m.context.path.length = 2 ∨ context.routeEpoch = m.context.routeEpoch)
      ∧ (∀ peerId ∈ m.context.path, peerId ∈ context.memberPeerIds)
      ∧ m.context.path[m.context.path.length - 2]? = some previousPeerId

theorem Arrives.noticed (h : m.Reassembly p) (hm : m.Routable) (hC : C.Lawful) {i : Nat}
    {e : Event C} (hi : i < m.chunks) (he : m.Allowed e) (harrives : m.Arrives i e) :
    m.Noticed (p.next e) i := by
  obtain ⟨previousPeerId, context, now, rfl, hcreated, hmembership, hroute, hmembers, hprevious⟩ :=
    harrives
  have hmin := hm.path_min
  have hok : packetOK (m.hopped i (m.context.path.length - 1)) now :=
    hm.packetOK_hopped hC hi (by omega) (by omega) hcreated he.1
  have hown : m.context.path[m.context.path.length - 1]? = some p.state.ownPeerId := by
    rw [← getLast?_eq_getElem?, hm.destination, h.own]
  have hepochs : ¬((m.hopped i (m.context.path.length - 1)).membershipEpoch ≠ context.membershipEpoch
      ∨ ((m.hopped i (m.context.path.length - 1)).path.length ≠ 2
        ∧ (m.hopped i (m.context.path.length - 1)).routeEpoch ≠ context.routeEpoch)) := by
    rintro (hne | ⟨hlong, hne⟩)
    · exact hne hmembership.symm
    · exact hroute.elim hlong fun heq => hne heq.symm
  have hpath : ¬((∃ peerId ∈ (m.hopped i (m.context.path.length - 1)).path,
      peerId ∉ context.memberPeerIds)
      ∨ (m.hopped i (m.context.path.length - 1)).path[(m.hopped i (m.context.path.length - 1)).hop]?
        ≠ some (p.state.prune now).ownPeerId
      ∨ (m.hopped i (m.context.path.length - 1)).path[(m.hopped i
        (m.context.path.length - 1)).hop - 1]? ≠ some previousPeerId) := by
    rintro (⟨peerId, hmem, hout⟩ | hne | hne)
    · exact hout (hmembers peerId hmem)
    · exact hne hown
    · exact hne hprevious
  have hdecode : decode (m.hopped i (m.context.path.length - 1)).ciphertext = some (m.ciphertext i) :=
    decode_encode (ciphertext_ne_nil hC i)
  have hparse : parseOverlayPacket (wire (m.hopped i (m.context.path.length - 1))) now
      = some (m.hopped i (m.context.path.length - 1)) := by rw [parse_wire, if_pos hok]
  rw [Peer.next]
  cases hseen : (p.state.prune now).seen.get (m.mark i) with
  | some expiresAt =>
      refine .inl ?_
      have hreplay : ((p.state.prune now).seen.get
          (m.hopped i (m.context.path.length - 1)).replayKey).isSome = true := by
        refine (congrArg isSome hseen).trans rfl
      simp only [begin, hparse]
      rw [if_neg hepochs, if_neg hpath, if_pos hreplay, after_state]
      rw [hseen, isSome_some]
  | none =>
      refine .inr ⟨m.callOf p.state i (m.context.path.length - 1), ?_, rfl, rfl⟩
      have hfresh : ¬((p.state.prune now).seen.get
          (m.hopped i (m.context.path.length - 1)).replayKey).isSome = true := by
        intro hsome
        have hsome' : ((p.state.prune now).seen.get (m.mark i)).isSome = true := hsome
        rw [hseen] at hsome'
        cases hsome'
      simp only [begin, hparse]
      rw [if_neg hepochs, if_neg hpath, if_neg hfresh, hdecode]
      exact mem_cons_self

/-- The message is one the sender's overlay encrypted. -/
def SentBy (m : Message C) (sender : State C) : Prop :=
  sender.ownPeerId = m.originPeerId ∧ sender.derive m.destinationPeerId = .ok m.key
    ∧ ∃ sender', sender.encrypt m.destinationPeerId m.data m.context m.randoms m.now
      = .ok (sender', (range m.chunks).map m.packet)

/-- What the mesh asks for a message: current epochs, a class, a path of
distinct peers. The identifier and the nonces have the lengths that are drawn. -/
structure Asked (m : Message C) : Prop where
  packetId : m.randoms.packetId.length = 18
  nonce : ∀ i, (m.randoms.nonce i).length = 12
  membershipEpoch : 1 ≤ m.context.membershipEpoch
  routeEpoch : 1 ≤ m.context.routeEpoch
  trafficClass : m.context.trafficClass ∈ trafficClasses
  path_min : 2 ≤ m.context.path.length
  path_max : m.context.path.length ≤ maxPath
  peers : ∀ peerId ∈ m.context.path, peerIdOK peerId = true
  distinct : m.context.path.Nodup

theorem Asked.routable (h : m.Asked) {sender : State C} (hsent : m.SentBy sender) : m.Routable := by
  obtain ⟨howner, -, sender', hencrypt⟩ := hsent
  simp only [encrypt, bind_ok_iff, failIf_ok_iff] at hencrypt
  obtain ⟨_, hsize, _, hpath, -⟩ := hencrypt
  rw [not_or, not_not, not_not, howner] at hpath
  exact ⟨Nat.not_lt.mp hsize, h.packetId, h.nonce, h.membershipEpoch, h.routeEpoch, h.trafficClass,
    h.path_min, h.path_max, h.peers, h.distinct, hpath.1, hpath.2⟩

/-- Nothing of the message has come to the peer, which is the one it is for
and shares its key with the sender. -/
structure Awaited (m : Message C) (p : Peer C) : Prop where
  own : p.state.ownPeerId = m.destinationPeerId
  derive : p.state.derive m.originPeerId = .ok m.key
  waiting : p.waiting = []
  seen : ∀ i, p.state.seen.get (m.mark i) = none
  assembly : p.state.assemblies.get m.slot = none
  results : p.results.filter m.delivers = []

theorem Awaited.reassembly (h : m.Awaited p) : m.Reassembly p where
  __ := h
  parsed w hw := absurd (h.waiting ▸ hw) not_mem_nil
  keys w hw := absurd (h.waiting ▸ hw) not_mem_nil
  genuine w hw := absurd (h.waiting ▸ hw) not_mem_nil
  claims := by
    rw [h.waiting]
    exact nodup_nil
  claimed i hi := by
    rw [h.waiting] at hi
    exact absurd hi not_mem_nil
  seen i expiresAt hseen := by
    rw [h.seen] at hseen
    cases hseen
  progress := by
    have hnone : ∀ i, ¬m.Placed p.state p.waiting i := by
      rintro i ⟨hseen, -⟩
      rw [h.seen] at hseen
      cases hseen
    refine .inl ⟨.empty, h.results, ?_, fun i v => ?_, 0, chunkCount_pos m.data, hnone 0⟩
    · rw [h.assembly]
      rfl
    · constructor
      · intro hv
        cases hv
      · exact fun hboth => absurd hboth.1 (hnone i)

/-- **Exactly once.** In every run of the peer within the lifetime, whatever
comes in between and in whatever order calls go on, nothing but the message
is delivered for it, and that at most once; when every chunk has arrived and
no call of the message waits, it has been delivered. -/
theorem delivered_once (hC : C.Lawful) {sender : State C} (hsent : m.SentBy sender) (hm : m.Asked)
    {p q : Peer C} {es : List (Event C)} (hp : m.Awaited p)
    (hrun : Path (fun p e q => q = p.next e) p es q) (hes : ∀ e ∈ es, m.Allowed e) :
    (q.results.filter m.delivers = [] ∨ q.results.filter m.delivers = [m.delivery])
      ∧ ((∀ i < m.chunks, ∃ e ∈ es, m.Arrives i e) →
        (∀ w ∈ q.waiting, w.call.packet.packetId ≠ m.packetId) →
          q.results.filter m.delivers = [m.delivery]) := by
  have hroute := hm.routable hsent
  -- the machine of the message, and what it has noticed so far
  have hhistory : ((∀ e ∈ es, m.Allowed e) → m.Reassembly q
      ∧ ∀ i < m.chunks, (∃ e ∈ es, m.Arrives i e) → m.Noticed q i) := by
    refine hrun.history (J := fun es q => (∀ e ∈ es, m.Allowed e) → m.Reassembly q
      ∧ ∀ i < m.chunks, (∃ e ∈ es, m.Arrives i e) → m.Noticed q i) ?_ ?_
    · exact fun _ => ⟨hp.reassembly, fun i _ ⟨e, he, _⟩ => absurd he not_mem_nil⟩
    · rintro es t e u - ih rfl hall
      obtain ⟨ht, hnoticed⟩ := ih fun f hf => hall f (mem_append_left _ hf)
      have he := hall e (mem_append_right _ mem_cons_self)
      refine ⟨ht.next hroute hC he, fun i hi ⟨f, hf, harrives⟩ => ?_⟩
      rcases mem_append.mp hf with hold | hlast
      · exact (hnoticed i hi ⟨f, hold, harrives⟩).next ht he
      · rw [mem_singleton.mp hlast] at harrives
        exact harrives.noticed ht hroute hC hi he
  obtain ⟨hq, hnoticed⟩ := hhistory hes
  constructor
  · rcases hq.progress with ⟨parts, hpending⟩ | hcomplete
    · exact .inl hpending.results
    · exact .inr hcomplete.results
  · intro harrived hidle
    rcases hq.progress with ⟨parts, hpending⟩ | hcomplete
    · obtain ⟨i, hi, hmissing⟩ := hpending.missing
      refine absurd ⟨?_, ?_⟩ hmissing
      · rcases hnoticed i hi (harrived i hi) with hseen | ⟨call, hcall, hid, -⟩
        · exact hseen
        · exact absurd hid (hidle _ hcall)
      · intro hclaim
        obtain ⟨w, hw, hwi⟩ := mem_filterMap.mp hclaim
        rw [claim_of_foreign (hidle w hw)] at hwi
        cases hwi
    · exact hcomplete.results

theorem sentBy_of_encrypt {sender : State C} (hown : sender.ownPeerId = m.originPeerId)
    (hkey : sender.derive m.destinationPeerId = .ok m.key)
    (hsize : m.data.length ≤ maxChunkBytes * maxChunks)
    (horigin : m.context.path.head? = some m.originPeerId)
    (hdestination : m.context.path.getLast? = some m.destinationPeerId) : m.SentBy sender := by
  refine ⟨hown, hkey, ?_⟩
  have hpath : ¬(m.context.path.head? ≠ some sender.ownPeerId
      ∨ m.context.path.getLast? ≠ some m.destinationPeerId) := by
    rw [not_or, not_not, not_not, hown]
    exact ⟨horigin, hdestination⟩
  rw [encrypt, failIf_of_not _ (Nat.not_lt.mpr hsize), failIf_of_not _ hpath, hkey, hown]
  exact ⟨_, rfl⟩

end Message

/-! ## One chunk over one hop -/

/-- A tag of sixteen key bytes. -/
def sampleSeal (key : UInt8) (plaintext : List UInt8) : List UInt8 :=
  plaintext ++ replicate 16 key

def sampleUnseal (key : UInt8) (ciphertext : List UInt8) : Option (List UInt8) :=
  if ciphertext.drop (ciphertext.length - 16) = replicate 16 key then
    some (ciphertext.take (ciphertext.length - 16))
  else none

theorem sampleUnseal_seal (key : UInt8) (plaintext : List UInt8) :
    sampleUnseal key (sampleSeal key plaintext) = some plaintext := by
  have hlength : (plaintext ++ replicate 16 key).length - 16 = plaintext.length := by
    rw [length_append, length_replicate, Nat.add_sub_cancel]
  rw [sampleUnseal, sampleSeal, hlength, drop_left, if_pos rfl, take_left]

def sampleCrypto : Crypto where
  KeyPair := UInt8
  PublicKey := UInt8
  Key := UInt8
  agree := (· + ·)
  encrypt key _ _ plaintext := sampleSeal key plaintext
  decrypt key _ _ ciphertext := sampleUnseal key ciphertext

theorem sampleCrypto_lawful : sampleCrypto.Lawful where
  decrypt_encrypt key _ _ plaintext := sampleUnseal_seal key plaintext
  length_encrypt (key : UInt8) _ _ plaintext := by
    show (plaintext ++ replicate 16 key).length = _
    rw [length_append, length_replicate]

def sampleState (ownPeerId peerId : String) (keyPair peerKey : UInt8) : State sampleCrypto where
  objects := 3
  lifetime := 0
  peerImports := empty.set peerId 1
  ownPeerId := ownPeerId
  keyPair := some (0, keyPair)
  peerKeys := empty.set peerId (2, peerKey)
  derivedKeys := .empty
  seen := .empty
  assemblies := .empty
  outbound := .empty

def sampleMessage : Message sampleCrypto where
  key := (3 : UInt8)
  originPeerId := "aaaaaaaaaaaaaaaa"
  destinationPeerId := "bbbbbbbbbbbbbbbb"
  data := [104, 105]
  context := ⟨1, 1, "event", ["aaaaaaaaaaaaaaaa", "bbbbbbbbbbbbbbbb"]⟩
  randoms := ⟨replicate 18 7, fun _ => replicate 12 9⟩
  now := 100000

def samplePeer : Peer sampleCrypto :=
  ⟨sampleState "bbbbbbbbbbbbbbbb" "aaaaaaaaaaaaaaaa" 2 1, [], []⟩

/-- The chunk arrives twice, and the calls go on. -/
def sampleEvents : List (Event sampleCrypto) :=
  let arrival := .arrive (wire (sampleMessage.hopped 0 1)) "aaaaaaaaaaaaaaaa"
    ⟨1, 2, ["aaaaaaaaaaaaaaaa", "bbbbbbbbbbbbbbbb"]⟩ 100500
  [arrival, arrival, .advance 1, .advance 1, .advance 0, .advance 0]

theorem delivered_once_sample :
    (sampleEvents.foldl next samplePeer).results.filter sampleMessage.delivers
      = [.delivered sampleMessage.packetId "aaaaaaaaaaaaaaaa" "event" [104, 105]] := by
  have hsent : sampleMessage.SentBy (sampleState "aaaaaaaaaaaaaaaa" "bbbbbbbbbbbbbbbb" 1 2) :=
    Message.sentBy_of_encrypt rfl rfl (by decide) rfl rfl
  have hasked : sampleMessage.Asked :=
    ⟨rfl, fun _ => rfl, by decide, by decide, by decide, by decide, by decide, by decide, by decide⟩
  have hawaited : sampleMessage.Awaited samplePeer := ⟨rfl, rfl, rfl, fun _ => rfl, rfl, rfl⟩
  have harrival : ∀ e, e ∈ sampleEvents.head? → sampleMessage.Arrives 0 e ∧ sampleMessage.Allowed e := by
    rintro e he
    cases he
    exact ⟨⟨_, _, _, rfl, by decide, rfl, .inl rfl, by decide, rfl⟩, by decide,
      fun _ => ⟨0, 1, by decide, rfl⟩⟩
  obtain ⟨harrives, hallowed⟩ := harrival _ rfl
  refine (Message.delivered_once sampleCrypto_lawful hsent hasked hawaited
    (Path.foldl next sampleEvents samplePeer) ?_).2 ?_ ?_
  · simp only [sampleEvents, forall_mem_cons]
    exact ⟨hallowed, hallowed, trivial, trivial, trivial, trivial,
      fun e he => absurd he not_mem_nil⟩
  · intro i hi
    have hone : sampleMessage.chunks = 1 := by decide
    obtain rfl : i = 0 := by omega
    exact ⟨_, mem_cons_self, harrives⟩
  · have hidle : (sampleEvents.foldl next samplePeer).waiting.isEmpty = true := by
      decide +kernel
    intro w hw
    rw [isEmpty_iff.mp hidle] at hw
    exact absurd hw not_mem_nil

end Overlay

end WebrtcMinimize
