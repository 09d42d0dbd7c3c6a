import WebrtcMinimize.OverlayPackets

/-!
# Reassembly

For one message a peer that it is for is a small machine: a chunk is
unknown, claimed by a call that decrypts it, or placed among the parts
(`Reassembly`). Every part of a call keeps the chunks in one of the three,
whatever calls of other chunks and other messages run in between, and the
call that places the last chunk delivers.
-/

namespace WebrtcMinimize

open Checks

namespace Overlay

open KeyedMap State List Option List.Perm Nat

/-! ## A message -/

/-- What authenticated encryption promises: what is encrypted is decrypted,
and is longer by the tag. -/
structure Crypto.Lawful (C : Crypto) : Prop where
  decrypt_encrypt : ∀ key iv additionalData plaintext,
    C.decrypt key iv additionalData (C.encrypt key iv additionalData plaintext) = some plaintext
  length_encrypt : ∀ key iv additionalData plaintext,
    (C.encrypt key iv additionalData plaintext).length = plaintext.length + 16

/-- A message that was encrypted, with the key it was encrypted under. -/
structure Message (C : Crypto) where
  key : C.Key
  originPeerId : String
  destinationPeerId : String
  data : List UInt8
  context : EncryptContext
  randoms : Randoms
  now : Int

namespace Message

variable {C : Crypto} (m : Message C)

def packet (chunkIndex : Nat) : OverlayPacket :=
  sealChunk m.key m.originPeerId m.destinationPeerId m.data m.context m.randoms m.now chunkIndex

/-- The packet of a chunk at a hop. -/
def hopped (chunkIndex hop : Nat) : OverlayPacket := { m.packet chunkIndex with hop := hop }

def ciphertext (chunkIndex : Nat) : List UInt8 :=
  C.encrypt m.key (m.randoms.nonce chunkIndex) (aad (m.packet chunkIndex)) (chunk m.data chunkIndex)

def packetId : String := encode m.randoms.packetId

def chunks : Nat := chunkCount m.data

def expiresAt : Int := m.now + maxTtlMs

/-- `replayKey` of a chunk -/
def mark (chunkIndex : Nat) : String := (m.packet chunkIndex).replayKey

/-- `assemblyKey` of the message -/
def slot : String := m.originPeerId ++ ":" ++ m.packetId

/-- The message has a size that is accepted, random bytes as many as are
drawn, and a path of peers. -/
structure Routable : Prop where
  size : m.data.length ≤ maxChunkBytes * maxChunks
  packetId : m.randoms.packetId.length = 18
  nonce : ∀ i, (m.randoms.nonce i).length = 12
  membershipEpoch : 1 ≤ m.context.membershipEpoch
  routeEpoch : 1 ≤ m.context.routeEpoch
  trafficClass : m.context.trafficClass ∈ trafficClasses
  path_min : 2 ≤ m.context.path.length
  path_max : m.context.path.length ≤ maxPath
  peers : ∀ peerId ∈ m.context.path, peerIdOK peerId = true
  distinct : m.context.path.Nodup
  origin : m.context.path.head? = some m.originPeerId
  destination : m.context.path.getLast? = some m.destinationPeerId

variable {m}

theorem Routable.tokenOK_packetId (h : m.Routable) : tokenOK m.packetId = true := by
  have hlength := h.packetId
  exact tokenOK_encode (by omega) (by omega)

theorem Routable.peerIdOK_origin (h : m.Routable) : peerIdOK m.originPeerId = true :=
  h.peers _ (mem_of_head? h.origin)

theorem Routable.chunks_le (h : m.Routable) : m.chunks ≤ maxChunks := chunkCount_le h.size

/-- **A chunk is read as it was sent**, within the lifetime and at a hop of
the path. -/
theorem Routable.packetOK_hopped (h : m.Routable) (hC : C.Lawful) {i hop : Nat} {now : Int}
    (hi : i < m.chunks) (hmin : 1 ≤ hop) (hmax : hop < m.context.path.length)
    (hcreated : m.now ≤ now + 5000) (hexpires : now < m.expiresAt) :
    packetOK (m.hopped i hop) now := by
  have hnonce : tokenOK (encode (m.randoms.nonce i)) = true := by
    have hiv := h.nonce i
    exact tokenOK_encode (by omega) (by omega)
  have hlength : utf16Length (encode (m.ciphertext i)) ≤ 24000 := by
    have hchunk := length_chunk_le m.data i
    rw [utf16Length_encode, Base64url.length_encode, ciphertext, hC.length_encrypt]
    simp only [maxChunkBytes] at hchunk
    split <;> omega
  have hlifetime : m.expiresAt - m.now ≤ maxTtlMs := by
    rw [expiresAt]
    omega
  exact ⟨h.tokenOK_packetId, h.peerIdOK_origin, h.peers _ (mem_of_getLast? h.destination),
    h.membershipEpoch, h.routeEpoch, h.trafficClass, hcreated, hexpires, hlifetime, h.path_min,
    h.path_max, h.peers, h.distinct, h.origin, h.destination, hmin, hmax, chunkCount_pos _,
    h.chunks_le, hi, hnonce, tokenOK_sha256 _, hlength⟩

theorem Routable.mark_inj (h : m.Routable) {p : OverlayPacket} (hp : tokenOK p.packetId = true)
    {i : Nat} (heq : p.replayKey = m.mark i) : p.packetId = m.packetId ∧ p.chunkIndex = i :=
  replayKey_inj hp h.tokenOK_packetId heq

theorem Routable.slot_inj (h : m.Routable) {p : OverlayPacket}
    (hp : peerIdOK p.originPeerId = true) (heq : p.assemblyKey = m.slot) :
    p.packetId = m.packetId :=
  (append_colon_inj (peerIdOK_no_colon hp) (peerIdOK_no_colon h.peerIdOK_origin) heq).2

theorem ciphertext_ne_nil (hC : C.Lawful) (i : Nat) : m.ciphertext i ≠ [] := by
  refine ne_nil_of_length_pos ?_
  rw [ciphertext, hC.length_encrypt]
  omega

end Message

/-! ## The machine of a message -/

variable {C : Crypto} {m : Message C} {s t : State C} {p : Peer C}

def Waiting.call : Waiting C → Call
  | .digest call => call
  | .key call _ _ => call
  | .cleartext call _ => call

/-- The key a call has in hand once its packet is marked. -/
def Waiting.key? : Waiting C → Option C.Key
  | .digest _ => none
  | .key _ _ k => some k
  | .cleartext _ k => some k

namespace Message

variable (m)

/-- The call is about a chunk of the message. -/
def Genuine (call : Call) : Prop :=
  ∃ i hop, i < m.chunks ∧ call.packet = m.hopped i hop ∧ call.ciphertext = m.ciphertext i

/-- The chunk a call has claimed. -/
def claim (w : Waiting C) : Option Nat :=
  if w.call.packet.packetId = m.packetId ∧ w.key?.isSome = true then some w.call.packet.chunkIndex
  else none

def claims (waiting : List (Waiting C)) : List Nat := waiting.filterMap m.claim

/-- A chunk that is placed: marked, and no call works on it. -/
def Placed (s : State C) (waiting : List (Waiting C)) (i : Nat) : Prop :=
  (s.seen.get (m.mark i)).isSome = true ∧ i ∉ m.claims waiting

def delivers : Result → Bool
  | .delivered packetId _ _ _ => packetId == m.packetId
  | _ => false

/-- What the peer hands out for the message. -/
def delivery : Result :=
  .delivered m.packetId m.originPeerId m.context.trafficClass m.data

/-- The assembly with some parts. -/
def assembly (parts : KeyedMap Nat (List UInt8)) : Assembly where
  expiresAt := m.expiresAt
  parts := parts
  count := m.chunks
  bytes := (parts.values.map length).sum
  originPeerId := m.originPeerId
  trafficClass := m.context.trafficClass

/-- Not delivered yet: the parts are the chunks that are placed, and one is
not. -/
structure Pending (p : Peer C) (parts : KeyedMap Nat (List UInt8)) : Prop where
  results : p.results.filter m.delivers = []
  assembly : (p.state.assemblies.get m.slot).getD (m.assembly .empty) = m.assembly parts
  parts : ∀ i v, parts.get i = some v ↔ m.Placed p.state p.waiting i ∧ v = chunk m.data i
  missing : ∃ i < m.chunks, ¬m.Placed p.state p.waiting i

structure Complete (p : Peer C) : Prop where
  results : p.results.filter m.delivers = [m.delivery]
  assembly : p.state.assemblies.get m.slot = none
  placed : ∀ i < m.chunks, m.Placed p.state p.waiting i

/-- What holds at a peer that the message is for. -/
structure Reassembly (p : Peer C) : Prop where
  own : p.state.ownPeerId = m.destinationPeerId
  derive : p.state.derive m.originPeerId = .ok m.key
  parsed : ∀ w ∈ p.waiting, tokenOK w.call.packet.packetId = true
    ∧ peerIdOK w.call.packet.originPeerId = true
  keys : ∀ w ∈ p.waiting, w.call.packet.originPeerId = m.originPeerId →
    ∀ key ∈ w.key?, key = m.key
  genuine : ∀ w ∈ p.waiting, w.call.packet.packetId = m.packetId →
    m.Genuine w.call ∧ w.call.current = p.state.current m.originPeerId
  claims : (m.claims p.waiting).Nodup
  claimed : ∀ i ∈ m.claims p.waiting, (p.state.seen.get (m.mark i)).isSome = true
  seen : ∀ i expiresAt, p.state.seen.get (m.mark i) = some expiresAt →
    i < m.chunks ∧ expiresAt = m.expiresAt
  progress : (∃ parts, m.Pending p parts) ∨ m.Complete p

end Message

/-- Two states that agree on all that concerns the message. -/
structure Message.Alike (m : Message C) (s t : State C) : Prop where
  own : t.ownPeerId = s.ownPeerId
  derive : t.derive m.originPeerId = s.derive m.originPeerId
  current : t.current m.originPeerId = s.current m.originPeerId
  seen : ∀ i, t.seen.get (m.mark i) = s.seen.get (m.mark i)
  assembly : t.assemblies.get m.slot = s.assemblies.get m.slot

namespace Message

theorem Alike.refl (s : State C) : m.Alike s s := ⟨rfl, rfl, rfl, fun _ => rfl, rfl⟩

theorem Alike.placed {waiting waiting' : List (Waiting C)} (h : m.Alike s t)
    (hclaims : (m.claims waiting').Perm (m.claims waiting)) {i : Nat} :
    m.Placed t waiting' i ↔ m.Placed s waiting i := by
  rw [Placed, Placed, h.seen, hclaims.mem_iff]

/-- A step that changes nothing of the message, except that calls of others
come and go and one of its own may end or wait for its digest. -/
theorem Reassembly.alike {p q : Peer C} (h : m.Reassembly p) (halike : m.Alike p.state q.state)
    (hwaiting : ∀ w ∈ q.waiting, w ∈ p.waiting ∨
      ((tokenOK w.call.packet.packetId = true ∧ peerIdOK w.call.packet.originPeerId = true)
        ∧ (w.call.packet.originPeerId = m.originPeerId → ∀ key ∈ w.key?, key = m.key)
        ∧ (w.call.packet.packetId = m.packetId →
          m.Genuine w.call ∧ w.call.current = p.state.current m.originPeerId)))
    (hclaims : (m.claims q.waiting).Perm (m.claims p.waiting))
    (hresults : q.results.filter m.delivers = p.results.filter m.delivers) :
    m.Reassembly q where
  own := by rw [halike.own, h.own]
  derive := by rw [halike.derive, h.derive]
  parsed := by
    intro w hw
    rcases hwaiting w hw with hold | ⟨hnew, -, -⟩
    · exact h.parsed w hold
    · exact hnew
  keys := by
    intro w hw
    rcases hwaiting w hw with hold | ⟨-, hnew, -⟩
    · exact h.keys w hold
    · exact hnew
  genuine := by
    intro w hw
    rw [halike.current]
    rcases hwaiting w hw with hold | ⟨-, -, hnew⟩
    · exact h.genuine w hold
    · exact hnew
  claims := hclaims.nodup_iff.mpr h.claims
  claimed := by
    intro i hi
    rw [halike.seen]
    exact h.claimed i (hclaims.mem_iff.mp hi)
  seen := by
    intro i expiresAt hseen
    rw [halike.seen] at hseen
    exact h.seen i expiresAt hseen
  progress := by
    rcases h.progress with ⟨parts, hpending⟩ | hcomplete
    · refine .inl ⟨parts, ?_, ?_, fun i v => ?_, ?_⟩
      · rw [hresults, hpending.results]
      · rw [halike.assembly, hpending.assembly]
      · rw [halike.placed hclaims, hpending.parts]
      · obtain ⟨i, hi, hmissing⟩ := hpending.missing
        exact ⟨i, hi, fun hplaced => hmissing ((halike.placed hclaims).mp hplaced)⟩
    · refine .inr ⟨?_, ?_, fun i hi => (halike.placed hclaims).mpr (hcomplete.placed i hi)⟩
      · rw [hresults, hcomplete.results]
      · rw [halike.assembly, hcomplete.assembly]

end Message

/-! ## What leaves the message alone -/

theorem get_keep_eq {κ ν : Type} [DecidableEq κ] {map : KeyedMap κ ν} {keep : κ → ν → Bool} {k : κ}
    (h : ∀ v, map.get k = some v → keep k v = true) : (map.keep keep).get k = map.get k := by
  ext v
  rw [get_keep_eq_some_iff]
  exact ⟨And.left, fun hv => ⟨hv, h v hv⟩⟩

theorem derive_set (s : State C) (peerId other : String) (key : C.Key) :
    ({ s with derivedKeys := s.derivedKeys.set peerId key } : State C).derive other
      = if other = peerId then .ok key else s.derive other := by
  simp only [derive, get_set]
  by_cases heq : other = peerId
  · rw [if_pos heq, if_pos heq]
  · rw [if_neg heq, if_neg heq]

namespace Message

theorem Alike.trans {u : State C} (h₁ : m.Alike s t) (h₂ : m.Alike t u) : m.Alike s u :=
  ⟨h₂.own.trans h₁.own, h₂.derive.trans h₁.derive, h₂.current.trans h₁.current,
    fun i => (h₂.seen i).trans (h₁.seen i), h₂.assembly.trans h₁.assembly⟩

theorem Reassembly.slot_assembly (h : m.Reassembly p) {a : Assembly}
    (ha : p.state.assemblies.get m.slot = some a) :
    a.expiresAt = m.expiresAt ∧ a.originPeerId = m.originPeerId := by
  rcases h.progress with ⟨parts, hpending⟩ | hcomplete
  · have heq := hpending.assembly
    rw [ha, getD_some] at heq
    rw [heq]
    exact ⟨rfl, rfl⟩
  · rw [hcomplete.assembly] at ha
    cases ha

theorem Reassembly.alike_prune (h : m.Reassembly p) {now : Int} (hnow : now < m.expiresAt) :
    m.Alike p.state (p.state.prune now) where
  own := rfl
  derive := rfl
  current := rfl
  seen := by
    intro i
    refine get_keep_eq fun expiresAt hseen => ?_
    rw [(h.seen i expiresAt hseen).2]
    exact decide_eq_true hnow
  assembly := by
    refine get_keep_eq fun a ha => ?_
    rw [(h.slot_assembly ha).1]
    exact decide_eq_true hnow

variable {peerId : String}

theorem Reassembly.alike_removePeer (h : m.Reassembly p)
    (hother : peerId ≠ m.originPeerId) : m.Alike p.state (p.state.removePeer peerId) where
  own := rfl
  derive := by
    simp only [State.derive, State.removePeer, get_erase_of_ne _ (Ne.symm hother)]
  current := by
    simp only [State.current, State.removePeer, get_erase_of_ne _ (Ne.symm hother)]
  seen _ := rfl
  assembly := by
    refine get_keep_eq fun a ha => ?_
    rw [(h.slot_assembly ha).2]
    exact bne_iff_ne.mpr (Ne.symm hother)

theorem Reassembly.alike_setPeerKey (h : m.Reassembly p)
    (hother : peerId ≠ m.originPeerId) : m.Alike p.state (p.state.setPeerKey peerId) := by
  refine (h.alike_removePeer hother).trans ⟨rfl, rfl, ?_, fun _ => rfl, rfl⟩
  simp only [current, setPeerKey, get_set_of_ne _ _ (Ne.symm hother)]

theorem alike_imported {operation : Nat} {key : C.PublicKey}
    (hother : peerId ≠ m.originPeerId) : m.Alike s (s.imported peerId operation key) := by
  rw [imported]
  split
  · refine ⟨rfl, ?_, ?_, fun _ => rfl, rfl⟩
    · simp only [derive, get_erase_of_ne _ (Ne.symm hother), get_set_of_ne _ _ (Ne.symm hother)]
    · simp only [current, get_set_of_ne _ _ (Ne.symm hother)]
  · exact Alike.refl s

theorem alike_derivedKeys {key : C.Key}
    (hkey : peerId = m.originPeerId → s.derive m.originPeerId = .ok key) :
    m.Alike s { s with derivedKeys := s.derivedKeys.set peerId key } where
  own := rfl
  derive := by
    rw [derive_set]
    split
    · rename_i heq
      exact (hkey heq.symm).symm
    · rfl
  current := rfl
  seen _ := rfl
  assembly := rfl

theorem alike_encrypt {destinationPeerId : String} {data : List UInt8} {context : EncryptContext}
    {randoms : Randoms} {now : Int} {packets : List OverlayPacket}
    (h : s.encrypt destinationPeerId data context randoms now = .ok (t, packets)) :
    m.Alike s t := by
  simp only [encrypt, bind_ok_iff, failIf_ok_iff, pure_ok_iff] at h
  obtain ⟨_, -, _, -, key, hkey, heq⟩ := h
  cases heq
  refine (alike_derivedKeys fun hpeer => ?_).trans ⟨rfl, rfl, rfl, fun _ => rfl, rfl⟩
  rw [← hpeer, hkey]

theorem alike_resume {packetId : String} {missing : List Int} :
    m.Alike s (s.resume packetId missing).1 := by
  rw [resume]
  split
  · exact Alike.refl s
  · split
    · exact Alike.refl s
    · split
      · exact ⟨rfl, rfl, rfl, fun _ => rfl, rfl⟩
      · exact Alike.refl s

end Message

/-! ## The parts of a call -/

/-- What the first part of a call does: it forgets what has expired, and ends
without a delivery or awaits the digest of what it read. -/
theorem begin_cases (s : State C) (raw : RawPacket) (previousPeerId : String)
    (context : ReceiveContext) (now : Int) :
    (∃ result, s.begin raw previousPeerId context now = (s.prune now, .done result)
        ∧ ∀ m : Message C, m.delivers result = false) ∨
      ∃ packet ciphertext, s.begin raw previousPeerId context now
          = (s.prune now, .await (.digest ⟨packet, ciphertext, s.current packet.originPeerId⟩))
        ∧ parseOverlayPacket raw now = some packet ∧ decode packet.ciphertext = some ciphertext := by
  simp only [begin]
  split
  · exact .inl ⟨_, rfl, fun _ => rfl⟩
  · rename_i packet hpacket
    split
    · exact .inl ⟨_, rfl, fun _ => rfl⟩
    · split
      · exact .inl ⟨_, rfl, fun _ => rfl⟩
      · split
        · exact .inl ⟨_, rfl, fun _ => rfl⟩
        · split
          · exact .inl ⟨_, rfl, fun _ => rfl⟩
          · rename_i ciphertext hciphertext
            exact .inr ⟨packet, ciphertext, rfl, hpacket, hciphertext⟩

theorem claim_replay {call : Call} (hdigest : sha256 call.ciphertext = call.packet.digest)
    (hcurrent : s.current call.packet.originPeerId = call.current)
    (hseen : (s.seen.get call.packet.replayKey).isSome = true) :
    s.claim call = (s, .done (.drop "replay")) := by
  simp only [claim]
  rw [if_neg (not_not.mpr hdigest), if_neg (not_not.mpr hcurrent), if_pos hseen]

theorem claim_await {call : Call} {key : C.Key}
    (hdigest : sha256 call.ciphertext = call.packet.digest)
    (hcurrent : s.current call.packet.originPeerId = call.current)
    (hseen : s.seen.get call.packet.replayKey = none)
    (hown : s.ownPeerId = call.packet.destinationPeerId)
    (hkey : s.derive call.packet.originPeerId = .ok key) :
    s.claim call = (s.mark call.packet,
      .await (.key call (s.derivedKeys.get call.packet.originPeerId).isSome key)) := by
  have hown' : ¬(s.mark call.packet).ownPeerId ≠ call.packet.destinationPeerId := not_not.mpr hown
  have hkey' : (s.mark call.packet).derive call.packet.originPeerId = .ok key := hkey
  have hunseen : ¬(s.seen.get call.packet.replayKey).isSome = true := by
    rw [hseen]
    decide
  simp only [claim]
  rw [if_neg (not_not.mpr hdigest), if_neg (not_not.mpr hcurrent), if_neg hunseen, if_neg hown',
    hkey']
  rfl

/-- What the second part does: it marks the packet or not; then the call ends
without a delivery, or awaits the key that is derived. -/
theorem claim_cases (s : State C) (call : Call) :
    (∃ t result, s.claim call = (t, .done result) ∧ (∀ m : Message C, m.delivers result = false)
        ∧ (t = s ∨ t = s.mark call.packet)) ∨
      ∃ key cached, s.claim call = (s.mark call.packet, .await (.key call cached key))
        ∧ s.derive call.packet.originPeerId = .ok key := by
  simp only [claim]
  split
  · exact .inl ⟨_, _, rfl, fun _ => rfl, .inl rfl⟩
  · split
    · exact .inl ⟨_, _, rfl, fun _ => rfl, .inl rfl⟩
    · split
      · exact .inl ⟨_, _, rfl, fun _ => rfl, .inl rfl⟩
      · split
        · split
          · exact .inl ⟨_, _, rfl, fun _ => rfl, .inr rfl⟩
          · exact .inl ⟨_, _, rfl, fun _ => rfl, .inr rfl⟩
        · split
          · exact .inl ⟨_, _, rfl, fun _ => rfl, .inr rfl⟩
          · rename_i key hkey
            exact .inr ⟨key, _, rfl, hkey⟩

theorem derived_cases (s : State C) (call : Call) (cached : Bool) (key : C.Key) :
    (∃ result, s.derived call cached key = (s, .done result)
        ∧ ∀ m : Message C, m.delivers result = false) ∨
      ∃ t, s.derived call cached key = (t, .await (.cleartext call key))
        ∧ (t = s ∨ t = { s with derivedKeys := s.derivedKeys.set call.packet.originPeerId key }) := by
  rw [derived]
  split
  · exact .inl ⟨_, rfl, fun _ => rfl⟩
  · refine .inr ⟨_, rfl, ?_⟩
    split
    · exact .inl rfl
    · exact .inr rfl

/-- The last part touches the assembly of its message only, and what it
delivers is of that packet. -/
theorem finish_cases (s : State C) (call : Call) (key : C.Key) :
    (∃ assemblies, (s.finish call key).1 = { s with assemblies := assemblies }
        ∧ ∀ slot ≠ call.packet.assemblyKey, assemblies.get slot = s.assemblies.get slot)
      ∧ ∀ m : Message C, m.delivers (s.finish call key).2 = true →
        call.packet.packetId = m.packetId := by
  have hkeep : ∃ assemblies : KeyedMap String Assembly, s = { s with assemblies := assemblies }
      ∧ ∀ slot ≠ call.packet.assemblyKey, assemblies.get slot = s.assemblies.get slot :=
    ⟨s.assemblies, rfl, fun _ _ => rfl⟩
  have herase : ∀ slot ≠ call.packet.assemblyKey,
      (s.assemblies.erase call.packet.assemblyKey).get slot = s.assemblies.get slot :=
    fun slot hne => get_erase_of_ne _ hne
  have hset : ∀ a, ∀ slot ≠ call.packet.assemblyKey,
      (s.assemblies.set call.packet.assemblyKey a).get slot = s.assemblies.get slot :=
    fun a slot hne => get_set_of_ne _ a hne
  rw [finish]
  split
  · exact ⟨hkeep, fun m h => by cases h⟩
  · split
    · exact ⟨hkeep, fun m h => by cases h⟩
    · rw [assemble, place]
      split
      · exact ⟨⟨_, rfl, herase⟩, fun m h => by cases h⟩
      · rw [settle]
        split
        · exact ⟨⟨_, rfl, hset _⟩, fun m h => by cases h⟩
        · split
          · exact ⟨⟨_, rfl, hset _⟩, fun m h => by cases h⟩
          · split
            · exact ⟨⟨_, rfl, hset _⟩, fun m h => by cases h⟩
            · exact ⟨⟨_, rfl, herase⟩, fun m h => beq_iff_eq.mp h⟩

/-! ## One event -/

namespace Message

variable {w : Waiting C}

theorem claims_eraseIdx {waiting : List (Waiting C)} {index : Nat} (h : waiting[index]? = some w) :
    (m.claims waiting).Perm ((m.claim w).toList ++ m.claims (waiting.eraseIdx index)) := by
  obtain ⟨hlt, rfl⟩ := List.getElem?_eq_some_iff.mp h
  have hperm := (getElem_cons_eraseIdx_perm hlt).symm.filterMap m.claim
  refine hperm.trans (of_eq ?_)
  rw [filterMap_cons, claims]
  split
  · rename_i hnone
    rw [hnone]
    rfl
  · rename_i i hsome
    rw [hsome]
    rfl

theorem claim_of_foreign (h : w.call.packet.packetId ≠ m.packetId) : m.claim w = none := by
  rw [claim, if_neg fun hboth => h hboth.1]

theorem claim_digest (call : Call) : m.claim (.digest call : Waiting C) = none := by
  rw [claim, if_neg]
  rintro ⟨-, hkey⟩
  cases hkey

theorem claims_cons_of_none {waiting : List (Waiting C)} (h : m.claim w = none) :
    m.claims (w :: waiting) = m.claims waiting := filterMap_cons_none h

/-- What arrives with the id of the message is a chunk of it. -/
def Expected (m : Message C) (raw : RawPacket) : Prop :=
  raw.packetId = m.packetId → ∃ i hop, i < m.chunks ∧ raw = wire (m.hopped i hop)

theorem genuine_of_parse (hC : C.Lawful) {raw : RawPacket} {now : Int} {packet : OverlayPacket}
    {ciphertext : List UInt8} {current : Current} (hraw : m.Expected raw)
    (hparse : parseOverlayPacket raw now = some packet)
    (hdecode : decode packet.ciphertext = some ciphertext) (hid : packet.packetId = m.packetId) :
    m.Genuine ⟨packet, ciphertext, current⟩ := by
  obtain ⟨i, hop, hi, rfl⟩ := hraw ((parse_some hparse).2.trans hid)
  rw [parse_wire] at hparse
  split at hparse
  · cases hparse
    refine ⟨i, hop, hi, rfl, ?_⟩
    have hcipher : decode (m.hopped i hop).ciphertext = some (m.ciphertext i) :=
      decode_encode (ciphertext_ne_nil hC i)
    rw [hcipher] at hdecode
    exact (some.inj hdecode).symm
  · cases hparse

theorem Reassembly.arrive (h : m.Reassembly p) (hC : C.Lawful) {raw : RawPacket}
    {previousPeerId : String} {context : ReceiveContext} {now : Int} (hnow : now < m.expiresAt)
    (hraw : m.Expected raw) : m.Reassembly (p.next (.arrive raw previousPeerId context now)) := by
  rw [Peer.next]
  rcases begin_cases p.state raw previousPeerId context now with
    ⟨result, hbegin, hresult⟩ | ⟨packet, ciphertext, hbegin, hparse, hdecode⟩
  · rw [hbegin]
    refine h.alike (h.alike_prune hnow) (fun w hw => .inl hw) (List.Perm.refl _) ?_
    exact filter_cons_of_neg (by rw [hresult m]; decide)
  · rw [hbegin]
    refine h.alike (h.alike_prune hnow) (fun w hw => ?_) ?_ rfl
    · rcases mem_cons.mp hw with rfl | hold
      · have hok := (parse_some hparse).1
        refine .inr ⟨⟨hok.1, hok.2.1⟩, fun _ k hk => (by cases hk), fun hid => ?_⟩
        have hgenuine : m.Genuine ⟨packet, ciphertext, p.state.current packet.originPeerId⟩ :=
          genuine_of_parse hC hraw hparse hdecode hid
        refine ⟨hgenuine, ?_⟩
        obtain ⟨i, hop, -, hpacket, -⟩ := hgenuine
        have horigin : packet.originPeerId = m.originPeerId :=
          congrArg OverlayPacket.originPeerId hpacket
        exact congrArg p.state.current horigin
      · exact .inl hold
    · exact of_eq (claims_cons_of_none (claim_digest _))

theorem Reassembly.advance_foreign (h : m.Reassembly p) (hm : m.Routable) {index : Nat}
    (hw : p.waiting[index]? = some w) (hforeign : w.call.packet.packetId ≠ m.packetId) :
    m.Reassembly (Peer.after (p.waiting.eraseIdx index) p.results (p.state.advance w)) := by
  have hmem : w ∈ p.waiting := mem_of_getElem? hw
  obtain ⟨htoken, hpeer⟩ := h.parsed w hmem
  have herase : (m.claims (p.waiting.eraseIdx index)).Perm (m.claims p.waiting) := by
    have hperm := claims_eraseIdx (m := m) hw
    rw [claim_of_foreign hforeign] at hperm
    exact hperm.symm
  have hrest : ∀ v ∈ p.waiting.eraseIdx index, v ∈ p.waiting := fun v => mem_of_mem_eraseIdx
  have hmark : ∀ i, m.mark i ≠ w.call.packet.replayKey := fun i heq =>
    hforeign (hm.mark_inj htoken heq.symm).1
  have hslot : m.slot ≠ w.call.packet.assemblyKey := fun heq =>
    hforeign (hm.slot_inj hpeer heq.symm)
  have hmarked : m.Alike p.state (p.state.mark w.call.packet) :=
    ⟨rfl, rfl, rfl, fun i => get_set_of_ne _ _ (hmark i), rfl⟩
  cases w with
  | digest call =>
      rw [advance]
      rcases claim_cases p.state call with ⟨t, result, hclaim, hresult, ht⟩ | ⟨key, cached, hclaim, hkey⟩
      · rw [hclaim]
        refine h.alike ?_ (fun v hv => .inl (hrest v hv)) herase
          (filter_cons_of_neg (by rw [hresult m]; decide))
        rcases ht with rfl | rfl
        · exact Alike.refl _
        · exact hmarked
      · rw [hclaim]
        refine h.alike hmarked (fun v hv => ?_) ?_ rfl
        · rcases mem_cons.mp hv with rfl | hold
          · refine .inr ⟨⟨htoken, hpeer⟩, fun horigin k hk => ?_, fun hid => absurd hid hforeign⟩
            obtain rfl : key = k := some.inj hk
            have horigin' : call.packet.originPeerId = m.originPeerId := horigin
            rw [horigin', h.derive] at hkey
            exact (Except.ok.inj hkey).symm
          · exact .inl (hrest v hold)
        · have hnone : m.claim (.key call cached key) = none := claim_of_foreign hforeign
          exact (of_eq (claims_cons_of_none hnone)).trans herase
  | key call cached key =>
      rw [advance]
      rcases derived_cases p.state call cached key with ⟨result, hderived, hresult⟩ | ⟨t, hderived, ht⟩
      · rw [hderived]
        exact h.alike (Alike.refl _) (fun v hv => .inl (hrest v hv)) herase
          (filter_cons_of_neg (by rw [hresult m]; decide))
      · rw [hderived]
        refine h.alike ?_ (fun v hv => ?_) ?_ rfl
        · rcases ht with rfl | rfl
          · exact Alike.refl _
          · refine alike_derivedKeys fun horigin => ?_
            rw [h.derive, h.keys _ hmem horigin key rfl]
        · rcases mem_cons.mp hv with rfl | hold
          · exact .inr ⟨⟨htoken, hpeer⟩, fun horigin k hk => h.keys _ hmem horigin k hk,
              fun hid => absurd hid hforeign⟩
          · exact .inl (hrest v hold)
        · have hnone : m.claim (.cleartext call key) = none := claim_of_foreign hforeign
          exact (of_eq (claims_cons_of_none hnone)).trans herase
  | cleartext call key =>
      obtain ⟨⟨assemblies, hstate, hslots⟩, hdelivers⟩ := finish_cases p.state call key
      rw [advance, hstate]
      refine h.alike ⟨rfl, rfl, rfl, fun _ => rfl, hslots _ hslot⟩
        (fun v hv => .inl (hrest v hv)) herase (filter_cons_of_neg ?_)
      exact fun hyes => hforeign (hdelivers m hyes)

end Message

/-! ## A call of the message -/

namespace Message

theorem Routable.mark_ne (hm : m.Routable) {i j : Nat} (h : j ≠ i) : m.mark j ≠ m.mark i :=
  fun heq => h (hm.mark_inj (p := m.packet j) hm.tokenOK_packetId heq).2

/-- The call for a chunk at a hop. -/
def callOf (m : Message C) (s : State C) (i hop : Nat) : Call :=
  ⟨m.hopped i hop, m.ciphertext i, s.current m.originPeerId⟩

theorem Reassembly.call_eq (h : m.Reassembly p) {w : Waiting C} (hw : w ∈ p.waiting)
    (hid : w.call.packet.packetId = m.packetId) :
    ∃ i hop, i < m.chunks ∧ w.call = m.callOf p.state i hop := by
  obtain ⟨⟨i, hop, hi, hpacket, hciphertext⟩, hcurrent⟩ := h.genuine w hw hid
  refine ⟨i, hop, hi, ?_⟩
  rw [callOf, ← hpacket, ← hciphertext, ← hcurrent]

theorem claim_of_key {w : Waiting C} (hid : w.call.packet.packetId = m.packetId)
    (hkey : w.key?.isSome = true) : m.claim w = some w.call.packet.chunkIndex := by
  rw [claim, if_pos ⟨hid, hkey⟩]

/-- The digest of a chunk is right: it is marked now, or was before. -/
theorem Reassembly.claim_own (h : m.Reassembly p) (hm : m.Routable) {index : Nat} {call : Call}
    (hw : p.waiting[index]? = some (.digest call)) (hid : call.packet.packetId = m.packetId) :
    m.Reassembly (Peer.after (p.waiting.eraseIdx index) p.results (p.state.claim call)) := by
  have hmem : Waiting.digest call ∈ p.waiting := mem_of_getElem? hw
  have herase : (m.claims (p.waiting.eraseIdx index)).Perm (m.claims p.waiting) := by
    have hperm := claims_eraseIdx (m := m) hw
    rw [claim_digest] at hperm
    exact hperm.symm
  have hrest : ∀ v ∈ p.waiting.eraseIdx index, v ∈ p.waiting := fun v => mem_of_mem_eraseIdx
  have hparsed := h.parsed _ hmem
  have hgenuine := h.genuine _ hmem
  obtain ⟨i, hop, hi, hcall⟩ := h.call_eq hmem hid
  have hcall' : call = m.callOf p.state i hop := hcall
  subst hcall'
  cases hseen : p.state.seen.get (m.mark i) with
  | some expiresAt =>
      have hclaim : p.state.claim (m.callOf p.state i hop) = (p.state, .done (.drop "replay")) := by
        refine claim_replay rfl rfl ?_
        show (p.state.seen.get (m.mark i)).isSome = true
        rw [hseen, isSome_some]
      rw [hclaim]
      exact h.alike (Alike.refl _) (fun v hv => .inl (hrest v hv)) herase rfl
  | none =>
      have hclaim : p.state.claim (m.callOf p.state i hop) = _ :=
        claim_await rfl rfl hseen h.own h.derive
      rw [hclaim]
      -- the chunk is claimed now; no other chunk moves, and it was not placed before
      have hmark : ∀ j, (p.state.mark (m.hopped i hop)).seen.get (m.mark j)
          = if j = i then some m.expiresAt else p.state.seen.get (m.mark j) := by
        intro j
        by_cases hj : j = i
        · rw [if_pos hj, hj]
          exact get_set_self _ _ _
        · rw [if_neg hj]
          exact get_set_of_ne _ _ (hm.mark_ne hj)
      have hunplaced : ¬m.Placed p.state p.waiting i := by
        rintro ⟨hsome, -⟩
        rw [hseen] at hsome
        cases hsome
      have hnew : m.claims (.key (m.callOf p.state i hop)
          (p.state.derivedKeys.get m.originPeerId).isSome m.key :: p.waiting.eraseIdx index)
          = i :: m.claims (p.waiting.eraseIdx index) :=
        filterMap_cons_some (claim_of_key hid rfl)
      have hunclaimed : i ∉ m.claims p.waiting := by
        intro hi
        have hsome := h.claimed i hi
        rw [hseen] at hsome
        cases hsome
      have hplaced : ∀ j, m.Placed (p.state.mark (m.hopped i hop)) (.key (m.callOf p.state i hop)
          (p.state.derivedKeys.get m.originPeerId).isSome m.key :: p.waiting.eraseIdx index) j ↔
            m.Placed p.state p.waiting j := by
        intro j
        rw [Placed, Placed, hmark, hnew, mem_cons, herase.mem_iff, not_or]
        by_cases hj : j = i
        · constructor
          · exact fun hboth => absurd hj hboth.2.1
          · exact fun hboth => absurd (hj ▸ hboth) hunplaced
        · rw [if_neg hj]
          exact and_congr_right fun _ => and_iff_right hj
      refine ⟨h.own, h.derive, fun w hw => ?_, fun w hw => ?_, fun w hw => ?_, ?_, fun j hj => ?_,
        fun j expiresAt hj => ?_, ?_⟩
      · rcases mem_cons.mp hw with rfl | hold
        · exact hparsed
        · exact h.parsed w (hrest w hold)
      · rcases mem_cons.mp hw with rfl | hold
        · exact fun _ k hk => (some.inj hk).symm
        · exact h.keys w (hrest w hold)
      · rcases mem_cons.mp hw with rfl | hold
        · exact hgenuine
        · exact h.genuine w (hrest w hold)
      · refine hnew ▸ nodup_cons.mpr ⟨fun hin => hunclaimed (herase.mem_iff.mp hin), ?_⟩
        exact herase.nodup_iff.mpr h.claims
      · have hj' : j ∈ i :: m.claims (p.waiting.eraseIdx index) := hnew ▸ hj
        refine (congrArg isSome (hmark j)).trans ?_
        split
        · rfl
        · rename_i hne
          exact h.claimed j (herase.mem_iff.mp ((mem_cons.mp hj').resolve_left hne))
      · have hj' := (hmark j).symm.trans hj
        split at hj'
        · rename_i heq
          exact ⟨heq ▸ hi, (some.inj hj').symm⟩
        · exact h.seen j expiresAt hj'
      · rcases h.progress with ⟨parts, hpending⟩ | hcomplete
        · refine .inl ⟨parts, hpending.results, hpending.assembly, fun j v => ?_, i, hi, ?_⟩
          · exact (hpending.parts j v).trans (and_congr_left' (hplaced j).symm)
          · exact fun hyes => hunplaced ((hplaced i).mp hyes)
        · exact absurd (hcomplete.placed i hi) hunplaced

theorem Reassembly.derived_own (h : m.Reassembly p) {index : Nat} {call : Call} {cached : Bool}
    {key : C.Key} (hw : p.waiting[index]? = some (.key call cached key))
    (hid : call.packet.packetId = m.packetId) :
    m.Reassembly (Peer.after (p.waiting.eraseIdx index) p.results
      (p.state.derived call cached key)) := by
  have hmem : Waiting.key call cached key ∈ p.waiting := mem_of_getElem? hw
  have hrest : ∀ v ∈ p.waiting.eraseIdx index, v ∈ p.waiting := fun v => mem_of_mem_eraseIdx
  have hparsed := h.parsed _ hmem
  obtain ⟨hgenuine, hcurrent⟩ := h.genuine _ hmem hid
  have horigin : call.packet.originPeerId = m.originPeerId := by
    obtain ⟨i, hop, -, hpacket, -⟩ := hgenuine
    exact congrArg OverlayPacket.originPeerId hpacket
  have hcurrent' : p.state.current call.packet.originPeerId = call.current := by
    rw [horigin]
    exact hcurrent.symm
  have hkey : key = m.key := h.keys _ hmem horigin key rfl
  rw [derived, if_neg (not_not.mpr hcurrent')]
  refine h.alike ?_ (fun v hv => ?_) ?_ rfl
  · split
    · exact Alike.refl _
    · exact alike_derivedKeys fun _ => by rw [h.derive, hkey]
  · rcases mem_cons.mp hv with rfl | hold
    · exact .inr ⟨hparsed, fun ho k hk => h.keys _ hmem ho k hk, fun _ => ⟨hgenuine, hcurrent⟩⟩
    · exact .inl (hrest v hold)
  · have hperm := claims_eraseIdx (m := m) hw
    rw [claim_of_key (w := .key call cached key) hid rfl] at hperm
    refine List.Perm.trans (List.Perm.of_eq ?_) hperm.symm
    exact filterMap_cons_some (claim_of_key (w := .cleartext call key) hid rfl)

end Message

/-! ## Parts -/

/-- Parts that are chunks of a message. -/
def ChunksOf (data : List UInt8) (count : Nat) (parts : KeyedMap Nat (List UInt8)) : Prop :=
  ∀ i v, parts.get i = some v → i < count ∧ v = chunk data i

section Parts

variable {data : List UInt8} {count : Nat} {parts : KeyedMap Nat (List UInt8)}

theorem ChunksOf.keys_subset (h : ChunksOf data count parts) : parts.keys ⊆ range count := by
  intro i hi
  obtain ⟨v, hv⟩ := mem_keys_iff.mp hi
  exact mem_range.mpr (h i v hv).1

theorem ChunksOf.size_le (h : ChunksOf data count parts) : parts.size ≤ count := by
  have hle := (parts.nodup.subperm h.keys_subset).length_le
  rwa [length_range, ← KeyedMap.keys, ← size_eq_length_keys] at hle

theorem ChunksOf.values (h : ChunksOf data count parts) :
    parts.values = parts.keys.map (chunk data) :=
  values_eq_map_keys fun i v hv => (h i v hv).2

theorem ChunksOf.bytes_le (h : ChunksOf data count parts) :
    (parts.values.map length).sum ≤ parts.size * maxChunkBytes := by
  have hsum : ∀ is : List Nat,
      ((is.map (chunk data)).map length).sum ≤ is.length * maxChunkBytes := by
    intro is
    induction is with
    | nil => exact zero_le _
    | cons i is ih =>
        have hchunk := length_chunk_le data i
        rw [map_cons, map_cons, sum_cons, length_cons, succ_mul]
        omega
  rw [h.values, size_eq_length_keys]
  exact hsum _

theorem ChunksOf.full_iff (h : ChunksOf data count parts) :
    parts.size = count ↔ ∀ i < count, parts.get i = some (chunk data i) := by
  have hbound : ∀ i v, parts.get i = some v → i ∈ range count :=
    fun i v hv => mem_range.mpr (h i v hv).1
  have hsize := size_eq_length_iff hbound
  rw [length_range] at hsize
  rw [hsize]
  constructor
  · intro hperm i hi
    obtain ⟨v, hv⟩ := mem_keys_iff.mp (hperm.mem_iff.mpr (mem_range.mpr hi))
    rw [hv, (h i v hv).2]
  · intro hall
    have hkeys : parts.keys.Nodup := parts.nodup
    rw [perm_ext_iff_of_nodup hkeys nodup_range]
    refine fun i => ⟨fun hi => h.keys_subset hi, fun hi => ?_⟩
    exact mem_keys_iff.mpr ⟨_, hall i (mem_range.mp hi)⟩

theorem mapM_get {is : List Nat} (h : ∀ i ∈ is, parts.get i = some (chunk data i)) :
    is.mapM parts.get = some (is.map (chunk data)) := by
  induction is with
  | nil => rfl
  | cons i is ih =>
      rw [mapM_cons, h i mem_cons_self, ih fun j hj => h j (mem_cons_of_mem i hj)]
      rfl

theorem ChunksOf.bytes_full (h : ChunksOf data count parts) (hfull : parts.size = count) :
    (parts.values.map length).sum = ((range count).map (chunk data)).flatten.length := by
  have hbound : ∀ i v, parts.get i = some v → i ∈ range count :=
    fun i v hv => mem_range.mpr (h i v hv).1
  have hperm := (size_eq_length_iff hbound).mp (by rw [hfull, length_range])
  rw [h.values, length_flatten]
  exact ((hperm.map (chunk data)).map length).sum_nat

theorem blit_exact (parts : List (List UInt8)) : blit parts.flatten.length parts = some parts.flatten := by
  rw [blit, if_neg (Nat.lt_irrefl _), Nat.sub_self, replicate_zero, append_nil]

end Parts

namespace Message

theorem settle_grown {parts : KeyedMap Nat (List UInt8)} (i hop : Nat)
    (hparts : ChunksOf m.data m.chunks parts) :
    if parts.size = m.chunks then
      s.settle (m.hopped i hop) (m.assembly parts) = (s.clearAssembly (m.hopped i hop), m.delivery)
    else ∃ missing, s.settle (m.hopped i hop) (m.assembly parts)
      = (s.keepAssembly (m.hopped i hop) (m.assembly parts),
        .pending m.packetId m.originPeerId missing) := by
  rw [settle]
  split
  · rename_i hfull
    have horder : (m.assembly parts).inOrder = some ((range m.chunks).map (chunk m.data)) :=
      mapM_get fun j hj => hparts.full_iff.mp hfull j (mem_range.mp hj)
    have hbytes : (m.assembly parts).bytes = _ := hparts.bytes_full hfull
    have hall : ¬(m.assembly parts).parts.size ≠ (m.assembly parts).count := not_not.mpr hfull
    rw [if_neg hall, horder]
    dsimp only
    rw [hbytes, blit_exact, chunks, flatten_chunks]
    rfl
  · rename_i hfull
    exact ⟨_, if_pos hfull⟩

/-- A chunk that is decrypted joins the parts; the last one completes them. -/
theorem assemble_hopped (hm : m.Routable) {parts : KeyedMap Nat (List UInt8)} {i hop : Nat}
    (hgrown : ChunksOf m.data m.chunks (parts.set i (chunk m.data i))) (hnew : parts.get i = none)
    (hslot : (s.assemblies.get m.slot).getD (m.assembly .empty) = m.assembly parts) :
    s.assemble (m.hopped i hop) (chunk m.data i)
      = s.settle (m.hopped i hop) (m.assembly (parts.set i (chunk m.data i))) := by
  have hbytes : (parts.values.map length).sum + (chunk m.data i).length
      = ((parts.set i (chunk m.data i)).values.map length).sum := by
    rw [values_set_of_none hnew, map_append, sum_append_nat, map_singleton, sum_singleton]
  have hlimit : ((parts.set i (chunk m.data i)).values.map length).sum
      ≤ maxChunkBytes * maxChunks := by
    exact le_trans hgrown.bytes_le
      (mul_le_mul_right _ (le_trans hgrown.size_le hm.chunks_le))
  have hok : ¬((m.assembly parts).count ≠ (m.hopped i hop).chunkCount
      ∨ maxChunkBytes * maxChunks < (m.assembly parts).bytes + (chunk m.data i).length) := by
    rintro (hne | hlong)
    · exact hne rfl
    · exact not_lt.mpr hlimit (hbytes ▸ hlong)
  have hadd : (m.assembly parts).add i (chunk m.data i)
      = m.assembly (parts.set i (chunk m.data i)) := by
    simp only [Message.assembly, Assembly.add, hbytes]
  have hfound : (s.assemblies.get (m.hopped i hop).assemblyKey).getD (m.hopped i hop).newAssembly
      = m.assembly parts := hslot
  rw [assemble, hfound, place, if_neg hok, ← hadd]
  rfl

theorem decrypt_callOf (hm : m.Routable) (hC : C.Lawful) (i hop : Nat) :
    (m.callOf s i hop).decrypt m.key = some (chunk m.data i) := by
  have hnonce : decode (m.hopped i hop).nonce = some (m.randoms.nonce i) := by
    refine decode_encode (ne_nil_of_length_pos ?_)
    rw [hm.nonce]
    decide
  have hcall : (m.callOf s i hop).packet = m.hopped i hop := rfl
  rw [Call.decrypt, hcall, hnonce, bind_some]
  exact hC.decrypt_encrypt _ _ _ _

/-- The cleartext is there: the chunk is placed, and the last one delivers. -/
theorem Reassembly.finish_own (h : m.Reassembly p) (hm : m.Routable) (hC : C.Lawful) {index : Nat}
    {call : Call} {key : C.Key} (hw : p.waiting[index]? = some (.cleartext call key))
    (hid : call.packet.packetId = m.packetId) :
    m.Reassembly ⟨(p.state.finish call key).1, p.waiting.eraseIdx index,
      (p.state.finish call key).2 :: p.results⟩ := by
  have hmem : Waiting.cleartext call key ∈ p.waiting := mem_of_getElem? hw
  have hrest : ∀ v ∈ p.waiting.eraseIdx index, v ∈ p.waiting := fun v => mem_of_mem_eraseIdx
  obtain ⟨i, hop, hi, hcall⟩ := h.call_eq hmem hid
  have hcall' : call = m.callOf p.state i hop := hcall
  subst hcall'
  obtain rfl : key = m.key := h.keys _ hmem rfl key rfl
  -- the claims lose the chunk, which was there once
  have hperm : (m.claims p.waiting).Perm (i :: m.claims (p.waiting.eraseIdx index)) := by
    have hclaims := claims_eraseIdx (m := m) hw
    rw [claim_of_key (w := .cleartext (m.callOf p.state i hop) m.key) hid rfl] at hclaims
    exact hclaims
  have hnodup := nodup_cons.mp (hperm.nodup_iff.mp h.claims)
  have hclaimed : i ∈ m.claims p.waiting := hperm.mem_iff.mpr mem_cons_self
  have hplaced : ∀ j, m.Placed p.state (p.waiting.eraseIdx index) j ↔
      m.Placed p.state p.waiting j ∨ j = i := by
    intro j
    rw [Placed, Placed, hperm.mem_iff, mem_cons, not_or]
    by_cases hj : j = i
    · rw [hj]
      exact iff_of_true ⟨h.claimed i hclaimed, hnodup.1⟩ (.inr rfl)
    · simp only [hj, not_false_eq_true, true_and, or_false]
  obtain ⟨parts, hpending⟩ : ∃ parts, m.Pending p parts := by
    rcases h.progress with hpending | hcomplete
    · exact hpending
    · exact absurd hclaimed (hcomplete.placed i hi).2
  have hnew : parts.get i = none := by
    cases hget : parts.get i with
    | none => rfl
    | some v => exact absurd hclaimed ((hpending.parts i v).mp hget).1.2
  have hgrown : ∀ j v, (parts.set i (chunk m.data i)).get j = some v ↔
      m.Placed p.state (p.waiting.eraseIdx index) j ∧ v = chunk m.data j := by
    intro j v
    rw [hplaced, get_set]
    by_cases hj : j = i
    · rw [if_pos hj, hj]
      simp only [some.injEq, or_true, true_and, eq_comm]
    · rw [if_neg hj, hpending.parts]
      simp only [hj, or_false]
  have hchunks : ChunksOf m.data m.chunks (parts.set i (chunk m.data i)) := by
    intro j v hv
    obtain ⟨⟨hseen, -⟩, hchunk⟩ := (hgrown j v).mp hv
    obtain ⟨expiresAt, hexpires⟩ := isSome_iff_exists.mp hseen
    exact ⟨(h.seen j expiresAt hexpires).1, hchunk⟩
  have hfinish : p.state.finish (m.callOf p.state i hop) m.key
      = p.state.settle (m.hopped i hop) (m.assembly (parts.set i (chunk m.data i))) := by
    rw [finish, decrypt_callOf hm hC]
    dsimp only
    have hcurrent : p.state.current (m.callOf p.state i hop).packet.originPeerId
        = (m.callOf p.state i hop).current := rfl
    rw [if_neg (not_not.mpr hcurrent)]
    exact assemble_hopped hm hchunks hnew hpending.assembly
  have hclaims := hnodup.2
  have hsub : ∀ j ∈ m.claims (p.waiting.eraseIdx index), j ∈ m.claims p.waiting := fun j hj =>
    hperm.mem_iff.mpr (mem_cons_of_mem i hj)
  have hsettle := settle_grown (s := p.state) i hop hchunks
  rw [hfinish]
  split at hsettle
  · rename_i hfull
    rw [hsettle]
    refine ⟨h.own, h.derive, fun w hw => h.parsed w (hrest w hw), fun w hw => h.keys w (hrest w hw),
      fun w hw => h.genuine w (hrest w hw), hclaims, fun j hj => h.claimed j (hsub j hj), h.seen,
      .inr ⟨?_, get_erase_self _ _, fun j hj => ?_⟩⟩
    · have hyes : m.delivers m.delivery = true := beq_self_eq_true _
      rw [filter_cons_of_pos hyes, hpending.results]
    · exact ((hgrown j _).mp (hchunks.full_iff.mp hfull j hj)).1
  · rename_i hpart
    obtain ⟨missing, hsettle⟩ := hsettle
    rw [hsettle]
    refine ⟨h.own, h.derive, fun w hw => h.parsed w (hrest w hw), fun w hw => h.keys w (hrest w hw),
      fun w hw => h.genuine w (hrest w hw), hclaims, fun j hj => h.claimed j (hsub j hj), h.seen,
      .inl ⟨parts.set i (chunk m.data i), ?_, ?_, hgrown, ?_⟩⟩
    · exact hpending.results
    · refine congrArg (getD · (m.assembly .empty)) (?_ : _ = some _)
      exact get_set_self _ _ _
    · by_contra hnone
      refine hpart (hchunks.full_iff.mpr fun j hj => ?_)
      refine (hgrown j _).mpr ⟨?_, rfl⟩
      by_contra hmissing
      exact hnone ⟨j, hj, hmissing⟩

end Message

end Overlay

end WebrtcMinimize
