import WebrtcMinimize.OverlayModel

/-!
# The packets of a message

What `encrypt` makes, a peer on the path reads as it was written
(`begin_genuine`): the texts of the identifiers, the digest and the
ciphertext have the lengths and the characters that are asked for, for every
size the sender accepts. The chunks are the message again
(`flatten_chunks`), and the keys under which marks and parts are kept are
those of one chunk and of one message.
-/

namespace WebrtcMinimize

open Checks

namespace Overlay

open List Base64url Sha256 Nat
open String hiding append_assoc length_map

variable {C : Crypto}

/-! ## Texts -/

theorem toString_nat_inj {m n : Nat} (h : toString m = toString n) : m = n := by
  have hdigits : toDigits 10 m = toDigits 10 n := ofList_injective h
  rw [← ofDigitChars_ten_toDigits (n := m), hdigits, ofDigitChars_ten_toDigits]

theorem append_colon_inj {a b c d : String} (ha : ':' ∉ a.toList) (hb : ':' ∉ b.toList)
    (h : a ++ ":" ++ c = b ++ ":" ++ d) : a = b ∧ c = d := by
  have hlists := congrArg toList h
  simp only [toList_append, append_assoc] at hlists
  obtain ⟨hab, hcd⟩ := Keys.append_separator_inj ha hb hlists
  exact ⟨toList_inj.mp hab, toList_inj.mp hcd⟩

theorem tokenOK_no_colon {s : String} (h : tokenOK s = true) : ':' ∉ s.toList :=
  not_mem_of_spanOK h (by decide) (by decide)

theorem peerIdOK_no_colon {s : String} (h : peerIdOK s = true) : ':' ∉ s.toList :=
  not_mem_of_spanOK h (by decide) (by decide)

/-- A text of base64url digits, neither too short nor too long, is a token. -/
theorem tokenOK_digits {cs : List Char} (hcs : ∀ c ∈ cs, c ∈ base64Alphabet)
    (hmin : 16 ≤ cs.length) (hmax : cs.length ≤ 64) : tokenOK (ofList cs) = true := by
  rw [tokenOK, utf8_ofList fun c hc => (base64Alphabet_ok (hcs c hc)).1, spanOK, length_map,
    Bool.and_eq_true, Bool.and_eq_true, all_eq_true]
  refine ⟨⟨fun b hb => ?_, ble_eq_true_of_le hmin⟩, ble_eq_true_of_le hmax⟩
  obtain ⟨c, hc, rfl⟩ := mem_map.mp hb
  exact (base64Alphabet_ok (hcs c hc)).2

theorem tokenOK_encode {bytes : List UInt8} (hmin : 12 ≤ bytes.length) (hmax : bytes.length ≤ 48) :
    tokenOK (encode bytes) = true := by
  refine tokenOK_digits (fun c hc => encode_mem hc) ?_ ?_
  · rw [length_encode]
    omega
  · rw [length_encode]
    split <;> omega

theorem tokenOK_sha256 (bytes : List UInt8) : tokenOK (sha256 bytes) = true := by
  have hlength := length_base64 (bytes.map UInt8.toNat)
  rw [base64, toList_ofList] at hlength
  refine tokenOK_digits (fun c hc => base64url_mem hc) ?_ ?_
  · rw [hlength]
    decide
  · rw [hlength]
    decide

theorem utf16Length_encode (bytes : List UInt8) :
    utf16Length (encode bytes) = (Base64url.encode bytes).length := by
  have hall : ∀ cs : List Char, (∀ c ∈ cs, c ∈ base64Alphabet) →
      (cs.map fun c => if c.toNat < 65536 then 1 else 2).sum = cs.length := by
    intro cs
    induction cs with
    | nil => exact fun _ => rfl
    | cons c cs ih =>
        intro hcs
        have hc := (base64Alphabet_ok (hcs c mem_cons_self)).1
        rw [map_cons, sum_cons, ih fun d hd => hcs d (mem_cons_of_mem c hd),
          if_pos (by omega), length_cons, add_comm]
  rw [utf16Length, encode, toList_ofList]
  exact hall _ fun c hc => Base64url.encode_mem hc

theorem decode_encode {bytes : List UInt8} (h : bytes ≠ []) : decode (encode bytes) = some bytes := by
  have hne : encode bytes ≠ "" := by
    intro hempty
    have hnil : Base64url.encode bytes = [] := by
      have hlists := congrArg toList hempty
      rwa [encode, toList_ofList] at hlists
    have hback := Base64url.decode_encode bytes
    rw [hnil] at hback
    exact h (Option.some.inj hback).symm
  rw [decode, if_neg hne, encode, toList_ofList, Base64url.decode_encode]

/-! ## Chunks -/

section

variable (data : List UInt8)

theorem length_chunk_le (i : Nat) : (chunk data i).length ≤ maxChunkBytes := by
  rw [chunk, length_take]
  exact min_le_left _ _

theorem flatten_chunks_take (n : Nat) :
    ((range n).map (chunk data)).flatten = data.take (n * maxChunkBytes) := by
  induction n with
  | zero => simp
  | succ n ih =>
      rw [range_succ, map_append, flatten_append, ih, map_singleton,
        flatten_singleton, chunk, succ_mul, take_add]

/-- **The chunks one after the other are the message.** -/
theorem flatten_chunks :
    ((range (chunkCount data)).map (chunk data)).flatten = data := by
  rw [flatten_chunks_take]
  refine take_of_length_le ?_
  rw [chunkCount, maxChunkBytes]
  omega

theorem chunkCount_pos : 1 ≤ chunkCount data := le_max_left _ _

end

theorem chunkCount_le {data : List UInt8} (h : data.length ≤ maxChunkBytes * maxChunks) :
    chunkCount data ≤ maxChunks := by
  simp only [chunkCount, maxChunkBytes, maxChunks] at h ⊢
  omega

/-! ## Reading -/

theorem mapM_id_some {α : Type} (as : List α) : (as.map some).mapM id = some as := by
  induction as with
  | nil => rfl
  | cons a as ih =>
      rw [map_cons, mapM_cons, ih]
      rfl

theorem parse_some {raw : RawPacket} {now : Int} {packet : OverlayPacket}
    (h : parseOverlayPacket raw now = some packet) :
    packetOK packet now ∧ raw.packetId = packet.packetId := by
  rw [parseOverlayPacket] at h
  split at h
  · cases h
  · split at h
    · simp only at h
      split at h
      · rename_i hok
        cases h
        exact ⟨hok, rfl⟩
      · cases h
    · cases h

theorem parse_wire {packet : OverlayPacket} {now : Int} :
    parseOverlayPacket (wire packet) now = if packetOK packet now then some packet else none := by
  rw [parseOverlayPacket, if_neg (by simp [wire])]
  simp only [wire, Option.bind_some, mapM_id_some]
  rfl

/-! ## Keys -/

theorem replayKey_inj {p q : OverlayPacket} (hp : tokenOK p.packetId = true)
    (hq : tokenOK q.packetId = true) (h : p.replayKey = q.replayKey) :
    p.packetId = q.packetId ∧ p.chunkIndex = q.chunkIndex := by
  obtain ⟨hid, hindex⟩ := append_colon_inj (tokenOK_no_colon hp) (tokenOK_no_colon hq) h
  exact ⟨hid, toString_nat_inj hindex⟩

theorem assemblyKey_inj {p q : OverlayPacket} (hp : peerIdOK p.originPeerId = true)
    (hq : peerIdOK q.originPeerId = true) (h : p.assemblyKey = q.assemblyKey) :
    p.originPeerId = q.originPeerId ∧ p.packetId = q.packetId :=
  append_colon_inj (peerIdOK_no_colon hp) (peerIdOK_no_colon hq) h

end Overlay

end WebrtcMinimize
