import WebrtcMinimize.SharedNotes

/-!
# Shared notes agree

Each participant's text is a register of `Lww`, with the updates as writes and
the snapshots as answers (`view`). An answer carries the responder's id in
place of the author's, and a receiver drops what is longer than 48 KiB, though
its author has it already. `Orderly` keeps the runs apart from both.
-/

namespace WebrtcMinimize

namespace SharedNotes

open Runs Checks Overlay CodeUnits Posting Operation List Option SharedNotes.System Lww.Copy

/-! ## Texts as registers -/

abbrev Stamp := Nat ×ₗ String

def State.copy (s : State) : Lww.Copy Stamp Text :=
  ⟨toLex (s.revision, s.lastAuthorPeerId), toLex (s.revision, s.writer), s.text⟩

/-- What an operation brings to a register, and whether it is an answer. -/
def Operation.copy (op : Operation) : Option (Lww.Copy Stamp Text × Bool) :=
  match op.payload with
  | .update revision _ text => some (.written (toLex (revision, op.authorPeerId)) text, false)
  | .syncRequest => none
  | .snapshot revision text writer =>
      some (⟨toLex (revision, op.authorPeerId), toLex (revision, writer), text⟩, true)

def register (l : Letter) : Option (Lww.Letter String Stamp Text) :=
  l.operation.copy.map fun c => ⟨l.recipient, c.1, c.2⟩

def System.view (s : System) : Lww.Replicas String Stamp Text where
  reg p := (s.services p).state.copy
  synced p := decide (p ∈ s.synced)
  updates := s.updates
  flight := s.flight.filterMap register

def setting (room : Room) (first : Version) : Lww.Setting String Stamp Text :=
  ⟨room.members, (toLex (0, ""), []), (toLex (first.revision, first.author), first.text)⟩

theorem stamp_lt {r r' : Nat} {a a' : String} :
    (toLex (r, a) : Stamp) < toLex (r', a') ↔ r < r' ∨ r = r' ∧ a < a' :=
  Prod.Lex.toLex_lt_toLex

/-- A snapshot of an empty text is not sent. -/
def Payload.nonempty : Payload → Prop
  | .snapshot revision _ _ => 0 < revision
  | _ => True

variable {op : Operation}

theorem applyOperation_copy (s : State) {c : Lww.Copy Stamp Text × Bool}
    (hop : op.copy = some c) (hnonempty : op.payload.nonempty) :
    (applyOperation s op).copy = Lww.take s.copy c.1 := by
  unfold copy at hop
  unfold applyOperation
  split at hop
  · rename_i revision base text hpayload
    cases hop
    simp only [hpayload, Lww.take, State.copy, written, stamp_lt]
    by_cases hlt : s.revision < revision
    · rw [if_pos hlt, if_pos (.inl hlt)]
    · by_cases heq : revision = s.revision ∧ s.lastAuthorPeerId < op.authorPeerId
      · rw [if_neg hlt, if_pos heq, if_pos (.inr ⟨heq.1.symm, heq.2⟩)]
      · have hnot : ¬(s.revision < revision ∨ s.revision = revision
            ∧ s.lastAuthorPeerId < op.authorPeerId) := by
          rintro (h | ⟨h, h'⟩)
          · exact hlt h
          · exact heq ⟨h.symm, h'⟩
        rw [if_neg hlt, if_neg heq, if_neg hnot]
  · cases hop
  · rename_i revision text writer hpayload
    cases hop
    rw [hpayload] at hnonempty
    have hpos : 0 < revision := hnonempty
    simp only [hpayload, Lww.take, State.copy, stamp_lt]
    by_cases hlt : s.revision < revision
    · rw [if_pos hlt, if_pos (.inl hlt)]
    · by_cases heq : revision = s.revision ∧ 0 < revision ∧ s.lastAuthorPeerId < op.authorPeerId
      · rw [if_neg hlt, if_pos heq, if_pos (.inr ⟨heq.1.symm, heq.2.2⟩)]
      · have hnot : ¬(s.revision < revision ∨ s.revision = revision
            ∧ s.lastAuthorPeerId < op.authorPeerId) := by
          rintro (h | ⟨h, h'⟩)
          · exact hlt h
          · exact heq ⟨h.symm, hpos, h'⟩
        rw [if_neg hlt, if_neg heq, if_neg hnot]

/-! ## The condition -/

section Runs

variable (room : Room) (first : Version)

/-- No text under way or held by anyone is confused with a write of this
stamp, nor is the one from the start. -/
def Clear (s : System) (stamp : Stamp) : Prop :=
  stamp ≠ (setting room first).first.1
    ∧ (∀ p ∈ room.members, stamp ∉ Set.uIcc (s.view.reg p).origin (s.view.reg p).label)
    ∧ ∀ l ∈ s.view.flight, stamp ∉ Set.uIcc l.copy.origin l.copy.label

/-- What is sent fits what its receivers take. An update has a revision and an
author of its own, and an answer comes from a participant that has what the
room had before and does not make its author another one's. -/
def Orderly (s : System) : Event → Prop
  | .updateText peerId text opId =>
      ∀ service op, updateText room peerId (s.services peerId) text opId = some (service, some op) →
        op.byteLength ≤ 48 * 1024
          ∧ Clear room first s (toLex ((s.services peerId).state.revision + 1, peerId))
  | .requestSync peerId opId =>
      ∀ service op, requestSync room peerId (s.services peerId) opId = some (service, op) →
        op.byteLength ≤ 48 * 1024
  | .deliver i participants opId =>
      ∀ l, s.flight[i]? = some l → ∀ service op,
        ingest room l.recipient participants opId (s.services l.recipient)
            ⟨l.sender, "event", l.operation⟩ = (service, some op) →
          op.byteLength ≤ 48 * 1024 ∧ l.recipient ∈ s.synced
            ∧ ∀ c, op.copy = some c → Lww.Apart ((setting room first).stamps s.view) c.1

/-! ## The invariant -/

structure LetterOK (l : Letter) : Prop where
  sender : l.sender ∈ room.members
  recipient : l.recipient ∈ room.members
  other : l.recipient ≠ l.sender
  author : l.operation.authorPeerId = l.sender
  epoch : l.operation.membershipEpoch = room.membershipEpoch
  ok : l.operation.ok = true
  fits : l.operation.byteLength ≤ 48 * 1024
  nonempty : l.operation.payload.nonempty

structure Kept (s : System) : Prop where
  good : Lww.Good (setting room first) s.view
  posted : Posted (LetterOK room) opId s.flight (fun p => (s.services p).seen) s.drawn

end Runs

variable {room : Room} {first : Version}

theorem LetterOK.ingestDelivery {l : Letter} (h : LetterOK room l) {seen : List String}
    (hseen : l.operation.opId ∉ seen) :
    ingestDelivery ⟨l.sender, "event", l.operation⟩ room.membershipEpoch room.members seen
      = some l.operation := by
  have hfits := h.fits
  have hsender := h.sender
  unfold SharedNotes.ingestDelivery
  simp [h.ok, h.epoch, h.author, hsender, hseen, not_lt.mpr hfits]

/-- The recipient has seen the letter, and has sent at most one answer. -/
theorem LetterOK.ingest {l : Letter} (h : LetterOK room l) {s : Service}
    (hseen : l.operation.opId ∉ s.seen) (participants : List Participant) (opId : String) :
    (∃ reply, SharedNotes.ingest room l.recipient participants opId s
        ⟨l.sender, "event", l.operation⟩ = (s.see l.operation.opId, reply)
      ∧ l.operation.copy = none
      ∧ ∀ op, reply = some op → op = snapshotOperation room l.recipient s opId ∧ op.ok = true
          ∧ 0 < s.state.revision)
    ∨ l.operation.copy ≠ none ∧ SharedNotes.ingest room l.recipient participants opId s
        ⟨l.sender, "event", l.operation⟩
      = ({ s.see l.operation.opId with state := applyOperation s.state l.operation }, none) := by
  unfold SharedNotes.ingest
  rw [h.ingestDelivery hseen]
  cases hpayload : l.operation.payload with
  | syncRequest =>
      left
      have hcopy : l.operation.copy = none := by rw [copy, hpayload]
      simp only [hpayload]
      split
      · rename_i hanswers
        refine ⟨_, rfl, hcopy, ?_⟩
        intro op heq
        cases heq
        refine ⟨rfl, hanswers.2, Nat.pos_of_ne_zero fun hzero => ?_⟩
        rw [hzero, shouldRespondToNotesSync, if_pos rfl] at hanswers
        exact absurd hanswers.1 (by decide)
      · exact ⟨none, rfl, hcopy, fun op heq => by cases heq⟩
  | update revision base text =>
      right
      refine ⟨?_, by simp only [hpayload]⟩
      rw [copy, hpayload]
      exact some_ne_none _
  | snapshot revision text writer =>
      right
      refine ⟨?_, by simp only [hpayload]⟩
      rw [copy, hpayload]
      exact some_ne_none _

/-! ## Steps -/

theorem put_reg (s : System) (p : String) (service : Service) (q : String) :
    (s.put p service).view.reg q = if q = p then service.state.copy else s.view.reg q := by
  show ((if q = p then service else s.services q).state).copy = _
  split <;> rfl

variable {p : String} {s : System} {service : Service}

theorem seen_put {opId : String}
    (hservice : service.seen = opId :: (s.services p).seen) (q : String) :
    ∀ k ∈ ((s.put p service).services q).seen, k ∈ (s.services q).seen ∨ q = p ∧ k = opId := by
  intro k hk
  unfold put at hk
  dsimp only at hk
  split at hk
  · rename_i heq
    rw [hservice, mem_cons] at hk
    exact hk.elim (fun h => .inr ⟨heq, h⟩) fun h => .inl (heq ▸ h)
  · exact .inl hk

theorem updateText_eq {s : Service} {text : Text} {opId : String}
    (h : updateText room p s text opId = some (service, some op)) :
    service = { s.see opId with state := ⟨text, s.state.revision + 1, p, p⟩ }
      ∧ op = updateOperation room p s text opId ∧ op.ok = true := by
  unfold updateText at h
  split at h
  · cases h
  · split at h
    · cases h
    · split at h
      · cases h
      · split at h
        · cases h
        · rename_i hok
          cases h
          exact ⟨rfl, rfl, by simpa using hok⟩

theorem Kept.fresh (h : Kept room first s) (hp : p ∈ room.members)
    {stamp : Stamp} (value : Text) (hauthor : (ofLex stamp).2 = p)
    (hlabel : (s.view.reg p).label < stamp) : (stamp, value) ∉ s.updates := by
  intro hmem
  rcases h.good.reached _ hmem p hp with hle | hflying
  · exact absurd hlabel (not_lt.mpr hle)
  · obtain ⟨l, hl, hregister⟩ := mem_filterMap.mp hflying
    obtain ⟨c, hc, heq⟩ := map_eq_some_iff.mp hregister
    have hok := h.posted.letters l hl
    have hrecipient : l.recipient = p := congrArg Lww.Letter.recipient heq
    have hcopy : c.1 = written stamp value := congrArg Lww.Letter.copy heq
    have hwrite : l.operation.authorPeerId = p := by
      unfold copy at hc
      split at hc
      · cases hc
        have hstamp := congrArg origin hcopy
        rw [← hauthor, ← show _ = stamp from hstamp]
        rfl
      · cases hc
      · cases hc
        have hanswer : true = false := congrArg Lww.Letter.answer heq
        cases hanswer
    exact hok.other (hrecipient.trans (hwrite.symm.trans hok.author))

theorem Posted.broadcast
    (h : Posted (LetterOK room) opId s.flight (fun p => (s.services p).seen) s.drawn)
    (hmembers : room.members.Nodup) (hp : p ∈ room.members) (hdrawn : op.opId ∉ s.drawn)
    (hservice : service.seen = op.opId :: (s.services p).seen)
    (hauthor : op.authorPeerId = p) (hepoch : op.membershipEpoch = room.membershipEpoch)
    (hok : op.ok = true) (hfits : op.byteLength ≤ 48 * 1024) (hnonempty : op.payload.nonempty) :
    Posted (LetterOK room) opId (s.flight ++ toOthers room.members p op)
      (fun q => ((s.put p service).services q).seen) (op.opId :: s.drawn) := by
  refine h.send (fun l hl => ?_) (fun k hk => mem_cons_of_mem _ hk) (fun l hl => ?_)
    (toOthers_distinct hmembers _ _ _) fun q k hk => ?_
  · obtain ⟨hsender, hrecipient, hne, hop⟩ := mem_toOthers.mp hl
    refine ⟨hsender ▸ hp, hrecipient, hsender ▸ hne, ?_, ?_, ?_, ?_, ?_⟩ <;> rw [hop]
    · exact hauthor.trans hsender.symm
    · exact hepoch
    · exact hok
    · exact hfits
    · exact hnonempty
  · rw [(mem_toOthers.mp hl).2.2.2]
    exact ⟨hdrawn, mem_cons_self⟩
  · rcases seen_put hservice q k hk with hk | ⟨rfl, rfl⟩
    · exact .inl hk
    · refine .inr ⟨hdrawn, mem_cons_self, fun l hl heq => ?_⟩
      exact absurd heq (mem_toOthers.mp hl).2.2.1

/-- **An update.** -/
theorem Kept.updateText {s : System} (h : Kept room first s) (hmembers : room.members.Nodup)
    {p : String} (hp : p ∈ room.members) {text : Text} {opId : String} (hdrawn : opId ∉ s.drawn)
    {service : Service} {op : Operation}
    (hcall : updateText room p (s.services p) text opId = some (service, some op))
    (hfits : op.byteLength ≤ 48 * 1024)
    (hclear : Clear room first s (toLex ((s.services p).state.revision + 1, p))) :
    Kept room first { (s.put p service).broadcast room p op with
      updates := s.updates ++ [(toLex (service.state.revision, p), text)] } := by
  obtain ⟨rfl, rfl, hok⟩ := updateText_eq hcall
  obtain ⟨hfirst, hregs, hflight⟩ := hclear
  have hnew : (s.view.reg p).label < toLex ((s.services p).state.revision + 1, p) :=
    stamp_lt.mpr (.inl (Nat.lt_succ_self _))
  constructor
  · have hgood := h.good.write hp text
      ((toOthers room.members p (updateOperation room p (s.services p) text opId)).filterMap register)
      (stamp_lt.mpr (.inl (Nat.succ_pos _))).le hnew ?_ hregs hflight ?_ ?_
    · refine cast (congrArg _ ?_) hgood
      refine (Lww.Replicas.mk.injEq ..).mpr ⟨funext fun q => ?_, rfl, rfl, ?_⟩
      · exact (put_reg s p { (s.services p).see opId with
          state := ⟨text, (s.services p).state.revision + 1, p, p⟩ } q).symm
      · exact (filterMap_append ..).symm
    · intro hmem
      obtain ⟨e, he, heq⟩ := mem_map.mp hmem
      rcases mem_cons.mp he with rfl | he
      · cases heq
      · rcases mem_cons.mp he with rfl | he
        · exact hfirst heq.symm
        · exact h.fresh hp e.2 rfl hnew (heq ▸ he)
    · intro l hl
      obtain ⟨m, hm, hregister⟩ := mem_filterMap.mp hl
      obtain ⟨-, -, -, hop⟩ := mem_toOthers.mp hm
      rw [register, hop] at hregister
      cases hregister
      exact ⟨rfl, rfl⟩
    · intro q hq hne
      refine mem_filterMap.mpr ⟨⟨p, q, _⟩, mem_toOthers.mpr ⟨rfl, hq, hne, rfl⟩, rfl⟩
  · exact Posted.broadcast h.posted hmembers hp hdrawn rfl rfl rfl hok hfits trivial

/-- **A sync request.** -/
theorem Kept.requestSync {s : System} (h : Kept room first s) (hmembers : room.members.Nodup)
    {p : String} (hp : p ∈ room.members) {opId : String} (hdrawn : opId ∉ s.drawn)
    {service : Service} {op : Operation}
    (hcall : requestSync room p (s.services p) opId = some (service, op))
    (hfits : op.byteLength ≤ 48 * 1024) :
    Kept room first ((s.put p service).broadcast room p op) := by
  unfold SharedNotes.requestSync at hcall
  split at hcall
  · cases hcall
  · split at hcall
    · cases hcall
    · rename_i hchecks
      simp only [not_or, Bool.not_eq_false] at hchecks
      cases hcall
      constructor
      · refine cast (congrArg _ ?_) h.good
        refine (Lww.Replicas.mk.injEq ..).mpr ⟨funext fun q => ?_, rfl, rfl, ?_⟩
        · refine Eq.trans ?_ (put_reg s p { (s.services p).see opId with
            hasRequestedSync := true } q).symm
          split
          · rename_i heq
            rw [heq]
            rfl
          · rfl
        · have hnone : (toOthers room.members p (syncOperation room p opId)).filterMap register
              = [] := by
            refine filterMap_eq_nil_iff.mpr fun l hl => ?_
            rw [register, (mem_toOthers.mp hl).2.2.2]
            rfl
          refine Eq.trans ?_ (filterMap_append ..).symm
          rw [hnone, append_nil]
          rfl
      · exact Posted.broadcast h.posted hmembers hp hdrawn rfl rfl rfl hchecks.2 hfits trivial

theorem Posted.arrived {before later : List Letter} {l : Letter}
    (h : Posted (LetterOK room) opId s.flight (fun p => (s.services p).seen) s.drawn)
    (hflight : s.flight = before ++ l :: later) (service : Service)
    (hservice : service.seen = l.operation.opId :: (s.services l.recipient).seen) :
    Posted (LetterOK room) opId (before ++ later)
      (fun q => ((s.put l.recipient service).services q).seen) s.drawn := by
  rw [hflight] at h
  exact h.arrive fun q k hk => seen_put hservice q k hk

theorem copy_synchronizes {c : Lww.Copy Stamp Text × Bool}
    (h : op.copy = some c) : op.payload.synchronizes = c.2 := by
  unfold copy at h
  split at h
  · rename_i hpayload
    rw [hpayload, ← some.inj h]
    rfl
  · cases h
  · rename_i hpayload
    rw [hpayload, ← some.inj h]
    rfl

theorem not_synchronizes (h : op.copy = none) : op.payload.synchronizes = false := by
  unfold copy at h
  split at h
  · cases h
  · rename_i hpayload
    rw [hpayload]
    rfl
  · cases h

/-- **A delivery.** -/
theorem Kept.deliver {s : System} (h : Kept room first s) {i : Nat} {l : Letter}
    (hl : s.flight[i]? = some l) {participants : List Participant} {opId : String}
    (hdrawn : opId ∉ s.drawn)
    (horderly : Orderly room first s (.deliver i participants opId)) :
    Kept room first (s.receive room l i participants opId) := by
  obtain ⟨before, later, hflight, herase⟩ := split_at hl
  have hmem : l ∈ s.flight := hflight ▸ mem_append_right _ mem_cons_self
  have hok := h.posted.letters l hmem
  have horderly := horderly l hl
  have hviewed : s.view.flight = before.filterMap register ++ (l :: later).filterMap register := by
    show s.flight.filterMap register = _
    rw [hflight, filterMap_append]
  rcases hok.ingest (h.posted.unseen l hmem) participants opId with
    ⟨reply, hingest, hcopy, hreply⟩ | ⟨hcopy, hingest⟩
  · have hnone : register l = none := by rw [register, hcopy]; rfl
    have hreg : ∀ q, s.view.reg q
        = (s.put l.recipient ((s.services l.recipient).see l.operation.opId)).view.reg q := by
      intro q
      rw [put_reg]
      split
      · rename_i heq
        rw [heq]
        rfl
      · rfl
    rw [filterMap_cons_none hnone, ← filterMap_append] at hviewed
    unfold receive
    rw [hingest]
    simp only [not_synchronizes hcopy, herase]
    constructor
    · cases reply with
      | none =>
          refine cast (congrArg _ ?_) h.good
          refine (Lww.Replicas.mk.injEq ..).mpr ⟨funext hreg, rfl, rfl, hviewed.trans ?_⟩
          simp
      | some op =>
          obtain ⟨rfl, -, -⟩ := hreply op rfl
          obtain ⟨-, hsynced, hapart⟩ := horderly _ _ hingest
          have hgood := h.good.answer hok.recipient (decide_eq_true hsynced) l.sender (hapart _ rfl)
          refine cast (congrArg _ ?_) hgood
          refine (Lww.Replicas.mk.injEq ..).mpr ⟨funext hreg, rfl, rfl, ?_⟩
          refine Eq.trans ?_ (filterMap_append ..).symm
          rw [hviewed]
          rfl
    · refine (Posted.arrived h.posted hflight ((s.services l.recipient).see
        l.operation.opId) rfl).send (fun m hm => ?_) (fun k hk => mem_cons_of_mem _ hk)
        (fun m hm => ?_) ?_ fun q k hk => .inl hk
      · obtain ⟨op, hop, rfl⟩ := mem_map.mp hm
        obtain ⟨rfl, hopok, hpos⟩ := hreply op (mem_toList.mp hop)
        obtain ⟨hfits, -, -⟩ := horderly _ _ (mem_toList.mp hop ▸ hingest)
        exact ⟨hok.recipient, hok.sender, hok.other.symm, rfl, rfl, hopok, hfits, hpos⟩
      · obtain ⟨op, hop, rfl⟩ := mem_map.mp hm
        obtain ⟨rfl, -, -⟩ := hreply op (mem_toList.mp hop)
        exact ⟨hdrawn, mem_cons_self⟩
      · cases reply with
        | none => exact .nil
        | some op => exact pairwise_singleton ..
  · obtain ⟨c, hc⟩ := ne_none_iff_exists'.mp hcopy
    have hregister : register l = some ⟨l.recipient, c.1, c.2⟩ := by rw [register, hc]; rfl
    rw [filterMap_cons_some hregister] at hviewed
    unfold receive
    rw [hingest]
    simp only [herase, toList_none, map_nil, append_nil]
    constructor
    · refine cast (congrArg _ ?_) (h.good.deliver hviewed)
      refine (Lww.Replicas.mk.injEq ..).mpr ⟨funext fun q => ?_, funext fun q => ?_, rfl, ?_⟩
      · refine Eq.trans ?_ (put_reg s l.recipient { (s.services l.recipient).see l.operation.opId with
          state := applyOperation (s.services l.recipient).state l.operation } q).symm
        split
        · rename_i heq
          rw [heq]
          exact (applyOperation_copy _ hc hok.nonempty).symm
        · rfl
      · show (if q = l.recipient then decide (q ∈ s.synced) || c.2 else decide (q ∈ s.synced))
          = decide (q ∈ if l.operation.payload.synchronizes = true then l.recipient :: s.synced
              else s.synced)
        rw [copy_synchronizes hc]
        cases c.2 <;> by_cases heq : q = l.recipient <;> simp [heq]
      · exact (filterMap_append ..).symm
    · refine cast ?_ ((Posted.arrived h.posted hflight { (s.services l.recipient).see
          l.operation.opId with
            state := applyOperation (s.services l.recipient).state l.operation } rfl).send
        (fun m hm => ?_) (fun k hk => mem_cons_of_mem opId hk) (fun m hm => ?_) .nil
        fun q k hk => .inl hk)
      · rw [append_nil]
      · cases hm
      · cases hm

/-- **Step.** -/
theorem Kept.step {t : System} {e : Event} (h : Kept room first s)
    (hmembers : room.members.Nodup) (hstep : System.Step room s e t)
    (horderly : Orderly room first s e) : Kept room first t := by
  unfold System.Step System.next at hstep
  cases e with
  | updateText p text opId =>
      dsimp only at hstep
      split at hstep
      · cases hstep
      · rename_i hguard
        rw [not_or, not_not] at hguard
        split at hstep
        · exact some.inj hstep ▸ h
        · exact some.inj hstep ▸ h
        · rename_i service op hcall
          obtain ⟨hfits, hclear⟩ := horderly service op hcall
          exact some.inj hstep ▸ h.updateText hmembers hguard.1 hguard.2 hcall hfits hclear
  | requestSync p opId =>
      dsimp only at hstep
      split at hstep
      · cases hstep
      · rename_i hguard
        rw [not_or, not_not] at hguard
        split at hstep
        · exact some.inj hstep ▸ h
        · rename_i service op hcall
          exact some.inj hstep
            ▸ h.requestSync hmembers hguard.1 hguard.2 hcall (horderly service op hcall)
  | deliver i participants opId =>
      dsimp only at hstep
      split at hstep
      · cases hstep
      · rename_i hdrawn
        obtain ⟨l, hl, rfl⟩ := map_eq_some_iff.mp hstep
        exact h.deliver hl hdrawn horderly

theorem start_kept (room : Room) (present : List String) (first : Version) :
    Kept room first (start present first) := by
  have hreg : ∀ p, (start present first).view.reg p = .written (toLex (first.revision, first.author))
      first.text ∧ p ∈ present ∨ (start present first).view.reg p = .written (toLex (0, "")) []
        ∧ p ∉ present := by
    intro p
    by_cases hp : p ∈ present
    · left
      refine ⟨?_, hp⟩
      show (if p ∈ present then first.state else State.initial).copy = _
      rw [if_pos hp]
      rfl
    · right
      refine ⟨?_, hp⟩
      show (if p ∈ present then first.state else State.initial).copy = _
      rw [if_neg hp]
      rfl
  have hall : ∀ e ∈ (setting room first).all (start present first).view,
      e = (toLex (0, ""), []) ∨ e = (toLex (first.revision, first.author), first.text) := by
    intro e he
    simpa [Lww.Setting.all, setting, start, view] using he
  have hfirst : (toLex (first.revision, first.author) : Stamp) = toLex (0, "") → first.text = [] := by
    intro heq
    exact (first.written (congrArg Prod.fst (toLex.injective heq))).1
  constructor
  · refine ⟨?_, ?_, ?_, ?_, ?_, ?_, ?_, ?_, ?_, ?_⟩
    · intro e he
      rcases hall e he with rfl | rfl
      · exact le_refl _
      · rcases Nat.eq_zero_or_pos first.revision with hzero | hpos
        · rw [hzero, (first.written hzero).2]
          exact le_refl _
        · exact (stamp_lt.mpr (.inl hpos)).le
    · intro e he e' he' heq
      rcases hall e he with rfl | rfl <;> rcases hall e' he' with rfl | rfl
      · rfl
      · exact (hfirst heq.symm).symm
      · exact hfirst heq
      · rfl
    · intro p _
      rcases hreg p with ⟨heq, -⟩ | ⟨heq, -⟩ <;> rw [heq]
      · exact Lww.Good.first_mem
      · exact mem_cons_self
    · intro p _
      rcases hreg p with ⟨heq, -⟩ | ⟨heq, -⟩ <;> rw [heq] <;> exact Lww.apart_written _ _ _
    · intro p _ hsynced
      rcases hreg p with ⟨heq, -⟩ | ⟨-, hp⟩
      · rw [heq]
        exact le_refl _
      · exact absurd (of_decide_eq_true hsynced) hp
    · intro p _ _
      rcases hreg p with ⟨heq, -⟩ | ⟨heq, -⟩ <;> rw [heq] <;> rfl
    · exact fun l hl => absurd hl not_mem_nil
    · exact fun l hl => absurd hl not_mem_nil
    · exact fun l hl => absurd hl not_mem_nil
    · exact fun e he => absurd he not_mem_nil
  · exact Posting.Posted.nil _ _ _

/-- **Agreement.** When nothing is under way after an orderly run, all that
were there from the start or have had a snapshot hold the same text and
revision: of an update, or of the start. -/
theorem notes_agree {present : List String} (hmembers : room.members.Nodup) {es : List Event}
    {s : System}
    (hrun : Runs.Path (Guarded (System.Step room) (Orderly room first)) (start present first) es s)
    (hquiet : s.flight = []) :
    ∃ text revision, (∀ p ∈ room.members, p ∈ s.synced →
        (s.services p).state.text = text ∧ (s.services p).state.revision = revision)
      ∧ (text = [] ∧ revision = 0 ∨ text = first.text ∧ revision = first.revision
        ∨ ∃ author, (toLex (revision, author), text) ∈ s.updates) := by
  have hkept : Kept room first s := by
    refine hrun.inv (I := Kept room first) ?_ (start_kept room present first)
    rintro s e t ⟨hstep, horderly⟩ hs
    exact hs.step hmembers hstep horderly
  obtain ⟨e, he, hagree⟩ := hkept.good.agree (by rw [view, hquiet]; rfl)
  refine ⟨e.2, (ofLex e.1).1, fun p hp hsynced => ?_, ?_⟩
  · obtain ⟨horigin, hvalue⟩ := hagree p hp (.inl (hkept.good.synced p hp (decide_eq_true hsynced)))
    exact ⟨hvalue, congrArg (fun x => (ofLex x).1) horigin⟩
  · rcases mem_cons.mp he with rfl | he
    · exact .inl ⟨rfl, rfl⟩
    · rcases mem_cons.mp he with rfl | he
      · exact .inr (.inl ⟨rfl, rfl⟩)
      · exact .inr (.inr ⟨(ofLex e.1).2, he⟩)

/-! ### An update, and a snapshot between two -/

def samplePeer (c : Char) : String := String.ofList (replicate 16 c)

def sampleId (c : Char) : String := String.ofList (replicate 32 c)

/-- Nothing was written before. -/
def nothing : Version := ⟨[], 0, "", fun _ => ⟨rfl, rfl⟩⟩

def pairRoom : Room := ⟨[samplePeer '0', samplePeer '1'], 1⟩

def pairEvents : List Event :=
  [.updateText (samplePeer '1') [0x61] (sampleId '1'), .deliver 0 [] (sampleId '2')]

theorem reply_of_request {room : Room} {own : String} {participants : List Participant}
    {opId : String} {s : Service} {d : Delivery}
    (h : ingest room own participants opId s d = (service, some op)) :
    d.data.payload = .syncRequest := by
  unfold ingest at h
  split at h
  · cases h
  · rename_i op' hop
    have hsame : op' = d.data := by
      unfold ingestDelivery at hop
      repeat' split at hop
      all_goals first | exact (some.inj hop).symm | cases hop
    split at h
    · rename_i hpayload
      rw [← hsame, hpayload]
    · cases h

theorem notes_agree_sample :
    ∃ s : System, s.flight = [] ∧ s.synced = [samplePeer '0', samplePeer '1']
      ∧ ∃ text revision, (∀ p ∈ pairRoom.members, p ∈ s.synced →
        (s.services p).state.text = text ∧ (s.services p).state.revision = revision)
        ∧ (text = [] ∧ revision = 0 ∨ text = nothing.text ∧ revision = nothing.revision
          ∨ ∃ author, (toLex (revision, author), text) ∈ s.updates) := by
  have hrun : (play (next pairRoom) pairEvents (start pairRoom.members nothing)).map
      (fun s => (s.flight, s.synced)) = some ([], [samplePeer '0', samplePeer '1']) := by
    decide
  obtain ⟨s, hs, heq⟩ := map_eq_some_iff.mp hrun
  obtain ⟨hflight, hsynced⟩ := Prod.mk.inj heq
  have hpath := Path.of_play hs
  refine ⟨s, hflight, hsynced, ?_⟩
  refine @notes_agree pairRoom nothing pairRoom.members (by decide) pairEvents s ?_ hflight
  cases hpath with
  | cons hfirst hrest =>
      rename_i t
      have ht : t.flight.map (fun l => l.operation.payload) = [.update 1 0 [0x61]] := by
        have hnext : ((start pairRoom.members nothing).next pairRoom
            (.updateText (samplePeer '1') [0x61] (sampleId '1'))).map
            (fun s => s.flight.map fun l => l.operation.payload) = some [.update 1 0 [0x61]] := by
          decide
        rw [hfirst] at hnext
        exact some.inj hnext
      cases hrest with
      | cons hsecond hnil =>
          refine .cons ⟨hfirst, ?_⟩ (.cons ⟨hsecond, ?_⟩ ?_)
          · intro service op hcall
            cases hcall
            refine ⟨by decide, ?_, fun p _ => ?_, fun l hl => absurd hl not_mem_nil⟩
            · exact fun h => absurd (congrArg (fun x => (ofLex x).1) h) (by decide)
            · have hreg : (start pairRoom.members nothing).view.reg p = .written (toLex (0, "")) [] := by
                show (if p ∈ pairRoom.members then nothing.state else State.initial).copy = _
                split <;> rfl
              rw [hreg, written, Set.uIcc_self]
              exact fun h => absurd (congrArg (fun x => (ofLex x).1) h) (by decide)
          · intro l hl service op hingest
            have hpayload := reply_of_request hingest
            have hmem := mem_map_of_mem (f := fun l : Letter => l.operation.payload)
              (mem_of_getElem? hl)
            rw [ht, mem_singleton] at hmem
            exact absurd (hpayload.symm.trans hmem) (by decide)
          · cases hnil
            exact .nil s

def sampleRoom : Room := ⟨[samplePeer '0', samplePeer '1', samplePeer '2', samplePeer '3'], 1⟩

def sampleOwner : List Participant := [⟨samplePeer '3', "owner"⟩]

/-- Two participants write at once. A third one, whose id is the greatest,
answers the fourth while it has the lesser of the two texts only. -/
def relabelledEvents : List Event :=
  [.updateText (samplePeer '1') [0x61] (sampleId '1'), .updateText (samplePeer '2') [0x62] (sampleId '2'),
    .requestSync (samplePeer '0') (sampleId '3'), .deliver 2 sampleOwner (sampleId '4'),
    .deliver 7 sampleOwner (sampleId '5'), .deliver 7 sampleOwner (sampleId '6'),
    .deliver 0 sampleOwner (sampleId '7'), .deliver 0 sampleOwner (sampleId '8'),
    .deliver 0 sampleOwner (sampleId '9'), .deliver 0 sampleOwner (sampleId 'a'),
    .deliver 0 sampleOwner (sampleId 'b'), .deliver 0 sampleOwner (sampleId 'c'),
    .deliver 0 sampleOwner (sampleId 'd')]

theorem snapshot_relabels :
    ¬ ∀ (room : Room) (present : List String) (first : Version) (es : List Event) (s : System),
      room.members.Nodup → Runs.Path (System.Step room) (start present first) es s →
      s.flight = [] → ∃ text revision, ∀ p ∈ room.members, p ∈ s.synced →
        (s.services p).state.text = text ∧ (s.services p).state.revision = revision := by
  intro h
  have hrun : (play (next sampleRoom) relabelledEvents
      (start [samplePeer '1', samplePeer '2', samplePeer '3'] nothing)).map (fun s =>
        (s.flight, s.synced, sampleRoom.members.map fun p => (s.services p).state.text))
        = some ([], [samplePeer '0', samplePeer '1', samplePeer '2', samplePeer '3'],
            [[0x61], [0x62], [0x62], [0x62]]) := by
    decide
  obtain ⟨s, hs, heq⟩ := map_eq_some_iff.mp hrun
  simp only [Prod.mk.injEq] at heq
  obtain ⟨hflight, hsynced, htexts⟩ := heq
  obtain ⟨text, revision, hall⟩ := h sampleRoom _ _ relabelledEvents s (by decide)
    (Path.of_play hs) hflight
  have hmem : ∀ p ∈ sampleRoom.members, (s.services p).state.text = text := by
    intro p hp
    exact (hall p hp (hsynced ▸ hp)).1
  have hfirst := hmem (samplePeer '0') (by decide)
  have hlast := hmem (samplePeer '3') (by decide)
  have htexts₀ := congrArg head? htexts
  have htexts₃ := congrArg getLast? htexts
  rw [show (sampleRoom.members.map fun p => (s.services p).state.text).head?
    = some (s.services (samplePeer '0')).state.text from rfl, hfirst] at htexts₀
  rw [show (sampleRoom.members.map fun p => (s.services p).state.text).getLast?
    = some (s.services (samplePeer '3')).state.text from rfl, hlast, htexts₀] at htexts₃
  revert htexts₃
  decide

end SharedNotes

end WebrtcMinimize
