import WebrtcMinimize.Diagrams
import WebrtcMinimize.SharedNotesRuns

/-!
# Shared diagrams agree

The document of each tool is a register of `Lww`, and so is the tool in use
(`view`). An answer has the document's own author, but the responder in place
of whoever set the tool, and it has the document of that tool only. `Orderly`
and `Settled` keep the runs and the participants apart from both.
-/

namespace WebrtcMinimize

namespace Diagrams

open Runs Checks Overlay CodeUnits Posting
open SharedNotes (samplePeer sampleId Participant)
open Operation List Option Diagrams.System Prod Lww

/-! ## Slots as registers -/

theorem stamp_lt {r r' : Nat} {a a' : String} :
    stamp r a < stamp r' a' ↔ r < r' ∨ r = r' ∧ a < a' := by
  rw [stamp, stamp, WithBot.coe_lt_coe]
  exact Prod.Lex.toLex_lt_toLex

theorem stamp_inj {r r' : Nat} {a a' : String} (h : stamp r a = stamp r' a') : a = a' :=
  congrArg (fun x => (ofLex x).2) (WithBot.coe_injective h)

theorem winsDiagramLww_iff (r r' : Nat) (a a' : String) :
    winsDiagramLww (some (r, a)) (r', a') = true ↔ stamp r a < stamp r' a' := by
  rw [stamp_lt, winsDiagramLww]
  dsimp only
  split
  · rename_i hne
    have hne' : r ≠ r' := fun heq => hne heq.symm
    simp only [decide_eq_true_eq, hne', false_and, or_false]
  · rename_i heq
    rw [not_not] at heq
    simp only [decide_eq_true_eq, heq, lt_irrefl, true_and, false_or]

theorem bot_lt_stamp (r : Nat) (a : String) : (⊥ : Stamp) < stamp r a := WithBot.bot_lt_coe _

theorem copy_doc (s : Service) (tool : Tool) :
    s.copy (.doc tool) = ((s.docs tool).map Doc.copy).getD (.written ⊥ none) := rfl

theorem copy_tool (s : Service) :
    s.copy .tool = (s.toolState.map ToolState.copy).getD (.written ⊥ none) := rfl

theorem doc_value (s : Service) (tool : Tool) :
    (s.copy (.doc tool)).value = (s.docs tool).map Content.doc := by
  rw [copy_doc]
  cases s.docs tool <;> rfl

def Content.activeTool : Option Content → Tool
  | some (.tool t) => t
  | _ => .bpmn

theorem activeTool_value (s : Service) : Content.activeTool (s.copy .tool).value = s.activeTool := by
  rw [copy_tool, Service.activeTool]
  cases s.toolState <;> rfl

theorem doc_plain (s : Service) (tool : Tool) :
    (s.copy (.doc tool)).label = (s.copy (.doc tool)).origin := by
  rw [copy_doc]
  cases s.docs tool <;> rfl

theorem take_winner {α : Type} (copy : α → Lww.Copy Stamp (Option Content)) (key : α → Nat × String)
    (hlabel : ∀ a, (copy a).label = stamp (key a).1 (key a).2) (current : Option α) (incoming : α) :
    (((if winsDiagramLww (current.map key) (key incoming) = true then some incoming else current).map
        copy).getD (.written ⊥ none))
      = take ((current.map copy).getD (.written ⊥ none)) (copy incoming) := by
  cases current with
  | none =>
      refine Eq.symm (take_of_lt ?_)
      rw [hlabel]
      exact bot_lt_stamp ..
  | some a =>
      by_cases hwins : winsDiagramLww (some (key a)) (key incoming) = true
      · rw [map_some, if_pos hwins]
        refine Eq.symm (take_of_lt ?_)
        rw [hlabel incoming]
        exact (hlabel a).trans_lt ((winsDiagramLww_iff ..).mp hwins)
      · rw [map_some, if_neg hwins]
        refine Eq.symm (take_of_le (not_lt.mp fun hlt => hwins ((winsDiagramLww_iff ..).mpr ?_)))
        rw [hlabel incoming] at hlt
        exact (hlabel a).symm.trans_lt hlt

theorem applyDoc_copy (s : Service) {op : Operation} {doc : Doc}
    (hdoc : diagramDocFromOperation op = some doc) (slot : Slot) :
    (s.applyOperation op).copy slot
      = if slot = .doc doc.tool then take (s.copy slot) doc.copy else s.copy slot := by
  have happly : s.applyOperation op = { s with
      docs := fun tool => if tool = doc.tool then
          (if winsDiagramLww ((s.docs doc.tool).map fun d => (d.revision, d.authorPeerId))
            (doc.revision, doc.authorPeerId) = true then some doc else s.docs doc.tool)
        else s.docs tool } := by
    unfold Service.applyOperation
    rw [hdoc]
    dsimp only
    split
    · rfl
    · refine congrArg (fun docs => { s with docs := docs }) (funext fun tool => ?_)
      split
      · rename_i heq
        rw [heq]
      · rfl
  rw [happly]
  cases slot with
  | tool => rfl
  | doc tool =>
      by_cases heq : tool = doc.tool
      · subst heq
        rw [if_pos rfl, copy_doc, copy_doc]
        dsimp only
        rw [if_pos rfl]
        exact take_winner Doc.copy (fun d => (d.revision, d.authorPeerId)) (fun _ => rfl) _ doc
      · rw [if_neg (fun h => heq (Slot.doc.inj h)), copy_doc, copy_doc]
        dsimp only
        rw [if_neg heq]

theorem applyTool_copy (s : Service) {op : Operation} {state : ToolState}
    (hdoc : diagramDocFromOperation op = none)
    (hstate : diagramToolStateFromOperation op = some state) (slot : Slot) :
    (s.applyOperation op).copy slot
      = if slot = .tool then take (s.copy slot) state.copy else s.copy slot := by
  have happly : s.applyOperation op = { s with
      toolState := (if winsDiagramLww (s.toolState.map fun t => (t.revision, t.authorPeerId))
        (state.revision, state.authorPeerId) = true then some state else s.toolState) } := by
    unfold Service.applyOperation
    rw [hdoc, hstate]
    dsimp only
    split <;> rfl
  rw [happly]
  cases slot with
  | tool =>
      exact take_winner ToolState.copy (fun t => (t.revision, t.authorPeerId)) (fun _ => rfl)
        s.toolState state
  | doc tool => exact (if_neg fun h => by cases h).symm

/-- An operation that arrives is taken by the slots it brings something to. -/
theorem applyOperation_copy (s : Service) (op : Operation) (slot : Slot) :
    (s.applyOperation op).copy slot
      = ((op.copy slot).map fun c => take (s.copy slot) c.1).getD (s.copy slot) := by
  cases hpayload : op.payload with
  | snapshot t xml revision =>
      rw [@applyDoc_copy s op ⟨t, xml, revision, op.authorPeerId⟩
        (by rw [diagramDocFromOperation, hpayload])]
      cases slot with
      | tool => simp [copy, hpayload]
      | doc tool =>
          by_cases heq : tool = t
          · subst heq
            simp [copy, hpayload]
          · simp [copy, hpayload, heq, Ne.symm heq]
  | tool t revision writer answer =>
      rw [@applyTool_copy s op ⟨t, revision, op.authorPeerId, writer⟩
        (by rw [diagramDocFromOperation, hpayload]) (by rw [diagramToolStateFromOperation, hpayload])]
      cases slot <;> simp [copy, hpayload, ToolState.copy]
  | syncRequest =>
      have happly : s.applyOperation op = s := by
        unfold Service.applyOperation diagramDocFromOperation diagramToolStateFromOperation
        rw [hpayload]
      rw [happly]
      cases slot <;> simp [copy, hpayload]
  | syncResponse t xml revision docAuthor =>
      rw [@applyDoc_copy s op ⟨t, xml, revision, docAuthor⟩
        (by rw [diagramDocFromOperation, hpayload])]
      cases slot with
      | tool => simp [copy, hpayload]
      | doc tool =>
          by_cases heq : tool = t
          · subst heq
            simp [copy, hpayload]
          · simp [copy, hpayload, heq, Ne.symm heq]


def register (slot : Slot) (l : Letter) : Option (Lww.Letter String Stamp (Option Content)) :=
  (l.operation.copy slot).map fun c => ⟨l.recipient, c.1, c.2⟩

def System.view (s : System) (slot : Slot) : Lww.Replicas String Stamp (Option Content) where
  reg p := (s.services p).copy slot
  synced p := decide (p ∈ s.synced slot)
  updates := s.updates slot
  flight := s.flight.filterMap (register slot)

def setting (room : Room) (first : Version) (slot : Slot) :
    Lww.Setting String Stamp (Option Content) :=
  ⟨room.members, (⊥, none), ((first.service.copy slot).origin, (first.service.copy slot).value)⟩

/-! ## The condition -/

section Runs

variable (room : Room) (first : Version)

/-- No content under way or held by anyone is confused with a write of this
stamp, nor is the one from the start. -/
def Clear (s : System) (slot : Slot) (stamp : Stamp) : Prop :=
  stamp ≠ (setting room first slot).first.1
    ∧ (∀ p ∈ room.members, stamp ∉ Set.uIcc ((s.view slot).reg p).origin ((s.view slot).reg p).label)
    ∧ ∀ l ∈ (s.view slot).flight, stamp ∉ Set.uIcc l.copy.origin l.copy.label

/-- Nobody publishes again under the stamp of the document from the start, and
no choice of a tool is confused with another one. What is answered comes from a
participant that has what the room had before and does not make the tool that
of another choice. -/
def Orderly (s : System) : Event → Prop
  | .publishSnapshot peerId _ tool _ _ =>
      stamp ((((s.services peerId).docs tool).map Doc.revision).getD 0 + 1) peerId
        ≠ (setting room first (.doc tool)).first.1
  | .setTool peerId _ _ _ =>
      Clear room first s .tool
        (stamp (((s.services peerId).toolState.map ToolState.revision).getD 0 + 1) peerId)
  | .requestSync _ _ => True
  | .deliver i m opIds =>
      ∀ l, s.flight[i]? = some l →
        ∀ op ∈ (ingest room l.recipient m opIds (s.services l.recipient)
            ⟨l.sender, l.operation.trafficClass, l.operation⟩).2,
          ∀ slot c, op.copy slot = some c → l.recipient ∈ s.synced slot
            ∧ Lww.Apart ((setting room first slot).stamps (s.view slot)) c.1

/-- The participant has what the room had before, or something later was
published. -/
def Settled (s : System) (slot : Slot) (peerId : String) : Prop :=
  peerId ∈ s.synced slot ∨ ∃ u ∈ s.updates slot, (first.service.copy slot).origin < u.1

/-! ## The invariant -/

structure LetterOK (l : Letter) : Prop where
  sender : l.sender ∈ room.members
  recipient : l.recipient ∈ room.members
  other : l.recipient ≠ l.sender
  author : l.operation.authorPeerId = l.sender
  epoch : l.operation.membershipEpoch = room.membershipEpoch
  ok : l.operation.ok = true
  fits : l.operation.fits = true

structure Kept (s : System) : Prop where
  good : ∀ slot, Lww.Good (setting room first slot) (s.view slot)
  posted : Posted (LetterOK room) opId s.flight (fun p => (s.services p).seen) s.drawn
  named : ∀ p tool doc, (s.services p).docs tool = some doc → doc.tool = tool

end Runs

variable {room : Room} {first : Version}

theorem applyOperation_seen (s : Service) (op : Operation) :
    (s.applyOperation op).seen = s.seen := by
  unfold Service.applyOperation
  split
  · split <;> rfl
  · split <;> rfl
  · rfl

theorem applyOperation_named {s : Service} (h : ∀ tool doc, s.docs tool = some doc → doc.tool = tool)
    (op : Operation) : ∀ tool doc, (s.applyOperation op).docs tool = some doc → doc.tool = tool := by
  unfold Service.applyOperation
  intro tool doc hdoc
  split at hdoc
  · split at hdoc
    · dsimp only at hdoc
      split at hdoc
      · rename_i heq
        rw [heq, ← some.inj hdoc]
      · exact h tool doc hdoc
    · exact h tool doc hdoc
  · split at hdoc <;> exact h tool doc hdoc
  · exact h tool doc hdoc

/-! ## What arrives -/

theorem LetterOK.ingestDelivery {l : Letter} (h : LetterOK room l) {seen : List String}
    (hseen : l.operation.opId ∉ seen) :
    ingestDelivery ⟨l.sender, l.operation.trafficClass, l.operation⟩ room.membershipEpoch room.members
      seen = some l.operation := by
  have hfits := of_decide_eq_true h.fits
  have hsender := h.sender
  unfold Diagrams.ingestDelivery trafficClass
  cases hbulk : l.operation.payload.bulk <;>
    simp [h.ok, h.epoch, h.author, hsender, hseen, not_lt.mpr hfits]

/-- What a service may answer a sync request with. -/
structure Replies (room : Room) (own : String) (opIds : String × String) (s : Service)
    (replies : List Operation) : Prop where
  letters : ∀ op ∈ replies, op.authorPeerId = own ∧ op.membershipEpoch = room.membershipEpoch
    ∧ op.ok = true ∧ op.fits = true
  ids : ∀ op ∈ replies, op.opId = opIds.1 ∨ op.opId = opIds.2
  distinct : opIds.1 ≠ opIds.2 → replies.Pairwise fun a b => a.opId ≠ b.opId
  copies : ∀ op ∈ replies, ∀ slot c, op.copy slot = some c →
    c.1.origin = (s.copy slot).origin ∧ c.1.value = (s.copy slot).value ∧ c.2 = true

theorem Replies.nil (room : Room) (own : String) (opIds : String × String) (s : Service) :
    Replies room own opIds s [] where
  letters _ h := absurd h not_mem_nil
  ids _ h := absurd h not_mem_nil
  distinct _ := .nil
  copies _ h := absurd h not_mem_nil

theorem respondToSync_replies (room : Room) (own : String) (m : Moderation) {s : Service}
    (h : ∀ tool doc, s.docs tool = some doc → doc.tool = tool) (opIds : String × String) :
    ∃ seen replies, respondToSync room own m s opIds = ({ s with seen := seen }, replies)
      ∧ Replies room own opIds s replies
      ∧ ∀ k ∈ seen, k ∈ s.seen ∨ k = opIds.1 ∨ k = opIds.2 := by
  unfold respondToSync
  split
  · exact ⟨s.seen, [], rfl, .nil .., fun k hk => .inl hk⟩
  · cases hdoc : s.docs s.activeTool with
    | none => exact ⟨s.seen, [], rfl, .nil .., fun k hk => .inl hk⟩
    | some doc =>
        have hepoch : max 1 room.membershipEpoch = room.membershipEpoch := max_eq_right room.joined
        have hmem : ∀ op, op ∈ (s.toolState.toList.map fun state =>
            toolAnswer room own state opIds.1).filter ok
              ++ [docAnswer room own doc opIds.2].filter ok →
            op.ok = true ∧ ((∃ state, s.toolState = some state ∧ op = toolAnswer room own state opIds.1)
              ∨ op = docAnswer room own doc opIds.2) := by
          intro op hop
          rcases mem_append.mp hop with hop | hop
          · obtain ⟨hop, hok⟩ := mem_filter.mp hop
            obtain ⟨state, hstate, rfl⟩ := mem_map.mp hop
            exact ⟨hok, .inl ⟨state, mem_toList.mp hstate, rfl⟩⟩
          · obtain ⟨hop, hok⟩ := mem_filter.mp hop
            exact ⟨hok, .inr (mem_singleton.mp hop)⟩
        have hids : ∀ op, op ∈ (s.toolState.toList.map fun state =>
            toolAnswer room own state opIds.1).filter ok
              ++ [docAnswer room own doc opIds.2].filter ok →
            op.opId = opIds.1 ∨ op.opId = opIds.2 := by
          intro op hop
          rcases (hmem op hop).2 with ⟨state, -, rfl⟩ | rfl
          · exact .inl rfl
          · exact .inr rfl
        refine ⟨_, _, rfl, ⟨?_, ?_, ?_, ?_⟩, ?_⟩
        · intro op hop
          obtain ⟨hop, hfits⟩ := mem_filter.mp hop
          obtain ⟨hok, ⟨state, -, rfl⟩ | rfl⟩ := hmem op hop
          · exact ⟨rfl, hepoch, hok, hfits⟩
          · exact ⟨rfl, hepoch, hok, hfits⟩
        · exact fun op hop => hids op (mem_of_mem_filter hop)
        · intro hne
          refine List.Pairwise.filter _ (pairwise_append.mpr ⟨?_, ?_, ?_⟩)
          · refine List.Pairwise.filter _ ?_
            cases s.toolState with
            | none => exact .nil
            | some state => exact pairwise_singleton ..
          · exact List.Pairwise.filter _ (pairwise_singleton ..)
          · intro a ha b hb
            obtain ⟨state, -, rfl⟩ := mem_map.mp (mem_of_mem_filter ha)
            rw [mem_singleton.mp (mem_of_mem_filter hb)]
            exact hne
        · intro op hop slot c hc
          obtain ⟨hop, -⟩ := mem_filter.mp hop
          obtain ⟨-, ⟨state, hstate, rfl⟩ | rfl⟩ := hmem op hop
          · cases slot with
            | tool =>
                cases hc
                rw [copy_tool, hstate]
                exact ⟨rfl, rfl, rfl⟩
            | doc tool => cases hc
          · cases slot with
            | tool => cases hc
            | doc tool =>
                have htool := h _ doc hdoc
                by_cases heq : doc.tool = tool
                · have hc : some (Doc.copy doc, true) = some c := by
                    rw [← hc]
                    exact (if_pos heq).symm
                  cases hc
                  rw [copy_doc, ← heq, htool, hdoc]
                  exact ⟨rfl, rfl, rfl⟩
                · have hc : none = some c := by
                    rw [← hc]
                    exact (if_neg heq).symm
                  cases hc
        · intro k hk
          rcases mem_append.mp hk with hk | hk
          · obtain ⟨op, hop, rfl⟩ := mem_map.mp hk
            exact .inr (hids op hop)
          · exact .inl hk

/-- The recipient has seen the letter, and either applies it or answers. -/
theorem LetterOK.ingest {l : Letter} (h : LetterOK room l) {s : Service}
    (hnamed : ∀ tool doc, s.docs tool = some doc → doc.tool = tool)
    (hseen : l.operation.opId ∉ s.seen) {m : Moderation} (hpolicy : m.policy = .open')
    (opIds : String × String) :
    ∃ service replies, Diagrams.ingest room l.recipient m opIds s
        ⟨l.sender, l.operation.trafficClass, l.operation⟩ = (service, replies)
      ∧ Replies room l.recipient opIds s replies
      ∧ (∀ slot, service.copy slot
        = ((l.operation.copy slot).map fun c => take (s.copy slot) c.1).getD (s.copy slot))
      ∧ (∀ tool doc, service.docs tool = some doc → doc.tool = tool)
      ∧ ∀ k ∈ service.seen, k ∈ s.seen ∨ k = l.operation.opId ∨ k = opIds.1 ∨ k = opIds.2 := by
  have hauthor : l.operation.authorPeerId ∈ authorizedDiagramEditorPeerIds m room.members := by
    rw [authorizedDiagramEditorPeerIds, hpolicy, h.author]
    exact h.sender
  have happly : ∃ service replies,
      ((s.see l.operation.opId).applyOperation l.operation, ([] : List Operation))
        = (service, replies)
      ∧ Replies room l.recipient opIds s replies
      ∧ (∀ slot, service.copy slot
        = ((l.operation.copy slot).map fun c => take (s.copy slot) c.1).getD (s.copy slot))
      ∧ (∀ tool doc, service.docs tool = some doc → doc.tool = tool)
      ∧ ∀ k ∈ service.seen, k ∈ s.seen ∨ k = l.operation.opId ∨ k = opIds.1 ∨ k = opIds.2 := by
    refine ⟨_, _, rfl, .nil .., applyOperation_copy _ l.operation,
      @applyOperation_named (s.see l.operation.opId) hnamed l.operation, fun k hk => ?_⟩
    rw [applyOperation_seen] at hk
    rcases mem_cons.mp hk with rfl | hk
    · exact .inr (.inl rfl)
    · exact .inl hk
  unfold Diagrams.ingest
  rw [h.ingestDelivery hseen]
  dsimp only
  rw [if_pos hauthor]
  cases hpayload : l.operation.payload with
  | syncRequest =>
      obtain ⟨seen, replies, hrespond, hreplies, hnew⟩ :=
        @respondToSync_replies room l.recipient m (s.see l.operation.opId) hnamed opIds
      refine ⟨_, _, hrespond, ⟨hreplies.letters, hreplies.ids, hreplies.distinct, hreplies.copies⟩,
        fun slot => ?_, hnamed, fun k hk => ?_⟩
      · cases slot <;> simp only [copy, hpayload] <;> rfl
      · rcases hnew k hk with hk | hk
        · rcases mem_cons.mp hk with rfl | hk
          · exact .inr (.inl rfl)
          · exact .inl hk
        · exact .inr (.inr hk)
  | snapshot t xml revision => exact happly
  | tool t revision writer answer => exact happly
  | syncResponse t xml revision docAuthor => exact happly

/-! ## Steps -/

theorem put_reg (s : System) (p : String) (service : Service) (slot : Slot) (q : String) :
    ((s.put p service).view slot).reg q
      = if q = p then service.copy slot else (s.view slot).reg q := by
  show (if q = p then service else s.services q).copy slot = _
  split <;> rfl

theorem Kept.fresh {s : System} (h : Kept room first s) {slot : Slot} {p : String}
    (hp : p ∈ room.members) {revision : Nat} (value : Option Content)
    (hlabel : ((s.view slot).reg p).label < stamp revision p) :
    (stamp revision p, value) ∉ s.updates slot := by
  intro hmem
  rcases (h.good slot).reached _ hmem p hp with hle | hflying
  · exact absurd hlabel (not_lt.mpr hle)
  · obtain ⟨l, hl, hregister⟩ := mem_filterMap.mp hflying
    obtain ⟨c, hc, heq⟩ := map_eq_some_iff.mp hregister
    have hok := h.posted.letters l hl
    have hrecipient : l.recipient = p := congrArg Lww.Letter.recipient heq
    have hstamp : c.1.label = stamp revision p :=
      congrArg (fun l : Lww.Letter String Stamp (Option Content) => l.copy.label) heq
    have hanswer : c.2 = false := congrArg Lww.Letter.answer heq
    have hauthor : l.operation.authorPeerId = p := by
      unfold copy at hc
      split at hc <;> split at hc
      · cases hc
        exact stamp_inj hstamp
      · cases hc
      · split at hc
        · cases hc
          exact stamp_inj hstamp
        · cases hc
      · split at hc
        · cases hc
          cases hanswer
        · cases hc
      · cases hc
    exact hok.other (hrecipient.trans (hauthor.symm.trans hok.author))

/-- A call has applied its operation and sent it to all others. -/
theorem Kept.broadcast {s : System} (h : Kept room first s) {p : String} (hp : p ∈ room.members)
    {op : Operation} (hdrawn : op.opId ∉ s.drawn) {service : Service}
    (hseen : service.seen = op.opId :: (s.services p).seen)
    (hcopy : ∀ slot, service.copy slot = ((s.services p).applyOperation op).copy slot)
    (hnamed : ∀ tool doc, service.docs tool = some doc → doc.tool = tool)
    (hauthor : op.authorPeerId = p) (hepoch : op.membershipEpoch = room.membershipEpoch)
    (hok : op.ok = true) (hfits : op.fits = true)
    (hwrite : ∀ slot c, op.copy slot = some c → ∃ revision value,
      c = (.written (stamp revision p) value, false)
        ∧ ((s.view slot).reg p).label < stamp revision p
        ∧ Clear room first s slot (stamp revision p)) :
    Kept room first (s.broadcast room p service op) := by
  refine ⟨fun slot => ?_, ?_, ?_⟩
  · have hreg : ∀ q, ((s.put p service).view slot).reg q
        = if q = p then ((op.copy slot).map fun c => take ((s.view slot).reg p) c.1).getD
            ((s.view slot).reg p) else (s.view slot).reg q := by
      intro q
      rw [put_reg, hcopy, applyOperation_copy]
      rfl
    cases hc : op.copy slot with
    | none =>
        refine cast (congrArg _ ?_) (h.good slot)
        refine (Lww.Replicas.mk.injEq ..).mpr ⟨funext fun q => ?_, rfl, ?_, ?_⟩
        · refine Eq.trans ?_ (hreg q).symm
          rw [hc]
          split
          · rename_i heq
            rw [heq]
            rfl
          · rfl
        · show s.updates slot = s.updates slot ++ (op.copy slot).toList.map _
          rw [hc]
          exact (append_nil _).symm
        · have hnone : (toOthers room.members p op).filterMap (register slot) = [] := by
            refine filterMap_eq_nil_iff.mpr fun l hl => ?_
            rw [register, (mem_toOthers.mp hl).2.2.2, hc]
            rfl
          refine Eq.trans ?_ (filterMap_append ..).symm
          rw [hnone, append_nil]
    | some c =>
        obtain ⟨revision, value, rfl, hnew, hfirst, hregs, hflight⟩ := hwrite slot c hc
        have hgood := (h.good slot).write hp value
          ((toOthers room.members p op).filterMap (register slot)) bot_le hnew ?_ hregs hflight ?_ ?_
        · refine cast (congrArg _ ?_) hgood
          refine (Lww.Replicas.mk.injEq ..).mpr ⟨funext fun q => ?_, rfl, ?_, ?_⟩
          · refine Eq.trans ?_ (hreg q).symm
            rw [hc, map_some, getD_some, take_of_lt hnew]
          · show s.updates slot ++ _ = s.updates slot ++ (op.copy slot).toList.map _
            rw [hc]
            rfl
          · exact (filterMap_append ..).symm
        · intro hmem
          obtain ⟨e, he, heq⟩ := mem_map.mp hmem
          rcases mem_cons.mp he with rfl | he
          · exact absurd heq (bot_lt_stamp ..).ne
          · rcases mem_cons.mp he with rfl | he
            · exact hfirst heq.symm
            · refine h.fresh hp e.2 hnew ?_
              rw [← heq]
              exact he
        · intro l hl
          obtain ⟨m, hm, hregister⟩ := mem_filterMap.mp hl
          rw [register, (mem_toOthers.mp hm).2.2.2, hc] at hregister
          cases hregister
          exact ⟨rfl, rfl⟩
        · intro q hq hne
          refine mem_filterMap.mpr ⟨⟨p, q, op⟩, mem_toOthers.mpr ⟨rfl, hq, hne, rfl⟩, ?_⟩
          rw [register, hc]
          rfl
  · refine h.posted.send (fun l hl => ?_) (fun k hk => mem_cons_of_mem _ hk) (fun l hl => ?_)
      (toOthers_distinct room.distinct _ _ _) fun q k hk => ?_
    · obtain ⟨hsender, hrecipient, hne, hop⟩ := mem_toOthers.mp hl
      refine ⟨hsender ▸ hp, hrecipient, hsender ▸ hne, ?_, ?_, ?_, ?_⟩ <;> rw [hop]
      · exact hauthor.trans hsender.symm
      · exact hepoch
      · exact hok
      · exact hfits
    · rw [(mem_toOthers.mp hl).2.2.2]
      exact ⟨hdrawn, mem_cons_self⟩
    · have hk : k ∈ (if q = p then service else s.services q).seen := hk
      split at hk
      · rename_i heq
        rw [hseen, mem_cons] at hk
        rcases hk with rfl | hk
        · refine .inr ⟨hdrawn, mem_cons_self, fun l hl hrecipient => ?_⟩
          exact absurd (hrecipient.trans heq) (mem_toOthers.mp hl).2.2.1
        · exact .inl (heq ▸ hk)
      · exact .inl hk
  · intro q tool doc hdoc
    have hdoc : (if q = p then service else s.services q).docs tool = some doc := hdoc
    split at hdoc
    · exact hnamed tool doc hdoc
    · exact h.named q tool doc hdoc

theorem emit_eq {p : String} {s service : Service} {payload : Payload} {opId : String}
    {op : Operation} (h : emit room p s payload opId = some (service, op)) :
    op = ⟨opId, room.membershipEpoch, p, payload⟩ ∧ op.ok = true
      ∧ service = (s.see opId).applyOperation op := by
  unfold emit at h
  rw [max_eq_right room.joined] at h
  dsimp only at h
  split at h
  · cases h
  · rename_i hok
    cases h
    exact ⟨rfl, by simpa using hok, rfl⟩

/-- No document of anyone's has the stamp, which is beyond the author's own. -/
theorem Kept.clear {s : System} (h : Kept room first s) {tool : Tool} {p : String}
    (hp : p ∈ room.members) {revision : Nat}
    (hlabel : ((s.view (.doc tool)).reg p).label < stamp revision p)
    (hfirst : stamp revision p ≠ (setting room first (.doc tool)).first.1) :
    Clear room first s (.doc tool) (stamp revision p) := by
  have hnot : ∀ c : Lww.Copy Stamp (Option Content), c.label = c.origin →
      (c.origin, c.value) ∈ (setting room first (.doc tool)).all (s.view (.doc tool)) →
      stamp revision p ∉ Set.uIcc c.origin c.label := by
    intro c hplain hc hmem
    rw [hplain, Set.uIcc_self, Set.mem_singleton_iff] at hmem
    rcases mem_cons.mp hc with heq | hc
    · exact (bot_lt_stamp ..).ne' (hmem.trans (congrArg fst heq))
    · rcases mem_cons.mp hc with heq | hc
      · exact hfirst (hmem.trans (congrArg fst heq))
      · exact h.fresh hp c.value hlabel (hmem ▸ hc)
  refine ⟨hfirst, fun q hq => ?_, fun l hl => ?_⟩
  · exact hnot _ (doc_plain (s.services q) tool) ((h.good _).held q hq)
  · refine hnot _ ?_ ((h.good _).sent l hl).1
    obtain ⟨m, -, hregister⟩ := mem_filterMap.mp hl
    obtain ⟨c, hc, rfl⟩ := map_eq_some_iff.mp hregister
    unfold copy at hc
    dsimp only at hc
    split at hc
    · split at hc
      · rw [← some.inj hc]
        rfl
      · cases hc
    · split at hc
      · rw [← some.inj hc]
        rfl
      · cases hc
    · cases hc

/-- **A call.** -/
theorem Kept.call {s t : System} (h : Kept room first s) {p opId : String} {payload : Payload}
    {service : Service} {op : Operation}
    (hemit : emit room p (s.services p) payload opId = some (service, op))
    {r : Option (Service × Operation)} (hr : ∀ a ∈ r, a.2 = op ∧ a.1.seen = service.seen
      ∧ (∀ slot, a.1.copy slot = service.copy slot) ∧ a.1.docs = service.docs)
    (hcall : s.call room p opId r = some t)
    (hwrite : p ∈ room.members → ∀ slot c, op.copy slot = some c → ∃ revision value,
      c = (.written (stamp revision p) value, false)
        ∧ ((s.view slot).reg p).label < stamp revision p
        ∧ Clear room first s slot (stamp revision p)) : Kept room first t := by
  obtain ⟨rfl, hok, rfl⟩ := emit_eq hemit
  unfold System.call at hcall
  split at hcall
  · cases hcall
  · rename_i hguard
    rw [not_or, not_not] at hguard
    obtain ⟨a, ha, rfl⟩ := map_eq_some_iff.mp hcall
    obtain ⟨hmem, hfits⟩ := filter_eq_some_iff.mp ha
    obtain ⟨hop, hseen, hcopy, hdocs⟩ := hr a hmem
    rw [hop] at hfits ⊢
    refine h.broadcast hguard.1 hguard.2 ?_ (fun slot => ?_) ?_ rfl rfl hok hfits (hwrite hguard.1)
    · rw [hseen, applyOperation_seen]
      rfl
    · rw [hcopy, applyOperation_copy, applyOperation_copy]
      rfl
    · rw [hdocs]
      exact @applyOperation_named ((s.services p).see opId) (h.named p) _

theorem Kept.publishSnapshot {s t : System} (h : Kept room first s) {p opId : String}
    {m : Moderation} {tool : Tool} {xml : Text}
    (hcall : s.call room p opId (publishSnapshot room p m (s.services p) tool xml opId) = some t)
    (hfirst : stamp ((((s.services p).docs tool).map Doc.revision).getD 0 + 1) p
      ≠ (setting room first (.doc tool)).first.1) : Kept room first t := by
  unfold Diagrams.publishSnapshot at hcall
  split at hcall
  · simp [System.call] at hcall
  · cases hemit : emit room p (s.services p)
      (.snapshot tool xml ((((s.services p).docs tool).map Doc.revision).getD 0 + 1)) opId with
    | none => simp [System.call, hemit] at hcall
    | some r =>
        rw [hemit] at hcall
        refine h.call hemit (fun a ha => ?_) hcall fun hp slot c hc => ?_
        · cases ha
          exact ⟨rfl, rfl, fun _ => rfl, rfl⟩
        · obtain ⟨hop, -, -⟩ := emit_eq hemit
          rw [hop] at hc
          cases slot with
          | tool => cases hc
          | doc tool' =>
              by_cases heq : tool = tool'
              · subst heq
                have hc := (if_pos rfl).symm.trans hc
                have hlabel : ((s.view (.doc tool)).reg p).label
                    < stamp ((((s.services p).docs tool).map Doc.revision).getD 0 + 1) p := by
                  show ((s.services p).copy (.doc tool)).label < _
                  rw [copy_doc]
                  cases (s.services p).docs tool with
                  | none => exact bot_lt_stamp ..
                  | some doc => exact stamp_lt.mpr (.inl (Nat.lt_succ_self _))
                refine ⟨_, _, (some.inj hc).symm, hlabel, h.clear hp hlabel hfirst⟩
              · cases (if_neg heq).symm.trans hc

theorem Kept.setTool {s t : System} (h : Kept room first s) {p opId : String}
    {m : Moderation} {tool : Tool}
    (hcall : s.call room p opId (setTool room p m (s.services p) tool opId) = some t)
    (hclear : Clear room first s .tool
      (stamp (((s.services p).toolState.map ToolState.revision).getD 0 + 1) p)) :
    Kept room first t := by
  unfold Diagrams.setTool at hcall
  split at hcall
  · simp [System.call] at hcall
  · cases hemit : emit room p (s.services p)
      (.tool tool (((s.services p).toolState.map ToolState.revision).getD 0 + 1) p false) opId with
    | none => simp [System.call, hemit] at hcall
    | some r =>
        rw [hemit] at hcall
        refine h.call hemit (fun a ha => ?_) hcall fun hp slot c hc => ?_
        · cases ha
          exact ⟨rfl, rfl, fun _ => rfl, rfl⟩
        · obtain ⟨hop, -, -⟩ := emit_eq hemit
          rw [hop] at hc
          cases slot with
          | doc tool' => cases hc
          | tool =>
              refine ⟨_, _, (some.inj hc).symm, ?_, hclear⟩
              show ((s.services p).copy .tool).label < _
              rw [copy_tool]
              cases (s.services p).toolState with
              | none => exact bot_lt_stamp ..
              | some state => exact stamp_lt.mpr (.inl (Nat.lt_succ_self _))

theorem Kept.requestSync {s t : System} (h : Kept room first s) {p opId : String}
    (hcall : s.call room p opId (requestSync room p (s.services p) opId) = some t) :
    Kept room first t := by
  unfold Diagrams.requestSync at hcall
  split at hcall
  · simp [System.call] at hcall
  · cases hemit : emit room p (s.services p) .syncRequest opId with
    | none => simp [System.call, hemit] at hcall
    | some r =>
        rw [hemit] at hcall
        refine h.call hemit (fun a ha => ?_) hcall fun hp slot c hc => ?_
        · cases ha
          exact ⟨rfl, rfl, fun slot => by cases slot <;> rfl, rfl⟩
        · obtain ⟨hop, -, -⟩ := emit_eq hemit
          rw [hop] at hc
          cases slot <;> cases hc

/-- **A delivery.** -/
theorem Kept.deliver {s : System} (h : Kept room first s) {i : Nat} {l : Letter}
    (hl : s.flight[i]? = some l) {m : Moderation} (hpolicy : m.policy = .open')
    {opIds : String × String} (hdrawn : opIds.1 ∉ s.drawn ∧ opIds.2 ∉ s.drawn)
    (hne : opIds.1 ≠ opIds.2) (horderly : Orderly room first s (.deliver i m opIds)) :
    Kept room first (s.receive room l i m opIds) := by
  obtain ⟨before, later, hflight, herase⟩ := split_at hl
  have hmem : l ∈ s.flight := hflight ▸ mem_append_right _ mem_cons_self
  have hok := h.posted.letters l hmem
  have horderly := horderly l hl
  obtain ⟨service, replies, hingest, hreplies, hcopy, hnamed, hseen⟩ :=
    hok.ingest (h.named l.recipient) (h.posted.unseen l hmem) hpolicy opIds
  rw [hingest] at horderly
  unfold receive
  rw [hingest]
  simp only [herase]
  refine ⟨fun slot => ?_, ?_, ?_⟩
  · have hanswered := (h.good slot).answers_sent
      ((replies.map fun op => ⟨l.recipient, l.sender, op⟩).filterMap (register slot)) ?_
    · have hviewed : (s.view slot).flight = before.filterMap (register slot)
          ++ (l :: later).filterMap (register slot) := by
        show s.flight.filterMap (register slot) = _
        rw [hflight, filterMap_append]
      cases hc : l.operation.copy slot with
      | none =>
          refine cast (congrArg _ ?_) hanswered
          refine (Lww.Replicas.mk.injEq ..).mpr ⟨funext fun q => ?_, ?_, rfl, ?_⟩
          · refine Eq.trans ?_ (put_reg s l.recipient service slot q).symm
            split
            · rename_i heq
              rw [hcopy, hc, heq]
              rfl
            · rfl
          · funext q
            simp only [view, any_none, Bool.false_eq_true, if_false, hc]
          · have hnone : register slot l = none := by rw [register, hc]; rfl
            rw [hviewed, filterMap_cons_none hnone, ← filterMap_append]
            exact (filterMap_append ..).symm
      | some c =>
          have hregister : register slot l = some ⟨l.recipient, c.1, c.2⟩ := by
            rw [register, hc]
            rfl
          rw [hviewed, filterMap_cons_some hregister, append_assoc, cons_append] at hanswered
          refine cast (congrArg _ ?_) (hanswered.deliver rfl)
          refine (Lww.Replicas.mk.injEq ..).mpr ⟨funext fun q => ?_, funext fun q => ?_, rfl, ?_⟩
          · refine Eq.trans ?_ (put_reg s l.recipient service slot q).symm
            split
            · rename_i heq
              rw [hcopy, hc, heq]
              rfl
            · rfl
          · show (if q = l.recipient then decide (q ∈ s.synced slot) || c.2
              else decide (q ∈ s.synced slot))
              = decide (q ∈ if (l.operation.copy slot).any snd = true
                  then l.recipient :: s.synced slot else s.synced slot)
            rw [hc]
            cases hanswer : c.2 <;> by_cases heq : q = l.recipient <;> simp [heq, hanswer]
          · rw [← append_assoc, ← filterMap_append]
            exact (filterMap_append ..).symm
    · intro x hx
      obtain ⟨y, hy, hregister⟩ := mem_filterMap.mp hx
      obtain ⟨op, hop, rfl⟩ := mem_map.mp hy
      obtain ⟨c, hc, rfl⟩ := map_eq_some_iff.mp hregister
      obtain ⟨hsynced, hapart⟩ := horderly op hop slot c hc
      obtain ⟨horigin, hvalue, hanswer⟩ := hreplies.copies op hop slot c hc
      exact ⟨hanswer, hapart, l.recipient, hok.recipient, decide_eq_true hsynced, horigin, hvalue⟩
  · have hposted := h.posted
    rw [hflight] at hposted
    have harrived : Posted (LetterOK room) opId (before ++ later)
        (fun q => if q = l.recipient then l.operation.opId :: (s.services q).seen
          else (s.services q).seen) s.drawn := by
      refine hposted.arrive fun q k hk => ?_
      split at hk
      · rename_i heq
        exact (mem_cons.mp hk).elim (fun hk => .inr ⟨heq, hk⟩) .inl
      · exact .inl hk
    refine harrived.send (fun x hx => ?_)
      (fun k hk => mem_cons_of_mem _ (mem_cons_of_mem _ hk)) (fun x hx => ?_) ?_
      fun q k hk => ?_
    · obtain ⟨op, hop, rfl⟩ := mem_map.mp hx
      obtain ⟨hauthor, hepoch, hopok, hfits⟩ := hreplies.letters op hop
      exact ⟨hok.recipient, hok.sender, hok.other.symm, hauthor, hepoch, hopok, hfits⟩
    · obtain ⟨op, hop, rfl⟩ := mem_map.mp hx
      rcases hreplies.ids op hop with heq | heq <;> simp only [heq]
      · exact ⟨hdrawn.1, mem_cons_self⟩
      · exact ⟨hdrawn.2, mem_cons_of_mem _ mem_cons_self⟩
    · refine pairwise_map.mpr ((hreplies.distinct hne).imp ?_)
      intro a b hids _
      exact hids
    · have hput : k ∈ (if q = l.recipient then service else s.services q).seen := hk
      split at hput
      · rename_i heq
        subst heq
        rw [if_pos rfl]
        have hother : ∀ x ∈ replies.map fun op => (⟨l.recipient, l.sender, op⟩ : Letter),
            x.recipient = l.recipient → x.operation.opId ≠ k := by
          intro x hx hrecipient
          obtain ⟨op, -, rfl⟩ := mem_map.mp hx
          exact absurd hrecipient.symm hok.other
        rcases hseen k hput with hold | rfl | rfl | rfl
        · exact .inl (mem_cons_of_mem _ hold)
        · exact .inl mem_cons_self
        · exact .inr ⟨hdrawn.1, mem_cons_self, hother⟩
        · exact .inr ⟨hdrawn.2, mem_cons_of_mem _ mem_cons_self, hother⟩
      · rename_i hother
        rw [if_neg hother]
        exact .inl hput
  · intro q tool doc hdoc
    have hdoc : (if q = l.recipient then service else s.services q).docs tool = some doc := hdoc
    split at hdoc
    · exact hnamed tool doc hdoc
    · exact h.named q tool doc hdoc

/-- **Step.** -/
theorem Kept.step {s t : System} {e : Event} (h : Kept room first s)
    (hstep : System.Step room s e t) (horderly : Orderly room first s e) : Kept room first t := by
  obtain ⟨hpolicy, hnext⟩ := hstep
  cases e with
  | publishSnapshot p m tool xml opId => exact h.publishSnapshot hnext horderly
  | setTool p m tool opId => exact h.setTool hnext horderly
  | requestSync p opId => exact h.requestSync hnext
  | deliver i m opIds =>
      unfold System.next at hnext
      dsimp only at hnext
      split at hnext
      · cases hnext
      · rename_i hdrawn
        simp only [not_or] at hdrawn
        obtain ⟨l, hl, rfl⟩ := map_eq_some_iff.mp hnext
        exact h.deliver hl hpolicy ⟨hdrawn.1, hdrawn.2.1⟩ hdrawn.2.2 horderly

theorem version_plain (first : Version) (slot : Slot) :
    (first.service.copy slot).label = (first.service.copy slot).origin := by
  cases slot with
  | tool =>
      rw [copy_tool, Version.service]
      cases first.toolState <;> rfl
  | doc tool => exact doc_plain _ tool

theorem empty_copy (slot : Slot) :
    Service.copy ⟨fun _ => none, none, [], false⟩ slot = .written ⊥ none := by
  cases slot <;> rfl

theorem version_bot (first : Version) (slot : Slot)
    (h : (first.service.copy slot).origin = ⊥ ∨ (first.service.copy slot).value = none) :
    first.service.copy slot = .written ⊥ none := by
  cases slot with
  | tool =>
      rw [copy_tool, Version.service] at h ⊢
      cases hstate : first.toolState with
      | none => rfl
      | some t =>
          rw [hstate] at h
          rcases h with h | h
          · exact absurd h (bot_lt_stamp ..).ne'
          · cases h
  | doc tool =>
      rw [copy_doc, show first.service.docs tool = first.docs tool from rfl] at h ⊢
      cases hdoc : first.docs tool with
      | none => rfl
      | some doc =>
          rw [hdoc] at h
          rcases h with h | h
          · exact absurd h (bot_lt_stamp ..).ne'
          · cases h

theorem start_kept (room : Room) (present : List String) (first : Version) :
    Kept room first (start room present first) := by
  have hreg : ∀ slot p, ((start room present first).view slot).reg p = first.service.copy slot
      ∨ ((start room present first).view slot).reg p = .written ⊥ none
        ∧ (p ∈ present → first.service.copy slot = .written ⊥ none) := by
    intro slot p
    show (if p ∈ present then first.service else ⟨fun _ => none, none, [], false⟩).copy slot = _ ∨ _
    by_cases hp : p ∈ present
    · left
      rw [if_pos hp]
    · right
      refine ⟨?_, fun hmem => absurd hmem hp⟩
      show (if p ∈ present then first.service else ⟨fun _ => none, none, [], false⟩).copy slot = _
      rw [if_neg hp, empty_copy]
  have hseen : (fun p => ((start room present first).services p).seen) = fun _ => [] := by
    funext p
    show (if p ∈ present then first.service else ⟨fun _ => none, none, [], false⟩).seen = []
    split <;> rfl
  refine ⟨fun slot => ?_, ?_, fun p tool doc hdoc => ?_⟩
  · have hall : ∀ e ∈ (setting room first slot).all ((start room present first).view slot),
        e = (⊥, none) ∨ e = ((first.service.copy slot).origin, (first.service.copy slot).value) := by
      intro e he
      simpa [Lww.Setting.all, setting, start, view] using he
    refine ⟨fun _ _ => bot_le, ?_, ?_, ?_, ?_, ?_, ?_, ?_, ?_, ?_⟩
    · intro e he e' he' heq
      rcases hall e he with rfl | rfl <;> rcases hall e' he' with rfl | rfl
      · rfl
      · rw [version_bot first slot (.inl heq.symm)]
        rfl
      · rw [version_bot first slot (.inl heq)]
        rfl
      · rfl
    · intro p _
      rcases hreg slot p with heq | ⟨heq, -⟩ <;> rw [heq]
      · exact Lww.Good.first_mem
      · exact mem_cons_self
    · intro p _
      rcases hreg slot p with heq | ⟨heq, -⟩ <;> rw [heq]
      · intro t _ hne hmem
        rw [version_plain, Set.uIcc_self] at hmem
        exact hne hmem
      · exact apart_written _ ⊥ none
    · intro p _ hsynced
      show (first.service.copy slot).origin ≤ _
      rcases hreg slot p with heq | ⟨heq, hpresent⟩ <;> rw [heq]
      have hsynced : p ∈ if (first.service.copy slot).value = none then room.members else present :=
        of_decide_eq_true hsynced
      split at hsynced
      · rename_i hnone
        rw [version_bot first slot (.inr hnone)]
      · rw [hpresent hsynced]
    · intro p _ _
      rcases hreg slot p with heq | ⟨heq, -⟩ <;> rw [heq]
      · exact version_plain first slot
      · rfl
    · exact fun l hl => absurd hl not_mem_nil
    · exact fun l hl => absurd hl not_mem_nil
    · exact fun l hl => absurd hl not_mem_nil
    · exact fun e he => absurd he not_mem_nil
  · rw [hseen]
    exact .nil _ _ _
  · have hdoc : (if p ∈ present then first.service else ⟨fun _ => none, none, [], false⟩).docs tool
        = some doc := hdoc
    split at hdoc
    · exact first.named tool doc hdoc
    · cases hdoc

/-- Nothing was published before. -/
def nothing : Version := ⟨fun _ => none, none, fun _ _ h => by cases h⟩

def pairRoom : Room := ⟨[samplePeer '0', samplePeer '1'], 1, by decide, by decide⟩

def sampleModeration (ownRole : String) : Moderation :=
  ⟨[⟨samplePeer '3', "owner"⟩], "", ownRole, false, .open'⟩

def pairEvents : List Event :=
  [.publishSnapshot (samplePeer '1') (sampleModeration "participant") .bpmn [0x61] (sampleId '1'),
    .deliver 0 (sampleModeration "participant") (sampleId '2', sampleId '3')]

theorem reply_of_request {room : Room} {own : String} {m : Moderation} {opIds : String × String}
    {s : Service} {d : Delivery} {op : Operation} (h : op ∈ (ingest room own m opIds s d).2) :
    d.data.payload = .syncRequest := by
  unfold ingest at h
  split at h
  · cases h
  · rename_i op' hop
    have hsame : op' = d.data := by
      unfold ingestDelivery at hop
      repeat' split at hop
      all_goals first | exact (some.inj hop).symm | cases hop
    split at h
    · rename_i hpayload
      rw [← hsame, hpayload]
    · split at h <;> cases h

def sampleRoom : Room :=
  ⟨[samplePeer '0', samplePeer '1', samplePeer '2', samplePeer '3'], 1, by decide, by decide⟩

/-- Two participants set the tool at once. The owner, whose id is the greatest,
answers a third one while it knows the lesser of the two choices only. -/
def relabelledEvents : List Event :=
  [.publishSnapshot (samplePeer '3') (sampleModeration "owner") .bpmn [0x61] (sampleId '1'),
    .setTool (samplePeer '1') (sampleModeration "participant") .bpmn (sampleId '2'),
    .setTool (samplePeer '2') (sampleModeration "participant") .drawio (sampleId '3'),
    .requestSync (samplePeer '0') (sampleId '4'),
    .deliver 5 (sampleModeration "owner") (sampleId '5', sampleId '6'),
    .deliver 10 (sampleModeration "owner") (sampleId '7', sampleId '8'),
    .deliver 10 (sampleModeration "participant") (sampleId '9', sampleId 'a')]
  ++ "bcdefghijkl".toList.map fun c =>
    .deliver 0 (sampleModeration "participant") (sampleId c, sampleId c.toUpper)

end Diagrams

end WebrtcMinimize
