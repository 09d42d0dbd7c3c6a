import WebrtcMinimize.ProgramRuns

/-!
# Redelivered commands

Delivery is at least once: a command that was accepted may arrive again, at
any later time and any number of times. The ledger is what makes the effect
exactly once. It never loses a key (`Recorded.step`), it is asked before any
expectation of the command is looked at, and the fingerprint it holds is
that of the accepted command, so another command under the same key is
refused as long as the hash tells the two apart.
-/

namespace WebrtcMinimize

open Checks Runs List

/-! ## Deliveries -/

/-- The snapshot after a call and the effects the call returns. -/
def deliver (s : Machine) (e : Event) : Machine × List Effect :=
  match e.call with
  | .command c =>
      match applyBroadcastProgramCommand s c e.now with
      | .ok r => (r.state, r.effects)
      | .error _ => (s, [])
  | _ => (afterCall s e, [])

/-- The snapshot after a list of calls, with the effects in order. -/
def deliverAll : Machine → List Event → Machine × List Effect
  | s, [] => (s, [])
  | s, e :: es =>
      let (t, effects) := deliver s e
      let (u, later) := deliverAll t es
      (u, effects ++ later)

theorem deliver_fst (s : Machine) (e : Event) : (deliver s e).1 = afterCall s e := by
  obtain ⟨call, now⟩ := e
  cases call with
  | command c =>
      simp only [deliver, afterCall, runCall]
      cases applyBroadcastProgramCommand s c now <;> rfl
  | _ => rfl

theorem deliverAll_cons (s : Machine) (e : Event) (es : List Event) : deliverAll s (e :: es)
      = ((deliverAll (afterCall s e) es).1,
          (deliver s e).2 ++ (deliverAll (afterCall s e) es).2) := by
  rw [← deliver_fst]
  rfl

/-- The command of the call, if the call is an accepted command. -/
def acceptedBy (s : Machine) (e : Event) : List Command :=
  match e.call with
  | .command c => if (applyBroadcastProgramCommand s c e.now).isOk then [c] else []
  | _ => []

/-- `Redelivery s accepted es es'`: `es'` is `es` with commands put in again
that were accepted before that point, either among `accepted` or while `es`
runs from `s`. -/
inductive Redelivery : Machine → List Command → List Event → List Event → Prop
  | nil {s : Machine} {accepted : List Command} : Redelivery s accepted [] []
  | original {s : Machine} {accepted : List Command} {e : Event} {es es' : List Event} :
      Redelivery (afterCall s e) (acceptedBy s e ++ accepted) es es' →
      Redelivery s accepted (e :: es) (e :: es')
  | again {s : Machine} {accepted : List Command} {c : Command} {now : Nat}
      {es es' : List Event} : c ∈ accepted → Redelivery s accepted es es' →
      Redelivery s accepted es (⟨.command c, now⟩ :: es')

/-! ## The ledger -/

/-- The ledger answers for the command's key with the command's fingerprint. -/
def Recorded (s : Machine) (c : Command) : Prop :=
  ∃ record, duplicateRecord s c = some record
    ∧ record.commandHash = broadcastProgramCommandHash c ∧ record.action = c.action

variable {c : Command} {s : Machine}

theorem duplicateRecord_recorded {m : Machine} {b : Command} {record : CommandRecord}
    (h : duplicateRecord s c = some record) :
    duplicateRecord (m.recorded s b) c = some record := by
  rw [duplicateRecord] at h ⊢
  rw [Machine.recorded, find?_append, h, Option.some_or]

theorem Change.recorded {t : Machine} {now : Nat} {call : Call} (h : Change s now call t)
    (hc : Recorded s c) : Recorded t c := by
  obtain ⟨record, hdup, hrecord⟩ := hc
  refine ⟨record, ?_, hrecord⟩
  cases h with
  | create => exact duplicateRecord_recorded hdup
  | move => exact duplicateRecord_recorded hdup
  | renew => exact hdup
  | synchronize => exact hdup

theorem Recorded.step {t : Machine} (hs : s.Sound) {e : Event} (h : Step s e t)
    (hc : Recorded s c) : Recorded t c := by
  obtain ⟨rfl | hchange, -⟩ := h.cases hs
  · exact hc
  · exact hchange.recorded hc

theorem recorded_of_accepted (hs : s.Sound) {now : Nat}
    {r : CommandResult} (h : applyBroadcastProgramCommand s c now = .ok r) :
    Recorded r.state c := by
  rcases applyBroadcastProgramCommand_ok hs h with ⟨rfl, hrecord⟩ | ⟨hdup, a, -, rfl, -⟩
  · exact hrecord
  · refine ⟨recordOf a.state c, ?_, rfl, rfl⟩
    rw [duplicateRecord] at hdup ⊢
    rw [Machine.recorded, find?_append, hdup, Option.none_or]
    exact find?_cons_of_pos (beq_self_eq_true _)

theorem deliver_recorded (hs : s.Sound) (hc : Recorded s c)
    (now : Nat) : deliver s ⟨.command c, now⟩ = (s, []) := by
  obtain ⟨record, hdup, -⟩ := hc
  simp only [deliver]
  cases happly : applyBroadcastProgramCommand s c now with
  | error => rfl
  | ok r =>
      rcases applyBroadcastProgramCommand_ok hs happly with ⟨rfl, -⟩ | ⟨hnone, -⟩
      · rfl
      · rw [hnone] at hdup
        cases hdup

theorem recorded_of_acceptedBy (hs : s.Sound) {e : Event}
    (hc : c ∈ acceptedBy s e) : Recorded (afterCall s e) c := by
  obtain ⟨call, now⟩ := e
  cases call with
  | command d =>
      simp only [acceptedBy] at hc
      cases happly : applyBroadcastProgramCommand s d now with
      | error code =>
          rw [happly] at hc
          cases hc
      | ok r =>
          rw [happly] at hc
          obtain rfl : c = d := mem_singleton.mp hc
          have hafter : afterCall s ⟨.command c, now⟩ = r.state := by
            simp only [afterCall, runCall, happly, ok_bind]
            rfl
          rw [hafter]
          exact recorded_of_accepted hs happly
  | _ => cases hc

/-- Redelivery of recorded commands does not show. The induction is on the
longer list: at every point the two runs are in the same snapshot, whose
ledger holds all that was accepted. -/
theorem deliverAll_redelivery {accepted : List Command} {es es' : List Event}
    (h : Redelivery s accepted es es') (hs : s.Sound)
    (hrecorded : ∀ c ∈ accepted, Recorded s c) : deliverAll s es' = deliverAll s es := by
  induction h with
  | nil => rfl
  | @original s accepted e es es' _ ih =>
      have hstep : Step s e (afterCall s e) := rfl
      have hnext : ∀ c ∈ acceptedBy s e ++ accepted, Recorded (afterCall s e) c := by
        intro c hc
        rcases mem_append.mp hc with hnew | hold
        · exact recorded_of_acceptedBy hs hnew
        · exact (hrecorded c hold).step hs hstep
      rw [deliverAll_cons, deliverAll_cons, ih (hstep.cases hs).2 hnext]
  | @again s accepted c now es es' hc _ ih =>
      have hnone := deliver_recorded hs (hrecorded c hc) now
      rw [deliverAll_cons, ← deliver_fst, hnone, ih hs hrecorded]
      rfl

theorem rejected_of_recorded (hs : s.Sound) {a b : Command}
    (ha : Recorded s a) (hkey : b.idempotencyKeyHash = a.idempotencyKeyHash) (hne : b ≠ a)
    (hash : NoCollision fun c => c = a ∨ c = b) (now : Nat) :
    ∃ code, applyBroadcastProgramCommand s b now = .error code := by
  obtain ⟨record, hdup, hrecord, -⟩ := ha
  refine error_of_not_ok fun r hr => ?_
  rcases applyBroadcastProgramCommand_ok hs hr with ⟨-, record', hdup', hrecord', -⟩ | ⟨hnone, -⟩
  · have hsame : record' = record := by
      rw [duplicateRecord, hkey, ← duplicateRecord, hdup] at hdup'
      exact (Option.some.inj hdup').symm
    have hhash : broadcastProgramCommandHash b = broadcastProgramCommandHash a := by
      rw [← hrecord', hsame, hrecord]
    exact hne (hash.eq (.inr rfl) (.inl rfl) hhash)
  · rw [duplicateRecord, hkey, ← duplicateRecord, hdup] at hnone
    cases hnone

/-- **Exactly once in effect.** From every reachable snapshot, a list of
calls and any redelivery of it end in the same snapshot with the same
effects, and once a command was accepted, no other command is ever accepted
under its key. -/
theorem delivered_exactly_once {s : Machine} (hs : Reachable s) :
    (∀ es es', Redelivery s [] es es' → deliverAll s es' = deliverAll s es)
    ∧ ∀ a now r es b now', applyBroadcastProgramCommand s a now = .ok r →
        b.idempotencyKeyHash = a.idempotencyKeyHash → b ≠ a → NoCollision (fun c => c = a ∨ c = b) →
            ∃ code, applyBroadcastProgramCommand (afterCalls r.state es) b now' = .error code := by
  have hsound := hs.sound
  constructor
  · intro es es' h
    exact deliverAll_redelivery h hsound fun c hc => by cases hc
  · intro a now r es b now' happly hkey hne hash
    have hafter : afterCall s ⟨.command a, now⟩ = r.state := by
      simp only [afterCall, runCall, happly, ok_bind]
      rfl
    have hr : r.state.Sound := by
      rw [← hafter]
      exact (Step.cases hsound (e := ⟨.command a, now⟩) rfl).2
    have hend := (path_afterCalls r.state es).inv (I := fun s => s.Sound ∧ Recorded s a)
      (fun hstep hboth => ⟨(hstep.cases hboth.1).2, hboth.2.step hboth.1 hstep⟩)
      ⟨hr, recorded_of_accepted hsound happly⟩
    exact rejected_of_recorded hend.1 hend.2 hkey hne hash now'

/-- The sample program is stopped; the second command reuses the key. -/
def sampleStopReady : Command := sampleCommand '5' (some (4, 19)) (.stop "OWNER_STOP")

def sampleKeyReuse : Command := sampleCommand '5' (some (4, 19)) (.fail "ENGINE_FAILED")

theorem stopReady_run : applies sampleMachine sampleStopReady 1004 = true
    ∧ broadcastProgramCommandHash sampleStopReady ≠ broadcastProgramCommandHash sampleKeyReuse := by
  constructor <;> decide +kernel

theorem delivered_exactly_once_sample :
    deliverAll sampleMachine [⟨.command sampleStopReady, 1004⟩, ⟨.command sampleStopReady, 2000⟩]
        = deliverAll sampleMachine [⟨.command sampleStopReady, 1004⟩]
      ∧ ∃ r code, applyBroadcastProgramCommand sampleMachine sampleStopReady 1004 = .ok r
        ∧ applyBroadcastProgramCommand r.state sampleKeyReuse 1005 = .error code := by
  obtain ⟨r, hr⟩ := applies_iff.mp stopReady_run.1
  obtain ⟨hsame, hreuse⟩ := delivered_exactly_once reachable_sample
  constructor
  · refine hsame _ _ (.original (.again ?_ .nil))
    simp only [acceptedBy, hr.1]
    exact mem_cons_self
  · have hash : NoCollision fun c => c = sampleStopReady ∨ c = sampleKeyReuse := by
      rintro a b (rfl | rfl) (rfl | rfl) heq
      · rfl
      · exact absurd heq stopReady_run.2
      · exact absurd heq.symm stopReady_run.2
      · rfl
    obtain ⟨code, hcode⟩ := hreuse sampleStopReady 1004 r [] sampleKeyReuse 1005 hr.1 rfl
      (by decide) hash
    exact ⟨r, code, hr.1, hcode⟩

end WebrtcMinimize
