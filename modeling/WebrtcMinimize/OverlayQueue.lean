import Mathlib.Algebra.BigOperators.Group.List.Basic
import Mathlib.Algebra.Ring.Nat
import Mathlib.Data.List.Infix
import WebrtcMinimize.CodeUnits

/-!
# The bounded overlay queue

Per peer and traffic class the payloads that wait for the data channel. An
enqueue that finds its class full refuses bulk and gives up the oldest payload of
the other classes; a flush sends the classes in turn, each from its front, until
the channel refuses.

`Traced` keeps beside the queue what was enqueued and what was sent. What is sent
and what still waits is always a subsequence of what was enqueued (`InOrder`), and
no queue has too many payloads; the bytes stay in bounds exactly as long as giving
up one payload frees enough (`Roomy`).
-/

namespace WebrtcMinimize

open CodeUnits (Text)

namespace OverlayQueue

open List Function Nat

inductive OverlayTrafficClass
  | control
  | rekey
  | event
  | bulk
deriving DecidableEq, Repr

structure Limit where
  messages : Nat
  bytes : Nat
deriving DecidableEq

def queueLimits : OverlayTrafficClass → Limit
  | .control => { messages := 32, bytes := 128 * 1024 }
  | .rekey => { messages := 32, bytes := 128 * 1024 }
  | .event => { messages := 64, bytes := 512 * 1024 }
  | .bulk => { messages := 96, bytes := 1024 * 1024 }

def trafficClasses : List OverlayTrafficClass := [.control, .rekey, .event, .bulk]

theorem nodup_trafficClasses : trafficClasses.Nodup := by decide

/-- The bytes of a queue, added up item by item. -/
def byteCount (queue : List Text) : Nat := queue.foldl (fun sum item => sum + item.length) 0

theorem byteCount_eq (queue : List Text) : byteCount queue = (queue.map length).sum := by
  have hgo : ∀ (queue : List Text) (sum : Nat), queue.foldl (fun sum item => sum + item.length) sum
        = sum + (queue.map length).sum := by
    intro queue
    induction queue with
    | nil => intro sum; rfl
    | cons item queue ih =>
        intro sum
        rw [foldl_cons, ih, map_cons, sum_cons, add_assoc]
  rw [byteCount, hgo, zero_add]

@[simp] theorem byteCount_nil : byteCount [] = 0 := rfl

@[simp] theorem byteCount_cons (item : Text) (queue : List Text) :
    byteCount (item :: queue) = item.length + byteCount queue := by
  rw [byteCount_eq, byteCount_eq, map_cons, sum_cons]

@[simp] theorem byteCount_append (queue rest : List Text) :
    byteCount (queue ++ rest) = byteCount queue + byteCount rest := by
  rw [byteCount_eq, byteCount_eq, byteCount_eq, map_append, sum_append_nat]

theorem byteCount_tail_le (queue : List Text) : byteCount queue.tail ≤ byteCount queue := by
  cases queue with
  | nil => exact le_refl 0
  | cons item queue =>
      rw [tail_cons, byteCount_cons]
      exact le_add_left _ _

structure BoundedOverlayQueue where
  items : OverlayTrafficClass → List Text

namespace BoundedOverlayQueue

def new : BoundedOverlayQueue := ⟨fun _ => []⟩

def set (q : BoundedOverlayQueue) (kind : OverlayTrafficClass) (queue : List Text) :
    BoundedOverlayQueue :=
  ⟨update q.items kind queue⟩

/-- A class has no place for the payload, or not for its bytes. -/
def Full (q : BoundedOverlayQueue) (trafficClass : OverlayTrafficClass) (payload : Text) : Prop :=
  (queueLimits trafficClass).messages ≤ (q.items trafficClass).length
    ∨ (queueLimits trafficClass).bytes < byteCount (q.items trafficClass) + payload.length

instance (q : BoundedOverlayQueue) (trafficClass : OverlayTrafficClass) (payload : Text) :
    Decidable (q.Full trafficClass payload) := inferInstanceAs (Decidable (_ ∨ _))

def enqueue (q : BoundedOverlayQueue) (trafficClass : OverlayTrafficClass) (payload : Text) :
    Bool × BoundedOverlayQueue :=
  if q.Full trafficClass payload then
    if trafficClass = .bulk then (false, q)
    else (true, q.set trafficClass ((q.items trafficClass).tail ++ [payload]))
  else (true, q.set trafficClass (q.items trafficClass ++ [payload]))

/-! ## Flushing -/

/-- What is left of a queue that is sent from its front, and after how many calls of
`send`, of which the `n`-th answers `send n`. -/
structure Drained where
  sent : List Text
  left : List Text
  calls : Nat

def drain (send : Nat → Text → Bool) : (calls : Nat) → List Text → Drained
  | calls, [] => ⟨[], [], calls⟩
  | calls, item :: queue =>
      if send calls item then
        let drained := drain send (calls + 1) queue
        { drained with sent := item :: drained.sent }
      else ⟨[], item :: queue, calls + 1⟩

theorem drain_append (send : Nat → Text → Bool) (queue : List Text) :
    ∀ calls, (drain send calls queue).sent ++ (drain send calls queue).left = queue := by
  induction queue with
  | nil => intro calls; rfl
  | cons item queue ih =>
      intro calls
      rw [drain]
      split
      · rw [cons_append, ih (calls + 1)]
      · rfl

/-- A flush on its way: the queue, and what of each class was sent. -/
structure Flushing where
  queue : BoundedOverlayQueue
  sent : OverlayTrafficClass → List Text
  calls : Nat

def flushClass (send : Nat → Text → Bool) (f : Flushing) (kind : OverlayTrafficClass) : Flushing :=
  let drained := drain send f.calls (f.queue.items kind)
  { queue := f.queue.set kind drained.left
    sent := update f.sent kind drained.sent
    calls := drained.calls }

def flush (q : BoundedOverlayQueue) (send : Nat → Text → Bool) : Flushing :=
  trafficClasses.foldl (flushClass send) ⟨q, fun _ => [], 0⟩

def clear (_ : BoundedOverlayQueue) : BoundedOverlayQueue := new

/-- A flush parts each queue into what is sent and what is left. -/
theorem flush_append (q : BoundedOverlayQueue) (send : Nat → Text → Bool)
    (kind : OverlayTrafficClass) :
    (q.flush send).sent kind ++ (q.flush send).queue.items kind = q.items kind := by
  -- the classes that are still to come are as they were
  have hgo : ∀ (kinds : List OverlayTrafficClass) (f : Flushing), kinds.Nodup →
      (∀ kind ∈ kinds, f.sent kind = []) →
      (∀ kind, f.sent kind ++ f.queue.items kind = q.items kind) →
      ∀ kind, (kinds.foldl (flushClass send) f).sent kind
        ++ (kinds.foldl (flushClass send) f).queue.items kind = q.items kind := by
    intro kinds
    induction kinds with
    | nil => intro f _ _ hf; exact hf
    | cons first kinds ih =>
        intro f hnodup hsent hf
        obtain ⟨hfirst, hnodup⟩ := nodup_cons.mp hnodup
        rw [foldl_cons]
        refine ih _ hnodup (fun kind hkind => ?_) (fun kind => ?_)
        · have hne : kind ≠ first := fun heq => hfirst (heq ▸ hkind)
          rw [flushClass]
          simp only [update_of_ne hne]
          exact hsent kind (mem_cons_of_mem _ hkind)
        · by_cases heq : kind = first
          · subst heq
            have hnil := hsent kind mem_cons_self
            have hqueue := hf kind
            rw [hnil, nil_append] at hqueue
            simp only [flushClass, set, update_self, drain_append, hqueue]
          · simp only [flushClass, set, update_of_ne heq]
            exact hf kind
  exact hgo trafficClasses _ nodup_trafficClasses (fun _ _ => rfl) (fun _ => rfl) kind

end BoundedOverlayQueue

/-! ## Runs -/

inductive Call
  | enqueue (trafficClass : OverlayTrafficClass) (payload : Text)
  | flush (send : Nat → Text → Bool)
  | clear

/-- The queue, and what was enqueued and sent of each class. -/
structure Traced where
  queue : BoundedOverlayQueue
  enqueued : OverlayTrafficClass → List Text
  flushed : OverlayTrafficClass → List Text

namespace Traced

def new : Traced := ⟨.new, fun _ => [], fun _ => []⟩

def next (t : Traced) : Call → Traced
  | .enqueue trafficClass payload => { t with
      queue := (t.queue.enqueue trafficClass payload).2
      enqueued := update t.enqueued trafficClass (t.enqueued trafficClass ++ [payload]) }
  | .flush send => { t with
      queue := (t.queue.flush send).queue
      flushed := fun kind => t.flushed kind ++ (t.queue.flush send).sent kind }
  | .clear => { t with queue := t.queue.clear }

/-- The calls in turn, from a new queue. -/
def after (calls : List Call) : Traced := calls.foldl next new

/-- What was sent and what waits are, in this order, among what was enqueued. -/
def InOrder (t : Traced) : Prop :=
  ∀ kind, (t.flushed kind ++ t.queue.items kind).Sublist (t.enqueued kind)

/-- No class has more payloads than it may. -/
def Counted (t : Traced) : Prop :=
  ∀ kind, (t.queue.items kind).length ≤ (queueLimits kind).messages

/-- No class has more bytes than it may. -/
def Weighed (t : Traced) : Prop :=
  ∀ kind, byteCount (t.queue.items kind) ≤ (queueLimits kind).bytes

/-- What is asked of the queues after every call. -/
structure Bounded (t : Traced) : Prop where
  counted : t.Counted
  weighed : t.Weighed
  recorded : ∀ kind,
    byteCount (t.queue.items kind) = ((t.queue.items kind).map length).sum
  inOrder : t.InOrder

/-- The payload fits, once the oldest one of its class is given up. -/
def Roomy (t : Traced) : Call → Prop
  | .enqueue trafficClass payload => trafficClass = .bulk ∨
      byteCount (t.queue.items trafficClass).tail + payload.length
        ≤ (queueLimits trafficClass).bytes
  | .flush _ => True
  | .clear => True

theorem after_concat (done : List Call) (call : Call) :
    after (done ++ [call]) = (after done).next call := by
  rw [after, foldl_append]
  rfl

/-! ### One call -/

section Calls

variable {t : Traced}

/-- What an enqueue leaves in the classes. -/
theorem enqueue_items (q : BoundedOverlayQueue) (trafficClass : OverlayTrafficClass)
    (payload : Text) (kind : OverlayTrafficClass) :
    (q.enqueue trafficClass payload).2.items kind = if kind = trafficClass then
          if q.Full trafficClass payload then
            if trafficClass = .bulk then q.items trafficClass
            else (q.items trafficClass).tail ++ [payload]
          else q.items trafficClass ++ [payload]
        else q.items kind := by
  rw [BoundedOverlayQueue.enqueue]
  by_cases hkind : kind = trafficClass
  · subst hkind
    simp only [if_true]
    split
    · split
      · rfl
      · exact update_self ..
    · exact update_self ..
  · rw [if_neg hkind]
    split
    · split
      · rfl
      · exact update_of_ne hkind ..
    · exact update_of_ne hkind ..

theorem inOrder_next (h : t.InOrder) (call : Call) : (t.next call).InOrder := by
  cases call with
  | enqueue trafficClass payload =>
      intro kind
      simp only [next, enqueue_items]
      by_cases hkind : kind = trafficClass
      · subst hkind
        have hkind := h kind
        rw [if_pos rfl, update_self]
        split
        · split
          · exact hkind.trans (sublist_append_left _ _)
          · rw [← append_assoc]
            exact ((List.Sublist.append_left (tail_sublist _) _).trans hkind).append_right _
        · rw [← append_assoc]
          exact hkind.append_right _
      · rw [if_neg hkind, update_of_ne hkind]
        exact h kind
  | flush send =>
      intro kind
      simp only [next]
      rw [append_assoc, BoundedOverlayQueue.flush_append]
      exact h kind
  | clear =>
      intro kind
      exact (List.Sublist.append_left (nil_sublist _) _).trans (h kind)

theorem counted_next (h : t.Counted) (call : Call) : (t.next call).Counted := by
  cases call with
  | enqueue trafficClass payload =>
      intro kind
      have hkind := h kind
      simp only [next, enqueue_items]
      by_cases heq : kind = trafficClass
      · subst heq
        have hlimit : 0 < (queueLimits kind).messages := by cases kind <;> decide
        rw [if_pos rfl]
        split
        · split
          · exact hkind
          · rw [length_append, length_tail, length_singleton]
            omega
        · rename_i hroom
          rw [BoundedOverlayQueue.Full, not_or] at hroom
          rw [length_append, length_singleton]
          omega
      · rw [if_neg heq]
        exact hkind
  | flush send =>
      intro kind
      have happend := congrArg length (t.queue.flush_append send kind)
      have hkind := h kind
      rw [length_append] at happend
      simp only [next]
      omega
  | clear => exact fun kind => zero_le _

/-- A call keeps the bytes within their limits if and only if there was room. -/
theorem weighed_next_iff (h : t.Weighed) (call : Call) : (t.next call).Weighed ↔ t.Roomy call := by
  cases call with
  | enqueue trafficClass payload =>
      have hclass : ∀ kind, kind ≠ trafficClass →
          ((t.next (.enqueue trafficClass payload)).queue.items kind) = t.queue.items kind := by
        intro kind hne
        simp only [next, enqueue_items, if_neg hne]
      have htail := byteCount_tail_le (t.queue.items trafficClass)
      have hkind := h trafficClass
      have hweighed : (t.next (.enqueue trafficClass payload)).Weighed ↔
          byteCount ((t.next (.enqueue trafficClass payload)).queue.items trafficClass)
            ≤ (queueLimits trafficClass).bytes := by
        constructor
        · exact fun hall => hall trafficClass
        · intro hone kind
          by_cases heq : kind = trafficClass
          · rw [heq]
            exact hone
          · rw [hclass kind heq]
            exact h kind
      rw [hweighed, Roomy]
      simp only [next, enqueue_items, if_true]
      split
      · split
        · rename_i hbulk
          exact ⟨fun _ => .inl hbulk, fun _ => hkind⟩
        · rename_i hbulk
          rw [byteCount_append, byteCount_cons, byteCount_nil, add_zero, or_iff_right hbulk]
      · rename_i hroom
        rw [BoundedOverlayQueue.Full, not_or] at hroom
        rw [byteCount_append, byteCount_cons, byteCount_nil, add_zero]
        exact ⟨fun _ => .inr (by omega), fun _ => by omega⟩
  | flush send =>
      refine iff_of_true (fun kind => ?_) trivial
      have happend := congrArg byteCount (t.queue.flush_append send kind)
      have hkind := h kind
      rw [byteCount_append] at happend
      simp only [next]
      omega
  | clear => exact iff_of_true (fun kind => zero_le _) trivial

end Calls

/-- **The bounded queue.** After every call of a run each class has at most as many
payloads and bytes as it may, the bytes are the sum of what waits, and what was sent
is a subsequence of what was enqueued, if and only if at each enqueue (bulk apart)
the payload fits once the oldest one of its class is given up. -/
theorem queue_bounded_iff (calls : List Call) : (∀ done, done <+: calls → (after done).Bounded)
      ↔ ∀ done call, done ++ [call] <+: calls → (after done).Roomy call := by
  constructor
  · intro h done call hprefix
    have hdone := h done ((prefix_append done [call]).trans hprefix)
    have hnext := h (done ++ [call]) hprefix
    rw [after_concat] at hnext
    exact (weighed_next_iff hdone.weighed call).mp hnext.weighed
  · intro h done
    induction done using reverseRecOn with
    | nil =>
        intro _
        exact ⟨fun _ => zero_le _, fun _ => zero_le _, fun _ => rfl,
          fun _ => List.Sublist.refl _⟩
    | append_singleton done call ih =>
        intro hprefix
        have hdone := ih ((prefix_append done [call]).trans hprefix)
        rw [after_concat]
        exact ⟨counted_next hdone.counted call,
          (weighed_next_iff hdone.weighed call).mpr (h done call hprefix),
          fun kind => byteCount_eq _, inOrder_next hdone.inOrder call⟩

/-- A packet's text, by its length. -/
def packet (length : Nat) : Text := replicate length 0x7b

@[simp] theorem length_packet (length : Nat) : (packet length).length = length := length_replicate

/-- One short packet and seven of full size wait; giving up the short one does not
make room for another of full size. -/
theorem one_shift_too_few : ¬(after (.enqueue .control (packet 500)
      :: replicate 8 (.enqueue .control (packet 17000)))).Bounded := by
  intro h
  have hweighed := h.weighed .control
  simp [after, replicate, next, enqueue_items, BoundedOverlayQueue.Full,
    BoundedOverlayQueue.new, new, queueLimits] at hweighed

end Traced

end OverlayQueue

end WebrtcMinimize
