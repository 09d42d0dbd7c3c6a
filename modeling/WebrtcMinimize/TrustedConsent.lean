import WebrtcMinimize.TrustedReceiver

/-!
# Decryption ends with the consent

A run of a receiver is a run of its decoder, and a run of a source is a run
of its receiver (`ReceiverMoved`, `SourceMoved`). Each of the three reads
its clock before it does anything, so what holds of a decoder along its runs
comes up to the two owners: nothing is decrypted at or after the end of the
key, of the envelope it came in, of the consent or of the lease, nor after a
reading that was before an earlier one, and an id that lost its key is never
installed again.
-/

namespace WebrtcMinimize

open Attempts Checks Runs

namespace TrustedSFrame

open SFrame (Suite)
open ReceiverCall List

variable {suite : Suite} {agree : KeyEnvelope → Except String (List UInt8)}

/-! ## Receivers -/

/-- The receiver takes the reading. -/
structure ReceiverCurrent (r : Receiver) (now : Int) : Prop where
  live : r.closed = false
  clock : r.lastNow ≤ now
  consent : now < r.expiresAt

theorem receiverCurrent_ok {r t : Receiver} {now : Int} {allowed : Bool} {u : Unit}
    (h : receiverCurrent now allowed r = .ok u t) :
    ReceiverCurrent r now ∧ t = { r with lastNow := now } := by
  rw [receiverCurrent] at h
  split at h
  · cases h
  · rename_i hopen
    split at h
    · cases h
    · rename_i hok
      cases h
      exact ⟨⟨Bool.eq_false_iff.mpr hopen, by omega, by omega⟩, rfl⟩

theorem receiverCurrent_error {r t : Receiver} {now : Int} {allowed : Bool} {code : String}
    (h : receiverCurrent now allowed r = .error code t) :
    t = r.destroy ∧ code = errClosed := by
  rw [receiverCurrent] at h
  split at h
  · rename_i hclosed
    cases h
    exact ⟨(if_pos hclosed).symm, rfl⟩
  · split at h
    · cases h
      exact ⟨rfl, rfl⟩
    · cases h

@[simp] theorem closed_destroy (r : Receiver) : r.destroy.closed = true := by
  rw [Receiver.destroy]
  split
  · assumption
  · rfl

/-- What a call of a receiver can have done so far. -/
structure ReceiverMoved (suite : Suite) (r t : Receiver) (call : ReceiverCall) : Prop where
  consent : t.consent = r.consent
  expires : t.expiresAt = r.expiresAt
  /-- the decoder took calls, and keys only out of the envelope of this call -/
  decoder : ∃ calls, Path (Step suite) r.decoder calls t.decoder ∧
    ∀ kid base now expiry, Call.install kid base now expiry ∈ calls →
      ∃ e allowed again, call = .install (some e) now allowed again ∧ kid = kidOf e.keyId
        ∧ expiry = expiryOf e now
  live : t.closed = false → r.closed = false
  read : ∀ now, call.reading = some now → t.closed = false → r.lastNow ≤ now ∧ t.lastNow = now
  skip : call.reading = none → t.closed = false → t.lastNow = r.lastNow
  seen : r.seen.length ≤ 512 → t.seen.length ≤ 512

section Receivers

variable {r t u : Receiver} {call : ReceiverCall} {calls : List ReceiverCall}

theorem ReceiverMoved.destroy (h : ReceiverMoved suite r t call) :
    ReceiverMoved suite r t.destroy call := by
  rw [Receiver.destroy]
  split
  · exact h
  · obtain ⟨calls, hpath, horigin⟩ := h.decoder
    exact {
      __ := h
      decoder := by
        have hlast : Step suite t.decoder .destroy t.decoder.destroy := rfl
        refine ⟨calls ++ [.destroy], hpath.append (.single hlast),
          fun kid base now expiry hmem => ?_⟩
        rcases mem_append.mp hmem with hmem | hmem
        · exact horigin kid base now expiry hmem
        · cases mem_singleton.mp hmem
      live := fun hopen => by cases hopen
      read := fun _ _ hopen => by cases hopen
      skip := fun _ hopen => by cases hopen
      seen := fun _ => Nat.zero_le _
    }

theorem ReceiverMoved.next {c : Call} (h : ReceiverMoved suite r t call)
    (horigin : ∀ kid base now expiry, c = .install kid base now expiry →
      ∃ e allowed again, call = .install (some e) now allowed again ∧ kid = kidOf e.keyId
        ∧ expiry = expiryOf e now) :
    ReceiverMoved suite r { t with decoder := c.next suite t.decoder } call where
  __ := h
  decoder := by
    obtain ⟨calls, hpath, hformer⟩ := h.decoder
    refine ⟨calls ++ [c], hpath.append (.single rfl), fun kid base now expiry hmem => ?_⟩
    rcases mem_append.mp hmem with hmem | hmem
    · exact hformer kid base now expiry hmem
    · exact horigin kid base now expiry (mem_singleton.mp hmem).symm

/-- The receiver is where a call that has taken its reading goes on. -/
structure Underway (suite : Suite) (r : Receiver) (call : ReceiverCall) (now : Int)
    (t : Receiver) : Prop where
  moved : ReceiverMoved suite r t call
  live : t.closed = false
  clock : t.lastNow = now

theorem underway_current (suite : Suite) {now : Int} {allowed : Bool} (hreading : call.reading = some now) :
    Ensures (· = r) (receiverCurrent now allowed) (fun _ => Underway suite r call now)
      (fun t => ReceiverMoved suite r t call) := by
  rintro s rfl
  have hnone : ∀ {kid base now expiry}, Call.install kid base now expiry ∈ ([] : List Call) →
      ∃ e allowed again, call = .install (some e) now allowed again ∧ kid = kidOf e.keyId
        ∧ expiry = expiryOf e now := fun hmem => absurd hmem not_mem_nil
  cases hrun : receiverCurrent now allowed s with
  | ok v t =>
      obtain ⟨hcurrent, rfl⟩ := receiverCurrent_ok hrun
      refine ⟨?_, hcurrent.live, rfl⟩
      exact {
        consent := rfl
        expires := rfl
        decoder := ⟨[], .nil _, fun _ _ _ _ => hnone⟩
        live := fun hopen => hopen
        read := fun now' hnow _ => by
          cases hreading.symm.trans hnow
          exact ⟨hcurrent.clock, rfl⟩
        skip := fun hskip => by
          rw [hreading] at hskip
          cases hskip
        seen := id
      }
  | error code t =>
      obtain ⟨rfl, -⟩ := receiverCurrent_error hrun
      refine ⟨?_, ?_, ?_, ?_, ?_, ?_, ?_⟩
      · rw [Receiver.destroy]
        split <;> rfl
      · rw [Receiver.destroy]
        split <;> rfl
      · rw [Receiver.destroy]
        split
        · exact ⟨[], .nil _, fun _ _ _ _ => hnone⟩
        · have hlast : Step suite s.decoder .destroy s.decoder.destroy := rfl
          refine ⟨[.destroy], .single hlast, fun kid base now expiry hmem => ?_⟩
          cases mem_singleton.mp hmem
      · intro hopen
        rw [closed_destroy] at hopen
        cases hopen
      · intro _ _ hopen
        rw [closed_destroy] at hopen
        cases hopen
      · intro _ hopen
        rw [closed_destroy] at hopen
        cases hopen
      · intro hseen
        rw [Receiver.destroy]
        split
        · exact hseen
        · exact Nat.zero_le _

theorem underway_again {now : Int} {again : Bool} :
    Ensures (Underway suite r call now) (receiverCurrent now again)
      (fun _ => Underway suite r call now) (fun t => ReceiverMoved suite r t call) := by
  intro s hs
  cases hrun : receiverCurrent now again s with
  | ok v t =>
      obtain ⟨-, rfl⟩ := receiverCurrent_ok hrun
      have heq : { s with lastNow := now } = s := by
        rw [← hs.clock]
      rw [heq]
      exact hs
  | error code t =>
      obtain ⟨rfl, -⟩ := receiverCurrent_error hrun
      exact hs.moved.destroy

theorem underway_decoder {α : Type} {x : Stateful Decoder α} {c : Call} {now : Int}
    (hnext : ∀ d, c.next suite d = after (x d))
    (horigin : ∀ kid base now expiry, c = .install kid base now expiry →
      ∃ e allowed again, call = .install (some e) now allowed again ∧ kid = kidOf e.keyId
        ∧ expiry = expiryOf e now) :
    Ensures (Underway suite r call now) (onDecoder x) (fun _ => Underway suite r call now)
      (fun t => ReceiverMoved suite r t call) := by
  intro s hs
  have hmoved := hs.moved.next horigin
  rw [hnext] at hmoved
  rw [onDecoder]
  cases hrun : x s.decoder with
  | ok a d =>
      rw [hrun] at hmoved
      exact ⟨hmoved, hs.live, hs.clock⟩
  | error code d =>
      rw [hrun] at hmoved
      exact hmoved

theorem underway_install (raw : Option KeyEnvelope) (now : Int) (allowed again : Bool) :
    Ensures (· = r) (receiverInstall suite agree raw now allowed again)
      (fun _ t => ReceiverMoved suite r t (.install raw now allowed again))
      (fun t => ReceiverMoved suite r t (.install raw now allowed again)) := by
  refine .bind (underway_current suite rfl) fun _ => ?_
  refine .get_bind fun s hs => ?_
  have hkept : ∀ t, t = s → ReceiverMoved suite r t (.install raw now allowed again) := by
    rintro t rfl
    exact hs.moved
  cases raw with
  | none => exact .failed hkept
  | some e =>
      refine .failWhen_bind hkept fun _ => ?_
      refine .failWhen_bind hkept fun _ => ?_
      refine .failWhen_bind hkept fun hroom => ?_
      refine .check_bind hkept fun base _ => ?_
      refine .failWhen_bind hkept fun _ => ?_
      have hstart : ∀ t, t = s → Underway suite r (.install (some e) now allowed again) now t
          ∧ t.seen.length < 512 := by
        rintro t rfl
        exact ⟨hs, by omega⟩
      have hlength : ∀ {α : Type} {x : Stateful Decoder α},
          Ensures (fun t => t.seen.length < 512) (onDecoder x) (fun _ t => t.seen.length < 512)
            (fun _ => True) := by
        intro α x t ht
        rw [onDecoder]
        cases x t.decoder with
        | ok a d => exact ht
        | error code d => trivial
      have hclock : Ensures (fun t => t.seen.length < 512) (receiverCurrent now again)
          (fun _ t => t.seen.length < 512) (fun _ => True) := by
        intro t ht
        cases hrun : receiverCurrent now again t with
        | ok v t' =>
            obtain ⟨-, rfl⟩ := receiverCurrent_ok hrun
            exact ht
        | error code t' => trivial
      refine .bind ((underway_again.and hclock).mono hstart (fun _ _ => id) fun _ h => h.1) fun _ => ?_
      refine .bind (((underway_decoder (c := .install (kidOf e.keyId) base now (expiryOf e now))
        (fun _ => rfl) ?_).and hlength).mono (fun _ => id) (fun _ _ => id) fun _ h => h.1) fun _ => ?_
      · intro kid base' now' expiry heq
        cases heq
        exact ⟨e, allowed, again, rfl, rfl, rfl⟩
      · refine .write_bind (Q := fun t =>
          ReceiverMoved suite r t (.install (some e) now allowed again)) ?_ (.ret fun _ => id)
        intro t ht
        exact {
          consent := ht.1.moved.consent
          expires := ht.1.moved.expires
          decoder := ht.1.moved.decoder
          live := ht.1.moved.live
          read := ht.1.moved.read
          skip := ht.1.moved.skip
          seen := fun _ => ht.2
        }

theorem underway_decrypt (frame : List UInt8) (now : Int) (allowed : Bool) :
    Ensures (· = r) (receiverDecrypt suite frame now allowed)
      (fun _ t => ReceiverMoved suite r t (.decrypt frame now allowed))
      (fun t => ReceiverMoved suite r t (.decrypt frame now allowed)) := by
  refine .bind (underway_current suite rfl) fun _ => ?_
  refine (underway_decoder (c := .decrypt frame now) (fun _ => rfl) ?_).mono (fun _ => id)
    (fun _ _ h => h.moved) fun _ => id
  intro kid base now' expiry heq
  cases heq

theorem moved_of_destroy (hreading : call.reading = none) :
    ReceiverMoved suite r r.destroy call := by
  have hstay : ReceiverMoved suite r r call := {
    consent := rfl
    expires := rfl
    decoder := ⟨[], .nil _, fun _ _ _ _ hmem => absurd hmem not_mem_nil⟩
    live := id
    read := fun now hnow => by
      rw [hreading] at hnow
      cases hnow
    skip := fun _ _ => rfl
    seen := id
  }
  exact hstay.destroy

theorem moved_timer (kid : UInt64) : ReceiverMoved suite r (r.timer kid) (.keyTimer kid) := by
  have hstay : ReceiverMoved suite r r (.keyTimer kid) := {
    consent := rfl
    expires := rfl
    decoder := ⟨[], .nil _, fun _ _ _ _ hmem => absurd hmem not_mem_nil⟩
    live := id
    read := fun now hnow => by cases hnow
    skip := fun _ _ => rfl
    seen := id
  }
  rw [Receiver.timer]
  split
  · exact hstay
  · have hnext := hstay.next (c := .remove kid) fun _ _ _ _ heq => by cases heq
    exact {
      __ := hnext
    }

theorem receiver_moved (h : ReceiverStep suite agree r call t) : ReceiverMoved suite r t call := by
  obtain ⟨rfl, -⟩ := h
  cases call with
  | announcement now allowed =>
      exact ((underway_current suite rfl).mono (fun _ => id) (fun _ _ h => h.moved)
        fun _ => id).after_of rfl
  | install raw now allowed again => exact (underway_install raw now allowed again).after_of rfl
  | decrypt frame now allowed => exact (underway_decrypt frame now allowed).after_of rfl
  | keyTimer kid => exact moved_timer kid
  | destroy => exact moved_of_destroy rfl

/-- A run of a receiver, as a run of its decoder that installs only out of
the envelopes the receiver was given. -/
theorem receiver_run (hrun : Path (ReceiverStep suite agree) r calls t) :
    t.consent = r.consent ∧ t.expiresAt = r.expiresAt ∧ (r.seen.length ≤ 512 → t.seen.length ≤ 512)
      ∧ ∃ inner, Path (Step suite) r.decoder inner t.decoder ∧
        ∀ kid base now expiry, Call.install kid base now expiry ∈ inner →
          ∃ e allowed again, ReceiverCall.install (some e) now allowed again ∈ calls
            ∧ kid = kidOf e.keyId ∧ expiry = expiryOf e now := by
  induction hrun with
  | nil r => exact ⟨rfl, rfl, id, [], .nil _, fun _ _ _ _ hmem => absurd hmem not_mem_nil⟩
  | @cons r s t call calls hstep _ ih =>
      have hmoved := receiver_moved hstep
      obtain ⟨hconsent, hexpires, hseen, inner, hinner, hinstalls⟩ := ih
      obtain ⟨first, hfirst, horigin⟩ := hmoved.decoder
      refine ⟨hconsent.trans hmoved.consent, hexpires.trans hmoved.expires,
        fun h => hseen (hmoved.seen h), first ++ inner, hfirst.append hinner, ?_⟩
      intro kid base now expiry hmem
      rcases mem_append.mp hmem with hmem | hmem
      · obtain ⟨e, allowed, again, rfl, hkid, hexpiry⟩ := horigin kid base now expiry hmem
        exact ⟨e, allowed, again, mem_cons_self, hkid, hexpiry⟩
      · obtain ⟨e, allowed, again, hcall, hkid, hexpiry⟩ := hinstalls kid base now expiry hmem
        exact ⟨e, allowed, again, mem_cons_of_mem _ hcall, hkid, hexpiry⟩

theorem receiver_readings (hrun : Path (ReceiverStep suite agree) r calls t)
    (hopen : t.closed = false) :
    r.closed = false ∧ (r.lastNow :: calls.filterMap reading).Pairwise (· ≤ ·)
      ∧ ∀ now ∈ r.lastNow :: calls.filterMap reading, now ≤ t.lastNow :=
  Path.readings (fun r => r.closed = false) Receiver.lastNow reading
    (fun hstep ht => (receiver_moved hstep).live ht)
    (fun hstep ht hreading => (receiver_moved hstep).read _ hreading ht)
    (fun hstep ht hreading => (receiver_moved hstep).skip hreading ht) hrun hopen

theorem receiverDecrypt_ok {frame output : List UInt8} {now : Int} {allowed : Bool}
    (h : receiverDecrypt suite frame now allowed r = .ok output t) :
    ReceiverCurrent r now ∧ ∃ d, decrypt suite frame now r.decoder = .ok output d := by
  obtain ⟨_, t₁, hrun, hrest⟩ := bind_ok_iff.mp h
  obtain ⟨hcurrent, rfl⟩ := receiverCurrent_ok hrun
  refine ⟨hcurrent, ?_⟩
  rw [onDecoder] at hrest
  split at hrest
  · rename_i output' d hd
    cases hrest
    exact ⟨d, hd⟩
  · cases hrest

theorem receiverInstall_ok {e : KeyEnvelope} {now : Int} {allowed again : Bool} {keyId : String}
    (h : receiverInstall suite agree (some e) now allowed again r = .ok keyId t) :
    ReceiverCurrent r now ∧
      ∃ base, install suite (kidOf e.keyId) base now (expiryOf e now) r.decoder = .ok () t.decoder := by
  obtain ⟨_, t₁, hrun, hrest⟩ := bind_ok_iff.mp h
  obtain ⟨hcurrent, rfl⟩ := receiverCurrent_ok hrun
  refine ⟨hcurrent, ?_⟩
  obtain ⟨_, _, hget, hrest⟩ := bind_ok_iff.mp hrest
  cases hget
  obtain ⟨_, _, hrun, hrest⟩ := bind_ok_iff.mp hrest
  obtain ⟨-, rfl⟩ := failWhen_ok_iff.mp hrun
  obtain ⟨_, _, hrun, hrest⟩ := bind_ok_iff.mp hrest
  obtain ⟨-, rfl⟩ := failWhen_ok_iff.mp hrun
  obtain ⟨_, _, hrun, hrest⟩ := bind_ok_iff.mp hrest
  obtain ⟨-, rfl⟩ := failWhen_ok_iff.mp hrun
  obtain ⟨base, _, hrun, hrest⟩ := bind_ok_iff.mp hrest
  obtain ⟨-, rfl⟩ := check_ok_iff.mp hrun
  obtain ⟨_, _, hrun, hrest⟩ := bind_ok_iff.mp hrest
  obtain ⟨-, rfl⟩ := failWhen_ok_iff.mp hrun
  obtain ⟨_, t₂, hrun, hrest⟩ := bind_ok_iff.mp hrest
  obtain ⟨-, rfl⟩ := receiverCurrent_ok hrun
  obtain ⟨_, t₃, hrun, hrest⟩ := bind_ok_iff.mp hrest
  rw [onDecoder] at hrun
  split at hrun
  · rename_i v d hd
    cases hrun
    obtain ⟨_, _, hmod, hrest⟩ := bind_ok_iff.mp hrest
    cases hmod
    cases hrest
    exact ⟨base, hd⟩
  · cases hrun

end Receivers

/-! ## Sources -/

/-- The source takes the reading. -/
structure SourceCurrent (s : SourceReceiver) (now : Int) : Prop where
  live : s.closed = false
  clock : s.lastNow ≤ now
  lease : now < s.lease.expiresAt

theorem sourceCurrent_ok {s t : SourceReceiver} {env : Circumstances} {asked looked : Nat}
    {u : Unit} (h : sourceCurrent env asked looked s = .ok u t) :
    SourceCurrent s env.now ∧ t = { s with lastNow := env.now } := by
  rw [sourceCurrent] at h
  split at h
  · cases h
  · rename_i hopen
    split at h
    · cases h
    · rename_i hok
      cases h
      exact ⟨⟨Bool.eq_false_iff.mpr hopen, by omega, by omega⟩, rfl⟩

theorem sourceCurrent_error {s t : SourceReceiver} {env : Circumstances} {asked looked : Nat}
    {code : String} (h : sourceCurrent env asked looked s = .error code t) : t = s.destroy := by
  rw [sourceCurrent] at h
  split at h
  · rename_i hclosed
    cases h
    exact (if_pos hclosed).symm
  · split at h
    · cases h
      rfl
    · cases h

theorem source_closed_destroy (s : SourceReceiver) : s.destroy.closed = true := by
  rw [SourceReceiver.destroy]
  split
  · assumption
  · rfl

/-- What a call of a source can have done so far. -/
structure SourceMoved (suite : Suite) (agree : KeyEnvelope → Except String (List UInt8))
    (s t : SourceReceiver) (call : SourceCall) : Prop where
  consent : t.lease.consent = s.lease.consent
  receiver : ∃ calls, Path (ReceiverStep suite agree) s.receiver calls t.receiver ∧
    ∀ e now allowed again, ReceiverCall.install (some e) now allowed again ∈ calls →
      ∃ env, call = .acceptKey (some e) env ∧ env.now = now
  live : t.closed = false → s.closed = false
  read : ∀ now, call.reading = some now → t.closed = false → s.lastNow ≤ now ∧ t.lastNow = now
  skip : call.reading = none → t.closed = false → t.lastNow = s.lastNow

section Sources

variable {s t : SourceReceiver} {call : SourceCall} {calls : List SourceCall}

theorem SourceMoved.stay (hreading : call.reading = none) : SourceMoved suite agree s s call where
  consent := rfl
  receiver := ⟨[], .nil _, fun _ _ _ _ hmem => absurd hmem not_mem_nil⟩
  live := id
  read := fun now hnow => by
    rw [hreading] at hnow
    cases hnow
  skip := fun _ _ => rfl

theorem SourceMoved.next {c : ReceiverCall} {r : Receiver} (h : SourceMoved suite agree s t call)
    (hstep : ReceiverStep suite agree t.receiver c r)
    (horigin : ∀ e now allowed again, c = .install (some e) now allowed again →
      ∃ env, call = .acceptKey (some e) env ∧ env.now = now) :
    SourceMoved suite agree s { t with receiver := r } call where
  __ := h
  receiver := by
    obtain ⟨calls, hpath, hformer⟩ := h.receiver
    refine ⟨calls ++ [c], hpath.append (.single hstep), fun e now allowed again hmem => ?_⟩
    rcases mem_append.mp hmem with hmem | hmem
    · exact hformer e now allowed again hmem
    · exact horigin e now allowed again (mem_singleton.mp hmem).symm

theorem SourceMoved.destroy (h : SourceMoved suite agree s t call) :
    SourceMoved suite agree s t.destroy call := by
  rw [SourceReceiver.destroy]
  split
  · exact h
  · have hstep : ReceiverStep suite agree t.receiver .destroy t.receiver.destroy :=
      ⟨rfl, fun kid heq => by cases heq⟩
    have hnext := h.next hstep fun _ _ _ _ heq => by cases heq
    exact {
      __ := hnext
      live := fun hopen => by cases hopen
      read := fun _ _ hopen => by cases hopen
      skip := fun _ hopen => by cases hopen
    }

/-- The source is where a call that has taken its reading goes on. -/
structure SourceUnderway (suite : Suite) (agree : KeyEnvelope → Except String (List UInt8))
    (s : SourceReceiver) (call : SourceCall) (now : Int) (t : SourceReceiver) : Prop where
  moved : SourceMoved suite agree s t call
  live : t.closed = false
  clock : t.lastNow = now

theorem source_underway_current (suite : Suite) (agree : KeyEnvelope → Except String (List UInt8))
    {env : Circumstances} {asked looked : Nat}
    (hreading : call.reading = some env.now) :
    Ensures (· = s) (sourceCurrent env asked looked)
      (fun _ => SourceUnderway suite agree s call env.now)
      (fun t => SourceMoved suite agree s t call) := by
  rintro s rfl
  cases hrun : sourceCurrent env asked looked s with
  | ok v t =>
      obtain ⟨hcurrent, rfl⟩ := sourceCurrent_ok hrun
      refine ⟨?_, hcurrent.live, rfl⟩
      exact {
        consent := rfl
        receiver := ⟨[], .nil _, fun _ _ _ _ hmem => absurd hmem not_mem_nil⟩
        live := id
        read := fun now hnow _ => by
          cases hreading.symm.trans hnow
          exact ⟨hcurrent.clock, rfl⟩
        skip := fun hskip => by
          rw [hreading] at hskip
          cases hskip
      }
  | error code t =>
      have hmoved : SourceMoved suite agree s s.destroy .destroy := (SourceMoved.stay rfl).destroy
      have hclosed := source_closed_destroy s
      rw [sourceCurrent_error hrun]
      exact {
        consent := hmoved.consent
        receiver := by
          obtain ⟨calls, hpath, horigin⟩ := hmoved.receiver
          refine ⟨calls, hpath, fun e now allowed again hmem => ?_⟩
          obtain ⟨env, heq, -⟩ := horigin e now allowed again hmem
          cases heq
        live := fun hopen => by
          rw [hclosed] at hopen
          cases hopen
        read := fun _ _ hopen => by
          rw [hclosed] at hopen
          cases hopen
        skip := fun _ hopen => by
          rw [hclosed] at hopen
          cases hopen
      }

theorem source_underway_again {env : Circumstances} {asked looked : Nat} :
    Ensures (SourceUnderway suite agree s call env.now) (sourceCurrent env asked looked)
      (fun _ => SourceUnderway suite agree s call env.now)
      (fun t => SourceMoved suite agree s t call) := by
  intro t ht
  cases hrun : sourceCurrent env asked looked t with
  | ok v u =>
      obtain ⟨-, rfl⟩ := sourceCurrent_ok hrun
      have heq : { t with lastNow := env.now } = t := by
        rw [← ht.clock]
      rw [heq]
      exact ht
  | error code u =>
      rw [sourceCurrent_error hrun]
      exact ht.moved.destroy

theorem source_underway_receiver {α : Type} {x : Stateful Receiver α} {c : ReceiverCall} {now : Int}
    (hstep : ∀ r, ReceiverStep suite agree r c (after (x r)))
    (horigin : ∀ e now allowed again, c = .install (some e) now allowed again →
      ∃ env, call = .acceptKey (some e) env ∧ env.now = now) :
    Ensures (SourceUnderway suite agree s call now) (onReceiver x)
      (fun _ => SourceUnderway suite agree s call now)
      (fun t => SourceMoved suite agree s t call) := by
  intro t ht
  have hmoved := ht.moved.next (hstep t.receiver) horigin
  rw [onReceiver]
  cases hrun : x t.receiver with
  | ok a r =>
      rw [hrun] at hmoved
      exact ⟨hmoved, ht.live, ht.clock⟩
  | error code r =>
      rw [hrun] at hmoved
      by_cases hcode : code = errClosed
      · simp only [if_pos hcode]
        exact hmoved.destroy
      · simp only [if_neg hcode]
        exact hmoved

theorem source_moved (h : SourceStep suite agree s call t) : SourceMoved suite agree s t call := by
  obtain ⟨rfl, htimer⟩ := h
  cases call with
  | announcement env =>
      have hrun : Ensures (· = s) (sourceAnnouncement env)
          (fun _ t => SourceMoved suite agree s t (.announcement env))
          (fun t => SourceMoved suite agree s t (.announcement env)) := by
        refine .bind (source_underway_current suite agree rfl) fun _ => ?_
        refine .get_bind fun u hu => ?_
        refine (source_underway_receiver (c := .announcement env.now (u.allowed env 1))
          (fun r => ⟨rfl, fun _ heq => by cases heq⟩) fun _ _ _ _ heq => by cases heq).mono
            (fun _ hs => hs ▸ hu) (fun _ _ h => h.moved) fun _ => id
      exact hrun.after_of rfl
  | acceptKey raw env =>
      have hrun : Ensures (· = s) (acceptKey suite agree raw env)
          (fun _ t => SourceMoved suite agree s t (.acceptKey raw env))
          (fun t => SourceMoved suite agree s t (.acceptKey raw env)) := by
        refine .bind (source_underway_current suite agree rfl) fun _ => ?_
        refine .get_bind fun u hu => ?_
        refine .bind ((source_underway_receiver
          (c := .install raw env.now (u.allowed env 1) (u.allowed env 2))
          (fun r => ⟨rfl, fun _ heq => by cases heq⟩) ?_).mono (fun _ hs => hs ▸ hu) (fun _ _ => id)
            fun _ => id) fun _ => ?_
        · intro e now allowed again heq
          cases heq
          exact ⟨env, rfl, rfl⟩
        · exact .bind source_underway_again fun _ => .ret fun _ h => h.moved
      exact hrun.after_of rfl
  | decrypt frame env =>
      have hrun : Ensures (· = s) (sourceDecrypt suite frame env)
          (fun _ t => SourceMoved suite agree s t (.decrypt frame env))
          (fun t => SourceMoved suite agree s t (.decrypt frame env)) := by
        refine .bind (source_underway_current suite agree rfl) fun _ => ?_
        refine .get_bind fun u hu => ?_
        refine .bind ((source_underway_receiver (c := .decrypt frame env.now (u.allowed env 1))
          (fun r => ⟨rfl, fun _ heq => by cases heq⟩) fun _ _ _ _ heq => by cases heq).mono
            (fun _ hs => hs ▸ hu) (fun _ _ => id) fun _ => id) fun _ => ?_
        exact .bind source_underway_again fun _ => .ret fun _ h => h.moved
      exact hrun.after_of rfl
  | alive env =>
      exact ((source_underway_current suite agree rfl).mono (fun _ => id)
        (fun _ _ h => h.moved) fun _ => id).after_of rfl
  | renew raw env =>
      have hrun : Ensures (· = s) (renew raw env)
          (fun _ t => SourceMoved suite agree s t (.renew raw env))
          (fun t => SourceMoved suite agree s t (.renew raw env)) := by
        refine .bind (source_underway_current suite agree rfl) fun _ => ?_
        refine .get_bind fun u hu => ?_
        have hkept : ∀ t, t = u → SourceMoved suite agree s t (.renew raw env) :=
          fun t ht => ht ▸ hu.moved
        refine .check_bind hkept fun next _ => ?_
        split
        · exact .ret fun t ht => hkept t ht
        · refine .failWhen_bind hkept fun hsame => ?_
          refine .write fun t ht => ?_
          subst ht
          rw [not_or, not_not] at hsame
          have hconsent : next.consent = t.lease.consent :=
            (congrArg SourceLease.consent hsame.1).symm
          exact {
            consent := hconsent.trans hu.moved.consent
            receiver := hu.moved.receiver
            live := hu.moved.live
            read := hu.moved.read
            skip := hu.moved.skip
          }
      exact hrun.after_of rfl
  | expire overdue =>
      show SourceMoved suite agree s (if overdue then s.destroy else s) _
      split
      · exact (SourceMoved.stay rfl).destroy
      · exact .stay rfl
  | destroy => exact (SourceMoved.stay rfl).destroy
  | keyTimer kid =>
      have hstep : ReceiverStep suite agree s.receiver (.keyTimer kid) (s.receiver.timer kid) :=
        ⟨rfl, fun kid' heq => by
          cases heq
          exact htimer kid rfl⟩
      exact (SourceMoved.stay rfl).next hstep fun _ _ _ _ heq => by cases heq
  | receiverTimer =>
      have hstep : ReceiverStep suite agree s.receiver .destroy s.receiver.destroy :=
        ⟨rfl, fun kid heq => by cases heq⟩
      exact (SourceMoved.stay rfl).next hstep fun _ _ _ _ heq => by cases heq

theorem source_run (hrun : Path (SourceStep suite agree) s calls t) :
    t.lease.consent = s.lease.consent
      ∧ ∃ inner, Path (ReceiverStep suite agree) s.receiver inner t.receiver ∧
        ∀ e now allowed again, ReceiverCall.install (some e) now allowed again ∈ inner →
          ∃ env, SourceCall.acceptKey (some e) env ∈ calls ∧ env.now = now := by
  induction hrun with
  | nil s => exact ⟨rfl, [], .nil _, fun _ _ _ _ hmem => absurd hmem not_mem_nil⟩
  | @cons s u t call calls hstep _ ih =>
      have hmoved := source_moved hstep
      obtain ⟨hconsent, inner, hinner, hinstalls⟩ := ih
      obtain ⟨first, hfirst, horigin⟩ := hmoved.receiver
      refine ⟨hconsent.trans hmoved.consent, first ++ inner, hfirst.append hinner, ?_⟩
      intro e now allowed again hmem
      rcases mem_append.mp hmem with hmem | hmem
      · obtain ⟨env, rfl, hnow⟩ := horigin e now allowed again hmem
        exact ⟨env, mem_cons_self, hnow⟩
      · obtain ⟨env, hcall, hnow⟩ := hinstalls e now allowed again hmem
        exact ⟨env, mem_cons_of_mem _ hcall, hnow⟩

theorem source_readings (hrun : Path (SourceStep suite agree) s calls t)
    (hopen : t.closed = false) :
    s.closed = false ∧ (s.lastNow :: calls.filterMap SourceCall.reading).Pairwise (· ≤ ·)
      ∧ ∀ now ∈ s.lastNow :: calls.filterMap SourceCall.reading, now ≤ t.lastNow :=
  Path.readings (fun s => s.closed = false) SourceReceiver.lastNow SourceCall.reading
    (fun hstep ht => (source_moved hstep).live ht)
    (fun hstep ht hreading => (source_moved hstep).read _ hreading ht)
    (fun hstep ht hreading => (source_moved hstep).skip hreading ht) hrun hopen

end Sources

theorem sourceDecrypt_ok {s t : SourceReceiver} {frame output : List UInt8} {env : Circumstances}
    (h : sourceDecrypt suite frame env s = .ok output t) : SourceCurrent s env.now ∧
      ∃ allowed r, receiverDecrypt suite frame env.now allowed s.receiver = .ok output r := by
  obtain ⟨_, _, hrun, hrest⟩ := bind_ok_iff.mp h
  obtain ⟨hcurrent, rfl⟩ := sourceCurrent_ok hrun
  obtain ⟨_, _, hget, hrest⟩ := bind_ok_iff.mp hrest
  cases hget
  obtain ⟨_, _, hrun, hrest⟩ := bind_ok_iff.mp hrest
  obtain ⟨_, _, hlast, hrest⟩ := bind_ok_iff.mp hrest
  cases hrest
  refine ⟨hcurrent, ?_⟩
  rw [onReceiver] at hrun
  split at hrun
  · rename_i output' r hr
    cases hrun
    exact ⟨_, r, hr⟩
  · split at hrun <;> cases hrun

theorem acceptKey_ok {s t : SourceReceiver} {e : KeyEnvelope} {env : Circumstances} {kid : String}
    (h : acceptKey suite agree (some e) env s = .ok kid t) : SourceCurrent s env.now ∧
      ∃ allowed again r,
        receiverInstall suite agree (some e) env.now allowed again s.receiver = .ok kid r
          ∧ t.receiver = r := by
  obtain ⟨_, _, hrun, hrest⟩ := bind_ok_iff.mp h
  obtain ⟨hcurrent, rfl⟩ := sourceCurrent_ok hrun
  obtain ⟨_, _, hget, hrest⟩ := bind_ok_iff.mp hrest
  cases hget
  obtain ⟨_, _, hrun, hrest⟩ := bind_ok_iff.mp hrest
  obtain ⟨_, _, hlast, hrest⟩ := bind_ok_iff.mp hrest
  obtain ⟨-, rfl⟩ := sourceCurrent_ok hlast
  cases hrest
  refine ⟨hcurrent, ?_⟩
  rw [onReceiver] at hrun
  split at hrun
  · rename_i kid' r hr
    cases hrun
    exact ⟨_, _, r, hr, rfl⟩
  · split at hrun <;> cases hrun

/-! ## The bounds -/

/-- The readings up to and with the last one did not decrease. -/
def ClockOrdered (start : Int) (readings : List Int) (now : Int) : Prop :=
  (start :: (readings ++ [now])).Pairwise (· ≤ ·)

theorem ClockOrdered.of_bound {start now : Int} {readings : List Int}
    (h : (start :: readings).Pairwise (· ≤ ·)) (hbound : ∀ past ∈ start :: readings, past ≤ now) :
    ClockOrdered start readings now := by
  rw [ClockOrdered, ← cons_append, pairwise_append]
  refine ⟨h, pairwise_singleton _ _, fun a ha b hb => ?_⟩
  rw [mem_singleton.mp hb]
  exact hbound a ha

/-- What bounds a decoder that was made at `start` for a consent until
`expiresAt` and has taken the calls since. -/
structure DecoderBounds (suite : Suite) (start expiresAt : Int) (calls : List Call) (d : Decoder) :
    Prop where
  plaintext : ∀ {frame output now t}, decrypt suite frame now d = .ok output t →
    now < expiresAt ∧ ClockOrdered start (calls.filterMap Call.reading) now ∧
      ∃ o before, opened suite (d.ticked now) frame = .ok o ∧ output = o.output
        ∧ Call.install o.header.kid o.entry.base before o.entry.expiresAt ∈ calls
        ∧ now < o.entry.expiresAt
  /-- an id that lost its key, or whose key is over, is not installed again -/
  retired : ∀ {kid entry es t fs u base now expiry v w}, d.keys.get kid = some entry →
    Path (Step suite) d es t → Path (Step suite) t fs u →
      (t.keys.get kid = none ∨
        ∃ past ∈ (es ++ fs).filterMap Call.reading ++ [now], entry.expiresAt ≤ past) →
      install suite kid base now expiry u ≠ .ok v w
  /-- a live key that is installed again is the same key -/
  again : ∀ {kid entry base now expiry v t}, d.keys.get kid = some entry →
    install suite kid base now expiry d = .ok v t →
      t.keys.get kid = some entry ∧ base = entry.base ∧ expiry = entry.expiresAt
  keys_le : d.keys.size ≤ 4
  seen_le : d.seen.length ≤ 512

theorem decoder_bounds {envelope codec : String} {start expiresAt : Int} {d₀ d : Decoder}
    {calls : List Call} (hnew : new envelope codec start expiresAt = .ok d₀)
    (hrun : Path (Step suite) d₀ calls d) : DecoderBounds suite start expiresAt calls d := by
  have hsound : Sound suite d := (sound_new hnew).run hrun
  have hstart : d₀.lastNow = start ∧ d₀.expiresAt = expiresAt ∧ d₀.keys = .empty := by
    rw [new] at hnew
    split at hnew
    · cases hnew
    · obtain ⟨_, -, hd⟩ := Checks.bind_ok_iff.mp hnew
      cases hd
      exact ⟨rfl, rfl, rfl⟩
  obtain ⟨hclock, hconsent, hempty⟩ := hstart
  refine ⟨?_, ?_, ?_, hsound.keys_le, hsound.seen_le⟩
  · intro frame output now t h
    obtain ⟨hcurrent, o, ho, houtput, -⟩ := decrypt_ok h
    obtain ⟨-, hpairwise, hbound⟩ := readings_run hrun hcurrent.live
    rw [hclock] at hpairwise hbound
    have hkept : d.expiresAt = expiresAt := by
      rcases later_run hrun with hclosed | hkept
      · rw [hcurrent.live] at hclosed
        cases hclosed
      · exact hkept.consent.trans hconsent
    obtain ⟨hheld, hlive⟩ := get_ticked.mp (opened_ok ho).1
    obtain ⟨before, hinstalled⟩ := installed_run hempty hrun hheld
    refine ⟨hkept ▸ hcurrent.consent, .of_bound hpairwise fun past hpast => ?_, o, before, ho,
      houtput, hinstalled, hlive⟩
    exact (hbound past hpast).trans hcurrent.clock
  · intro kid entry es t fs u base now expiry v w hget hes hfs hover h
    have hseen := hsound.seen hget
    rcases hover with hgone | ⟨past, hmem, hpast⟩
    · rcases later_run hes with hclosed | hkept
      · rcases later_run hfs with hclosed' | hkept'
        · rw [(install_ok h).1.live] at hclosed'
          cases hclosed'
        · rw [hkept'.live] at hclosed
          cases hclosed
      · exact install_gone (hkept.seen hseen) hgone hfs h
    · obtain ⟨-, -, hbound⟩ := readings_run (hes.append hfs) (install_ok h).1.live
      have hle : past ≤ now := by
        rcases mem_append.mp hmem with hmem | hmem
        · exact (hbound past (mem_cons_of_mem _ hmem)).trans (install_ok h).1.clock
        · rw [mem_singleton.mp hmem]
      exact install_over hseen hget (hes.append hfs) (hpast.trans hle) h
  · intro kid entry base now expiry v t hget h
    obtain ⟨-, hheld, hbase, hexpires⟩ := install_again (hsound.seen hget) hget h
    exact ⟨hheld, hbase.symm, hexpires.symm⟩

/-- What bounds a receiver that was made at `start` for the consent and has
taken the calls since. -/
structure ReceiverBounds (suite : Suite) (agree : KeyEnvelope → Except String (List UInt8))
    (start : Int) (consent : Consent) (calls : List ReceiverCall) (r : Receiver) : Prop where
  plaintext : ∀ {frame output now allowed t},
    receiverDecrypt suite frame now allowed r = .ok output t →
      now < consent.expiresAt ∧ ClockOrdered start (calls.filterMap ReceiverCall.reading) now ∧
        ∃ o e before allowed again, opened suite (r.decoder.ticked now) frame = .ok o
          ∧ output = o.output ∧ ReceiverCall.install (some e) before allowed again ∈ calls
          ∧ o.header.kid = kidOf e.keyId ∧ now < e.expiresAt ∧ now < before + 60000
  retired : ∀ {e entry es t fs u now allowed again v w},
    r.decoder.keys.get (kidOf e.keyId) = some entry → Path (ReceiverStep suite agree) r es t →
      Path (ReceiverStep suite agree) t fs u →
        (t.decoder.keys.get (kidOf e.keyId) = none ∨
          ∃ past ∈ (es ++ fs).filterMap ReceiverCall.reading ++ [now], entry.expiresAt ≤ past) →
        receiverInstall suite agree (some e) now allowed again u ≠ .ok v w
  again : ∀ {e entry now allowed again v t}, r.decoder.keys.get (kidOf e.keyId) = some entry →
    receiverInstall suite agree (some e) now allowed again r = .ok v t →
      t.decoder.keys.get (kidOf e.keyId) = some entry ∧ expiryOf e now = entry.expiresAt
  /-- the decoder of the receiver has its own bounds -/
  decoder : ∃ inner, DecoderBounds suite start r.expiresAt inner r.decoder
  seen_le : r.seen.length ≤ 512

theorem receiver_bounds {rawConsent : Option Consent} {packagerRef deviceRef codec : String}
    {allowed : Bool} {agreementID : String} {start : Int} {r₀ r : Receiver}
    {calls : List ReceiverCall}
    (hnew : newReceiver rawConsent packagerRef deviceRef codec allowed agreementID start = .ok r₀)
    (hrun : Path (ReceiverStep suite agree) r₀ calls r) :
    ReceiverBounds suite agree start r₀.consent calls r := by
  simp only [newReceiver, Checks.bind_ok_iff, pure_ok_iff] at hnew
  obtain ⟨c, -, _, -, _, -, d, hd, rfl⟩ := hnew
  obtain ⟨-, hexpires, hseen, inner, hinner, horigin⟩ := receiver_run hrun
  have hbounds : DecoderBounds suite start r.expiresAt inner r.decoder := by
    rw [hexpires]
    exact decoder_bounds hd hinner
  refine ⟨?_, ?_, ?_, ⟨inner, hbounds⟩, hseen (Nat.zero_le _)⟩
  · intro frame output now allowed t h
    obtain ⟨hcurrent, d', hdecrypt⟩ := receiverDecrypt_ok h
    obtain ⟨-, hpairwise, hbound⟩ := receiver_readings hrun hcurrent.live
    obtain ⟨-, -, o, before, ho, houtput, hinstalled, hlive⟩ := hbounds.plaintext hdecrypt
    obtain ⟨e, allowed', again, hcall, hkid, hexpiry⟩ := horigin _ _ _ _ hinstalled
    rw [hexpiry, expiryOf] at hlive
    have hconsent := hcurrent.consent
    rw [hexpires] at hconsent
    refine ⟨hconsent.trans_le (min_le_left _ _), .of_bound hpairwise fun past hpast => ?_, o, e,
      before, allowed', again, ho, houtput, hcall, hkid, by omega, by omega⟩
    exact (hbound past hpast).trans hcurrent.clock
  · intro e entry es t fs u now allowed again v w hget hes hfs hover h
    obtain ⟨hcurrent, base, hinstall⟩ := receiverInstall_ok h
    obtain ⟨-, -, -, ces, hces, -⟩ := receiver_run hes
    obtain ⟨-, -, -, cfs, hcfs, -⟩ := receiver_run hfs
    rcases hover with hgone | ⟨past, hmem, hpast⟩
    · exact hbounds.retired hget hces hcfs (.inl hgone) hinstall
    · obtain ⟨-, -, hbound⟩ := receiver_readings (hes.append hfs) hcurrent.live
      have hle : past ≤ now := by
        rcases mem_append.mp hmem with hmem | hmem
        · exact (hbound past (mem_cons_of_mem _ hmem)).trans hcurrent.clock
        · rw [mem_singleton.mp hmem]
      refine hbounds.retired hget hces hcfs (.inr ⟨now, ?_, hpast.trans hle⟩) hinstall
      exact mem_append_right _ mem_cons_self
  · intro e entry now allowed again v t hget h
    obtain ⟨-, base, hinstall⟩ := receiverInstall_ok h
    obtain ⟨hheld, -, hexpiry⟩ := hbounds.again hget hinstall
    exact ⟨hheld, hexpiry⟩

/-- What bounds a source that was made at `start` and has taken the calls
since; a renewed lease is for the consent of the first one. -/
structure SourceBounds (suite : Suite) (agree : KeyEnvelope → Except String (List UInt8))
    (start : Int) (consent : Consent) (calls : List SourceCall) (s : SourceReceiver) : Prop where
  plaintext : ∀ {frame output env t}, sourceDecrypt suite frame env s = .ok output t →
    env.now < s.lease.expiresAt ∧ env.now < consent.expiresAt
      ∧ ClockOrdered start (calls.filterMap SourceCall.reading) env.now ∧
        ∃ o e before, opened suite (s.receiver.decoder.ticked env.now) frame = .ok o
          ∧ output = o.output ∧ SourceCall.acceptKey (some e) before ∈ calls
          ∧ o.header.kid = kidOf e.keyId ∧ env.now < e.expiresAt ∧ env.now < before.now + 60000
  retired : ∀ {e entry es t fs u env v w},
    s.receiver.decoder.keys.get (kidOf e.keyId) = some entry → Path (SourceStep suite agree) s es t →
      Path (SourceStep suite agree) t fs u →
        (t.receiver.decoder.keys.get (kidOf e.keyId) = none ∨
          ∃ past ∈ (es ++ fs).filterMap SourceCall.reading ++ [env.now], entry.expiresAt ≤ past) →
        acceptKey suite agree (some e) env u ≠ .ok v w
  again : ∀ {e entry env v t}, s.receiver.decoder.keys.get (kidOf e.keyId) = some entry →
    acceptKey suite agree (some e) env s = .ok v t →
      t.receiver.decoder.keys.get (kidOf e.keyId) = some entry
        ∧ expiryOf e env.now = entry.expiresAt
  consent_kept : s.lease.consent = consent
  receiver : ∃ inner, ReceiverBounds suite agree start consent inner s.receiver

theorem source_bounds {raw : Option SourceLease} {packagerRef deviceRef : String} {policy : Bool}
    {agreementID : String} {start : Int} {s₀ s : SourceReceiver} {calls : List SourceCall}
    (hnew : newSourceReceiver raw packagerRef deviceRef policy agreementID start = .ok s₀)
    (hrun : Path (SourceStep suite agree) s₀ calls s) :
    SourceBounds suite agree start s₀.lease.consent calls s := by
  simp only [newSourceReceiver, Checks.bind_ok_iff, pure_ok_iff] at hnew
  obtain ⟨lease, -, _, -, r, hr, rfl⟩ := hnew
  have hsame : r.consent = lease.consent := by
    simp only [newReceiver, Checks.bind_ok_iff, pure_ok_iff] at hr
    obtain ⟨c, hc, _, -, _, -, d, -, rfl⟩ := hr
    rw [parseConsent] at hc
    split at hc
    · exact (Except.ok.inj hc).symm
    · cases hc
  obtain ⟨hconsent, inner, hinner, horigin⟩ := source_run hrun
  have hbounds := receiver_bounds hr hinner
  rw [hsame] at hbounds
  refine ⟨?_, ?_, ?_, hconsent, ⟨inner, hbounds⟩⟩
  · intro frame output env t h
    obtain ⟨hcurrent, allowed, r', hdecrypt⟩ := sourceDecrypt_ok h
    obtain ⟨-, hpairwise, hbound⟩ := source_readings hrun hcurrent.live
    obtain ⟨hbefore, -, o, e, before, _, _, ho, houtput, hcall, hkid, hlive, hcap⟩ :=
      hbounds.plaintext hdecrypt
    obtain ⟨env', hcall', rfl⟩ := horigin _ _ _ _ hcall
    refine ⟨hcurrent.lease, hbefore, .of_bound hpairwise fun past hpast => ?_, o, e, env', ho,
      houtput, hcall', hkid, hlive, hcap⟩
    exact (hbound past hpast).trans hcurrent.clock
  · intro e entry es t fs u env v w hget hes hfs hover h
    obtain ⟨hcurrent, allowed, again, r', hinstall, -⟩ := acceptKey_ok h
    obtain ⟨-, ces, hces, -⟩ := source_run hes
    obtain ⟨-, cfs, hcfs, -⟩ := source_run hfs
    rcases hover with hgone | ⟨past, hmem, hpast⟩
    · exact hbounds.retired hget hces hcfs (.inl hgone) hinstall
    · obtain ⟨-, -, hbound⟩ := source_readings (hes.append hfs) hcurrent.live
      have hle : past ≤ env.now := by
        rcases mem_append.mp hmem with hmem | hmem
        · exact (hbound past (mem_cons_of_mem _ hmem)).trans hcurrent.clock
        · rw [mem_singleton.mp hmem]
      refine hbounds.retired hget hces hcfs (.inr ⟨env.now, ?_, hpast.trans hle⟩) hinstall
      exact mem_append_right _ mem_cons_self
  · intro e entry env v t hget h
    obtain ⟨-, allowed, again, r', hinstall, rfl⟩ := acceptKey_ok h
    exact hbounds.again hget hinstall

/-- **Consent-bounded decryption**, for the decoder and for the two that own
it, over every run. -/
theorem decryption_within_consent (suite : Suite)
    (agree : KeyEnvelope → Except String (List UInt8)) :
    (∀ envelope codec start expiresAt d₀ calls d, new envelope codec start expiresAt = .ok d₀ →
      Path (Step suite) d₀ calls d → DecoderBounds suite start expiresAt calls d) ∧
    (∀ rawConsent packagerRef deviceRef codec allowed agreementID start r₀ calls r,
      newReceiver rawConsent packagerRef deviceRef codec allowed agreementID start = .ok r₀ →
        Path (ReceiverStep suite agree) r₀ calls r →
          ReceiverBounds suite agree start r₀.consent calls r) ∧
    (∀ raw packagerRef deviceRef policy agreementID start s₀ calls s,
      newSourceReceiver raw packagerRef deviceRef policy agreementID start = .ok s₀ →
        Path (SourceStep suite agree) s₀ calls s →
          SourceBounds suite agree start s₀.lease.consent calls s) :=
  ⟨fun _ _ _ _ _ _ _ hnew hrun => decoder_bounds hnew hrun,
    fun _ _ _ _ _ _ _ _ _ _ hnew hrun => receiver_bounds hnew hrun,
    fun _ _ _ _ _ _ _ _ _ hnew hrun => source_bounds hnew hrun⟩

/-- A suite that hides nothing: the ciphertext is the plaintext and a tag of
zeros. -/
def plainSuite : Suite where
  hkdf _ _ length := replicate length 0
  encrypt _ _ _ plaintext := plaintext ++ replicate 16 0
  decrypt _ _ _ ciphertext := some (ciphertext.take (ciphertext.length - 16))

theorem decryption_within_consent_sample : ∃ d₀ d t,
    new "codec-prefix-v1" "audio/opus" 1000 5000 = .ok d₀
      ∧ install plainSuite 1 (replicate 16 9) 1100 3000 d₀ = .ok () d
      ∧ decrypt plainSuite ([5, 0x53, 0x46, 1, 2, 0x10, 7] ++ replicate 16 0) 1200 d = .ok [5, 7] t
      ∧ DecoderBounds plainSuite 1000 5000 [.install 1 (replicate 16 9) 1100 3000] d :=
  ⟨_, _, _, rfl, rfl, rfl,
    (decryption_within_consent plainSuite fun _ => .error errKey).1 "codec-prefix-v1" "audio/opus"
      1000 5000 _ _ _ rfl (.single rfl)⟩

end TrustedSFrame

end WebrtcMinimize
