import WebrtcMinimize.SourceKeys
import WebrtcMinimize.TrustedConsent

/-!
# Key exchange over any number of rotations

A key is on its way, or its acknowledgement is, or the publisher makes the next
one: never two of these. The leases of the receiver that the publisher does not
have yet follow its own, one revision each, so that a renewal is always accepted.
An acknowledgement is accepted unless its lease is one of these, or is over.
-/

namespace WebrtcMinimize

open Attempts Runs

namespace SourceKeys

open TrustedSFrame SFrame Exchange Publisher List Option Int Checks

/-! ## The lease of the receiver -/

section Receiver

variable {s t : SourceReceiver} {env : Circumstances} {lease : SourceLease}

theorem lease_destroy (s : SourceReceiver) : s.destroy.lease = s.lease := by
  unfold SourceReceiver.destroy
  split <;> rfl

/-- Nothing but a renewal changes the lease. -/
def KeepsLease {α : Type} (x : Stateful SourceReceiver α) (lease : SourceLease) : Prop :=
  Ensures (fun s => s.lease = lease) x (fun _ s => s.lease = lease) fun s => s.lease = lease

theorem keepsLease_current (env : Circumstances) (asked looked : Nat) (lease : SourceLease) :
    KeepsLease (sourceCurrent env asked looked) lease := by
  refine .of_after fun s hs => ?_
  unfold sourceCurrent
  split
  · exact hs
  · split
    · exact (lease_destroy s).trans hs
    · exact hs

theorem keepsLease_receiver {α : Type} (x : Stateful Receiver α) (lease : SourceLease) :
    KeepsLease (onReceiver x) lease := by
  refine .of_after fun s hs => ?_
  unfold onReceiver
  split
  · exact hs
  · split
    · exact (lease_destroy _).trans hs
    · exact hs

theorem keepsLease_announcement (env : Circumstances) (lease : SourceLease) :
    KeepsLease (sourceAnnouncement env) lease := by
  refine .bind (keepsLease_current env 0 0 lease) fun _ => ?_
  refine .get_bind fun s hs => ?_
  exact (keepsLease_receiver _ lease).mono (fun _ ht => ht ▸ hs) (fun _ _ => id) fun _ => id

theorem keepsLease_acceptKey (suite : Suite) (agree : KeyEnvelope → Except String (List UInt8))
    (e : KeyEnvelope) (env : Circumstances) (lease : SourceLease) :
    KeepsLease (acceptKey suite agree (some e) env) lease := by
  refine .bind (keepsLease_current env 0 0 lease) fun _ => ?_
  refine .get_bind fun s hs => ?_
  refine .bind ((keepsLease_receiver _ lease).mono (fun _ ht => ht ▸ hs) (fun _ _ => id) fun _ => id)
    fun kid => ?_
  exact .bind (keepsLease_current env 3 1 lease) fun _ => .ret fun _ ht => ht

theorem keepsLease_decrypt (suite : Suite) (frame : List UInt8) (env : Circumstances)
    (lease : SourceLease) : KeepsLease (sourceDecrypt suite frame env) lease := by
  refine .bind (keepsLease_current env 0 0 lease) fun _ => ?_
  refine .get_bind fun s hs => ?_
  refine .bind ((keepsLease_receiver _ lease).mono (fun _ ht => ht ▸ hs) (fun _ _ => id) fun _ => id)
    fun output => ?_
  exact .bind (keepsLease_current env 2 1 lease) fun _ => .ret fun _ ht => ht

/-- The key that the receiver acknowledges is the one of the envelope. -/
theorem acceptKey_kid {suite : Suite} {agree : KeyEnvelope → Except String (List UInt8)}
    {e : KeyEnvelope} {kid : String} (h : acceptKey suite agree (some e) env s = .ok kid t) :
    kid = e.keyId := by
  obtain ⟨-, allowed, again, r, hinstall, -⟩ := acceptKey_ok h
  obtain ⟨_, _, -, hrest⟩ := bind_ok_iff.mp hinstall
  obtain ⟨_, _, -, hrest⟩ := bind_ok_iff.mp hrest
  obtain ⟨_, _, -, hrest⟩ := bind_ok_iff.mp hrest
  obtain ⟨_, _, -, hrest⟩ := bind_ok_iff.mp hrest
  obtain ⟨_, _, -, hrest⟩ := bind_ok_iff.mp hrest
  obtain ⟨_, _, -, hrest⟩ := bind_ok_iff.mp hrest
  obtain ⟨_, _, -, hrest⟩ := bind_ok_iff.mp hrest
  obtain ⟨_, _, -, hrest⟩ := bind_ok_iff.mp hrest
  obtain ⟨_, _, -, hrest⟩ := bind_ok_iff.mp hrest
  cases hrest
  rfl

/-- The next lease of the receiver, which it parsed not later than `now`. -/
def Renews (now : Int) (lease next lease' : SourceLease) : Prop :=
  lease' = next ∧ sourceLeaseBinding lease = sourceLeaseBinding next
    ∧ next.revision = lease.revision + 1 ∧ lease.issuedAt ≤ next.issuedAt
    ∧ lease.expiresAt < next.expiresAt
    ∧ ∃ time, time ≤ now ∧ consentOK next.consent time ∧ leaseOK next time

theorem parseSourceLease_ok {next parsed : SourceLease} {now : Int}
    (h : parseSourceLease (some next) now = .ok parsed) :
    parsed = next ∧ consentOK next.consent now ∧ leaseOK next now := by
  obtain ⟨c, hconsent, hrest⟩ := bind_ok_iff.mp h
  obtain ⟨u, hlease, hrest⟩ := bind_ok_iff.mp hrest
  rw [failIf_ok_iff, not_not] at hlease
  rw [parseConsent] at hconsent
  split at hconsent
  · rename_i hok
    cases hconsent
    cases hrest
    exact ⟨rfl, hok, hlease⟩
  · cases hconsent

theorem renew_lease (next : SourceLease) (env : Circumstances) (s : SourceReceiver) :
    (after (TrustedSFrame.renew (some next) env s)).lease = s.lease
      ∨ (after (TrustedSFrame.renew (some next) env s)).lease = next
        ∧ Renews env.now s.lease next next := by
  have hrun : Ensures (fun t => t.lease = s.lease) (TrustedSFrame.renew (some next) env)
      (fun _ t => t.lease = s.lease ∨ t.lease = next ∧ Renews env.now s.lease next next)
      (fun t => t.lease = s.lease ∨ t.lease = next ∧ Renews env.now s.lease next next) := by
    refine .bind ((keepsLease_current env 0 0 s.lease).mono (fun _ => id) (fun _ _ => id) fun _ => .inl)
      fun _ => ?_
    refine .get_bind fun u hu => ?_
    have hkept : ∀ t, t = u → t.lease = s.lease ∨ t.lease = next ∧ Renews env.now s.lease next next :=
      fun t ht => .inl (ht ▸ hu)
    refine .check_bind hkept fun parsed hparsed => ?_
    split
    · exact .ret fun t ht => hkept t ht
    · refine .failWhen_bind hkept fun hsame => ?_
      refine .write fun t ht => ?_
      obtain ⟨rfl, hconsent, hlease⟩ := parseSourceLease_ok hparsed
      simp only [not_or, not_not] at hsame
      obtain ⟨hbinding, hrevision, hissued, hexpires, -⟩ := hsame
      rw [hu] at hbinding hrevision hissued hexpires
      exact .inr ⟨rfl, rfl, hbinding, hrevision, not_lt.mp hissued, not_le.mp hexpires,
        env.now, le_refl _, hconsent, hlease⟩
  exact hrun.after_of rfl

end Receiver

/-! ## Leases on their way -/

section Leases

variable {now now' : Int} {lease next last : SourceLease} {renewals : List SourceLease}

theorem Renews.mono (hle : now ≤ now') (h : Renews now lease next last) :
    Renews now' lease next last := by
  obtain ⟨heq, hbinding, hrevision, hissued, hexpires, time, htime, hok⟩ := h
  exact ⟨heq, hbinding, hrevision, hissued, hexpires, time, le_trans htime hle, hok⟩

/-- What the receiver parsed, the publisher parses until the lease is over. -/
theorem sourceLeaseOK_of_earlier (h : Renews now lease next last) (hlive : now < next.expiresAt) :
    sourceLeaseOK next now := by
  obtain ⟨-, -, -, -, -, time, htime, hconsent, hlease⟩ := h
  obtain ⟨-, -, hversion, htype, htrigger, hpurpose, hstatus, hid, htenant, hroom, hepoch, hprogram,
    hprogramEpoch, hgrantor, hpackager, hdevice, hsource, hgranted, hexpires, hgrantedBy, hcurrent,
    horder, httl, hkind⟩ := hconsent
  obtain ⟨hversion', htype', hid', hrevision, hrevisions, hassignment, hwriter, hfencing, hpeer,
    hdevice', hpublication, hpublicationEpoch, henvelope, hissued, hexpires', hissuedBy, hsince,
    hcurrent', horder', httl', hahead, hwithin, hcodec⟩ := hlease
  have hconsentOK : decryptConsentOK next.consent now := by
    refine ⟨hversion, htype, htrigger, hid, htenant, hroom, hepoch, hprogram, hprogramEpoch, hgrantor,
      hpackager, hdevice, hsource, hkind, hpurpose, hstatus, ?_, ?_, ?_, ?_, httl⟩
    · exact ⟨le_trans (by decide) (le_of_lt hgranted.1), hgranted.2⟩
    · exact ⟨le_trans (by decide) (le_of_lt hexpires.1), hexpires.2⟩
    · omega
    · omega
  refine ⟨hconsentOK, hgranted, horder, hversion', htype', hid', hrevision, hrevisions, hassignment,
    hwriter, hfencing, hpeer, hdevice', hpublication, hpublicationEpoch, hcodec, henvelope, hissued,
    hexpires', ?_, hsince, hlive, horder', httl', ?_, hwithin⟩
  · omega
  · omega

theorem sameTrustedSource_of_binding (h : sourceLeaseBinding lease = sourceLeaseBinding next) :
    sameTrustedSource lease next := by
  simp only [sourceLeaseBinding, SourceLease.mk.injEq] at h
  obtain ⟨hversion, htype, hid, -, hconsent, hassignment, hwriter, hfencing, hpeer, hdevice,
    hpublication, hepoch, hcodec, henvelope, -, -⟩ := h
  exact ⟨hversion, htype, hid, hassignment, hwriter, hfencing, hpeer, hdevice, hpublication, hepoch,
    hcodec, henvelope, hconsent⟩

section

variable (h : Path (Renews now) lease renewals last)

include h

/-- Where the leases on their way come from, and what they grow to. -/
theorem renewals_grow :
    sourceLeaseBinding lease = sourceLeaseBinding last ∧ lease.revision ≤ last.revision := by
  refine h.rel (R := fun a b => sourceLeaseBinding a = sourceLeaseBinding b ∧ a.revision ≤ b.revision)
    (fun _ => ⟨rfl, le_refl _⟩) (fun h h' => ⟨h.1.trans h'.1, le_trans h.2 h'.2⟩) ?_
  rintro a b c ⟨rfl, hbinding, hrevision, -⟩
  exact ⟨hbinding, by omega⟩

theorem later_of_mem :
    ∀ later ∈ renewals, lease.revision < later.revision := by
  induction h with
  | nil s => exact fun later hmem => absurd hmem not_mem_nil
  | @cons s t u e es hstep hrest ih =>
      obtain ⟨rfl, -, hrevision, -⟩ := hstep
      intro later hmem
      rcases mem_cons.mp hmem with rfl | hmem
      · omega
      · exact lt_trans (by omega) (ih later hmem)

theorem last_known : last = lease ∨ last ∈ renewals := by
  induction h with
  | nil s => exact .inl rfl
  | cons hstep _ ih =>
      obtain ⟨rfl, -⟩ := hstep
      rcases ih with rfl | hmem
      · exact .inr mem_cons_self
      · exact .inr (mem_cons_of_mem _ hmem)

end

end Leases

/-! ## What holds of an exchange -/

/-- Every acknowledgement that is looked at is accepted, and every renewal; what is
activated was installed, and its lifetime is not over. -/
structure Kept (log : List Action) (installed : List KeyEnvelope) : Prop where
  acknowledged : ∀ a, .refused (.ack a) ∉ log
  renewed : .renewed false ∉ log
  activated : ∀ e now, .activated e now ∈ log → e ∈ installed ∧ now < e.expiresAt

/-- What of an exchange decides who is to act. -/
structure View where
  opened : Bool
  announced : Bool
  pending : Option PendingKey
  task : Option Task
  rotationTimer : Option Int
  channel : List KeyEnvelope
  inbox : List Operation

def Exchange.view (x : Exchange) : View where
  opened := x.opened
  announced := x.publisher.announcement.isSome
  pending := x.publisher.pending
  task := x.publisher.task
  rotationTimer := x.publisher.rotationTimer
  channel := x.publisher.channel
  inbox := x.publisher.operations ++ x.messages.map .keyMessage

/-- The receiver had the lease, which the publisher has had too, or will. -/
structure Issued (x : Exchange) (lease : SourceLease) : Prop where
  binding : sourceLeaseBinding lease = sourceLeaseBinding x.publisher.lease
  revision : positive lease.revision
  expiresAt : positive lease.expiresAt
  known : lease.revision ≤ x.publisher.lease.revision ∧ lease.expiresAt ≤ x.publisher.lease.expiresAt
    ∨ lease ∈ x.renewals

/-- Who is to act: never two at a time. -/
inductive Stage (x : Exchange) : Prop
  | unopened (h : x.view = ⟨false, false, none, none, none, [], []⟩)
  | silent (h : x.view = ⟨true, false, none, none, none, [], []⟩)
  | announced (a : Announcement)
      (h : x.view = ⟨true, false, none, none, none, [], [.keyMessage (.announcement a)]⟩)
  | due (h : x.view = ⟨true, true, none, none, none, [], [.rotateKey]⟩)
  | sealing (e : KeyEnvelope) (h : x.view = ⟨true, true, none, some (.sealing e), none, [], []⟩)
  | asked (k : PendingKey) (h : x.view = ⟨true, true, some k, none, none, [k.envelope], []⟩)
      (revision : k.revision ≤ x.receiver.lease.revision)
  | unanswered (k : PendingKey) (h : x.view = ⟨true, true, some k, none, none, [], []⟩)
  | answered (k : PendingKey) (lease : SourceLease)
      (h : x.view = ⟨true, true, some k, none, none, [],
        [.keyMessage (.ack (ackOf lease k.envelope k.envelope.keyId))]⟩)
      (revision : k.revision ≤ lease.revision) (installed : k.envelope ∈ x.installed)
      (issued : Issued x lease)
  | activating (e : KeyEnvelope)
      (h : x.view = ⟨true, true, none, some (.activating e), none, [], []⟩)
  | resting (rotation : Option Int) (h : x.view = ⟨true, true, none, none, rotation, [], []⟩)

/-- While the publisher is not stopped. -/
structure Live (x : Exchange) : Prop where
  clock : 0 < x.now
  leases : Path (Renews x.now) x.publisher.lease x.renewals x.receiver.lease
  revision : positive x.receiver.lease.revision
  expiresAt : positive x.receiver.lease.expiresAt
  stage : Stage x

structure Sound (x : Exchange) : Prop where
  kept : Kept x.publisher.log x.installed
  live : x.publisher.closed = false → Live x

section Invariant

variable {x y : Exchange} {lease : SourceLease}

theorem Kept.mono {log : List Action} {installed installed' : List KeyEnvelope}
    (h : Kept log installed) (hsub : ∀ e ∈ installed, e ∈ installed') : Kept log installed' :=
  ⟨h.acknowledged, h.renewed, fun e now hmem => ⟨hsub e (h.activated e now hmem).1,
    (h.activated e now hmem).2⟩⟩

theorem Sound.closed (h : Kept y.publisher.log y.installed) (hclosed : y.publisher.closed = true) :
    Sound y :=
  ⟨h, fun hlive => by
    rw [hclosed] at hlive
    cases hlive⟩

theorem Issued.congr (h : Issued x lease) (hlease : y.publisher.lease = x.publisher.lease)
    (hrenewals : ∀ l ∈ x.renewals, l ∈ y.renewals) : Issued y lease := by
  refine ⟨?_, h.revision, h.expiresAt, ?_⟩
  · rw [hlease]
    exact h.binding
  · rw [hlease]
    exact h.known.imp_right (hrenewals lease)

/-- What stays, and what may grow, without a change of the stage. -/
theorem Stage.congr (h : Stage x) (hview : y.view = x.view)
    (hreceiver : x.receiver.lease.revision ≤ y.receiver.lease.revision)
    (hinstalled : ∀ e ∈ x.installed, e ∈ y.installed)
    (hissued : ∀ lease, Issued x lease → Issued y lease) : Stage y := by
  cases h with
  | unopened h => exact .unopened (hview.trans h)
  | silent h => exact .silent (hview.trans h)
  | announced a h => exact .announced a (hview.trans h)
  | due h => exact .due (hview.trans h)
  | sealing e h => exact .sealing e (hview.trans h)
  | asked k h hrevision => exact .asked k (hview.trans h) (le_trans hrevision hreceiver)
  | unanswered k h => exact .unanswered k (hview.trans h)
  | answered k lease h hrevision hmem hlease =>
      exact .answered k lease (hview.trans h) hrevision (hinstalled _ hmem) (hissued lease hlease)
  | activating e h => exact .activating e (hview.trans h)
  | resting rotation h => exact .resting rotation (hview.trans h)

/-- Of one publisher, with more time or more leases on their way. -/
theorem Live.congr (h : Live x) (hclock : x.now ≤ y.now) (hpublisher : y.publisher.lease = x.publisher.lease)
    (hrenewals : y.renewals = x.renewals) (hreceiver : y.receiver.lease = x.receiver.lease)
    (hstage : Stage y) : Live y := by
  refine ⟨lt_of_lt_of_le h.clock hclock, ?_, ?_, ?_, hstage⟩
  · rw [hpublisher, hrenewals, hreceiver]
    exact h.leases.mono (Renews.mono hclock)
  · rw [hreceiver]
    exact h.revision
  · rw [hreceiver]
    exact h.expiresAt

theorem Sound.of_receiver (h : Sound x) {receiver : SourceReceiver}
    (hlease : receiver.lease = x.receiver.lease) : Sound { x with receiver := receiver } := by
  refine ⟨h.kept, fun hlive => ?_⟩
  refine (h.live hlive).congr (le_refl _) rfl rfl hlease ?_
  refine (h.live hlive).stage.congr rfl ?_ (fun _ => id) fun lease hissued =>
    hissued.congr rfl fun _ => id
  exact le_of_eq (congrArg SourceLease.revision hlease.symm)

/-! ### The publisher -/

/-- The publisher is stopped, and has said nothing more. -/
def Stopped (p q : Publisher) : Prop := q.closed = true ∧ q.log = p.log

theorem stopped_stop (p : Publisher) : Stopped p p.stop := by
  unfold stop
  split
  · exact ⟨by assumption, rfl⟩
  · exact ⟨rfl, rfl⟩

theorem whenCurrent_cases (p : Publisher) (now : Int) (next : Publisher → Publisher) :
    Stopped p (p.whenCurrent now next)
      ∨ p.current now ∧ p.whenCurrent now next = next { p with lastNow := now } := by
  unfold whenCurrent
  split
  · rename_i hcurrent
    exact .inr ⟨hcurrent, rfl⟩
  · exact .inl (stopped_stop p)

theorem Sound.stopped (h : Sound x) (hstop : Stopped x.publisher y.publisher)
    (hinstalled : y.installed = x.installed) : Sound y := by
  refine .closed ?_ hstop.1
  rw [hstop.2, hinstalled]
  exact h.kept

theorem renew_cases {p : Publisher} {now : Int} {next last : SourceLease}
    (hstep : p.closed = false → Renews now p.lease next last) :
    Stopped p (p.renew now next) ∨ p.closed = false ∧ p.renew now next = { p with
      lastNow := now
      log := p.log ++ [.renewed true]
      lease := next } := by
  rcases whenCurrent_cases p now _ with hstop | ⟨hcurrent, hnext⟩
  · exact .inl hstop
  · refine .inr ⟨hcurrent.1, hnext.trans ?_⟩
    have hrenews := hstep hcurrent.1
    have hlater : p.lease.expiresAt < next.expiresAt := hrenews.2.2.2.2.1
    have hok := sourceLeaseOK_of_earlier hrenews (lt_trans hcurrent.2.2 hlater)
    obtain ⟨-, hbinding, hrevision, hissued, -⟩ := hrenews
    have hparsed : ¬(¬sourceLeaseOK next now ∨ ¬sameTrustedSource p.lease next) := by
      rw [not_or, not_not, not_not]
      exact ⟨hok, sameTrustedSource_of_binding hbinding⟩
    have hnew : ¬(next.revision = p.lease.revision ∧ next.issuedAt = p.lease.issuedAt
        ∧ next.expiresAt = p.lease.expiresAt) := fun heq => by omega
    have hfollows : ¬(next.revision ≠ p.lease.revision + 1 ∨ next.issuedAt < p.lease.issuedAt
        ∨ next.expiresAt ≤ p.lease.expiresAt) := by omega
    rw [if_neg hparsed, if_neg hnew, if_neg hfollows]
    rfl

theorem Kept.concat {log : List Action} {installed : List KeyEnvelope} {action : Action}
    (h : Kept log installed) (hack : ∀ a, action ≠ .refused (.ack a))
    (hrenewed : action ≠ .renewed false)
    (hactivated : ∀ e now, action = .activated e now → e ∈ installed ∧ now < e.expiresAt) :
    Kept (log ++ [action]) installed := by
  refine ⟨fun a hmem => ?_, fun hmem => ?_, fun e now hmem => ?_⟩
  · rcases mem_append.mp hmem with hmem | hmem
    · exact h.acknowledged a hmem
    · exact hack a (mem_singleton.mp hmem).symm
  · rcases mem_append.mp hmem with hmem | hmem
    · exact h.renewed hmem
    · exact hrenewed (mem_singleton.mp hmem).symm
  · rcases mem_append.mp hmem with hmem | hmem
    · exact h.activated e now hmem
    · exact hactivated e now (mem_singleton.mp hmem).symm

theorem Issued.renewed (h : Issued x lease) {next : SourceLease} {rest : List SourceLease}
    (hrenewals : x.renewals = next :: rest) (hpublisher : y.publisher.lease = next)
    (hrest : y.renewals = rest)
    (hbinding : sourceLeaseBinding x.publisher.lease = sourceLeaseBinding next)
    (hrevision : x.publisher.lease.revision ≤ next.revision)
    (hexpires : x.publisher.lease.expiresAt ≤ next.expiresAt) : Issued y lease := by
  subst hpublisher
  refine ⟨h.binding.trans hbinding, h.revision, h.expiresAt, ?_⟩
  rcases h.known with hknown | hmem
  · exact .inl ⟨le_trans hknown.1 hrevision, le_trans hknown.2 hexpires⟩
  · rw [hrenewals] at hmem
    rcases mem_cons.mp hmem with rfl | hmem
    · exact .inl ⟨le_refl _, le_refl _⟩
    · exact .inr (hrest ▸ hmem)

theorem Sound.renewPublisher (h : Sound x) : Sound x.renewPublisher := by
  unfold Exchange.renewPublisher
  split
  · exact h
  · rename_i next rest hrenewals
    have hstep : x.publisher.closed = false → Renews x.now x.publisher.lease next next
          ∧ Path (Renews x.now) next rest x.receiver.lease := by
      intro hclosed
      have hleases := (h.live hclosed).leases
      rw [hrenewals] at hleases
      cases hleases with
      | cons hstep hrest =>
          obtain rfl := hstep.1
          exact ⟨hstep, hrest⟩
    rcases renew_cases fun hclosed => (hstep hclosed).1 with hstop | ⟨hclosed, hrenew⟩
    · exact h.stopped hstop rfl
    · have hlive := h.live hclosed
      obtain ⟨⟨-, hbinding, hrevision, hissued, hexpires, -⟩, hrest⟩ := hstep hclosed
      rw [hrenew]
      refine ⟨h.kept.concat (by simp) (by simp) (by simp), fun _ => ?_⟩
      refine ⟨hlive.clock, hrest, hlive.revision, hlive.expiresAt, ?_⟩
      refine hlive.stage.congr rfl (le_refl _) (fun _ => id) fun lease hlease => ?_
      exact hlease.renewed hrenewals rfl rfl hbinding (by omega) (le_of_lt hexpires)

/-! ### The chain -/

/-- A rotation without a pending key ends the publisher, or seals a key. -/
theorem rotateKey_cases (p : Publisher) (now : Int) (drawn : Drawn) :
    Stopped p (p.rotateKey now drawn) ∨ ∃ keyIds e, p.rotateKey now drawn = { p with
      lastNow := now
      keyIds := keyIds
      task := some (.sealing e) } := by
  rcases whenCurrent_cases p now _ with hstop | ⟨-, hnext⟩
  · exact .inl hstop
  · rw [rotateKey, hnext]
    split
    · exact .inl (stopped_stop _)
    · split
      · exact .inl (stopped_stop _)
      · split
        · exact .inl (stopped_stop _)
        · exact .inr ⟨_, _, rfl⟩

theorem keyMessage_announcement {p : Publisher} (hnone : p.announcement = none) (now : Int)
    (a : Announcement) (drawn : Drawn) (installed : Bool) :
    Stopped p (p.keyMessage now (.announcement a) drawn installed)
    ∨ Stopped (p.record (.refused (.announcement a)))
        (p.keyMessage now (.announcement a) drawn installed)
    ∨ ∃ keyIds e, p.keyMessage now (.announcement a) drawn installed = { p with
        lastNow := now
        announcement := some a
        keyIds := keyIds
        task := some (.sealing e) } := by
  rcases whenCurrent_cases p now _ with hstop | ⟨-, hnext⟩
  · exact .inl hstop
  · rw [keyMessage, hnext]
    rw [hnone]
    dsimp only
    split
    · rcases rotateKey_cases { p with lastNow := now, announcement := some a } now drawn with hstop | ⟨keyIds, e, hrotate⟩
      · exact .inl hstop
      · exact .inr (.inr ⟨keyIds, e, hrotate⟩)
    · exact .inr (.inl ⟨(stopped_stop _).1, (stopped_stop _).2⟩)

/-- The publisher accepts what the receiver acknowledged under a lease that is not
ahead of its own. -/
theorem sourceAckOK_of_issued (h : Live x) {e : KeyEnvelope} {minimumRevision : Int}
    (hissued : Issued x lease) (hrevision : minimumRevision ≤ lease.revision)
    (hknown : lease.revision ≤ x.publisher.lease.revision)
    (hlive : x.now < min lease.expiresAt e.expiresAt) :
    sourceAckOK (ackOf lease e e.keyId) x.publisher.lease e minimumRevision x.now := by
  have hbinding := hissued.binding
  simp only [sourceLeaseBinding, SourceLease.mk.injEq] at hbinding
  have hexpires : lease.expiresAt ≤ x.publisher.lease.expiresAt := by
    rcases hissued.known with hearlier | hmem
    · exact hearlier.2
    · exact absurd (later_of_mem h.leases lease hmem) (not_lt.mpr hknown)
  have hclock := h.clock
  have hbound := hissued.expiresAt.2
  refine ⟨rfl, rfl, rfl, hbinding.2.2.1, congrArg Consent.consentId hbinding.2.2.2.2.1, rfl, rfl, rfl,
    hissued.revision, hknown, hrevision, ⟨?_, ?_⟩, hlive, ?_⟩
  · exact lt_trans hclock hlive
  · exact le_trans (min_le_left _ _) hbound
  · exact min_le_min hexpires (le_refl _)

theorem keyMessage_ack (p : Publisher) {now : Int} {a : KeyAck} {k : PendingKey}
    (hannounced : p.announcement.isSome = true) (hpending : p.pending = some k)
    (hok : p.closed = false → sourceAckOK a p.lease k.envelope k.revision now) (drawn : Drawn)
    (installed : Bool) :
    Stopped p (p.keyMessage now (.ack a) drawn installed)
      ∨ p.closed = false ∧ p.keyMessage now (.ack a) drawn installed = { p with
        lastNow := now
        log := p.log ++ [.activated k.envelope now]
        keyTimer := some (max now k.envelope.expiresAt)
        pending := none
        task := some (.activating k.envelope) } := by
  rcases whenCurrent_cases p now _ with hstop | ⟨hcurrent, hnext⟩
  · exact .inl hstop
  · obtain ⟨announcement, hsome⟩ := isSome_iff_exists.mp hannounced
    rw [keyMessage, hnext]
    rw [hsome, hpending]
    dsimp only
    rw [if_neg (not_not.mpr (hok hcurrent.1))]
    split
    · exact .inl (stopped_stop _)
    · refine .inr ⟨hcurrent.1, ?_⟩
      rw [record]

/-- An acknowledgement is looked at when the publisher has its lease, and before that
lease and the key are over. -/
def Caught (x : Exchange) : Event → Prop
  | .run _ _ => ∀ a ∈ x.publisher.operations.head?.bind Operation.ack?,
      a.leaseRevision ≤ x.publisher.lease.revision ∧ x.now < a.expiresAt
  | _ => True

instance (x : Exchange) : ∀ e, Decidable (Caught x e)
  | .run _ _ => inferInstanceAs (Decidable (∀ a ∈ x.publisher.operations.head?.bind Operation.ack?,
      a.leaseRevision ≤ x.publisher.lease.revision ∧ x.now < a.expiresAt))
  | .tick _ | .announce | .renewReceiver _ | .renewPublisher | .deliver | .receive | .resume _
  | .expire _ | .stop | .decrypt _ | .keyTimer _ => isTrue trivial

theorem inbox_single {operation operation' : Operation} {rest : List Operation}
    {messages : List Message} (h : operation :: rest ++ messages.map .keyMessage = [operation']) :
    operation = operation' ∧ rest = [] ∧ messages = [] := by
  rw [cons_append, cons.injEq, append_eq_nil_iff, map_eq_nil_iff] at h
  exact h

theorem Sound.run (h : Sound x) {drawn : Drawn} {installed : Bool}
    (hcaught : Caught x (.run drawn installed)) :
    Sound { x with publisher := x.publisher.run x.now drawn installed } := by
  unfold Publisher.run
  split
  · rename_i operation rest htask hoperations
    dsimp only
    split
    · rename_i hclosed
      exact h.stopped ⟨hclosed, rfl⟩ rfl
    · rename_i hopen
      have hlive := h.live (Bool.eq_false_iff.mpr hopen)
      cases hlive.stage with
      | unopened hview | silent hview | sealing e hview | asked k hview hrevision | unanswered k hview
      | activating e hview | resting rotation hview =>
          simp [view, hoperations] at hview
      | announced a hview =>
          simp only [view, hoperations, View.mk.injEq] at hview
          obtain ⟨hopened, hnone, hpending, -, hrotation, hchannel, hinbox⟩ := hview
          obtain ⟨rfl, rfl, hmessages⟩ := inbox_single hinbox
          rw [isSome_eq_false_iff, isNone_iff_eq_none] at hnone
          dsimp only
          rcases keyMessage_announcement (p := { x.publisher with operations := [] }) hnone x.now a drawn
            installed with hstop | hstop | ⟨keyIds, e, hnext⟩
          · exact h.stopped hstop rfl
          · refine .closed ?_ hstop.1
            rw [hstop.2]
            exact h.kept.concat (by simp) (by simp) (by simp)
          · rw [hnext]
            refine ⟨h.kept, fun _ => hlive.congr (le_refl _) rfl rfl rfl (.sealing e ?_)⟩
            simp [view, hopened, hpending, hrotation, hchannel, hmessages]
      | due hview =>
          simp only [view, hoperations, View.mk.injEq] at hview
          obtain ⟨hopened, hsome, hpending, -, hrotation, hchannel, hinbox⟩ := hview
          obtain ⟨rfl, rfl, hmessages⟩ := inbox_single hinbox
          rcases rotateKey_cases { x.publisher with operations := [] } x.now drawn with hstop | ⟨keyIds, e, hnext⟩
          · exact h.stopped hstop rfl
          · rw [hnext]
            refine ⟨h.kept, fun _ => hlive.congr (le_refl _) rfl rfl rfl (.sealing e ?_)⟩
            simp [view, hopened, hsome, hpending, hrotation, hchannel, hmessages]
      | answered k lease hview hrevision hmem hissued =>
          simp only [view, hoperations, View.mk.injEq] at hview
          obtain ⟨hopened, hsome, hpending, -, hrotation, hchannel, hinbox⟩ := hview
          obtain ⟨rfl, rfl, hmessages⟩ := inbox_single hinbox
          obtain ⟨hknown, hbefore⟩ := hcaught _ (by rw [hoperations]; rfl)
          have hok := sourceAckOK_of_issued hlive hissued hrevision hknown hbefore
          dsimp only
          rcases keyMessage_ack { x.publisher with operations := [] } hsome hpending (fun _ => hok) drawn
            installed with hstop | ⟨-, hnext⟩
          · exact h.stopped hstop rfl
          · rw [hnext]
            have hlifetime : x.now < k.envelope.expiresAt :=
              lt_of_lt_of_le hbefore (min_le_right _ _)
            refine ⟨h.kept.concat (by simp) (by simp) ?_, fun _ =>
              hlive.congr (le_refl _) rfl rfl rfl (.activating k.envelope ?_)⟩
            · intro e now heq
              cases heq
              exact ⟨hmem, hlifetime⟩
            · simp [view, hopened, hsome, hrotation, hchannel, hmessages]
  · exact h

theorem Sound.resume (h : Sound x) (done : Bool) :
    Sound { x with publisher := x.publisher.resume x.now done } := by
  unfold Publisher.resume
  split
  · exact h
  · rename_i task htask
    split
    · exact h.stopped (stopped_stop _) rfl
    · cases task with
      | sealing e =>
          dsimp only
          rcases whenCurrent_cases { x.publisher with task := none } x.now _ with hstop | ⟨hcurrent, hnext⟩
          · exact h.stopped hstop rfl
          · have hlive := h.live hcurrent.1
            rw [offer, hnext]
            cases hlive.stage with
            | sealing e' hview =>
                simp only [view, View.mk.injEq, htask] at hview
                obtain ⟨hopened, hsome, hpending, -, hrotation, hchannel, hinbox⟩ := hview
                refine ⟨h.kept, fun _ => hlive.congr (le_refl _) rfl rfl rfl
                  (.asked ⟨e, x.publisher.lease.revision⟩ ?_ (renewals_grow hlive.leases).2)⟩
                simp [view, hopened, hsome, hrotation, hchannel, hinbox]
            | unopened hview | silent hview | announced a hview | due hview | asked k hview hrevision
            | unanswered k hview | answered k lease hview hrevision hmem hissued
            | activating e hview | resting rotation hview =>
                simp [view, htask] at hview
      | activating e =>
          dsimp only
          rcases whenCurrent_cases { x.publisher with task := none } x.now _ with hstop | ⟨hcurrent, hnext⟩
          · exact h.stopped hstop rfl
          · have hlive := h.live hcurrent.1
            rw [activate, hnext]
            cases hlive.stage with
            | activating e' hview =>
                simp only [view, View.mk.injEq, htask] at hview
                obtain ⟨hopened, hsome, hpending, -, hrotation, hchannel, hinbox⟩ := hview
                refine ⟨h.kept, fun _ => hlive.congr (le_refl _) rfl rfl rfl (.resting
                  (rotation { x.publisher with task := none, lastNow := x.now } x.now e) ?_)⟩
                simp only [view, hopened, hsome, hpending, hchannel, hinbox]
            | unopened hview | silent hview | announced a hview | due hview | sealing e' hview
            | asked k hview hrevision | unanswered k hview
            | answered k lease hview hrevision hmem hissued | resting rotation hview =>
                simp [view, htask] at hview

theorem enqueue_cases (p : Publisher) (operation : Operation) : Stopped p (p.enqueue operation)
      ∨ p.closed = false ∧ p.enqueue operation = { p with operations := p.operations ++ [operation] } := by
  unfold enqueue
  split
  · exact .inl ⟨by assumption, rfl⟩
  · rename_i hopen
    split
    · exact .inl (stopped_stop p)
    · exact .inr ⟨Bool.eq_false_iff.mpr hopen, rfl⟩

theorem Sound.receive (h : Sound x) : Sound x.receive := by
  unfold Exchange.receive
  split
  · exact h
  · rename_i value rest hmessages
    rcases enqueue_cases x.publisher (.keyMessage value) with hstop | ⟨hopen, hnext⟩
    · exact h.stopped hstop rfl
    · have hlive := h.live hopen
      rw [hnext]
      refine ⟨h.kept, fun _ => hlive.congr (le_refl _) rfl rfl rfl ?_⟩
      refine hlive.stage.congr ?_ (le_refl _) (fun _ => id) fun lease hissued =>
        hissued.congr rfl fun _ => id
      simp [view, hmessages]

theorem Sound.expire (h : Sound x) {timer : Publisher.Timer} {time : Int}
    (hdeadline : x.publisher.deadline timer = some time) :
    Sound { x with publisher := x.publisher.expire timer } := by
  cases timer with
  | rotation =>
      rcases enqueue_cases { x.publisher with rotationTimer := none } .rotateKey
        with hstop | ⟨hopen, hnext⟩
      · exact h.stopped hstop rfl
      · have hlive := h.live hopen
        rw [Publisher.expire, hnext]
        have htimer : x.publisher.rotationTimer = some time := hdeadline
        cases hlive.stage with
        | resting rotation hview =>
            simp only [view, View.mk.injEq, append_eq_nil_iff] at hview
            obtain ⟨hopened, hsome, hpending, htask, -, hchannel, hoperations, hmessages⟩ := hview
            refine ⟨h.kept, fun _ => hlive.congr (le_refl _) rfl rfl rfl (.due ?_)⟩
            simp [view, hopened, hsome, hpending, htask, hchannel, hoperations, hmessages]
        | unopened hview | silent hview | announced a hview | due hview | sealing e' hview
        | asked k hview hrevision | unanswered k hview
        | answered k lease hview hrevision hmem hissued | activating e hview =>
            simp [view, htimer] at hview
  | lease | key | ack | startup => exact h.stopped (stopped_stop _) rfl

/-! ### The receiver -/

theorem Sound.announce (h : Sound x) : Sound x.announce := by
  unfold Exchange.announce
  split
  · exact h
  · rename_i hopened
    have hkeeps := (keepsLease_announcement x.circumstances x.receiver.lease)
    split
    · rename_i u receiver hrun
      have hlease : receiver.lease = x.receiver.lease := hkeeps.of_ok rfl hrun
      refine ⟨h.kept, fun hopen => ?_⟩
      have hlive := h.live hopen
      refine hlive.congr (le_refl _) rfl rfl hlease ?_
      cases hlive.stage with
      | unopened hview =>
          simp only [view, View.mk.injEq, append_eq_nil_iff, map_eq_nil_iff] at hview
          obtain ⟨-, hnone, hpending, htask, hrotation, hchannel, hoperations, hmessages⟩ := hview
          refine .announced x.announcement ?_
          simp only [view, hnone, hpending, htask, hrotation, hchannel, hoperations, hmessages]
          rfl
      | silent hview | announced a hview | due hview | sealing e' hview
      | asked k hview hrevision | unanswered k hview
      | answered k lease hview hrevision hmem hissued | activating e hview | resting rotation hview =>
          simp [view, hopened] at hview
    · rename_i code receiver hrun
      have hlease : receiver.destroy.lease = x.receiver.lease :=
        (lease_destroy receiver).trans (hkeeps.of_error rfl hrun)
      refine ⟨h.kept, fun hopen => ?_⟩
      have hlive := h.live hopen
      refine hlive.congr (le_refl _) rfl rfl hlease ?_
      cases hlive.stage with
      | unopened hview =>
          simp only [view, View.mk.injEq] at hview
          obtain ⟨-, hnone, hpending, htask, hrotation, hchannel, hinbox⟩ := hview
          refine .silent ?_
          simp only [view, hnone, hpending, htask, hrotation, hchannel, hinbox]
      | silent hview | announced a hview | due hview | sealing e' hview
      | asked k hview hrevision | unanswered k hview
      | answered k lease hview hrevision hmem hissued | activating e hview | resting rotation hview =>
          simp [view, hopened] at hview

theorem Sound.renewReceiver (h : Sound x) (next : SourceLease) : Sound (x.renewReceiver next) := by
  unfold Exchange.renewReceiver
  dsimp only
  split
  · rename_i hsame
    exact h.of_receiver hsame
  · rename_i hdiffers
    rcases renew_lease next x.circumstances x.receiver with hsame | ⟨hlease, hrenews⟩
    · exact absurd hsame hdiffers
    · refine ⟨h.kept, fun hopen => ?_⟩
      have hlive := h.live hopen
      have hleases : Path (Renews x.now) x.publisher.lease (x.renewals ++ [next]) next :=
        hlive.leases.append (.single hrenews)
      obtain ⟨-, -, hrevision, -, -, time, -, -, hok⟩ := hrenews
      refine ⟨hlive.clock, ?_, ?_, ?_, ?_⟩
      · rw [hlease]
        exact hleases
      · rw [hlease]
        exact hok.2.2.2.1
      · rw [hlease]
        exact hok.2.2.2.2.2.2.2.2.2.2.2.2.2.2.1
      · refine hlive.stage.congr rfl ?_ (fun _ => id) fun lease hissued =>
          hissued.congr rfl fun _ => mem_append_left _
        rw [hlease]
        omega

theorem Live.issued (h : Live x) : Issued x x.receiver.lease := by
  refine ⟨(renewals_grow h.leases).1.symm, h.revision, h.expiresAt, ?_⟩
  rcases last_known h.leases with heq | hmem
  · rw [heq]
    exact .inl ⟨le_refl _, le_refl _⟩
  · exact .inr hmem

theorem Sound.deliver (h : Sound x) (suite : Suite)
    (agree : KeyEnvelope → Except String (List UInt8)) : Sound (x.deliver suite agree) := by
  unfold Exchange.deliver
  split
  · exact h
  · rename_i e rest hchannel
    have hkeeps := keepsLease_acceptKey suite agree e x.circumstances x.receiver.lease
    -- the only key on its way is the pending one
    have hasked : x.publisher.closed = false → ∃ k : PendingKey, k.envelope = e ∧ rest = []
        ∧ x.view = ⟨true, true, some k, none, none, [k.envelope], []⟩
        ∧ k.revision ≤ x.receiver.lease.revision := by
      intro hopen
      cases (h.live hopen).stage with
      | asked k hview hrevision =>
          have hsame : e :: rest = [k.envelope] := hchannel.symm.trans (congrArg View.channel hview)
          obtain ⟨rfl, rfl⟩ := cons.inj hsame
          exact ⟨k, rfl, rfl, hview, hrevision⟩
      | unopened hview | silent hview | announced a hview | due hview | sealing e' hview
      | unanswered k hview | answered k lease hview hrevision hmem hissued | activating e hview
      | resting rotation hview => simp [view, hchannel] at hview
    split
    · rename_i kid receiver hrun
      have hlease : receiver.lease = x.receiver.lease := hkeeps.of_ok rfl hrun
      have hkid := acceptKey_kid hrun
      refine ⟨h.kept.mono fun _ => mem_append_left _, fun hopen => ?_⟩
      have hlive := h.live hopen
      obtain ⟨k, rfl, rfl, hview, hrevision⟩ := hasked hopen
      simp only [view, View.mk.injEq, append_eq_nil_iff, map_eq_nil_iff] at hview
      obtain ⟨hopened, hsome, hpending, htask, hrotation, -, hoperations, hmessages⟩ := hview
      refine hlive.congr (le_refl _) rfl rfl hlease (.answered k x.receiver.lease ?_ hrevision
        (mem_append_right _ mem_cons_self) ?_)
      · simp [view, hopened, hsome, hpending, htask, hrotation, hoperations, hmessages,
          hlease, hkid]
      · exact hlive.issued.congr rfl fun _ => id
    · rename_i code receiver hrun
      have hlease : receiver.destroy.lease = x.receiver.lease :=
        (lease_destroy receiver).trans (hkeeps.of_error rfl hrun)
      refine ⟨h.kept, fun hopen => ?_⟩
      have hlive := h.live hopen
      obtain ⟨k, rfl, rfl, hview, hrevision⟩ := hasked hopen
      simp only [view, View.mk.injEq] at hview
      obtain ⟨hopened, hsome, hpending, htask, hrotation, -, hinbox⟩ := hview
      refine hlive.congr (le_refl _) rfl rfl hlease (.unanswered k ?_)
      simp [view, hopened, hsome, hpending, htask, hrotation, hinbox]

theorem Sound.next (h : Sound x) {suite : Suite} {agree : KeyEnvelope → Except String (List UInt8)}
    {e : Event} (hcaught : Caught x e) : Sound (x.next suite agree e) := by
  cases e with
  | tick ms =>
      refine ⟨h.kept, fun hopen => ?_⟩
      have hlive := h.live hopen
      refine hlive.congr (le_add_of_nonneg_right (natCast_nonneg ms)) rfl rfl rfl ?_
      exact hlive.stage.congr rfl (le_refl _) (fun _ => id) fun _ hissued =>
        hissued.congr rfl fun _ => id
  | announce => exact h.announce
  | renewReceiver next => exact h.renewReceiver next
  | renewPublisher => exact h.renewPublisher
  | deliver => exact h.deliver suite agree
  | receive => exact h.receive
  | run drawn installed => exact h.run hcaught
  | resume done => exact h.resume done
  | expire timer =>
      rw [Exchange.next]
      split
      · rename_i time hdeadline
        split
        · exact h.expire hdeadline
        · exact h
      · exact h
  | stop => exact h.stopped (stopped_stop _) rfl
  | decrypt frame =>
      exact h.of_receiver ((keepsLease_decrypt suite frame x.circumstances _).after_of rfl)
  | keyTimer kid => exact h.of_receiver rfl

end Invariant

/-! ## Runs -/

def Step (suite : Suite) (agree : KeyEnvelope → Except String (List UInt8)) (x : Exchange) (e : Event)
    (y : Exchange) : Prop := y = x.next suite agree e

theorem start_sound {raw : Option SourceLease} {packagerRef deviceRef agreementID : String}
    {publicKey : DecryptLifecycle.Jwk} {now : Int} {x : Exchange}
    (h : start raw packagerRef deviceRef agreementID publicKey now = some x) : Sound x := by
  unfold start at h
  split at h
  · cases h
  · rename_i receiver hnew
    obtain ⟨publisher, hpublisher, rfl⟩ := map_eq_some_iff.mp h
    simp only [newSourceReceiver, Checks.bind_ok_iff, Checks.pure_ok_iff] at hnew
    obtain ⟨lease, hparse, _, -, r, -, rfl⟩ := hnew
    cases raw with
    | none => cases hparse
    | some lease' =>
        obtain ⟨rfl, hconsent, hlease⟩ := parseSourceLease_ok hparse
        unfold Publisher.start at hpublisher
        split at hpublisher
        · cases hpublisher
          refine ⟨⟨fun _ => not_mem_nil, not_mem_nil, fun _ _ hmem => absurd hmem
            not_mem_nil⟩, fun _ => ⟨hconsent.1.1, .nil _, hlease.2.2.2.1, ?_, .unopened rfl⟩⟩
          exact hlease.2.2.2.2.2.2.2.2.2.2.2.2.2.2.1
        · cases hpublisher

theorem sound_of_path {suite : Suite} {agree : KeyEnvelope → Except String (List UInt8)}
    {x y : Exchange} {es : List Event} (h : Path (Guarded (Step suite agree) Caught) x es y)
    (hsound : Sound x) : Sound y := by
  refine h.inv ?_ hsound
  rintro x e y ⟨rfl, hcaught⟩ hx
  exact hx.next hcaught

/-- There is one key on its way at most, and it is the pending one. -/
theorem Stage.single {x : Exchange} (h : Stage x) : x.underway ≤ 1
    ∧ (0 < x.underway → x.publisher.pending.isSome = true)
    ∧ (x.publisher.pending.isSome = true →
      x.publisher.task = none ∧ .rotateKey ∉ x.publisher.operations) := by
  have hunderway : x.underway = x.view.channel.length
      + x.view.inbox.countP fun operation => operation.ack?.isSome := rfl
  have hpending : x.publisher.pending = x.view.pending := rfl
  have htask : x.publisher.task = x.view.task := rfl
  have hchain : ∀ operation ∈ x.publisher.operations, operation ∈ x.view.inbox :=
    fun _ => mem_append_left _
  rw [hunderway, hpending, htask]
  cases h with
  | unopened hview | silent hview | announced a hview | due hview | sealing e hview
  | activating e hview | resting rotation hview =>
      rw [hview]
      exact ⟨by simp [Operation.ack?], fun hpos => absurd hpos (by simp [Operation.ack?]), fun hsome => by cases hsome⟩
  | asked k hview _ | unanswered k hview =>
      rw [hview] at hchain ⊢
      exact ⟨by simp [Operation.ack?], fun _ => rfl, fun _ => ⟨rfl, fun hmem => absurd (hchain _ hmem) not_mem_nil⟩⟩
  | answered k lease hview _ _ _ =>
      rw [hview] at hchain ⊢
      refine ⟨by simp [Operation.ack?], fun _ => rfl, fun _ => ⟨rfl, fun hmem => ?_⟩⟩
      cases mem_singleton.mp (hchain _ hmem)

/-- **Key rotation under renewals.** Of an exchange in which no acknowledgement is
looked at before the lease it was made under reaches the publisher, or after the
lease or the key is over: every acknowledgement and every renewal is accepted, one
key at most is on its way, and only installed keys are activated, in their lifetime. -/
theorem rotation_survives_renewal {suite : Suite} {agree : KeyEnvelope → Except String (List UInt8)}
    {raw : Option SourceLease} {packagerRef deviceRef agreementID : String}
    {publicKey : DecryptLifecycle.Jwk} {now : Int} {x y : Exchange} {es : List Event}
    (hstart : start raw packagerRef deviceRef agreementID publicKey now = some x)
    (hrun : Path (Guarded (Step suite agree) Caught) x es y) :
    (∀ a, .refused (.ack a) ∉ y.publisher.log) ∧ .renewed false ∉ y.publisher.log
      ∧ (y.publisher.closed = false → y.underway ≤ 1
        ∧ (0 < y.underway → y.publisher.pending.isSome = true)
        ∧ (y.publisher.pending.isSome = true →
          y.publisher.task = none ∧ .rotateKey ∉ y.publisher.operations))
      ∧ ∀ e time, .activated e time ∈ y.publisher.log → e ∈ y.installed ∧ time < e.expiresAt := by
  have hsound := sound_of_path hrun (start_sound hstart)
  exact ⟨hsound.kept.acknowledged, hsound.kept.renewed,
    fun hopen => (hsound.live hopen).stage.single, hsound.kept.activated⟩

/-! ## Two runs -/

def sampleConsent : Consent where
  version := 1
  type := "trusted-decrypt-consent"
  trigger := "user-action"
  consentId := "cns_aaaaaaaaaaaaaaaa"
  tenantId := "tn_aaaaaaaaaaaaaaaa"
  roomId := "room-1"
  roomEpoch := 1
  programId := "prg_aaaaaaaaaaaaaaaa"
  programEpoch := 1
  grantorSubjectRef := "sub_aaaaaaaaaaaaaaaa"
  granteePackagerRef := "pkr_aaaaaaaaaaaaaaaa"
  granteeDeviceRef := "dev_aaaaaaaaaaaaaaaa"
  sourceId := "src_aaaaaaaaaaaaaaaa"
  sourceKind := "microphone"
  purpose := "broadcast-program"
  status := "active"
  grantedAt := 1000000
  expiresAt := 1500000

/-- The lease with the revision, from the time on. -/
def sampleLease (revision issuedAt : Int) : SourceLease where
  version := 1
  type := "trusted-source-lease"
  sourceLeaseId := "sls_aaaaaaaaaaaaaaaa"
  revision := revision
  consent := sampleConsent
  assignmentId := "asn_aaaaaaaaaaaaaaaa"
  writerLeaseId := "lea_aaaaaaaaaaaaaaaa"
  fencingRevision := 1
  publisherPeerId := "aaaaaaaaaaaaaaaa"
  publisherDeviceRef := "dev_bbbbbbbbbbbbbbbb"
  publicationId := "track-1"
  publicationEpoch := 1
  codec := "audio/opus"
  frameEnvelope := "codec-prefix-v1"
  issuedAt := issuedAt
  expiresAt := issuedAt + 4000

def samplePublicKey : DecryptLifecycle.Jwk where
  x := "aaaaaaaaaaaaaaaaaaaaaaaaaaaaaaaaaaaaaaaaaaa"
  y := "aaaaaaaaaaaaaaaaaaaaaaaaaaaaaaaaaaaaaaaaaaa"

def sampleDrawn : Drawn where
  keyId := "00000000000000a1"
  envelopeId := "eeeeeeeeeeeeeeeeeeeeeeee"
  senderPublicKey := ""
  nonce := ""
  ciphertext := ""

def sampleAgree (_ : KeyEnvelope) : Except String (List UInt8) := .ok (replicate 16 9)

def sampleStart : Option Exchange :=
  start (some (sampleLease 1 1000000)) "pkr_aaaaaaaaaaaaaaaa" "dev_aaaaaaaaaaaaaaaa"
    "kkkkkkkkkkkkkkkkkkkkkkkk" samplePublicKey 1000000

/-- The exchange of a run from there. -/
def sampleRun (es : List Event) : Option Exchange :=
  sampleStart.map fun x => es.foldl (fun x e => x.next plainSuite sampleAgree e) x

/-- A key is sealed and sent. -/
def firstKey : List Event :=
  [.announce, .receive, .run sampleDrawn true, .resume true]

/-- The key is acknowledged under a renewed lease, which is with the publisher first. -/
def renewedInTime : List Event :=
  firstKey ++ [.tick 1000, .renewReceiver (sampleLease 2 1001000), .deliver, .renewPublisher, .receive,
    .run sampleDrawn true, .resume true]

/-- The acknowledgement is there before the renewal. -/
def renewalCrosses : List Event :=
  firstKey ++ [.tick 1000, .renewReceiver (sampleLease 2 1001000), .deliver, .receive,
    .run sampleDrawn true, .renewPublisher]

/-- The lease of the acknowledgement is over when it is there. -/
def leaseRunsOut : List Event :=
  [.announce, .receive, .tick 1500] ++ [.run sampleDrawn true, .resume true, .tick 2400, .deliver,
    .renewReceiver (sampleLease 2 1003900), .renewPublisher, .tick 200, .receive,
    .run sampleDrawn true]

theorem rotation_survives_renewal_sample : ∃ x,
    sampleStart = some x ∧ (let y := renewedInTime.foldl (fun x e => x.next plainSuite sampleAgree e) x
      y.publisher.log.length = 2 ∧ .renewed false ∉ y.publisher.log ∧ y.underway ≤ 1) := by
  have hsome : sampleStart.isSome = true := by decide +kernel
  have hcaught : sampleStart.all (fun x => along (fun x e => x.next plainSuite sampleAgree e) Caught
      renewedInTime x) = true := by decide +kernel
  have hlog : sampleStart.all (fun x => decide ((renewedInTime.foldl
      (fun x e => x.next plainSuite sampleAgree e) x).publisher.log.length = 2
      ∧ (renewedInTime.foldl (fun x e => x.next plainSuite sampleAgree e) x).publisher.closed = false))
      = true := by decide +kernel
  obtain ⟨x, hstart⟩ := isSome_iff_exists.mp hsome
  rw [hstart, all_some] at hcaught hlog
  obtain ⟨hlength, hopen⟩ := of_decide_eq_true hlog
  have hrun := Path.guarded_foldl (fun (x : Exchange) e => x.next plainSuite sampleAgree e) Caught
    renewedInTime x hcaught
  have hproperty := @rotation_survives_renewal plainSuite sampleAgree _ _ _ _ _ _ _ _ _ hstart hrun
  exact ⟨x, hstart, hlength, hproperty.2.1, (hproperty.2.2.1 hopen).1⟩

def Action.refusedAck : Action → Bool
  | .refused (.ack _) => true
  | _ => false

/-- An acknowledgement was refused, which stopped the publisher. -/
def Exchange.refuses (x : Exchange) : Bool := x.publisher.closed && x.publisher.log.any Action.refusedAck

/-- Both acknowledgements come in the three seconds after their keys were sent. -/
theorem renewal_stops_rotation : (sampleRun renewalCrosses).any refuses = true
    ∧ (sampleRun renewalCrosses).any (fun x => decide (x.now < 1000000 + 3000)) = true
    ∧ (sampleRun leaseRunsOut).any refuses = true
    ∧ (sampleRun leaseRunsOut).any (fun x => decide (x.now < 1001500 + 3000)) = true := by
  refine ⟨?_, ?_, ?_, ?_⟩ <;> decide

end SourceKeys

end WebrtcMinimize
