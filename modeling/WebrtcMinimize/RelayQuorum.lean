import WebrtcMinimize.RelayHealth

/-!
# Quorums on relays

A report counts while its observer and its relay are in the room and no longer than the
window, and only among the reports on the same relay and route epoch. So a relay is left
out of a topology for one reason: less than the cooldown ago, enough of the members of
that time called it unhealthy on the route of that time. The block outlives the route.
-/

namespace WebrtcMinimize

open Runs

namespace RelayHealth

namespace RelayServer

open List Function RoomHealth KeyedMap Option

variable {options : HealthOptions} {s t : RelayServer} {e : RoomEvent} {es : List RoomEvent}
  {roomId key observer relay : String} {report : Report} {blockedUntil now : Int}
  {topology : RelayTopology} {renewOnly : Bool}

/-- A report that the server holds. -/
def Reports (s : RelayServer) (roomId key observer : String) (report : Report) : Prop :=
  ∃ room, s.relayHealth.get roomId = some room ∧ room.Has key observer report

def Blocked (s : RelayServer) (roomId relay : String) (blockedUntil : Int) : Prop :=
  ∃ room, s.relayHealth.get roomId = some room ∧ room.blockedUntil.get relay = some blockedUntil

/-! ## Sending a topology -/

theorem broadcastTopology_members :
    (s.broadcastTopology options roomId renewOnly now).1.members = s.members := by
  rw [broadcastTopology]
  split <;> rfl

theorem broadcastTopology_issued :
    (s.broadcastTopology options roomId renewOnly now).1.issued = s.issued := by
  rw [broadcastTopology]
  split <;> rfl

variable {other : String} {room : RoomHealth}

/-- A room's health after a topology was sent: gone, or less than before. -/
theorem broadcastTopology_health
    (h : (s.broadcastTopology options roomId renewOnly now).1.relayHealth.get other = some room) :
    ∃ old, s.relayHealth.get other = some old ∧ (room = old ∨ room = old.prune options now) := by
  rw [broadcastTopology] at h
  split at h
  · rw [get_erase] at h
    split at h
    · cases h
    · exact ⟨room, h, .inl rfl⟩
  · dsimp only at h
    rw [RelayHealthTracker.blockedRelayIds] at h
    split at h
    · exact ⟨room, h, .inl rfl⟩
    · rename_i old hold
      rw [get_set] at h
      split at h
      · rename_i hroom
        exact ⟨old, hroom ▸ hold, .inr (some.inj h).symm⟩
      · exact ⟨room, h, .inl rfl⟩

theorem reports_broadcast
    (h : (s.broadcastTopology options roomId renewOnly now).1.Reports other key observer report) :
    s.Reports other key observer report := by
  obtain ⟨room, hroom, hhas⟩ := h
  obtain ⟨old, hold, rfl | rfl⟩ := broadcastTopology_health hroom
  · exact ⟨room, hold, hhas⟩
  · exact ⟨old, hold, (has_prune hhas).1⟩

theorem blocked_broadcast
    (h : (s.broadcastTopology options roomId renewOnly now).1.Blocked other relay blockedUntil) :
    s.Blocked other relay blockedUntil := by
  obtain ⟨room, hroom, hblocked⟩ := h
  obtain ⟨old, hold, rfl | rfl⟩ := broadcastTopology_health hroom
  · exact ⟨room, hold, hblocked⟩
  · exact ⟨old, hold, blocked_prune hblocked⟩

theorem broadcastTopology_blocked
    (h : (s.broadcastTopology options roomId renewOnly now).2 = some topology) :
    ∀ relay ∈ topology.blockedRelayIds, ∃ blockedUntil,
      Blocked (s.broadcastTopology options roomId renewOnly now).1 topology.roomId relay blockedUntil
        ∧ topology.sentAt < blockedUntil := by
  rw [broadcastTopology] at h ⊢
  split at h
  · cases h
  · rename_i hmembers
    obtain rfl := some.inj h
    intro relay hrelay
    rw [if_neg hmembers]
    dsimp only at hrelay ⊢
    rw [RelayHealthTracker.blockedRelayIds] at hrelay ⊢
    split at hrelay
    · cases hrelay
    · obtain ⟨blockedUntil, hblocked⟩ := mem_keys_iff.mp hrelay
      rw [get_keep_eq_some_iff, decide_eq_true_iff] at hblocked
      exact ⟨blockedUntil, ⟨_, get_set_self _ _ _, hblocked.1⟩, hblocked.2⟩

/-! ## Handling an event -/

/-- A report that the server takes. -/
structure Taken (s : RelayServer) (roomId sender : String) (message : RelayObservation) : Prop where
  route : s.routes.get roomId = some message.routeEpoch
  relay : message.relayPeerId ∈ s.members roomId
  other : message.relayPeerId ≠ sender

/-- The health of a room, also of one without reports. -/
def healthOf (s : RelayServer) (roomId : String) : RoomHealth :=
  (s.relayHealth.get roomId).getD .empty

theorem reports_healthOf (h : (s.healthOf roomId).Has key observer report) :
    s.Reports roomId key observer report := by
  rw [healthOf] at h
  cases hroom : s.relayHealth.get roomId with
  | none =>
      rw [hroom] at h
      obtain ⟨reports, hreports, -⟩ := h
      cases hreports
  | some room =>
      rw [hroom] at h
      exact ⟨room, hroom, h⟩

theorem blocked_healthOf (h : (s.healthOf roomId).blockedUntil.get relay = some blockedUntil) :
    s.Blocked roomId relay blockedUntil := by
  rw [healthOf] at h
  cases hroom : s.relayHealth.get roomId with
  | none =>
      rw [hroom] at h
      cases h
  | some room =>
      rw [hroom] at h
      exact ⟨room, hroom, h⟩

variable {message : RelayObservation} {sender : String}

theorem handle_taken {sentAt : Int} (h : s.Taken roomId sender message) :
    s.handle options (.observation roomId sender message now sentAt)
      = let room := (s.healthOf roomId).observe options sender message (s.members roomId).length now
        let s := { s with relayHealth := s.relayHealth.set roomId room.1 }
        if room.2 then s.broadcastTopology options roomId false sentAt else (s, none) := by
  rw [handle, if_neg (not_not.mpr h.route), if_neg (not_not.mpr ⟨h.relay, h.other⟩)]
  rfl

/-- A report on another route, on no member or on the sender changes nothing. -/
theorem handle_refused {sentAt : Int} (h : ¬s.Taken roomId sender message) :
    s.handle options (.observation roomId sender message now sentAt) = (s, none) := by
  rw [handle]
  split
  · rfl
  · rename_i hroute
    rw [not_not] at hroute
    rw [if_pos fun hrelay => h ⟨hroute, hrelay.1, hrelay.2⟩]

theorem reports_set
    (h : Reports { s with relayHealth := s.relayHealth.set roomId room } other key observer report) :
    (other = roomId ∧ room.Has key observer report) ∨ s.Reports other key observer report := by
  obtain ⟨found, hfound, hhas⟩ := h
  rw [get_set] at hfound
  split at hfound
  · rename_i hroom
    exact .inl ⟨hroom, some.inj hfound ▸ hhas⟩
  · exact .inr ⟨found, hfound, hhas⟩

theorem blocked_set
    (h : Blocked { s with relayHealth := s.relayHealth.set roomId room } other relay blockedUntil) :
    (other = roomId ∧ room.blockedUntil.get relay = some blockedUntil)
      ∨ s.Blocked other relay blockedUntil := by
  obtain ⟨found, hfound, hblocked⟩ := h
  rw [get_set] at hfound
  split at hfound
  · rename_i hroom
    exact .inl ⟨hroom, some.inj hfound ▸ hblocked⟩
  · exact .inr ⟨found, hfound, hblocked⟩

theorem leave_health {peerId : String}
    (h : (s.relayHealth.leave roomId peerId).get other = some room) :
    ∃ old, s.relayHealth.get other = some old
      ∧ ((other = roomId ∧ room = old.leave peerId) ∨ (other ≠ roomId ∧ room = old)) := by
  rw [RelayHealthTracker.leave] at h
  split at h
  · rename_i hnone
    refine ⟨room, h, .inr ⟨?_, rfl⟩⟩
    rintro rfl
    rw [hnone] at h
    cases h
  · rename_i old hold
    rw [get_set] at h
    split at h
    · rename_i hroom
      exact ⟨old, hroom ▸ hold, .inl ⟨hroom, (some.inj h).symm⟩⟩
    · rename_i hroom
      exact ⟨room, h, .inr ⟨hroom, rfl⟩⟩

/-- **Reports.** One is held after an event when it was taken there, or was held before and
its observer did not leave. -/
theorem reports_handle (h : (s.handle options e).1.Reports other key observer report) :
    (∃ message now sentAt, e = .observation other observer message now sentAt
        ∧ s.Taken other observer message ∧ key = observationKey message ∧ report = ⟨message, now⟩)
      ∨ (s.Reports other key observer report ∧ ∀ now, e ≠ .leave other observer now) := by
  cases e with
  | join roomId peerId now =>
      have hold := reports_broadcast h
      exact .inr ⟨hold, fun _ heq => (by cases heq)⟩
  | evict roomId => exact .inr ⟨h, fun _ heq => (by cases heq)⟩
  | topology roomId renewOnly now =>
      exact .inr ⟨reports_broadcast h, fun _ heq => (by cases heq)⟩
  | leave roomId peerId now =>
      obtain ⟨room, hroom, hhas⟩ := reports_broadcast h
      obtain ⟨old, hold, ⟨hother, rfl⟩ | ⟨hother, rfl⟩⟩ := leave_health hroom
      · obtain ⟨hbefore, hgone⟩ := has_leave hhas
        refine .inr ⟨⟨old, hold, hbefore⟩, fun _ heq => ?_⟩
        cases heq
        exact hgone rfl
      · refine .inr ⟨⟨room, hold, hhas⟩, fun _ heq => ?_⟩
        cases heq
        exact hother rfl
  | observation roomId sender message now sentAt =>
      by_cases htaken : s.Taken roomId sender message
      · rw [handle_taken htaken] at h
        have hset : Reports { s with relayHealth := s.relayHealth.set roomId ((s.healthOf roomId).observe
            options sender message (s.members roomId).length now).1 } other key observer report := by
          dsimp only at h
          split at h
          · exact reports_broadcast h
          · exact h
        rcases reports_set hset with ⟨rfl, hhas⟩ | hold
        · rcases has_observe hhas with ⟨hkey, rfl, hreport⟩ | hold
          · exact .inl ⟨message, now, sentAt, rfl, htaken, hkey, hreport⟩
          · exact .inr ⟨reports_healthOf hold, fun _ heq => (by cases heq)⟩
        · exact .inr ⟨hold, fun _ heq => (by cases heq)⟩
      · rw [handle_refused htaken] at h
        exact .inr ⟨h, fun _ heq => (by cases heq)⟩

/-- **Blocks.** A relay is blocked after an event when it was judged there, or was blocked
before and did not leave. -/
theorem blocked_handle (h : (s.handle options e).1.Blocked other relay blockedUntil) :
    (∃ sender message now sentAt, e = .observation other sender message now sentAt
        ∧ s.Taken other sender message ∧ relay = message.relayPeerId
        ∧ blockedUntil = now + options.cooldownMs
        ∧ ((s.healthOf other).observe options sender message (s.members other).length now).2 = true)
      ∨ (s.Blocked other relay blockedUntil ∧ ∀ now, e ≠ .leave other relay now) := by
  cases e with
  | join roomId peerId now =>
      have hold := blocked_broadcast h
      exact .inr ⟨hold, fun _ heq => (by cases heq)⟩
  | evict roomId => exact .inr ⟨h, fun _ heq => (by cases heq)⟩
  | topology roomId renewOnly now => exact .inr ⟨blocked_broadcast h, fun _ heq => (by cases heq)⟩
  | leave roomId peerId now =>
      obtain ⟨room, hroom, hblocked⟩ := blocked_broadcast h
      obtain ⟨old, hold, ⟨hother, rfl⟩ | ⟨hother, rfl⟩⟩ := leave_health hroom
      · rw [leave, get_erase] at hblocked
        split at hblocked
        · cases hblocked
        · rename_i hne
          refine .inr ⟨⟨old, hold, hblocked⟩, fun _ heq => ?_⟩
          cases heq
          exact hne rfl
      · refine .inr ⟨⟨room, hold, hblocked⟩, fun _ heq => ?_⟩
        cases heq
        exact hother rfl
  | observation roomId sender message now sentAt =>
      by_cases htaken : s.Taken roomId sender message
      · rw [handle_taken htaken] at h
        have hset : Blocked { s with relayHealth := s.relayHealth.set roomId ((s.healthOf roomId).observe
            options sender message (s.members roomId).length now).1 } other relay blockedUntil := by
          dsimp only at h
          split at h
          · exact blocked_broadcast h
          · exact h
        rcases blocked_set hset with ⟨rfl, hblocked⟩ | hold
        · rcases blocked_observe hblocked with hold | ⟨hverdict, hrelay, huntil⟩
          · exact .inr ⟨blocked_healthOf hold, fun _ heq => (by cases heq)⟩
          · exact .inl ⟨sender, message, now, sentAt, rfl, htaken, hrelay, huntil, hverdict⟩
        · exact .inr ⟨hold, fun _ heq => (by cases heq)⟩
      · rw [handle_refused htaken] at h
        exact .inr ⟨h, fun _ heq => (by cases heq)⟩

/-! ## Members -/

theorem handle_members : (s.handle options e).1.members = match e with
    | .join roomId peerId _ => update s.members roomId (s.members roomId ++ [peerId])
    | .leave roomId peerId _ =>
        update s.members roomId ((s.members roomId).filter (· ≠ peerId))
    | .evict roomId => update s.members roomId []
    | _ => s.members := by
  cases e with
  | join => exact broadcastTopology_members
  | leave => exact broadcastTopology_members
  | evict => rfl
  | topology => exact broadcastTopology_members
  | observation roomId sender message now sentAt =>
      by_cases htaken : s.Taken roomId sender message
      · rw [handle_taken htaken]
        dsimp only
        split
        · exact broadcastTopology_members
        · rfl
      · rw [handle_refused htaken]

theorem handle_issued : (s.handle options e).1.issued = match e with
    | .join _ peerId _ => peerId :: s.issued
    | _ => s.issued := by
  cases e with
  | join => exact broadcastTopology_issued
  | leave => exact broadcastTopology_issued
  | evict => rfl
  | topology => exact broadcastTopology_issued
  | observation roomId sender message now sentAt =>
      by_cases htaken : s.Taken roomId sender message
      · rw [handle_taken htaken]
        dsimp only
        split
        · exact broadcastTopology_issued
        · rfl
      · rw [handle_refused htaken]

theorem issued_handle {id : String} (h : id ∈ s.issued) : id ∈ (s.handle options e).1.issued := by
  rw [handle_issued]
  split
  · exact mem_cons_of_mem _ h
  · exact h

theorem member_joins {id : String} (h : id ∈ (s.handle options e).1.members roomId) :
    id ∈ s.members roomId ∨ ∃ now, e = .join roomId id now := by
  rw [handle_members] at h
  cases e with
  | join other peerId now =>
      dsimp only at h
      by_cases hroom : roomId = other
      · rw [hroom, update_self, mem_append, mem_singleton] at h
        rw [hroom]
        exact h.imp_right fun hid => ⟨now, by rw [hid]⟩
      · rw [update_of_ne hroom] at h
        exact .inl h
  | leave other peerId now =>
      dsimp only at h
      by_cases hroom : roomId = other
      · rw [hroom, update_self] at h
        exact .inl (hroom ▸ (mem_filter.mp h).1)
      · rw [update_of_ne hroom] at h
        exact .inl h
  | evict other =>
      dsimp only at h
      by_cases hroom : roomId = other
      · rw [hroom, update_self] at h
        cases h
      · rw [update_of_ne hroom] at h
        exact .inl h
  | topology => exact .inl h
  | observation => exact .inl h

theorem member_stays {id : String} (h : id ∈ s.members roomId) :
    id ∈ (s.handle options e).1.members roomId ∨ (∃ now, e = .leave roomId id now)
      ∨ (s.handle options e).1.members roomId = [] := by
  rw [handle_members]
  cases e with
  | join other peerId now =>
      dsimp only
      by_cases hroom : roomId = other
      · rw [hroom, update_self]
        exact .inl (mem_append_left _ (hroom ▸ h))
      · rw [update_of_ne hroom]
        exact .inl h
  | leave other peerId now =>
      dsimp only
      by_cases hroom : roomId = other
      · rw [hroom, update_self]
        by_cases hid : id = peerId
        · exact .inr (.inl ⟨now, by rw [hid]⟩)
        · exact .inl (mem_filter.mpr ⟨hroom ▸ h, decide_eq_true hid⟩)
      · rw [update_of_ne hroom]
        exact .inl h
  | evict other =>
      dsimp only
      by_cases hroom : roomId = other
      · rw [hroom, update_self]
        exact .inr (.inr rfl)
      · rw [update_of_ne hroom]
        exact .inl h
  | topology => exact .inl h
  | observation => exact .inl h

/-! ## Runs -/

/-- Peer ids are given out once, and reports come from members. -/
def Proper (s : RelayServer) : RoomEvent → Prop
  | .join _ peerId _ => peerId ∉ s.issued
  | .observation roomId sender _ _ _ => sender ∈ s.members roomId
  | _ => True

instance decidableProper (s : RelayServer) : ∀ e, Decidable (Proper s e)
  | .join _ peerId _ => inferInstanceAs (Decidable (peerId ∉ s.issued))
  | .observation roomId sender _ _ _ => inferInstanceAs (Decidable (sender ∈ s.members roomId))
  | .leave .. => .isTrue trivial
  | .evict .. => .isTrue trivial
  | .topology .. => .isTrue trivial

/-- The runs of the server. -/
def Run (options : HealthOptions) : RelayServer → List RoomEvent → RelayServer → Prop :=
  Path (Guarded (fun s e t => t = (s.handle options e).1) Proper)

/-- An unhealthy report that was made in the events. -/
def Reported (options : HealthOptions) (es : List RoomEvent) (roomId observer relay : String)
    (routeEpoch : Nat) (now : Int) : Prop :=
  ∃ message madeAt sentAt, RoomEvent.observation roomId observer message madeAt sentAt ∈ es
    ∧ message.relayPeerId = relay ∧ message.routeEpoch = routeEpoch
    ∧ options.unhealthy message = true ∧ now - madeAt ≤ options.windowMs

/-- Enough members, and the relay is none of them, reported it on the route. -/
def Quorate (options : HealthOptions) (es : List RoomEvent) (members : List String)
    (roomId relay : String) (routeEpoch : Nat) (now : Int) : Prop :=
  ∃ observers : List String, observers.Nodup ∧ options.quorum members.length ≤ observers.length
    ∧ ∀ o ∈ observers, o ∈ members ∧ o ≠ relay ∧ Reported options es roomId o relay routeEpoch now

/-- The relay was judged by a quorum on the route of that time, and has not left since. -/
def Judged (options : HealthOptions) (es : List RoomEvent) (roomId relay : String)
    (judgedAt : Int) : Prop :=
  ∃ before sender message sentAt after s,
    es = before ++ .observation roomId sender message judgedAt sentAt :: after
    ∧ Run options start before s ∧ message.relayPeerId = relay
    ∧ s.routes.get roomId = some message.routeEpoch
    ∧ Quorate options (before ++ [.observation roomId sender message judgedAt sentAt])
        (s.members roomId) roomId relay message.routeEpoch judgedAt
    ∧ ∀ now, RoomEvent.leave roomId relay now ∉ after

theorem Judged.snoc {judgedAt : Int} (h : Judged options es roomId relay judgedAt)
    (he : ∀ now, e ≠ .leave roomId relay now) : Judged options (es ++ [e]) roomId relay judgedAt := by
  obtain ⟨before, sender, message, sentAt, after, s, rfl, hrun, hrelay, hroute, hquorate, hleft⟩ := h
  refine ⟨before, sender, message, sentAt, after ++ [e], s, by simp, hrun, hrelay, hroute,
    hquorate, fun now hmem => ?_⟩
  rcases mem_append.mp hmem with hmem | hmem
  · exact hleft now hmem
  · exact he now (mem_singleton.mp hmem).symm

/-- A report as it is filed: its observer is in the room as long as its relay is. -/
structure Filed (es : List RoomEvent) (s : RelayServer) (roomId key observer : String)
    (report : Report) : Prop where
  key : key = observationKey report.toRelayObservation
  other : report.relayPeerId ≠ observer
  issued : report.relayPeerId ∈ s.issued
  here : report.relayPeerId ∈ s.members roomId → observer ∈ s.members roomId
  sent : ∃ sentAt,
    RoomEvent.observation roomId observer report.toRelayObservation report.observedAt sentAt ∈ es

/-- What holds after a run. -/
structure Fair (options : HealthOptions) (es : List RoomEvent) (s : RelayServer) : Prop where
  run : Run options start es s
  issued : ∀ roomId, ∀ id ∈ s.members roomId, id ∈ s.issued
  filed : ∀ roomId key observer report, s.Reports roomId key observer report →
    Filed es s roomId key observer report
  judged : ∀ roomId relay blockedUntil, s.Blocked roomId relay blockedUntil →
    ∃ judgedAt, blockedUntil = judgedAt + options.cooldownMs ∧ Judged options es roomId relay judgedAt

theorem fair_start : Fair options [] start where
  run := .nil _
  issued _ _ hid := absurd hid not_mem_nil
  filed := by
    rintro roomId key observer report ⟨room, hroom, -⟩
    cases hroom
  judged := by
    rintro roomId relay blockedUntil ⟨room, hroom, -⟩
    cases hroom

theorem Filed.handle (h : Filed es s roomId key observer report)
    (hproper : s.Proper e) (hstays : ∀ now, e ≠ .leave roomId observer now) :
    Filed (es ++ [e]) (s.handle options e).1 roomId key observer report where
  __ := h
  issued := issued_handle h.issued
  here := by
    intro hrelay
    rcases member_joins hrelay with hbefore | ⟨now, rfl⟩
    · have hmember : observer ∈ (s.handle options e).1.members roomId
          ∨ (∃ now, e = .leave roomId observer now)
          ∨ (s.handle options e).1.members roomId = [] := member_stays (h.here hbefore)
      rcases hmember with hafter | ⟨now, rfl⟩ | hempty
      · exact hafter
      · exact absurd rfl (hstays now)
      · rw [hempty] at hrelay
        cases hrelay
    · exact absurd h.issued hproper
  sent := h.sent.imp fun _ hmem => mem_append_left _ hmem

/-- **Verdicts.** A relay that is judged is judged by a quorum. -/
theorem Fair.quorate (h : Fair options es s)
    {sentAt : Int} (htaken : s.Taken roomId sender message) (hsender : sender ∈ s.members roomId)
    (hverdict : ((s.healthOf roomId).observe options sender message (s.members roomId).length now).2
      = true) :
    Quorate options (es ++ [.observation roomId sender message now sentAt]) (s.members roomId) roomId
      message.relayPeerId message.routeEpoch now := by
  obtain ⟨observers, hnodup, hquorum, heach⟩ := quorum_of_observe hverdict
  refine ⟨observers, hnodup, hquorum, fun o ho => ?_⟩
  obtain ⟨report, hhas, hunhealthy, hwindow⟩ := heach o ho
  rcases has_record hhas with ⟨-, rfl, rfl⟩ | hold
  · exact ⟨hsender, htaken.other.symm, message, now, sentAt,
      mem_append_right _ mem_cons_self, rfl, rfl, hunhealthy, hwindow⟩
  · have hfiled := h.filed _ _ _ _ (reports_healthOf hold)
    obtain ⟨hepoch, hrelay⟩ := observationKey_inj hfiled.key
    obtain ⟨sentAt', hsent⟩ := hfiled.sent
    exact ⟨hfiled.here (hrelay ▸ htaken.relay), hrelay ▸ hfiled.other.symm,
      report.toRelayObservation, report.observedAt, sentAt', mem_append_left _ hsent,
      hrelay.symm, hepoch.symm, hunhealthy, hwindow⟩

/-- **Step lemma.** -/
theorem Fair.handle (h : Fair options es s) (hproper : s.Proper e) :
    Fair options (es ++ [e]) (s.handle options e).1 where
  run := h.run.append (.single ⟨rfl, hproper⟩)
  issued := by
    intro roomId id hid
    rcases member_joins hid with hbefore | ⟨now, rfl⟩
    · exact issued_handle (h.issued roomId id hbefore)
    · rw [handle_issued]
      exact mem_cons_self
  filed := by
    intro roomId key observer report hreports
    rcases reports_handle hreports with
      ⟨message, now, sentAt, rfl, htaken, rfl, rfl⟩ | ⟨hbefore, hstays⟩
    · refine ⟨rfl, htaken.other, issued_handle (h.issued roomId _ htaken.relay), fun _ => ?_,
        sentAt, mem_append_right _ mem_cons_self⟩
      rw [handle_members]
      exact hproper
    · exact (h.filed _ _ _ _ hbefore).handle hproper hstays
  judged := by
    intro roomId relay blockedUntil hblocked
    rcases blocked_handle hblocked with
      ⟨sender, message, now, sentAt, rfl, htaken, rfl, rfl, hverdict⟩ | ⟨hbefore, hstays⟩
    · exact ⟨now, rfl, es, sender, message, sentAt, [], s, rfl, h.run, rfl, htaken.route,
        h.quorate htaken hproper hverdict, fun _ => not_mem_nil⟩
    · obtain ⟨judgedAt, huntil, hjudged⟩ := h.judged roomId relay blockedUntil hbefore
      exact ⟨judgedAt, huntil, hjudged.snoc hstays⟩

/-- **Run lemma.** -/
theorem fair_of_run (h : Run options start es s) : Fair options es s := by
  refine Path.history (J := Fair options) fair_start (fun _ hfair hstep => ?_) h
  obtain ⟨rfl, hproper⟩ := hstep
  exact hfair.handle hproper

theorem topology_blocked (h : (s.handle options e).2 = some topology) :
    ∀ relay ∈ topology.blockedRelayIds, ∃ blockedUntil,
      Blocked (s.handle options e).1 topology.roomId relay blockedUntil
        ∧ topology.sentAt < blockedUntil := by
  cases e with
  | join => exact broadcastTopology_blocked h
  | leave => exact broadcastTopology_blocked h
  | evict => cases h
  | topology => exact broadcastTopology_blocked h
  | observation roomId sender message now sentAt =>
      by_cases htaken : s.Taken roomId sender message
      · rw [handle_taken htaken] at h ⊢
        dsimp only at h ⊢
        split at h
        · rename_i hverdict
          rw [if_pos hverdict]
          exact broadcastTopology_blocked h
        · cases h
      · rw [handle_refused htaken] at h
        cases h

/-- **Relay quorum.** For every run in which peer ids are given out once and reports come from
members: a topology leaves out a relay only less than the cooldown after a quorum of the
members of that time, the relay not among them, reported it unhealthy for the route of that
time and within the window; and the relay has not left since. A report on another route, on
no member or on the sender itself changes nothing. -/
theorem relay_quorum (options : HealthOptions) (es : List RoomEvent) (s : RelayServer)
    (e : RoomEvent) (topology : RelayTopology) (hrun : Run options start es s) (hproper : s.Proper e)
    (htopology : (s.handle options e).2 = some topology) :
    (∀ relay ∈ topology.blockedRelayIds, ∃ judgedAt, topology.sentAt < judgedAt + options.cooldownMs
        ∧ Judged options (es ++ [e]) topology.roomId relay judgedAt)
    ∧ ∀ roomId sender message now sentAt,
      s.routes.get roomId ≠ some message.routeEpoch ∨ message.relayPeerId ∉ s.members roomId
          ∨ message.relayPeerId = sender →
        s.handle options (.observation roomId sender message now sentAt) = (s, none) := by
  constructor
  · intro relay hrelay
    obtain ⟨blockedUntil, hblocked, hsent⟩ := topology_blocked htopology relay hrelay
    obtain ⟨judgedAt, rfl, hjudged⟩ := ((fair_of_run hrun).handle hproper).judged _ _ _ hblocked
    exact ⟨judgedAt, hsent, hjudged⟩
  · intro roomId sender message now sentAt hrefused
    refine handle_refused fun htaken => ?_
    rcases hrefused with hroute | hrelay | hself
    · exact hroute htaken.route
    · exact hrelay htaken.relay
    · exact htaken.other hself

/-! ## A block that outlives its route -/

def slow (routeEpoch : Nat) : RelayObservation where
  relayPeerId := "r"
  routeEpoch := routeEpoch
  sampleCount := 8
  deliveryRatio := 1 / 2
  delayMs := 4000

/-- A relay and two others; the first of them reports the relay. -/
def meeting : List RoomEvent :=
  [.join "room" "r" 1, .join "room" "a" 2, .join "room" "b" 3, .observation "room" "a" (slow 3) 4 4]

def met : RelayServer := meeting.foldl (fun s e => (s.handle DEFAULTS e).1) start

theorem run_met : Run DEFAULTS start meeting met :=
  Path.guarded_foldl _ Proper meeting start (by decide)

/-- The second report blocks the relay. -/
def second : RoomEvent := .observation "room" "b" (slow 3) 5 5

theorem relay_quorum_met : ∃ judgedAt, 5 < judgedAt + (60000 : Int)
    ∧ Judged DEFAULTS (meeting ++ [second]) "room" "r" judgedAt :=
  (relay_quorum DEFAULTS meeting met second ⟨"room", 4, ["r"], 5⟩ run_met (by decide +kernel)
    (by decide +kernel)).1 "r" (by decide)

/-- The topology that follows the verdict is for the next route, on which nobody reported
anything. The tracker by itself also counts what a relay reports on itself. -/
theorem block_outlives_route :
    (¬∀ (es : List RoomEvent) (s : RelayServer) (e : RoomEvent) (topology : RelayTopology)
      (relay : String), Run DEFAULTS start es s → s.Proper e →
        (s.handle DEFAULTS e).2 = some topology → relay ∈ topology.blockedRelayIds →
          Quorate DEFAULTS (es ++ [e]) ((s.handle DEFAULTS e).1.members topology.roomId)
            topology.roomId relay topology.routeEpoch topology.sentAt)
    ∧ (RelayHealthTracker.observe DEFAULTS
        (RelayHealthTracker.observe DEFAULTS .empty "room" "r" (slow 3) 3 4).1
        "room" "a" (slow 3) 3 5).2 = true := by
  refine ⟨fun h => ?_, by decide +kernel⟩
  obtain ⟨observers, -, hquorum, heach⟩ := h meeting met second ⟨"room", 4, ["r"], 5⟩ "r" run_met
    (by decide +kernel) (by decide +kernel) (by decide)
  have hmembers : (met.handle DEFAULTS second).1.members "room" = ["r", "a", "b"] := by decide +kernel
  rw [hmembers] at hquorum
  cases observers with
  | nil => exact absurd hquorum (by decide)
  | cons o observers =>
      obtain ⟨-, -, message, madeAt, sentAt, hmem, -, hroute, -⟩ := heach o mem_cons_self
      simp only [meeting, second, cons_append, nil_append, mem_cons,
        RoomEvent.observation.injEq, reduceCtorEq, false_or, not_mem_nil, or_false] at hmem
      rcases hmem with ⟨-, -, rfl, -⟩ | ⟨-, -, rfl, -⟩ <;> exact absurd hroute (by decide)

end RelayServer

end RelayHealth

end WebrtcMinimize
