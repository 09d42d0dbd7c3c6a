import Mathlib.Algebra.Order.Ring.Rat
import WebrtcMinimize.OverlayPackets
import WebrtcMinimize.Runs

/-!
# Relay health

Members report how a relay delivers. The reports are kept by room, by route epoch and
relay, and by observer; what is older than the window goes. A relay that enough observers
call unhealthy is blocked for a while, and the reports that led to it are dropped.

The server takes a report only for its present route epoch and for another member of the
room. Its topologies leave out the relays that are blocked.
-/

namespace WebrtcMinimize

namespace RelayHealth

open KeyedMap List

structure HealthOptions where
  windowMs : Int
  cooldownMs : Int
  minimumSamples : Nat
  minimumObservers : Nat
  minimumDeliveryRatio : ℚ
  maximumDelayMs : ℚ

def DEFAULTS : HealthOptions where
  windowMs := 30000
  cooldownMs := 60000
  minimumSamples := 5
  minimumObservers := 2
  minimumDeliveryRatio := 4 / 5
  maximumDelayMs := 3000

structure RelayObservation where
  relayPeerId : String
  routeEpoch : Nat
  sampleCount : Nat
  deliveryRatio : ℚ
  delayMs : ℚ
deriving DecidableEq

structure Report extends RelayObservation where
  observedAt : Int

/-! ## The tracker -/

structure RoomHealth where
  observations : KeyedMap String (KeyedMap String Report)
  blockedUntil : KeyedMap String Int

def RoomHealth.empty : RoomHealth := ⟨.empty, .empty⟩

def observationKey (observation : RelayObservation) : String :=
  toString observation.routeEpoch ++ ":" ++ observation.relayPeerId

def HealthOptions.unhealthy (options : HealthOptions) (report : RelayObservation) : Bool :=
  decide (options.minimumSamples ≤ report.sampleCount)
    && (decide (report.deliveryRatio < options.minimumDeliveryRatio)
      || decide (options.maximumDelayMs < report.delayMs))

def HealthOptions.quorum (options : HealthOptions) (memberCount : Nat) : Nat :=
  max options.minimumObservers (max 1 (memberCount - 1) / 2 + 1)

namespace RoomHealth

def prune (options : HealthOptions) (now : Int) (room : RoomHealth) : RoomHealth where
  observations :=
    (room.observations.mapValues fun _ reports =>
      reports.keep fun _ report => decide (now - report.observedAt ≤ options.windowMs)).keep
        fun _ reports => decide (reports.size ≠ 0)
  blockedUntil := room.blockedUntil.keep fun _ blockedUntil => decide (now < blockedUntil)

/-- A report replaces the observer's last one on the relay and route. -/
def record (room : RoomHealth) (observerPeerId : String) (observation : RelayObservation)
    (now : Int) : RoomHealth :=
  let key := observationKey observation
  let reports := (room.observations.get key).getD .empty
  { room with observations :=
      room.observations.set key (reports.set observerPeerId ⟨observation, now⟩) }

/-- The reports that are left under a key. -/
def reportsOf (room : RoomHealth) (key : String) : KeyedMap String Report :=
  (room.observations.get key).getD .empty

def observe (options : HealthOptions) (room : RoomHealth) (observerPeerId : String)
    (observation : RelayObservation) (memberCount : Nat) (now : Int) : RoomHealth × Bool :=
  let key := observationKey observation
  let room := (room.record observerPeerId observation now).prune options now
  let unhealthy := (room.reportsOf key).values.filter fun report =>
    options.unhealthy report.toRelayObservation
  if unhealthy.length < options.quorum memberCount then (room, false)
  else
    ({ observations := room.observations.erase key
       blockedUntil := room.blockedUntil.set observation.relayPeerId (now + options.cooldownMs) },
      true)

def leave (room : RoomHealth) (peerId : String) : RoomHealth where
  observations :=
    (room.observations.mapValues fun _ reports => reports.erase peerId).keep fun key reports =>
      !(decide ((":" ++ peerId).toList <:+ key.toList) || decide (reports.size = 0))
  blockedUntil := room.blockedUntil.erase peerId

end RoomHealth

abbrev RelayHealthTracker := KeyedMap String RoomHealth

namespace RelayHealthTracker

def observe (options : HealthOptions) (tracker : RelayHealthTracker)
    (roomId observerPeerId : String) (observation : RelayObservation) (memberCount : Nat)
    (now : Int) : RelayHealthTracker × Bool :=
  let room := (tracker.get roomId).getD .empty
  let (room, unhealthy) := room.observe options observerPeerId observation memberCount now
  (tracker.set roomId room, unhealthy)

def blockedRelayIds (options : HealthOptions) (tracker : RelayHealthTracker) (roomId : String)
    (now : Int) : RelayHealthTracker × List String :=
  match tracker.get roomId with
  | none => (tracker, [])
  | some room =>
      let room := room.prune options now
      (tracker.set roomId room,
        (room.blockedUntil.keep fun _ blockedUntil => decide (now < blockedUntil)).keys)

def leave (tracker : RelayHealthTracker) (roomId peerId : String) : RelayHealthTracker :=
  match tracker.get roomId with
  | none => tracker
  | some room => tracker.set roomId (room.leave peerId)

end RelayHealthTracker

/-! ## The server -/

/-- What the server holds of its rooms: who is in them, their route epochs and the health
of their relays. `issued` are the peer ids that were given out. -/
structure RelayServer where
  issued : List String
  members : String → List String
  routes : KeyedMap String Nat
  relayHealth : RelayHealthTracker

def RelayServer.start : RelayServer := ⟨[], fun _ => [], .empty, .empty⟩

/-- The topology that is sent to a room, as far as the health of relays goes. -/
structure RelayTopology where
  roomId : String
  routeEpoch : Nat
  blockedRelayIds : List String
  sentAt : Int
deriving DecidableEq

/-- A room's members can also be put out all at once, when its breakout set is closed. A
topology is sent again where a relay's consent or capability changes, and where its lease
is renewed. -/
inductive RoomEvent where
  | join (roomId peerId : String) (now : Int)
  | leave (roomId peerId : String) (now : Int)
  | evict (roomId : String)
  | topology (roomId : String) (renewOnly : Bool) (now : Int)
  | observation (roomId sender : String) (message : RelayObservation) (now sentAt : Int)

namespace RelayServer

def broadcastTopology (options : HealthOptions) (s : RelayServer) (roomId : String)
    (renewOnly : Bool) (now : Int) : RelayServer × Option RelayTopology :=
  if s.members roomId = [] then
    ({ s with routes := s.routes.erase roomId, relayHealth := s.relayHealth.erase roomId }, none)
  else
    let last := (s.routes.get roomId).getD 0
    let routeEpoch := if renewOnly then last else last + 1
    let (relayHealth, blocked) := s.relayHealth.blockedRelayIds options roomId now
    ({ s with routes := s.routes.set roomId routeEpoch, relayHealth := relayHealth },
      some ⟨roomId, routeEpoch, blocked, now⟩)

def setMembers (s : RelayServer) (roomId : String) (ids : List String) : RelayServer :=
  { s with members := Function.update s.members roomId ids }

/-- A report that is refused is answered with an error. -/
def handle (options : HealthOptions) (s : RelayServer) :
    RoomEvent → RelayServer × Option RelayTopology
  | .join roomId peerId now =>
      ({ s with issued := peerId :: s.issued }.setMembers roomId
        (s.members roomId ++ [peerId])).broadcastTopology options roomId false now
  | .leave roomId peerId now =>
      ({ s with relayHealth := s.relayHealth.leave roomId peerId }.setMembers roomId
        ((s.members roomId).filter (· ≠ peerId))).broadcastTopology options roomId false now
  | .evict roomId => (s.setMembers roomId [], none)
  | .topology roomId renewOnly now => s.broadcastTopology options roomId renewOnly now
  | .observation roomId sender message now sentAt =>
      if s.routes.get roomId ≠ some message.routeEpoch then (s, none)
      else if ¬(message.relayPeerId ∈ s.members roomId ∧ message.relayPeerId ≠ sender) then (s, none)
      else
        let (relayHealth, unhealthy) :=
          s.relayHealth.observe options roomId sender message (s.members roomId).length now
        let s := { s with relayHealth := relayHealth }
        if unhealthy then s.broadcastTopology options roomId false sentAt else (s, none)

end RelayServer

/-! ## What each operation leaves -/

/-- The room has the report under the key, by the observer. -/
def RoomHealth.Has (room : RoomHealth) (key observer : String) (report : Report) : Prop :=
  ∃ reports, room.observations.get key = some reports ∧ reports.get observer = some report

section Operations

variable {options : HealthOptions} {room : RoomHealth} {key observer peerId : String}
  {report : Report} {observation : RelayObservation} {now : Int}

theorem observationKey_inj {o o' : RelayObservation} (h : observationKey o = observationKey o') :
    o.routeEpoch = o'.routeEpoch ∧ o.relayPeerId = o'.relayPeerId := by
  have hdigits {n : Nat} : ':' ∉ (toString n).toList := by
    have hlist : (toString n).toList = Nat.toDigits 10 n := String.toList_ofList
    intro hmem
    rw [hlist] at hmem
    exact absurd (Nat.isDigit_of_mem_toDigits (by decide) (by decide) hmem) (by decide)
  obtain ⟨hepoch, hrelay⟩ := Overlay.append_colon_inj hdigits hdigits h
  exact ⟨Overlay.toString_nat_inj hepoch, hrelay⟩

namespace RoomHealth

theorem has_prune (h : (room.prune options now).Has key observer report) :
    room.Has key observer report ∧ now - report.observedAt ≤ options.windowMs := by
  obtain ⟨reports, hreports, hreport⟩ := h
  rw [prune, get_keep_eq_some_iff, get_mapValues, Option.map_eq_some_iff] at hreports
  obtain ⟨⟨old, hold, rfl⟩, -⟩ := hreports
  rw [get_keep_eq_some_iff, decide_eq_true_iff] at hreport
  exact ⟨⟨old, hold, hreport.1⟩, hreport.2⟩

theorem has_record (h : (room.record observer observation now).Has key peerId report) :
    (key = observationKey observation ∧ peerId = observer ∧ report = ⟨observation, now⟩)
      ∨ room.Has key peerId report := by
  obtain ⟨reports, hreports, hreport⟩ := h
  rw [record, get_set] at hreports
  split at hreports
  · rename_i hkey
    cases hreports
    rw [get_set] at hreport
    split at hreport
    · rename_i hpeer
      exact .inl ⟨hkey, hpeer, (Option.some.inj hreport).symm⟩
    · refine .inr ?_
      cases hold : room.observations.get (observationKey observation) with
      | none =>
          rw [hold] at hreport
          cases hreport
      | some old =>
          rw [hold] at hreport
          exact ⟨old, hkey ▸ hold, hreport⟩
  · exact .inr ⟨reports, hreports, hreport⟩

theorem has_leave (h : (room.leave peerId).Has key observer report) :
    room.Has key observer report ∧ observer ≠ peerId := by
  obtain ⟨reports, hreports, hreport⟩ := h
  rw [leave, get_keep_eq_some_iff, get_mapValues, Option.map_eq_some_iff] at hreports
  obtain ⟨⟨old, hold, rfl⟩, -⟩ := hreports
  rw [get_erase] at hreport
  split at hreport
  · cases hreport
  · rename_i hne
    exact ⟨⟨old, hold, hreport⟩, hne⟩

theorem has_reportsOf (h : (room.reportsOf key).get observer = some report) :
    room.Has key observer report := by
  rw [reportsOf] at h
  cases hreports : room.observations.get key with
  | none =>
      rw [hreports] at h
      cases h
  | some reports =>
      rw [hreports] at h
      exact ⟨reports, hreports, h⟩

theorem blocked_prune {relay : String} {blockedUntil : Int}
    (h : (room.prune options now).blockedUntil.get relay = some blockedUntil) :
    room.blockedUntil.get relay = some blockedUntil := (get_keep_eq_some_iff.mp h).1

/-- What is left by an observation was there, or is what was observed. -/
theorem has_observe {memberCount : Nat}
    (h : (room.observe options observer observation memberCount now).1.Has key peerId report) :
    (key = observationKey observation ∧ peerId = observer ∧ report = ⟨observation, now⟩)
      ∨ room.Has key peerId report := by
  rw [observe] at h
  split at h
  · exact has_record (has_prune h).1
  · obtain ⟨reports, hreports, hreport⟩ := h
    rw [get_erase] at hreports
    split at hreports
    · cases hreports
    · exact has_record (has_prune ⟨reports, hreports, hreport⟩).1

/-- **A verdict.** The relay is blocked by a quorum of observers, each with a report of its
own that is not too old. -/
theorem quorum_of_observe {memberCount : Nat}
    (h : (room.observe options observer observation memberCount now).2 = true) :
    ∃ observers : List String, observers.Nodup ∧ options.quorum memberCount ≤ observers.length
      ∧ ∀ o ∈ observers, ∃ report, (room.record observer observation now).Has
          (observationKey observation) o report
        ∧ options.unhealthy report.toRelayObservation = true
        ∧ now - report.observedAt ≤ options.windowMs := by
  rw [observe] at h
  split at h
  · cases h
  · rename_i hquorum
    generalize hreports : ((room.record observer observation now).prune options now).reportsOf
      (observationKey observation) = reports at hquorum
    refine ⟨(reports.entries.filter fun e => options.unhealthy e.2.toRelayObservation).map Prod.fst,
      reports.nodup.sublist (filter_sublist.map _), ?_, fun o ho => ?_⟩
    · rwa [values, filter_map, length_map, Function.comp_def, not_lt,
        ← length_map (f := Prod.fst)] at hquorum
    · obtain ⟨e, he, rfl⟩ := mem_map.mp ho
      obtain ⟨hentry, hunhealthy⟩ := mem_filter.mp he
      have hget : reports.get e.1 = some e.2 := get_eq_some_iff.mpr hentry
      rw [← hreports] at hget
      obtain ⟨hhas, hwindow⟩ := has_prune (has_reportsOf hget)
      exact ⟨e.2, hhas, hunhealthy, hwindow⟩

/-- What is blocked after an observation was, or it is the relay of a verdict. -/
theorem blocked_observe {memberCount : Nat} {relay : String} {blockedUntil : Int}
    (h : (room.observe options observer observation memberCount now).1.blockedUntil.get relay
      = some blockedUntil) :
    room.blockedUntil.get relay = some blockedUntil
      ∨ ((room.observe options observer observation memberCount now).2 = true
        ∧ relay = observation.relayPeerId ∧ blockedUntil = now + options.cooldownMs) := by
  rw [observe] at h ⊢
  split at h
  · have hold : (room.prune options now).blockedUntil.get relay = some blockedUntil := h
    exact .inl (blocked_prune hold)
  · rename_i hquorum
    rw [if_neg hquorum]
    rw [get_set] at h
    split at h
    · rename_i hrelay
      exact .inr ⟨rfl, hrelay, (Option.some.inj h).symm⟩
    · have hold : (room.prune options now).blockedUntil.get relay = some blockedUntil := h
      exact .inl (blocked_prune hold)

end RoomHealth

end Operations

end RelayHealth

end WebrtcMinimize
