import Mathlib.Algebra.Order.BigOperators.Group.List
import Mathlib.Algebra.Order.Ring.Nat
import WebrtcMinimize.Checks
import WebrtcMinimize.Maps

/-!
# The packager's capacity ledger

A ledger of five resources. A reservation is answered with the longest prefix of the
admission's renditions for which all five have room, and is held until it is released
or expires; every call drops what has expired first. The products of doubles that an
estimate rounds up come as functions (`Rounding`), and so does `JSON.stringify`: nothing
here depends on what they give. Sums are exact, as a comparison of one that is no safe
integer with a capacity comes out the same.
-/

namespace WebrtcMinimize

open Checks

namespace CapacityLedger

open KeyedMap List Except

structure PackagerCapacityError where
  code : String
  status : Nat
deriving DecidableEq, Repr

def fail {α : Type} (code : String) (status : Nat) : Except PackagerCapacityError α :=
  .error ⟨code, status⟩

def maxSafeInteger : Int := 9007199254740991

def isSafeInteger (n : Int) : Bool := decide (-maxSafeInteger ≤ n) && decide (n ≤ maxSafeInteger)

structure Rendition where
  width : Nat
  height : Nat
  framesPerSecond : Nat
  videoBitsPerSecond : Nat
  audioBitsPerSecond : Nat
deriving DecidableEq, Repr

structure Admission where
  admissionVersion : Int
  programId : String
  programEpoch : Int
  agentId : String
  renditions : List Rendition
  videoEncoder : String
  softwareFallback : String
deriving DecidableEq, Repr

def assertAdmission (admission : Admission) : Except PackagerCapacityError Unit :=
  if admission.admissionVersion ≠ 1 ∨ admission.renditions.length < 1
      ∨ 3 < admission.renditions.length ∨ isSafeInteger admission.programEpoch = false
      ∨ admission.programEpoch < 1 then
    fail "invalid_packager_admission" 400
  else .ok ()

inductive Resource
  | cpuUnits
  | memoryMiB
  | encoderSlots
  | gpuSlots
  | egressBitsPerSecond
deriving DecidableEq, Repr

def Resource.all : List Resource :=
  [.cpuUnits, .memoryMiB, .encoderSlots, .gpuSlots, .egressBitsPerSecond]

abbrev Amounts := Resource → Nat

/-- `Math.ceil((n / 1_000_000) * (hardware ? 0.35 : 1))` and `Math.ceil(n * 1.15)`. -/
structure Rounding where
  cpu : Nat → Bool → Nat
  egress : Nat → Nat

def estimatePackagerDemand (rounding : Rounding) (admission : Admission) :
    Except PackagerCapacityError Amounts := do
  assertAdmission admission
  let pixelsPerSecond := (admission.renditions.map fun r =>
    r.width * r.height * r.framesPerSecond).sum
  let hardware := decide (admission.videoEncoder ≠ admission.softwareFallback)
  return fun
    | .cpuUnits => max 1 (rounding.cpu pixelsPerSecond hardware)
    | .memoryMiB => 128 + 96 * admission.renditions.length
    | .encoderSlots => admission.renditions.length
    | .gpuSlots => if hardware then admission.renditions.length else 0
    | .egressBitsPerSecond => rounding.egress (admission.renditions.map fun r =>
        r.videoBitsPerSecond + r.audioBitsPerSecond).sum

def normalizeCapacity (capacity : Resource → Int) : Except PackagerCapacityError Amounts :=
  if Resource.all.any fun name => !isSafeInteger (capacity name) || decide (capacity name < 0) then
    fail "invalid_packager_capacity" 400
  else .ok fun name => (capacity name).toNat

def fits (used demand capacity : Amounts) : Bool :=
  Resource.all.all fun name => decide (used name + demand name ≤ capacity name)

theorem fits_iff {used demand capacity : Amounts} :
    fits used demand capacity = true ↔ ∀ name, used name + demand name ≤ capacity name := by
  simp only [fits, all_eq_true, decide_eq_true_eq]
  exact ⟨fun h name => h name (by cases name <;> simp [Resource.all]), fun h name _ => h name⟩

def admissionWithRenditionCount (admission : Admission) (count : Nat) : Admission :=
  { admission with renditions := admission.renditions.take count }

structure PublicValue where
  reservationId : String
  programId : String
  programEpoch : Int
  agentId : String
  expiresAt : Int
  demand : Amounts
  admission : Admission
  degraded : Bool

structure Reservation where
  publicValue : PublicValue
  requestKey : String

structure PackagerCapacityLedger where
  capacity : Amounts
  reservations : KeyedMap String Reservation

/-- The second argument of `reserveBestEffort`. -/
structure Request where
  reservationId : String
  now : Int
  expiresAt : Int
deriving DecidableEq, Repr

def Request.valid (request : Request) : Bool :=
  refOK "rsv_" request.reservationId && isSafeInteger request.now && isSafeInteger request.expiresAt
    && decide (request.now < request.expiresAt) && decide (request.expiresAt ≤ request.now + 300000)

namespace PackagerCapacityLedger

def new (capacity : Resource → Int) : Except PackagerCapacityError PackagerCapacityLedger := do
  let capacity ← normalizeCapacity capacity
  return ⟨capacity, .empty⟩

def prune (l : PackagerCapacityLedger) (now : Int) : PackagerCapacityLedger :=
  { l with reservations := l.reservations.keep fun _ value =>
      decide (now < value.publicValue.expiresAt) }

def used (l : PackagerCapacityLedger) : Amounts :=
  l.reservations.values.foldl
    (fun used value name => used name + value.publicValue.demand name) fun _ => 0

/-- The loop over the counts, from the longest prefix down. -/
def select (rounding : Rounding) (l : PackagerCapacityLedger) (admission : Admission)
    (request : Request) : Nat → Except PackagerCapacityError PublicValue
  | 0 => fail "packager_capacity_exhausted" 503
  | count + 1 => do
      let selectedAdmission := admissionWithRenditionCount admission (count + 1)
      let demand ← estimatePackagerDemand rounding selectedAdmission
      if fits l.used demand l.capacity then
        return {
          reservationId := request.reservationId
          programId := admission.programId
          programEpoch := admission.programEpoch
          agentId := admission.agentId
          expiresAt := request.expiresAt
          demand := demand
          admission := selectedAdmission
          degraded := decide (count + 1 < admission.renditions.length)
        }
      else select rounding l admission request count

def reserveBestEffort (rounding : Rounding) (stringify : Admission → String)
    (l : PackagerCapacityLedger) (admission : Admission) (request : Request) :
    Except PackagerCapacityError PublicValue × PackagerCapacityLedger :=
  match assertAdmission admission with
  | .error e => (.error e, l)
  | .ok () =>
      if request.valid = false then (fail "invalid_packager_reservation" 400, l)
      else
        let l := l.prune request.now
        let requestKey := stringify admission
        match l.reservations.get request.reservationId with
        | some existing =>
            if existing.requestKey ≠ requestKey then (fail "packager_reservation_conflict" 409, l)
            else (.ok existing.publicValue, l)
        | none =>
            match select rounding l admission request admission.renditions.length with
            | .error e => (.error e, l)
            | .ok publicValue =>
                (.ok publicValue, { l with
                  reservations := l.reservations.set request.reservationId
                    ⟨publicValue, requestKey⟩ })

def release (l : PackagerCapacityLedger) (reservationId programId : String) (programEpoch now : Int) :
    Except PackagerCapacityError Bool × PackagerCapacityLedger :=
  let l := l.prune now
  match l.reservations.get reservationId with
  | none => (.ok false, l)
  | some existing =>
      if existing.publicValue.programId ≠ programId
          ∨ existing.publicValue.programEpoch ≠ programEpoch then
        (fail "packager_reservation_fence_mismatch" 409, l)
      else (.ok true, { l with reservations := l.reservations.erase reservationId })

structure Snapshot where
  capacity : Amounts
  used : Amounts
  activeReservations : Nat

def snapshot (l : PackagerCapacityLedger) (now : Int) : Snapshot × PackagerCapacityLedger :=
  let l := l.prune now
  (⟨l.capacity, l.used, l.reservations.size⟩, l)

end PackagerCapacityLedger

inductive Call
  | reserve (admission : Admission) (request : Request)
  | release (reservationId programId : String) (programEpoch now : Int)
  | snapshot (now : Int)
deriving DecidableEq

section Runs

open PackagerCapacityLedger

variable (rounding : Rounding) (stringify : Admission → String)

def step (l : PackagerCapacityLedger) : Call → PackagerCapacityLedger
  | .reserve admission request => (l.reserveBestEffort rounding stringify admission request).2
  | .release reservationId programId programEpoch now =>
      (l.release reservationId programId programEpoch now).2
  | .snapshot now => (l.snapshot now).2

def after (l : PackagerCapacityLedger) (calls : List Call) : PackagerCapacityLedger :=
  calls.foldl (step rounding stringify) l

/-- The call is no `release` of the reservation, and comes before it expires. -/
def Call.Spares (id : String) (expiresAt : Int) : Call → Prop
  | .reserve _ request => request.now < expiresAt
  | .release reservationId _ _ now => reservationId ≠ id ∧ now < expiresAt
  | .snapshot now => now < expiresAt

variable {rounding stringify}

theorem used_eq (l : PackagerCapacityLedger) (name : Resource) :
    l.used name = (l.reservations.values.map fun r => r.publicValue.demand name).sum := by
  have hgo : ∀ (values : List Reservation) (sums : Amounts),
      values.foldl (fun used value name => used name + value.publicValue.demand name) sums name
        = sums name + (values.map fun r => r.publicValue.demand name).sum := by
    intro values
    induction values with
    | nil => exact fun _ => rfl
    | cons value values ih =>
        intro sums
        rw [foldl_cons, ih, map_cons, sum_cons, Nat.add_assoc]
  rw [PackagerCapacityLedger.used, hgo, Nat.zero_add]

theorem used_keep_le (l : PackagerCapacityLedger) (p : String → Reservation → Bool) (name : Resource) :
    ({ l with reservations := l.reservations.keep p } : PackagerCapacityLedger).used name
      ≤ l.used name := by
  rw [used_eq, used_eq]
  exact ((values_keep_sublist _ _).map _).sum_le_sum fun _ _ => Nat.zero_le _

/-- The prefix has room in all dimensions. -/
def Fits (rounding : Rounding) (l : PackagerCapacityLedger) (admission : Admission) (count : Nat) :
    Prop :=
  ∃ demand, estimatePackagerDemand rounding (admissionWithRenditionCount admission count) = .ok demand
    ∧ ∀ name, l.used name + demand name ≤ l.capacity name

/-- The answer is the longest of the first `n` prefixes that fits. -/
def Longest (rounding : Rounding) (l : PackagerCapacityLedger) (admission : Admission)
    (request : Request) (n : Nat) : Except PackagerCapacityError PublicValue → Prop
  | .ok v => ∃ count, 1 ≤ count ∧ count ≤ n ∧ Fits rounding l admission count
      ∧ (∀ k, count < k → k ≤ n → ¬Fits rounding l admission k)
      ∧ v.admission = admissionWithRenditionCount admission count
      ∧ estimatePackagerDemand rounding v.admission = .ok v.demand
      ∧ v.expiresAt = request.expiresAt
      ∧ (v.degraded = true ↔ count < admission.renditions.length)
  | .error e => e = ⟨"packager_capacity_exhausted", 503⟩
      ∧ ∀ k, 1 ≤ k → k ≤ n → ¬Fits rounding l admission k

variable {l : PackagerCapacityLedger} {admission : Admission} {request : Request} {v : PublicValue}

theorem assertAdmission_prefix (hvalid : assertAdmission admission = .ok ()) {count : Nat}
    (hpos : 1 ≤ count) :
    assertAdmission (admissionWithRenditionCount admission count) = .ok () := by
  rw [assertAdmission] at hvalid ⊢
  split at hvalid
  · cases hvalid
  · rename_i hgood
    simp only [admissionWithRenditionCount, length_take]
    rw [if_neg]
    simp only [not_or] at hgood ⊢
    obtain ⟨hversion, hmin, hmax, hepoch, hpositive⟩ := hgood
    exact ⟨hversion, by omega, by omega, hepoch, hpositive⟩

variable (rounding l request) in
theorem select_longest (hvalid : assertAdmission admission = .ok ()) : ∀ n,
    Longest rounding l admission request n (l.select rounding admission request n) := by
  intro n
  induction n with
  | zero => exact ⟨rfl, by omega⟩
  | succ n ih =>
      obtain ⟨demand, hdemand⟩ : ∃ demand, estimatePackagerDemand rounding
          (admissionWithRenditionCount admission (n + 1)) = .ok demand := by
        rw [estimatePackagerDemand, assertAdmission_prefix hvalid (by omega)]
        exact ⟨_, rfl⟩
      have hfits : fits l.used demand l.capacity = true ↔ Fits rounding l admission (n + 1) := by
        rw [fits_iff]
        refine ⟨fun h => ⟨demand, hdemand, h⟩, ?_⟩
        rintro ⟨_, hdemand', h⟩
        rwa [← Except.ok.inj (hdemand.symm.trans hdemand')] at h
      simp only [select, hdemand, bind, Except.bind]
      split
      · rename_i hyes
        exact ⟨n + 1, by omega, le_refl _, hfits.mp hyes, by omega, rfl, hdemand, rfl,
          decide_eq_true_iff⟩
      · rename_i hno
        have hlast : ∀ k, k = n + 1 → ¬Fits rounding l admission k := by
          rintro _ rfl h
          exact hno (hfits.mpr h)
        revert ih
        cases l.select rounding admission request n with
        | ok v =>
            rintro ⟨count, hpos, hle, hin, hmax, hrest⟩
            refine ⟨count, hpos, by omega, hin, fun k hlt hk => ?_, hrest⟩
            rcases Nat.lt_or_eq_of_le hk with hk | hk
            · exact hmax k hlt (by omega)
            · exact hlast k hk
        | error e =>
            rintro ⟨he, hnone⟩
            refine ⟨he, fun k hpos hk => ?_⟩
            rcases Nat.lt_or_eq_of_le hk with hk | hk
            · exact hnone k hpos (by omega)
            · exact hlast k hk

variable (rounding stringify) in
/-- The ways a call of `reserveBestEffort` can end. -/
theorem reserve_cases (l : PackagerCapacityLedger) (admission : Admission) (request : Request) :
    let r := l.reserveBestEffort rounding stringify admission request
    (∃ e, r.1 = .error e ∧ (r.2 = l ∨ r.2 = l.prune request.now))
      ∨ assertAdmission admission = .ok () ∧ request.valid = true
        ∧ ((∃ existing, (l.prune request.now).reservations.get request.reservationId = some existing
            ∧ existing.requestKey = stringify admission ∧ r = (.ok existing.publicValue,
              l.prune request.now))
          ∨ ∃ v, (l.prune request.now).reservations.get request.reservationId = none
            ∧ (l.prune request.now).select rounding admission request admission.renditions.length = .ok v
            ∧ r = (.ok v, { l.prune request.now with
              reservations := (l.prune request.now).reservations.set request.reservationId
                ⟨v, stringify admission⟩ })) := by
  rw [reserveBestEffort]
  split
  · exact .inl ⟨_, rfl, .inl rfl⟩
  · rename_i hvalid
    split
    · exact .inl ⟨_, rfl, .inl rfl⟩
    · rename_i hrequest
      rw [Bool.not_eq_false] at hrequest
      dsimp only
      split
      · rename_i existing hexisting
        split
        · exact .inl ⟨_, rfl, .inr rfl⟩
        · rename_i hkey
          exact .inr ⟨hvalid, hrequest, .inl ⟨existing, hexisting, not_not.mp hkey, rfl⟩⟩
      · rename_i hnone
        split
        · exact .inl ⟨_, rfl, .inr rfl⟩
        · rename_i v hselect
          exact .inr ⟨hvalid, hrequest, .inr ⟨v, hnone, hselect, rfl⟩⟩

/-! ## The bound -/

/-- No more is used than there is. -/
def Bounded (l : PackagerCapacityLedger) : Prop := ∀ name, l.used name ≤ l.capacity name

theorem Bounded.prune (h : Bounded l) (now : Int) : Bounded (l.prune now) := fun name =>
  (used_keep_le l _ name).trans (h name)

variable (rounding stringify) in
theorem Bounded.step (h : Bounded l) (call : Call) : Bounded (step rounding stringify l call)
      ∧ (CapacityLedger.step rounding stringify l call).capacity = l.capacity := by
  cases call with
  | snapshot now => exact ⟨h.prune now, rfl⟩
  | release reservationId programId programEpoch now =>
      rw [CapacityLedger.step, release]
      split
      · exact ⟨h.prune now, rfl⟩
      · split
        · exact ⟨h.prune now, rfl⟩
        · exact ⟨fun name => (used_keep_le _ _ name).trans (h.prune now name), rfl⟩
  | reserve admission request =>
      have hpruned := h.prune request.now
      rcases reserve_cases rounding stringify l admission request with
        ⟨e, -, heq | heq⟩ | ⟨hvalid, -, ⟨existing, -, -, heq⟩ | ⟨v, hnone, hselect, heq⟩⟩
      · rw [CapacityLedger.step, heq]
        exact ⟨h, rfl⟩
      · rw [CapacityLedger.step, heq]
        exact ⟨hpruned, rfl⟩
      · rw [CapacityLedger.step, heq]
        exact ⟨hpruned, rfl⟩
      · rw [CapacityLedger.step, heq]
        refine ⟨fun name => ?_, rfl⟩
        have hlongest := select_longest rounding (l.prune request.now) request hvalid
          admission.renditions.length
        rw [hselect] at hlongest
        obtain ⟨count, -, -, ⟨demand, hdemand, hfits⟩, -, hadmission, hown, -⟩ := hlongest
        rw [hadmission] at hown
        obtain rfl := ok.inj (hdemand.symm.trans hown)
        have hroom := hfits name
        rw [used_eq] at hroom ⊢
        rw [values_set_of_none hnone, map_append, sum_append]
        simpa using hroom

/-! ## Repeated requests -/

/-- The reservation is held. -/
def Holds (l : PackagerCapacityLedger) (id : String) (r : Reservation) : Prop :=
  l.reservations.get id = some r

theorem Holds.prune {id : String} {r : Reservation} (h : Holds l id r) {now : Int}
    (hlater : now < r.publicValue.expiresAt) : Holds (l.prune now) id r :=
  get_keep_eq_some_iff.mpr ⟨h, decide_eq_true hlater⟩

/-- An answer that was given is held, and has not expired. -/
theorem holds_of_reserved (h : (l.reserveBestEffort rounding stringify admission request).1 = .ok v) :
    assertAdmission admission = .ok () ∧ request.now < v.expiresAt
      ∧ Holds (l.reserveBestEffort rounding stringify admission request).2 request.reservationId
        ⟨v, stringify admission⟩ := by
  rcases reserve_cases rounding stringify l admission request with
    ⟨e, heq, -⟩ | ⟨hvalid, hrequest, ⟨existing, hexisting, hkey, heq⟩ | ⟨w, hnone, hselect, heq⟩⟩
  · rw [heq] at h
    cases h
  · rw [heq] at h ⊢
    cases h
    rw [← hkey]
    exact ⟨hvalid, of_decide_eq_true (get_keep_eq_some_iff.mp hexisting).2, hexisting⟩
  · rw [heq] at h ⊢
    cases h
    have hlongest := select_longest rounding (l.prune request.now) request hvalid
      admission.renditions.length
    rw [hselect] at hlongest
    obtain ⟨-, -, -, -, -, -, -, hexpires, -⟩ := hlongest
    simp only [Request.valid, Bool.and_eq_true, decide_eq_true_eq] at hrequest
    exact ⟨hvalid, by omega, get_set_self _ _ _⟩

/-- A held reservation is answered from what is held. -/
theorem Holds.reserve {id : String} (h : Holds l id ⟨v, stringify admission⟩)
    (hvalid : assertAdmission admission = .ok ()) (hrequest : request.valid = true)
    (hid : request.reservationId = id) (hlater : request.now < v.expiresAt) :
    l.reserveBestEffort rounding stringify admission request = (.ok v, l.prune request.now) := by
  have hheld : (l.prune request.now).reservations.get request.reservationId
      = some ⟨v, stringify admission⟩ := hid ▸ h.prune hlater
  rw [reserveBestEffort, hvalid]
  simp [hrequest, hheld]

theorem Holds.step {id : String} {r : Reservation} (h : Holds l id r) {call : Call}
    (hspares : call.Spares id r.publicValue.expiresAt) :
    Holds (step rounding stringify l call) id r := by
  cases call with
  | snapshot now => exact h.prune hspares
  | release reservationId programId programEpoch now =>
      have hpruned := h.prune hspares.2
      rw [CapacityLedger.step, release]
      split
      · exact hpruned
      · split
        · exact hpruned
        · rw [Holds, get_erase_of_ne _ hspares.1.symm]
          exact hpruned
  | reserve admission request =>
      have hpruned := h.prune hspares
      rcases reserve_cases rounding stringify l admission request with
        ⟨e, -, heq | heq⟩ | ⟨-, -, ⟨existing, -, -, heq⟩ | ⟨v, hnone, -, heq⟩⟩
      · rwa [CapacityLedger.step, heq]
      · rwa [CapacityLedger.step, heq]
      · rwa [CapacityLedger.step, heq]
      · rw [CapacityLedger.step, heq, Holds, get_set_of_ne]
        · exact hpruned
        · rintro rfl
          cases hnone.symm.trans hpruned

/-- What holds of a ledger between two calls: what is used at a time is what the
reservations of that time ask for, and no more than there is; a fresh reservation gets
the longest prefix that has room; and a request that was answered is answered alike
until it is released or expires, without any change but the expiry of others. -/
structure Accounted (rounding : Rounding) (stringify : Admission → String) (capacity : Resource → Int)
    (l : PackagerCapacityLedger) : Prop where
  counted : ∀ now name, (l.snapshot now).1.used name
      = ((l.prune now).reservations.values.map fun r => r.publicValue.demand name).sum
    ∧ ((l.snapshot now).1.used name : Int) ≤ capacity name
  longest : ∀ admission request, assertAdmission admission = .ok () → request.valid = true →
    (l.prune request.now).reservations.get request.reservationId = none →
    Longest rounding (l.prune request.now) admission request admission.renditions.length
      (l.reserveBestEffort rounding stringify admission request).1
  repeated : ∀ admission request v,
    (l.reserveBestEffort rounding stringify admission request).1 = .ok v →
    ∀ calls, (∀ call ∈ calls, call.Spares request.reservationId v.expiresAt) →
    let l' := after rounding stringify
      (l.reserveBestEffort rounding stringify admission request).2 calls
    ∀ request', request'.valid = true → request'.reservationId = request.reservationId →
      request'.now < v.expiresAt →
      l'.reserveBestEffort rounding stringify admission request' = (.ok v, l'.prune request'.now)

end Runs

end CapacityLedger

end WebrtcMinimize
