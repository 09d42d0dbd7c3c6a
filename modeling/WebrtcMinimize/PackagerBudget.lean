import Mathlib.Algebra.Order.BigOperators.Group.List
import Mathlib.Algebra.Order.Group.Nat
import WebrtcMinimize.Maps
import WebrtcMinimize.ProgramCommand

/-!
# What native packagers may use

The planning limits on the admitted assignments, for the whole deployment,
within a tenant and within one principal of it, and the encoder time that is
authorized in each hour. Neither measures what a host really does.
-/

namespace WebrtcMinimize

open Checks

namespace PackagerBudget

open List Nat

/-! ## Admissions -/

structure Rendition where
  id : String
  width : Nat
  height : Nat
  framesPerSecond : Nat
  videoBitsPerSecond : Nat
  audioBitsPerSecond : Nat
deriving DecidableEq

/-- What a capability was admitted to do; an audio output is kept as its text. -/
structure Admission where
  admissionVersion : Nat
  roomId : String
  programId : String
  programEpoch : Int
  resourceRef : String
  videoEncoder : String
  softwareFallback : String
  profileId : String
  renditions : List Rendition
  maximumQueueFrames : Nat
  keyframeIntervalSeconds : Nat
  audioOutput : Option String
deriving DecidableEq

/-! ## Resources -/

inductive ResourceField
  | cpuUnits
  | memoryMiB
  | encoderSlots
  | gpuSlots
  | egressBitsPerSecond
deriving DecidableEq

def resourceFields : List ResourceField :=
  [.cpuUnits, .memoryMiB, .encoderSlots, .gpuSlots, .egressBitsPerSecond]

abbrev Amounts := ResourceField → Nat

def Rendition.ok (r : Rendition) : Bool :=
  [r.width, r.height, r.framesPerSecond, r.videoBitsPerSecond, r.audioBitsPerSecond].all
    fun v => decide (1 ≤ v ∧ v ≤ 1000000000)

/-- A number rounded to 53 binary digits, to the even one of two that are as near. -/
def round53 (n : Nat) : Nat :=
  let unit := 2 ^ (n.log2 + 1 - 53)
  let q := n / unit
  let r := n % unit
  if 2 * r < unit ∨ (2 * r = unit ∧ q % 2 = 0) then q * unit else (q + 1) * unit

/-- `Math.ceil(n * 1.15)`: the factor is the double nearest to 1.15, and the
product is one too. -/
def ceilEgress (n : Nat) : Nat := (round53 (n * 2589569785738035) + (2 ^ 51 - 1)) / 2 ^ 51

def pixels (renditions : List Rendition) : Nat :=
  (renditions.map fun r => r.width * r.height * r.framesPerSecond).sum

def bitrate (renditions : List Rendition) : Nat :=
  (renditions.map fun r => r.videoBitsPerSecond + r.audioBitsPerSecond).sum

/-- `nativePackagerResourceDemand` -/
def demand (a : Admission) : Option Amounts :=
  if a.admissionVersion ∉ [1, 2, 3] ∨ a.softwareFallback ≠ "libx264"
      ∨ a.videoEncoder ∉ ["libx264", "h264_nvenc", "h264_videotoolbox"]
      ∨ a.renditions.length < 1 ∨ 3 < a.renditions.length
      ∨ a.renditions.all Rendition.ok = false
      ∨ maxSafeInteger < pixels a.renditions ∨ maxSafeInteger < bitrate a.renditions then
    none
  else
    some fun
      | .cpuUnits => max 1 ((pixels a.renditions + 999999) / 1000000)
      | .memoryMiB => 128 + 96 * a.renditions.length
      | .encoderSlots => a.renditions.length
      | .gpuSlots => if a.videoEncoder = "libx264" then 0 else a.renditions.length
      | .egressBitsPerSecond => ceilEgress (bitrate a.renditions)

example : ceilEgress 100 = 115 ∧ ceilEgress 564000 = 648600 := by decide

/-- The demand of one of the fields; nothing where there is no demand. -/
def amount (f : ResourceField) (a : Admission) : Nat := ((demand a).map (· f)).getD 0

def snapshot (occupied : List Admission) : Option Amounts :=
  if 20000 < occupied.length then none
  else occupied.foldlM (fun used a =>
    match demand a with
    | none => none
    | some d =>
        if resourceFields.any fun f => decide (maxSafeInteger < used f + d f) then none
        else some fun f => used f + d f) fun _ => 0

/-- `NativePackagerResourceBudget.allows` -/
def allowsWithin (limits : Amounts) (candidate : Admission) (occupied : List Admission) : Bool :=
  match snapshot occupied, demand candidate with
  | some used, some d => resourceFields.all fun f =>
      decide (used f + d f ≤ maxSafeInteger) && decide (used f + d f ≤ limits f)
  | _, _ => false

/-- An assignment as the budget sees it. -/
structure Occupant where
  tenantId : String
  ownerPrincipal : String
  admission : Admission
deriving DecidableEq

def Occupant.ok (o : Occupant) : Bool :=
  refOK "tn_" o.tenantId && decide (1 ≤ utf16Length o.ownerPrincipal)
    && decide (utf16Length o.ownerPrincipal ≤ 1024)
    && o.ownerPrincipal.toList.all fun c => ble 0x20 c.toNat && c.toNat != 0x7f

structure ResourceLimits where
  deployment : Amounts
  tenant : Amounts
  principal : Amounts

def ofTenant (tenantId : String) (occupied : List Occupant) : List Occupant :=
  occupied.filter fun o => decide (o.tenantId = tenantId)

def ofPrincipal (tenantId ownerPrincipal : String) (occupied : List Occupant) : List Occupant :=
  (ofTenant tenantId occupied).filter fun o => decide (o.ownerPrincipal = ownerPrincipal)

def allows (l : ResourceLimits) (c : Occupant) (occupied : List Occupant) : Bool :=
  c.ok && decide (occupied.length ≤ 20000) && occupied.all Occupant.ok
    && allowsWithin l.deployment c.admission (occupied.map Occupant.admission)
    && allowsWithin l.tenant c.admission ((ofTenant c.tenantId occupied).map Occupant.admission)
    && allowsWithin l.principal c.admission
      ((ofPrincipal c.tenantId c.ownerPrincipal occupied).map Occupant.admission)

/-! ### What is within the limits -/

/-- How much of a field the assignments occupy. -/
def used (f : ResourceField) (occupied : List Occupant) : Nat :=
  (occupied.map fun o => amount f o.admission).sum

structure Within (l : ResourceLimits) (occupied : List Occupant) : Prop where
  deployment : ∀ f, used f occupied ≤ l.deployment f
  tenant : ∀ f t, used f (ofTenant t occupied) ≤ l.tenant f
  principal : ∀ f t p, used f (ofPrincipal t p occupied) ≤ l.principal f

theorem used_sublist (f : ResourceField) {xs ys : List Occupant} (h : xs.Sublist ys) :
    used f xs ≤ used f ys :=
  (h.map fun o : Occupant => amount f o.admission).sum_le_sum fun _ _ => zero_le _

theorem used_append (f : ResourceField) (xs ys : List Occupant) :
    used f (xs ++ ys) = used f xs + used f ys := by
  rw [used, map_append, sum_append_nat]
  rfl

theorem Within.sublist {l : ResourceLimits} {xs ys : List Occupant} (h : Within l ys)
    (hsub : xs.Sublist ys) : Within l xs where
  deployment f := (used_sublist f hsub).trans (h.deployment f)
  tenant f t := (used_sublist f (hsub.filter _)).trans (h.tenant f t)
  principal f t p := (used_sublist f ((hsub.filter _).filter _)).trans (h.principal f t p)

theorem within_nil (l : ResourceLimits) : Within l [] where
  deployment _ := zero_le _
  tenant _ _ := zero_le _
  principal _ _ _ := zero_le _

theorem mem_resourceFields (f : ResourceField) : f ∈ resourceFields := by
  cases f <;> decide

theorem foldlM_used {u v : Amounts} : ∀ {as : List Admission}, as.foldlM (fun used a =>
      match demand a with
      | none => none
      | some d =>
          if resourceFields.any fun f => decide (maxSafeInteger < used f + d f) then none
          else some fun f => used f + d f) u = some v →
      ∀ f, v f = u f + (as.map (amount f)).sum
  | [], h, f => by
      cases h
      simp
  | a :: as, h, f => by
      rw [foldlM_cons, Option.bind_eq_bind, Option.bind_eq_some_iff] at h
      obtain ⟨w, hw, hrest⟩ := h
      have hv := foldlM_used hrest f
      cases hd : demand a with
      | none =>
          rw [hd] at hw
          cases hw
      | some d =>
          simp only [hd] at hw
          split at hw
          · cases hw
          · cases hw
            have ha : amount f a = d f := by simp [amount, hd]
            rw [hv, map_cons, sum_cons, ha, add_assoc]

theorem snapshot_used {as : List Admission} {u : Amounts} (h : snapshot as = some u)
    (f : ResourceField) : u f = (as.map (amount f)).sum := by
  rw [snapshot] at h
  split at h
  · cases h
  · rw [foldlM_used h f, zero_add]

theorem allowsWithin_used {limits : Amounts} {c : Occupant} {occupied : List Occupant}
    (h : allowsWithin limits c.admission (occupied.map Occupant.admission) = true)
    (f : ResourceField) : used f (occupied ++ [c]) ≤ limits f := by
  unfold allowsWithin at h
  split at h
  · rename_i u d hu hd
    have hf := all_eq_true.mp h f (mem_resourceFields f)
    rw [Bool.and_eq_true, decide_eq_true_eq, decide_eq_true_eq] at hf
    have hused := snapshot_used hu f
    rw [map_map] at hused
    have hc : used f [c] = d f := by simp [used, amount, hd]
    rw [used_append, hc]
    refine le_trans (le_of_eq ?_) hf.2
    rw [hused]
    rfl
  · cases h

theorem ofTenant_append (t : String) (xs : List Occupant) (c : Occupant) :
    ofTenant t (xs ++ [c]) = if c.tenantId = t then ofTenant t xs ++ [c] else ofTenant t xs := by
  rw [ofTenant, filter_append]
  split <;> simp [ofTenant, *]

theorem ofPrincipal_append (t p : String) (xs : List Occupant) (c : Occupant) :
    ofPrincipal t p (xs ++ [c]) =
      if c.tenantId = t ∧ c.ownerPrincipal = p then ofPrincipal t p xs ++ [c]
      else ofPrincipal t p xs := by
  rw [ofPrincipal, ofTenant_append]
  by_cases ht : c.tenantId = t
  · rw [if_pos ht, filter_append]
    by_cases hp : c.ownerPrincipal = p <;> simp [ofPrincipal, ht, hp]
  · rw [if_neg ht, if_neg fun h => ht h.1, ofPrincipal]

/-- What is allowed beside more than there is fits in with what there is. -/
theorem Within.admitted {l : ResourceLimits} {c : Occupant} {xs ys : List Occupant}
    (h : Within l xs) (hallows : allows l c ys = true) (hsub : xs.Sublist ys) :
    Within l (xs ++ [c]) := by
  simp only [allows, Bool.and_eq_true] at hallows
  obtain ⟨⟨⟨-, hdeployment⟩, htenant⟩, hprincipal⟩ := hallows
  refine ⟨fun f => ?_, fun f t => ?_, fun f t p => ?_⟩
  · exact (used_sublist f (hsub.append_right [c])).trans (allowsWithin_used hdeployment f)
  · rw [ofTenant_append]
    split
    · rename_i ht
      subst ht
      exact (used_sublist f ((hsub.filter _).append_right [c])).trans (allowsWithin_used htenant f)
    · exact h.tenant f t
  · rw [ofPrincipal_append]
    split
    · rename_i htp
      obtain ⟨rfl, rfl⟩ := htp
      exact (used_sublist f (((hsub.filter _).filter _).append_right [c])).trans
        (allowsWithin_used hprincipal f)
    · exact h.principal f t p

/-! ## Encoder time -/

def encoderWindowMs : Int := 3600000

/-- Whose time a bucket counts. The source hashes the last two under a key of
its own. -/
inductive EncoderScope
  | deployment
  | tenant (tenantId : String)
  | principal (tenantId ownerPrincipal : String)
deriving DecidableEq

structure EncoderLimits where
  deployment : Int
  tenant : Int
  principal : Int
  maximumBuckets : Nat

structure Bucket where
  window : Int
  used : Int
deriving DecidableEq

/-- `NativeEncoderTimeBudget` -/
structure EncoderTime where
  buckets : KeyedMap (Int × EncoderScope) Bucket
  observedAt : Int
  blocked : Bool

def EncoderTime.new : EncoderTime := ⟨.empty, 0, false⟩

/-- `#observe`; a clock that goes back blocks the budget for good. -/
def EncoderTime.observe (b : EncoderTime) (now : Int) : EncoderTime :=
  if now < 1 ∨ (maxSafeInteger : Int) - 2 * encoderWindowMs < now ∨ now < b.observedAt
      ∨ b.blocked = true then
    { b with blocked := true }
  else
    { b with
      observedAt := now
      buckets := b.buckets.keep fun _ bucket => decide (now < bucket.window + encoderWindowMs) }

structure Planned where
  key : Int × EncoderScope
  used : Int
  limit : Int

/-- The windows from one time to another, with the milliseconds in each. -/
def windows : Nat → Int → Int → List (Int × Int)
  | 0, _, _ => []
  | rounds + 1, start, until' =>
      if start < until' then
        let window := start / encoderWindowMs * encoderWindowMs
        let stop := min until' (window + encoderWindowMs)
        (window, stop - start) :: windows rounds stop until'
      else []

/-- `^[^\u0000-\u001f\u007f]{1,2049}$` -/
def ownerOK (s : String) : Bool :=
  decide (1 ≤ utf16Length s) && decide (utf16Length s ≤ 2049)
    && s.toList.all fun c => ble 0x20 c.toNat && c.toNat != 0x7f

/-- `#plan`, after the look at the clock. -/
def EncoderTime.plan (b : EncoderTime) (l : EncoderLimits) (tenantId ownerPrincipal : String)
    (slots : Nat) (start until' now : Int) : Option (List Planned) :=
  if b.blocked = true ∨ refOK "tn_" tenantId = false ∨ ownerOK ownerPrincipal = false
      ∨ slots < 1 ∨ 3 < slots ∨ start < now ∨ now + 120000 < start ∨ until' < start
      ∨ now + 120000 < until' then
    none
  else
    -- two minutes reach into two windows at most
    let plan := (windows 2 start until').flatMap fun w =>
      [(EncoderScope.deployment, l.deployment), (.tenant tenantId, l.tenant),
        (.principal tenantId ownerPrincipal, l.principal)].map fun scope =>
          { key := (w.1, scope.1)
            used := ((b.buckets.get (w.1, scope.1)).map Bucket.used).getD 0 + w.2 * slots
            limit := scope.2 * 60000 : Planned }
    if plan.any (fun p => decide (p.limit < p.used)) = true
        ∨ l.maximumBuckets < b.buckets.size
          + (plan.filter fun p => (b.buckets.get p.key).isNone).length then
      none
    else some plan

def EncoderTime.allows (b : EncoderTime) (l : EncoderLimits) (tenantId ownerPrincipal : String)
    (slots : Nat) (start until' now : Int) : EncoderTime × Bool :=
  let b := b.observe now
  (b, (b.plan l tenantId ownerPrincipal slots start until' now).isSome)

def EncoderTime.reserve (b : EncoderTime) (l : EncoderLimits) (tenantId ownerPrincipal : String)
    (slots : Nat) (start until' now : Int) : EncoderTime × Bool :=
  let b := b.observe now
  match b.plan l tenantId ownerPrincipal slots start until' now with
  | none => (b, false)
  | some plan =>
      ({ b with
        buckets := plan.foldl (fun m p => m.set p.key ⟨p.key.1, p.used⟩) b.buckets }, true)

end PackagerBudget

end WebrtcMinimize
