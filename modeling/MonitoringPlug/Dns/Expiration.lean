import Mathlib.Order.Bounds.Defs
import MonitoringPlug.Args.Range

/-! `check_dnssec_expiration`: the search for the signature that is valid
longest, and the status taken from what is left of it. -/
namespace MonitoringPlug.Dns

open MonitoringPlug.Common MonitoringPlug.Args

/-- What the loop reads of one RRSIG: whether `ldns_verify_rrsig_keylist`
accepts it, its TTL and its expiration. -/
structure Rrsig where
  verified : Bool
  ttl : UInt32
  exp : UInt32
deriving DecidableEq, Repr

/-- The two variables the loop carries. `longest` is a signed `int`. -/
structure Search where
  longest : Int32
  rrNewest : Option Rrsig
deriving DecidableEq

/-- One round. The comparison of a `uint32_t` with an `int` is made unsigned. -/
def searchStep (s : Search) (rr : Rrsig) : Search :=
  if rr.verified = false then s
  else if rr.exp - rr.ttl > s.longest.toUInt32 then
    { longest := (rr.exp - rr.ttl).toInt32, rrNewest := some rr }
  else s

def searchLongest (rrs : List Rrsig) : Search :=
  rrs.foldl searchStep { longest := 0, rrNewest := none }

/-- What `time(0)` leaves in the `uint32_t` it is stored in, and the argument of
`get_status`, both computed on 32 bits. -/
def remaining (rr : Rrsig) (now : Int) : UInt32 :=
  rr.exp - rr.ttl - UInt32.ofInt now

/-- `main` from the search on. -/
def exitStatus (rrs : List Rrsig) (now : Int) (expThresholds : Option Thresholds) : Status :=
  match (searchLongest rrs).rrNewest with
  | none => .critical
  | some rr => getStatus (remaining rr now).toNat expThresholds

/-- The lifetime of a signature as an integer, its TTL taken off. -/
def Rrsig.lifetime (rr : Rrsig) : Int := (rr.exp.toNat : Int) - rr.ttl.toNat

/-- No signature that verifies has a TTL beyond its expiration. -/
def TtlsCovered (rrs : List Rrsig) : Prop :=
  ∀ rr ∈ rrs, rr.verified = true → rr.ttl ≤ rr.exp

/-- The lifetimes of the signatures that verify. -/
def validLifetimes (rrs : List Rrsig) : Set Int :=
  {l | ∃ rr ∈ rrs, rr.verified = true ∧ rr.lifetime = l}

theorem Rrsig.toNat_exp_sub_ttl {rr : Rrsig} (hCovered : rr.ttl ≤ rr.exp) :
    ((rr.exp - rr.ttl).toNat : Int) = rr.lifetime := by
  have hLe : rr.ttl.toNat ≤ rr.exp.toNat := UInt32.le_iff_toNat_le.mp hCovered
  rw [UInt32.toNat_sub_of_le _ _ hCovered, Rrsig.lifetime, Int.ofNat_sub hLe]

/-- What the loop knows after the signatures `seen`: `longest` is the greatest
lifetime among them, or 0, and `rr_newest` is a signature that has it. -/
structure Longest (seen : List Rrsig) (s : Search) : Prop where
  bound : ∀ rr ∈ seen, rr.verified = true → rr.exp - rr.ttl ≤ s.longest.toUInt32
  newest : ∀ rr ∈ s.rrNewest, rr ∈ seen ∧ rr.verified = true ∧
    rr.exp - rr.ttl = s.longest.toUInt32
  none_iff : s.rrNewest = none ↔ s.longest.toUInt32 = 0

theorem Longest.step {seen : List Rrsig} {s : Search} (h : Longest seen s) (rr : Rrsig) :
    Longest (seen ++ [rr]) (searchStep s rr) := by
  have hKeep (hBound : rr.verified = true → rr.exp - rr.ttl ≤ s.longest.toUInt32) :
      Longest (seen ++ [rr]) s := by
    constructor
    · intro r hr hVerified
      rcases List.mem_append.mp hr with hSeen | hLast
      · exact h.bound r hSeen hVerified
      · rw [List.mem_singleton.mp hLast] at hVerified ⊢
        exact hBound hVerified
    · intro r hr
      obtain ⟨hSeen, hRest⟩ := h.newest r hr
      exact ⟨List.mem_append_left _ hSeen, hRest⟩
    · exact h.none_iff
  rw [searchStep]
  split
  · next hNot => exact hKeep (by simp [hNot])
  · next hVerified =>
      split
      · next hGreater =>
          constructor
          · intro r hr hValid
            show r.exp - r.ttl ≤ (rr.exp - rr.ttl).toInt32.toUInt32
            rw [UInt32.toUInt32_toInt32]
            rcases List.mem_append.mp hr with hSeen | hLast
            · exact UInt32.le_of_lt (UInt32.lt_of_le_of_lt (h.bound r hSeen hValid) hGreater)
            · rw [List.mem_singleton.mp hLast]
              exact UInt32.le_refl _
          · intro r hr
            obtain rfl : rr = r := Option.some.inj hr
            exact ⟨by simp, by simpa using hVerified, by simp⟩
          · have hPositive : rr.exp - rr.ttl ≠ 0 := by
              intro hZero
              rw [hZero] at hGreater
              exact UInt32.not_lt_zero hGreater
            simp [hPositive]
      · next hNotGreater => exact hKeep fun _ => UInt32.not_lt.mp hNotGreater

theorem longest_searchLongest (rrs : List Rrsig) : Longest rrs (searchLongest rrs) := by
  have hRun (rest seen : List Rrsig) (s : Search) (h : Longest seen s) :
      Longest (seen ++ rest) (rest.foldl searchStep s) := by
    induction rest generalizing seen s with
    | nil => simpa using h
    | cons rr rest ih => simpa using ih (seen ++ [rr]) (searchStep s rr) (h.step rr)
  apply hRun rrs [] { longest := 0, rrNewest := none }
  exact ⟨by simp, by simp, ⟨fun _ => rfl, fun _ => rfl⟩⟩

/-- The search ends with the greatest lifetime, unless that is 0: then it found
no signature at all. -/
theorem searchLongest_greatest {rrs : List Rrsig} {greatest : Int} (hCovered : TtlsCovered rrs)
    (hGreatest : IsGreatest (validLifetimes rrs) greatest) :
    ((searchLongest rrs).longest.toUInt32.toNat : Int) = greatest := by
  obtain ⟨⟨rr, hMem, hVerified, hLifetime⟩, hUpper⟩ := hGreatest
  have hLongest := longest_searchLongest rrs
  have hNat := Rrsig.toNat_exp_sub_ttl (hCovered rr hMem hVerified)
  have hBound := UInt32.le_iff_toNat_le.mp (hLongest.bound rr hMem hVerified)
  apply le_antisymm
  · cases hNewest : (searchLongest rrs).rrNewest with
    | none =>
        rw [hLongest.none_iff.mp hNewest]
        have : (0 : UInt32).toNat = 0 := rfl
        omega
    | some newest =>
        obtain ⟨hIn, hValid, hEq⟩ := hLongest.newest newest hNewest
        rw [← hEq, Rrsig.toNat_exp_sub_ttl (hCovered newest hIn hValid)]
        exact hUpper ⟨newest, hIn, hValid, rfl⟩
  · omega

theorem toNat_ofInt (now : Int) : ((UInt32.ofInt now).toNat : Int) = now % 2 ^ 32 := by
  have hNonneg : 0 ≤ now % 2 ^ 32 := Int.emod_nonneg _ (by decide)
  have hLt : now % 2 ^ 32 < 2 ^ 32 := Int.emod_lt_of_pos _ (by decide)
  rw [UInt32.ofInt, UInt32.toNat_ofNat']
  omega

/-- On 32 bits the margin is the true one modulo 2 ^ 32. -/
theorem toNat_sub_ofInt (x : UInt32) (now : Int) :
    ((x - UInt32.ofInt now).toNat : Int) = (x.toNat - now) % 2 ^ 32 := by
  have hNow := toNat_ofInt now
  have hLt := (UInt32.ofInt now).toNat_lt
  rw [UInt32.toNat_sub]
  omega

/-- What the plugin exits with, in terms of the greatest lifetime. -/
theorem exitStatus_eq {rrs : List Rrsig} {greatest : Int} (now : Int)
    (expThresholds : Option Thresholds) (hCovered : TtlsCovered rrs)
    (hGreatest : IsGreatest (validLifetimes rrs) greatest) :
    exitStatus rrs now expThresholds =
      if greatest = 0 then .critical
      else getStatus (((greatest - now) % 2 ^ 32 : Int) : ℚ) expThresholds := by
  have hNat := searchLongest_greatest hCovered hGreatest
  have hLongest := longest_searchLongest rrs
  rw [exitStatus]
  cases hNewest : (searchLongest rrs).rrNewest with
  | none =>
      have hZero := hLongest.none_iff.mp hNewest
      have hNone : greatest = 0 := by
        rw [hZero] at hNat
        exact hNat.symm
      rw [if_pos hNone]
  | some rr =>
      obtain ⟨-, -, hEq⟩ := hLongest.newest rr hNewest
      have hNonzero : greatest ≠ 0 := by
        intro hZero
        have hLongestZero : (searchLongest rrs).longest.toUInt32 = 0 :=
          UInt32.toNat_inj.mp (by rw [hZero] at hNat; simpa using hNat)
        rw [hLongest.none_iff.mpr hLongestZero] at hNewest
        cases hNewest
      have hRemaining := toNat_sub_ofInt (rr.exp - rr.ttl) now
      rw [if_neg hNonzero, ← hNat, ← hEq, ← hRemaining]
      rfl

/-- A threshold that raises an alert on one value only. -/
def onlyAt (value : ℚ) : Thresholds :=
  { warning := none
    critical := some { start := value, startInfinity := false, startPercent := false,
                       end_ := value, endInfinity := false, endPercent := false,
                       alertOn := .inside } }

theorem getStatus_onlyAt (v value : ℚ) :
    getStatus v (some (onlyAt value)) = if v = value then .critical else .ok := by
  rcases lt_trichotomy v value with hLt | rfl | hGt
  · simp [getStatus, onlyAt, checkRange, hLt, hLt.ne]
  · simp [getStatus, onlyAt, checkRange]
  · simp [getStatus, onlyAt, checkRange, hGt, hGt.ne', not_lt.mpr hGt.le]

/-- The greatest lifetime is not 0 and the margin fits the 32 bits it is computed on. -/
def MarginFits (greatest now : Int) : Prop :=
  greatest ≠ 0 ∧ 0 ≤ greatest - now ∧ greatest - now < 2 ^ 32

/-- The status is that of the true margin, for all thresholds alike, exactly when
the margin fits. For given thresholds it is also that of the true margin where
these do not tell it from the value the code has instead. -/
theorem exitStatus_margin_iff {rrs : List Rrsig} {greatest : Int} (now : Int)
    (hCovered : TtlsCovered rrs) (hGreatest : IsGreatest (validLifetimes rrs) greatest) :
    ((∀ expThresholds, exitStatus rrs now expThresholds =
        getStatus ((greatest - now : Int) : ℚ) expThresholds) ↔ MarginFits greatest now) ∧
    ∀ expThresholds, (exitStatus rrs now expThresholds =
        getStatus ((greatest - now : Int) : ℚ) expThresholds ↔
      MarginFits greatest now ∨
      (greatest = 0 ∧ getStatus ((-now : Int) : ℚ) expThresholds = .critical) ∨
      (greatest ≠ 0 ∧ getStatus (((greatest - now) % 2 ^ 32 : Int) : ℚ) expThresholds =
        getStatus ((greatest - now : Int) : ℚ) expThresholds)) := by
  have hEq (expThresholds) := exitStatus_eq now expThresholds hCovered hGreatest
  have hFits (h : MarginFits greatest now) (expThresholds) : exitStatus rrs now expThresholds =
      getStatus ((greatest - now : Int) : ℚ) expThresholds := by
    rw [hEq, if_neg h.1, Int.emod_eq_of_lt h.2.1 h.2.2]
  constructor
  · constructor
    · intro hAll
      have hNonzero : greatest ≠ 0 := by
        intro hZero
        have hNone := hAll none
        rw [hEq, if_pos hZero] at hNone
        simp [getStatus] at hNone
      have hWrapped := hAll (some (onlyAt (((greatest - now) % 2 ^ 32 : Int) : ℚ)))
      rw [hEq, if_neg hNonzero, getStatus_onlyAt, if_pos rfl, getStatus_onlyAt] at hWrapped
      have hSame : greatest - now = (greatest - now) % 2 ^ 32 := by
        by_contra hDiffer
        rw [if_neg (by exact_mod_cast hDiffer)] at hWrapped
        cases hWrapped
      refine ⟨hNonzero, ?_, ?_⟩
      · rw [hSame]
        exact Int.emod_nonneg _ (by decide)
      · rw [hSame]
        exact Int.emod_lt_of_pos _ (by decide)
    · exact hFits
  · intro expThresholds
    constructor
    · intro hStatus
      by_cases hZero : greatest = 0
      · rw [hEq, if_pos hZero, hZero, zero_sub] at hStatus
        exact Or.inr (Or.inl ⟨hZero, hStatus.symm⟩)
      · rw [hEq, if_neg hZero] at hStatus
        exact Or.inr (Or.inr ⟨hZero, hStatus⟩)
    · intro h
      rcases h with hFit | ⟨hZero, hCritical⟩ | ⟨hNonzero, hSame⟩
      · exact hFits hFit expThresholds
      · rw [hEq, if_pos hZero, hZero, zero_sub, hCritical]
      · rw [hEq, if_neg hNonzero, hSame]

/-- The thresholds the plugin sets when it is given none, "2d:" and "1d:". -/
def defaultThresholds : Thresholds :=
  { warning := some { start := 172800, startInfinity := false, startPercent := false,
                      end_ := 0, endInfinity := true, endPercent := false, alertOn := .outside }
    critical := some { start := 86400, startInfinity := false, startPercent := false,
                       end_ := 0, endInfinity := true, endPercent := false,
                       alertOn := .outside } }

/-- It expires ten days and an hour from now, 1700000000. -/
def tenDaysLeft : Rrsig := { verified := true, ttl := 3600, exp := 1700867600 }

/-- It expires half an hour from now and may be cached for an hour. -/
def withinTtl : Rrsig := { verified := true, ttl := 3600, exp := 1700001800 }

theorem isGreatest_singleton (rr : Rrsig) (hVerified : rr.verified = true) :
    IsGreatest (validLifetimes [rr]) rr.lifetime := by
  constructor
  · exact ⟨rr, List.mem_singleton_self rr, hVerified, rfl⟩
  · rintro l ⟨r, hr, -, rfl⟩
    rw [List.mem_singleton.mp hr]

theorem exitStatus_margin_iff_tenDaysLeft :
    exitStatus [tenDaysLeft] 1700000000 (some defaultThresholds) =
      getStatus ((1700864000 - 1700000000 : Int) : ℚ) (some defaultThresholds) := by
  have hCovered : TtlsCovered [tenDaysLeft] := by
    intro rr hr _
    rw [List.mem_singleton.mp hr]
    decide
  have hGreatest := isGreatest_singleton tenDaysLeft rfl
  apply (exitStatus_margin_iff 1700000000 hCovered hGreatest).1.mpr
  exact ⟨by decide, by decide, by decide⟩

/-- A signature that expires within its TTL: half an hour is taken for 136 years. -/
theorem exitStatus_withinTtl :
    TtlsCovered [withinTtl] ∧ IsGreatest (validLifetimes [withinTtl]) 1699998200 ∧
      exitStatus [withinTtl] 1700000000 (some defaultThresholds) = .ok ∧
      getStatus ((1699998200 - 1700000000 : Int) : ℚ) (some defaultThresholds) = .critical := by
  refine ⟨?_, isGreatest_singleton withinTtl rfl, by decide, by decide⟩
  intro rr hr _
  rw [List.mem_singleton.mp hr]
  decide

end MonitoringPlug.Dns
