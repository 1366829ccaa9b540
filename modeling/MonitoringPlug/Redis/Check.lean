import MonitoringPlug.Perfdata.Report

/-! The decision of `check_redis` from its readings, and what showing the
performance data in front of it does to the thresholds. -/
namespace MonitoringPlug.Redis

open Rounding MonitoringPlug.Common MonitoringPlug.Args MonitoringPlug.Perfdata

/-- `max_memory` is -1 when the server did not tell. -/
structure Readings where
  usedMemory : Int
  maxMemory : Int
  timeDelta : ℚ

/-- The two thresholds objects of the plugin. -/
structure PluginThresholds where
  memory : Option Thresholds
  time : Option Thresholds

/-- The part of `main` under `if (mp_showperfdata)`. -/
def reportReadings (readings : Readings) (thresholds : PluginThresholds)
    (perfdata : Option (List Char)) : Option PluginThresholds := do
  let bytes ← mpPerfdataInt2 ['b', 'y', 't', 'e', 's'] readings.usedMemory [] thresholds.memory
    true 0 (readings.maxMemory != -1) readings.maxMemory true perfdata
  let time ← mpPerfdataFloat ['t', 'i', 'm', 'e'] readings.timeDelta ['s'] thresholds.time true
    bytes.perfdata
  some { memory := bytes.threshold, time := time.threshold }

/-- The two `switch`es: a memory alert exits first. `get_status` is given a `double`. -/
def decision (readings : Readings) (thresholds : PluginThresholds) : Status :=
  match getStatus (binary64.round readings.usedMemory) thresholds.memory with
  | .warning => .warning
  | .critical => .critical
  | _ =>
      match getStatus readings.timeDelta thresholds.time with
      | .ok => .ok
      | .warning => .warning
      | _ => .critical

/-- `main` from its readings on. `perfdata` is what was reported before. -/
def exitStatus (showPerfdata : Bool) (readings : Readings) (thresholds : PluginThresholds)
    (perfdata : Option (List Char)) : Option Status :=
  if showPerfdata then (reportReadings readings thresholds perfdata).map (decision readings)
  else some (decision readings thresholds)

section Reading

/-! A bound `p%` is stored as `p / 100`. `part` is the number that it is taken for. -/

variable (part : ℚ → ℚ)

/-- The value is outside the range. -/
def OutsideBy (value : ℚ) (range : Range) : Prop :=
  (value < (if range.startPercent then part range.start else range.start) ∧
      range.startInfinity = false) ∨
    ((if range.endPercent then part range.end_ else range.end_) < value ∧
      range.endInfinity = false)

def AlertsBy (value : ℚ) (range : Range) : Prop :=
  OutsideBy part value range ↔ range.alertOn = .outside

/-- The object has this range and it raises its alert. -/
def RaisesBy (value : ℚ) (thresholds : Option Thresholds) (slot : Slot) : Prop :=
  ∃ t ∈ thresholds, ∃ range ∈ t.get slot, AlertsBy part value range

end Reading

/-- Percent bounds are parts of `whole`. -/
def Raises (whole : ℚ) : ℚ → Option Thresholds → Slot → Prop := RaisesBy (· * whole)

section First

variable (readings : Readings) (thresholds : PluginThresholds) (memory time : ℚ → ℚ)

/-- An alert of the memory, of which the number is the nearest `double`. -/
def MemoryRaises (slot : Slot) : Prop :=
  RaisesBy memory (binary64.round readings.usedMemory) thresholds.memory slot

def TimeRaises (slot : Slot) : Prop := RaisesBy time readings.timeDelta thresholds.time slot

/-- The first range that alerts is a critical one: of the memory ranges the
critical one is asked first, and the time ranges only when neither alerts. -/
def CriticalFirst : Prop :=
  MemoryRaises readings thresholds memory .critical ∨
    (¬MemoryRaises readings thresholds memory .warning ∧
      TimeRaises readings thresholds time .critical)

/-- The first range that alerts is a warning one. -/
def WarningFirst : Prop :=
  ¬MemoryRaises readings thresholds memory .critical ∧
    (MemoryRaises readings thresholds memory .warning ∨
      (¬TimeRaises readings thresholds time .critical ∧
        TimeRaises readings thresholds time .warning))

end First

/-- The maximum the memory bounds are resolved with. -/
def Readings.memoryWhole (readings : Readings) : ℚ :=
  if readings.maxMemory = -1 then 0 else readings.maxMemory

theorem checkRange_outside (value : ℚ) (range : Range) :
    checkRange value range = true ↔
      ((value < range.start ∧ range.startInfinity = false) ∨
        (range.end_ < value ∧ range.endInfinity = false) ↔ range.alertOn = .outside) := by
  rw [checkRange]
  by_cases hLow : value < range.start ∧ range.startInfinity = false
  · simp [hLow]
  · by_cases hHigh : range.end_ < value ∧ range.endInfinity = false
    · rw [if_neg hLow, if_pos hHigh]
      simp [hHigh]
    · rw [if_neg hLow, if_neg hHigh]
      simp only [hLow, hHigh, or_self, false_iff]
      cases range.alertOn <;> simp

theorem checkRange_resolved (types : FloatTypes) (whole value : ℚ) (range : Range) :
    checkRange value (percentResolvRangeWith types whole range) = true ↔
      AlertsBy (types.part whole) value range :=
  checkRange_outside value (percentResolvRangeWith types whole range)

theorem checkRange_written (value : ℚ) (range : Range) :
    checkRange value range = true ↔ AlertsBy id value range := by
  rw [checkRange_outside, AlertsBy, OutsideBy]
  simp only [id_eq, ite_self]

section Decision

variable (readings : Readings) (thresholds : PluginThresholds)

/-- An alert of an object as the check sees it. -/
def Alerting (value : ℚ) (thresholds : Option Thresholds) (slot : Slot) : Bool :=
  (thresholds.bind (·.get slot)).any (checkRange value)

theorem getStatus_eq (value : ℚ) (thresholds : Option Thresholds) :
    getStatus value thresholds =
      if Alerting value thresholds .critical then .critical
      else if Alerting value thresholds .warning then .warning else .ok := by
  cases thresholds with
  | none => rfl
  | some t => rfl

/-- The memory decides as far as it alerts, the time behind it. -/
theorem decision_eq :
    decision readings thresholds =
      if Alerting (binary64.round readings.usedMemory) thresholds.memory .critical then .critical
      else if Alerting (binary64.round readings.usedMemory) thresholds.memory .warning then
        .warning
      else getStatus readings.timeDelta thresholds.time := by
  rw [decision, getStatus_eq, getStatus_eq]
  split_ifs <;> rfl

/-- The decision as the two questions which severity alerts first. -/
theorem decision_iff :
    (decision readings thresholds = .critical ↔
      (Alerting (binary64.round readings.usedMemory) thresholds.memory .critical ∨
        (¬Alerting (binary64.round readings.usedMemory) thresholds.memory .warning ∧
          Alerting readings.timeDelta thresholds.time .critical))) ∧
    (decision readings thresholds = .warning ↔
      (¬Alerting (binary64.round readings.usedMemory) thresholds.memory .critical ∧
        (Alerting (binary64.round readings.usedMemory) thresholds.memory .warning ∨
          (¬Alerting readings.timeDelta thresholds.time .critical ∧
            Alerting readings.timeDelta thresholds.time .warning)))) := by
  rw [decision_eq, getStatus_eq]
  cases Alerting (binary64.round readings.usedMemory) thresholds.memory .critical <;>
    cases Alerting (binary64.round readings.usedMemory) thresholds.memory .warning <;>
    cases Alerting readings.timeDelta thresholds.time .critical <;>
    cases Alerting readings.timeDelta thresholds.time .warning <;> simp

theorem decision_severity :
    decision readings thresholds = .ok ∨ decision readings thresholds = .warning ∨
      decision readings thresholds = .critical := by
  rw [decision_eq]
  split_ifs
  · exact Or.inr (Or.inr rfl)
  · exact Or.inr (Or.inl rfl)
  · exact getStatus_cases _ _

end Decision

section Alerting

variable (types : FloatTypes) (value max : ℚ) (thresholds : Option Thresholds) (slot : Slot)

theorem alerting_written :
    Alerting value thresholds slot = true ↔ RaisesBy id value thresholds slot := by
  cases thresholds with
  | none => simp [Alerting, RaisesBy]
  | some t => simp [Alerting, RaisesBy, Option.any_eq_true, checkRange_written]

theorem alerting_resolved :
    Alerting value (mpPerfdataPercentResolvWith types thresholds max) slot = true ↔
      RaisesBy (types.part max) value thresholds slot := by
  cases thresholds with
  | none => simp [Alerting, RaisesBy, mpPerfdataPercentResolvWith]
  | some t =>
      cases slot with
      | warning =>
          simp [Alerting, RaisesBy, mpPerfdataPercentResolvWith, Thresholds.get,
            Option.any_eq_true, checkRange_resolved]
      | critical =>
          simp [Alerting, RaisesBy, mpPerfdataPercentResolvWith, Thresholds.get,
            Option.any_eq_true, checkRange_resolved]

/-- No part of zero is rounded. -/
theorem alerting_resolved_zero :
    Alerting value (mpPerfdataPercentResolv thresholds 0) slot = true ↔
      Raises 0 value thresholds slot := by
  have hParts : FloatTypes.ieee.part 0 = (· * 0) := by
    funext x
    rw [FloatTypes.part_zero, mul_zero]
  rw [Raises, ← hParts]
  exact alerting_resolved .ieee value 0 thresholds slot

end Alerting

/-- What showing leaves in the two objects, whatever was reported before. -/
theorem reportReadings_eq (readings : Readings) (thresholds : PluginThresholds)
    (perfdata : Option (List Char)) :
    reportReadings readings thresholds perfdata =
      some { memory := mpPerfdataPercentResolv thresholds.memory readings.memoryWhole
             time := mpPerfdataPercentResolv thresholds.time 0 } := by
  obtain ⟨bytes, hBytes, hMemory⟩ := mpPerfdataInt2_threshold ['b', 'y', 't', 'e', 's'] []
    thresholds.memory true (readings.maxMemory != -1) true perfdata readings.usedMemory 0
    readings.maxMemory
  obtain ⟨time, hTime, hTimeThreshold⟩ := mpPerfdataFloat2_threshold ['t', 'i', 'm', 'e'] ['s']
    thresholds.time false false true bytes.perfdata readings.timeDelta 0 0
  have hWhole : (if (readings.maxMemory != -1) = true then (readings.maxMemory : ℚ) else 0) =
      readings.memoryWhole := by
    by_cases hMax : readings.maxMemory = -1 <;> simp [Readings.memoryWhole, hMax]
  rw [hWhole] at hMemory
  simp only [reportReadings, mpPerfdataFloat, Option.bind_eq_bind, hBytes, hTime,
    Option.bind_some, hMemory, hTimeThreshold]
  rfl

/-- The decision after the bounds were resolved with these maxima. -/
theorem decision_resolved (readings : Readings) (thresholds : PluginThresholds) (max other : ℚ) :
    let resolved : PluginThresholds :=
      { memory := mpPerfdataPercentResolv thresholds.memory max
        time := mpPerfdataPercentResolv thresholds.time other }
    let memory := FloatTypes.ieee.part max
    let time := FloatTypes.ieee.part other
    (decision readings resolved = .critical ↔ CriticalFirst readings thresholds memory time) ∧
      (decision readings resolved = .warning ↔ WarningFirst readings thresholds memory time) := by
  intro resolved memory time
  have hDecision := decision_iff readings resolved
  simpa only [resolved, memory, time, mpPerfdataPercentResolv, alerting_resolved, CriticalFirst,
    WarningFirst, MemoryRaises, TimeRaises] using hDecision

theorem decision_written (readings : Readings) (thresholds : PluginThresholds) :
    (decision readings thresholds = .critical ↔ CriticalFirst readings thresholds id id) ∧
      (decision readings thresholds = .warning ↔ WarningFirst readings thresholds id id) := by
  have hDecision := decision_iff readings thresholds
  simpa only [alerting_written, CriticalFirst, WarningFirst, MemoryRaises, TimeRaises]
    using hDecision

theorem decision_eq_iff (readings : Readings) (first second : PluginThresholds) :
    decision readings first = decision readings second ↔
      (decision readings first = .critical ↔ decision readings second = .critical) ∧
        (decision readings first = .warning ↔ decision readings second = .warning) := by
  rcases decision_severity readings first with h | h | h <;>
    rcases decision_severity readings second with h' | h' | h' <;> simp [h, h']

/-- Showing the performance data keeps the exit status exactly when the first
range that alerts is of the same severity for both readings of the percent
bounds: as the plain fractions the parser stored, and as these parts of
`max_memory` (of 0 when it is unknown) and, for the time ranges, of 0. The maximum
is rounded to a `float` and the part to a `double`. -/
theorem exitStatus_showPerfdata_iff (readings : Readings) (thresholds : PluginThresholds)
    (perfdata : Option (List Char)) :
    let memory := FloatTypes.ieee.part readings.memoryWhole
    let time := FloatTypes.ieee.part 0
    exitStatus false readings thresholds perfdata = exitStatus true readings thresholds perfdata ↔
      ((CriticalFirst readings thresholds id id ↔
          CriticalFirst readings thresholds memory time) ∧
        (WarningFirst readings thresholds id id ↔
          WarningFirst readings thresholds memory time)) := by
  intro memory time
  obtain ⟨hCritical, hWarning⟩ := decision_written readings thresholds
  obtain ⟨hCritical', hWarning'⟩ := decision_resolved readings thresholds readings.memoryWhole 0
  rw [exitStatus, exitStatus, reportReadings_eq]
  simp only [Bool.false_eq_true, if_false, if_true, Option.map_some, Option.some.injEq]
  rw [decision_eq_iff, hCritical, hWarning, hCritical', hWarning']

/-- A memory warning at `50%`. -/
def halfOfMemory : PluginThresholds :=
  { memory := some
      { warning := some { defaultRange with end_ := 1 / 2, endPercent := true }, critical := none }
    time := none }

/-- 100 of 1000 bytes are used: a warning without performance data, fine with it. -/
theorem exitStatus_halfOfMemory :
    exitStatus false ⟨100, 1000, 0⟩ halfOfMemory none = some .warning ∧
      exitStatus true ⟨100, 1000, 0⟩ halfOfMemory none = some .ok := by
  rw [exitStatus, exitStatus, reportReadings_eq]
  decide +kernel

end MonitoringPlug.Redis
