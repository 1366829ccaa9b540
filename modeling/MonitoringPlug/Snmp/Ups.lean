import Mathlib.Algebra.Order.Field.Basic
import MonitoringPlug.Common.Severity
import MonitoringPlug.Perfdata.Report

/-! `check_snmp_ups` from the query on: the blocks that judge the readings one after the
other, the status line and the performance data. -/
namespace MonitoringPlug.Snmp

open CText MonitoringPlug.Common MonitoringPlug.Utils MonitoringPlug.Args MonitoringPlug.Perfdata

/-- `LONG_MIN`. -/
def longMin : Int := -2 ^ 63

/-- The targets of the query. A number that the agent did not give is `LONG_MIN`. -/
structure Ups where
  ident : Option (List Char)
  batteryStatus : Int
  secondsOnBattery : Int
  remainingRuntime : Int
  remainingCharge : Int
  batteryVoltage : Int
  batteryCurrent : Int
  batteryTemperature : Int
  inputLineBads : Int
  inputLines : Int
  outputSource : Int
  outputFrequency : Int
  outputLines : Int
  alarmsPresent : Int

/-- The two thresholds objects of the plugin, by what they are for. -/
inductive Quantity where
  | charge
  | runtime
deriving DecidableEq

def Quantity.value (ups : Ups) : Quantity → Int
  | .charge => ups.remainingCharge
  | .runtime => ups.remainingRuntime

abbrev UpsThresholds := Quantity → Option Thresholds

/-- The objects when no argument changes them. -/
def defaultThresholds : UpsThresholds
  | .charge => some (mpThresholdSetCritical
      (some (mpThresholdSetWarning none "@25".toList .noext).2) "@15".toList .noext).2
  | .runtime => some (mpThresholdSetCritical
      (some (mpThresholdSetWarning none "@10".toList .noext).2) "@5".toList .noext).2

/-- A `long` as an `int`. -/
def toInt (n : Int) : Int := n.bmod (2 ^ 32)

def batteryStatusStrings : List (List Char) :=
  ["unknown".toList, "normal".toList, "LOW".toList, "DEPLETED".toList]

def outputSourceStrings : List (List Char) :=
  ["other".toList, "none".toList, "normal".toList, "BYPASS".toList, "BATTERY".toList,
    "BOOSTER".toList, "REDUCER".toList]

def batteryStatusToString (status : Int) : List Char :=
  if status ≥ 1 ∧ status ≤ 4 then batteryStatusStrings.getD (status - 1).toNat []
  else "N/A".toList

def outputSourceToString (source : Int) : List Char :=
  if source ≥ 1 ∧ source ≤ 7 then outputSourceStrings.getD (source - 1).toNat []
  else "N/A".toList

/-- The text in a buffer of that size. Where it does not fit the plugin exits. -/
def mpSnprintf (size : Nat) (text : List Char) : Option (List Char) :=
  if text.length < size then some text else none

/-- `state` and `output`. -/
structure UpsState where
  state : Status
  output : Option (List Char)

def UpsState.strcat (s : UpsState) (text : List Char) : UpsState :=
  { s with output := mpStrcat s.output (some text) }

def UpsState.strcatComma (s : UpsState) (text : List Char) : UpsState :=
  { s with output := mpStrcatComma s.output (some text) }

/-- Print into `buf` and append it. -/
def UpsState.print (s : UpsState) (text : List Char) : Option UpsState :=
  (mpSnprintf 64 text).map s.strcat

def UpsState.printComma (s : UpsState) (text : List Char) : Option UpsState :=
  (mpSnprintf 64 text).map s.strcatComma

def printIdent (ups : Ups) (s : UpsState) : Option UpsState :=
  match ups.ident with
  | none => some s
  | some ident => if ident = [] then some s else s.print ('[' :: ident ++ "] ".toList)

/-- A count is in the plural unless it is one. -/
def plural (n : Int) : List Char := if n ≠ 1 then ['s'] else []

def checkOnBattery (ups : Ups) (s : UpsState) : Option UpsState :=
  if ups.secondsOnBattery > 0 ∨ ups.outputSource = 5 then
    let s := { s with state := .warning }
    if ups.secondsOnBattery > 0 then
      s.print ("ON BATTERY (since ".toList ++ formatLong (toInt ups.secondsOnBattery) ++
        " sec".toList ++ plural ups.secondsOnBattery ++ "), ".toList)
    else some (s.strcat "ON BATTERY, ".toList)
  else some s

def checkAlarms (ups : Ups) (s : UpsState) : UpsState :=
  if ups.alarmsPresent ≠ longMin ∧ ups.alarmsPresent > 0 then
    let s := if s.state ≠ .critical then { s with state := .warning } else s
    if ups.alarmsPresent = 1 then s.strcat "UPS REPORTS AN ALARM, ".toList
    else s.strcat "UPS REPORTS MULTIPLE ALARMS, ".toList
  else s

/-- The status that a quantity enters the decision with, if the agent told it. -/
def judged (value : Int) (threshold : Option Thresholds) : Option Status :=
  if value > longMin then some (getStatus value threshold) else none

/-- The blocks for the remaining runtime and the remaining charge. -/
def checkRemaining (name : List Char) (value : Int) (threshold : Option Thresholds)
    (s : UpsState) : UpsState :=
  match judged value threshold with
  | some .critical => { s with state := .critical }.strcat (name ++ " CRITICAL, ".toList)
  | some .warning =>
      (if s.state = .ok then { s with state := .warning } else s).strcat
        (name ++ " WARNING, ".toList)
  | _ => s

def checkRuntime (ups : Ups) (thresholds : UpsThresholds) : UpsState → UpsState :=
  checkRemaining "RUNTIME".toList ups.remainingRuntime (thresholds .runtime)

def checkCharge (ups : Ups) (thresholds : UpsThresholds) : UpsState → UpsState :=
  checkRemaining "CHARGE".toList ups.remainingCharge (thresholds .charge)

def checkBatteryStatus (ups : Ups) (s : UpsState) : UpsState :=
  if ups.batteryStatus = 2 then s
  else if ups.batteryStatus = 3 ∨ ups.batteryStatus = 4 then { s with state := .critical }
  else if s.state = .ok then { s with state := .unknown }
  else s

def checkOutputSource (ups : Ups) (s : UpsState) : UpsState :=
  if ups.outputSource = 3 then s
  else if ups.outputSource = 1 ∨ ups.outputSource = 4 ∨ ups.outputSource = 6 ∨
      ups.outputSource = 7 ∨ ups.outputSource = 5 then
    if s.state ≠ .critical then { s with state := .warning } else s
  else if ups.outputSource = 2 then { s with state := .critical }
  else if s.state = .ok then { s with state := .unknown }
  else s

def printRemaining (ups : Ups) (s : UpsState) : Option UpsState :=
  let minutes := "remaining: ".toList ++ formatLong ups.remainingRuntime ++ " min".toList ++
    plural ups.remainingRuntime
  let percent := formatLong (toInt ups.remainingCharge) ++ ['%']
  if ups.remainingRuntime > longMin ∧ ups.remainingCharge > longMin then
    s.printComma (minutes ++ " [".toList ++ percent ++ [']'])
  else if ups.remainingRuntime > longMin then s.printComma minutes
  else if ups.remainingCharge > longMin then s.printComma ("remaining: ".toList ++ percent)
  else some s

/-- `n * 0.1f`. -/
def tenth (n : Int) : ℚ := n / 10

/-- A part of the extended status. -/
def printReading (value : Int) (text : List Char) (s : UpsState) : Option UpsState :=
  if value > longMin then s.printComma text else some s

def printExtended (ups : Ups) (s : UpsState) : Option UpsState := do
  let s ← printReading ups.batteryVoltage
    ("voltage: ".toList ++ formatFixed 0 (tenth ups.batteryVoltage) ++ " V".toList) s
  let s ← printReading ups.batteryCurrent
    ("current: ".toList ++ formatFixed 1 (tenth ups.batteryCurrent) ++ " A".toList) s
  let s ← printReading ups.batteryTemperature
    ("temperature: ".toList ++ formatLong ups.batteryTemperature ++ " C".toList) s
  let s ← printReading ups.outputFrequency
    ("output frequency: ".toList ++ formatFixed 1 (tenth ups.outputFrequency) ++ " Hz".toList) s
  printReading ups.inputLineBads
    ("input line bads: ".toList ++ formatLong ups.inputLineBads) s

/-- From the identification to the end of the status line. -/
def judgeUps (ups : Ups) (thresholds : UpsThresholds) (extendedStatus : Bool) :
    Option UpsState := do
  let s ← printIdent ups { state := .ok, output := none }
  let s ← checkOnBattery ups s
  let s := checkAlarms ups s
  let s := checkRuntime ups thresholds s
  let s := checkCharge ups thresholds s
  let s := checkBatteryStatus ups s
  let s := checkOutputSource ups s
  let s ← s.print ("battery: ".toList ++ batteryStatusToString (toInt ups.batteryStatus))
  let s ← printRemaining ups s
  let s ← s.printComma ("source: ".toList ++ outputSourceToString (toInt ups.outputSource))
  if extendedStatus then printExtended ups s else some s

/-- A call that reports a value, with the thresholds object it takes. -/
inductive UpsReport where
  | int (label : List Char) (value : Int) (unit : List Char) (threshold : Option Quantity)
  | float (label : List Char) (value : ℚ) (unit : List Char) (threshold : Option Quantity)

def UpsReport.value : UpsReport → ℚ
  | .int _ value _ _ => value
  | .float _ value _ _ => value

def UpsReport.threshold : UpsReport → Option Quantity
  | .int _ _ _ threshold => threshold
  | .float _ _ _ threshold => threshold

/-- The calls with the readings that their `if`s ask for. -/
def possibleReports (ups : Ups) : List (Int × UpsReport) :=
  [(ups.remainingCharge,
      .int "remaining_charge".toList ups.remainingCharge ['%'] (some .charge)),
    (ups.remainingRuntime,
      .int "remaining_runtime".toList ups.remainingCharge "minutes".toList (some .runtime)),
    (ups.batteryVoltage, .float "battery_voltage".toList (tenth ups.batteryVoltage) ['V'] none),
    (ups.batteryCurrent, .float "battery_current".toList (tenth ups.batteryCurrent) ['A'] none),
    (ups.batteryTemperature,
      .int "battery_temperature".toList ups.batteryTemperature ['C'] none),
    (ups.outputFrequency,
      .float "output_frequency".toList (tenth ups.outputFrequency) "Hz".toList none),
    (ups.inputLineBads, .int "input_line_bads".toList ups.inputLineBads [] none)]

def upsReports (ups : Ups) : List UpsReport :=
  ((possibleReports ups).filter fun report => report.1 > longMin).map Prod.snd

/-- The calls that are made behind the status line. -/
def shownReports (ups : Ups) (showPerfdata : Bool) : List UpsReport :=
  if showPerfdata then upsReports ups else []

/-- The calls that are made. An exit of `mp_snprintf` comes before them. -/
def madeReports (ups : Ups) (thresholds : UpsThresholds) (extendedStatus showPerfdata : Bool) :
    List UpsReport :=
  match judgeUps ups thresholds extendedStatus with
  | none => []
  | some _ => shownReports ups showPerfdata

/-- `mp_perfdata` and the thresholds objects. -/
structure UpsPerfdata where
  perfdata : Option (List Char)
  thresholds : UpsThresholds

/-- What a call gave back. A NULL pointer has no object to resolve. -/
def UpsPerfdata.after (s : UpsPerfdata) (threshold : Option Quantity) (reported : Reported) :
    UpsPerfdata :=
  { perfdata := reported.perfdata
    thresholds := match threshold with
      | none => s.thresholds
      | some q => Function.update s.thresholds q reported.threshold }

/-- `mp_showperfdata` is set. -/
def UpsReport.step (s : UpsPerfdata) : UpsReport → Option UpsPerfdata
  | .int label value unit threshold =>
      (mpPerfdataInt label value unit (threshold.bind s.thresholds) true s.perfdata).map
        (s.after threshold)
  | .float label value unit threshold =>
      (mpPerfdataFloat label value unit (threshold.bind s.thresholds) true s.perfdata).map
        (s.after threshold)

def reportUps (thresholds : UpsThresholds) (reports : List UpsReport) : Option UpsPerfdata :=
  reports.foldlM UpsReport.step { perfdata := none, thresholds := thresholds }

/-- What the plugin prints and the state it exits with. -/
structure UpsExit where
  verbose : List (List Char)
  state : Status
  message : List Char
  perfdata : Option (List Char)

def verboseLines (ups : Ups) : List (List Char) :=
  ["battery status: ".toList ++ formatLong ups.batteryStatus,
    "output source: ".toList ++ formatLong ups.outputSource,
    "alarms present: ".toList ++ formatLong ups.alarmsPresent,
    "input lines: ".toList ++ formatLong ups.inputLines,
    "output lines: ".toList ++ formatLong ups.outputLines,
    "input line bads: ".toList ++ formatLong ups.inputLineBads]

/-- `main` behind the query. No result is a read outside of a string. -/
def checkSnmpUps (ups : Ups) (thresholds : UpsThresholds) (extendedStatus : Bool) (verbose : Nat)
    (showPerfdata : Bool) : Option UpsExit :=
  let printed := if verbose > 1 then verboseLines ups else []
  match judgeUps ups thresholds extendedStatus with
  | none =>
      some { verbose := printed, state := .critical, message := "snprintf failed!".toList,
             perfdata := none }
  | some s =>
      (reportUps thresholds (shownReports ups showPerfdata)).map fun reported =>
        { verbose := printed
          state := match s.state with
            | .ok => .ok
            | .warning => .warning
            | .critical => .critical
            | _ => .unknown
          message := "UPS: ".toList ++ s.output.getD "(null)".toList
          perfdata := reported.perfdata }

/-- An INTEGER, or a COUNTER or GAUGE, of 32 bits. -/
abbrev Int32Value := { n : Int // -2 ^ 31 ≤ n ∧ n < 2 ^ 32 }

/-- What the agent told. -/
structure UpsReadings where
  ident : Option (List Char)
  batteryStatus : Option Int32Value
  secondsOnBattery : Option Int32Value
  remainingRuntime : Option Int32Value
  remainingCharge : Option Int32Value
  batteryVoltage : Option Int32Value
  batteryCurrent : Option Int32Value
  batteryTemperature : Option Int32Value
  inputLineBads : Option Int32Value
  inputLines : Option Int32Value
  outputSource : Option Int32Value
  outputFrequency : Option Int32Value
  outputLines : Option Int32Value
  alarmsPresent : Option Int32Value

/-- The target behind the query. -/
def long (reading : Option Int32Value) : Int := reading.elim longMin Subtype.val

def UpsReadings.ups (r : UpsReadings) : Ups where
  ident := r.ident
  batteryStatus := long r.batteryStatus
  secondsOnBattery := long r.secondsOnBattery
  remainingRuntime := long r.remainingRuntime
  remainingCharge := long r.remainingCharge
  batteryVoltage := long r.batteryVoltage
  batteryCurrent := long r.batteryCurrent
  batteryTemperature := long r.batteryTemperature
  inputLineBads := long r.inputLineBads
  inputLines := long r.inputLines
  outputSource := long r.outputSource
  outputFrequency := long r.outputFrequency
  outputLines := long r.outputLines
  alarmsPresent := long r.alarmsPresent

/-- The reading is this number. -/
def Tells (reading : Option Int32Value) (n : Int) : Prop := ∃ value ∈ reading, value.val = n

/-- The reading is a positive number. -/
def Positive (reading : Option Int32Value) : Prop := ∃ value ∈ reading, 0 < value.val

instance (reading : Option Int32Value) (n : Int) : Decidable (Tells reading n) :=
  decidable_of_iff (reading.any (·.val = n) = true) (by simp [Tells, Option.any_eq_true])

instance (reading : Option Int32Value) : Decidable (Positive reading) :=
  decidable_of_iff (reading.any (0 < ·.val) = true) (by simp [Positive, Option.any_eq_true])

/-- A remaining quantity is judged when the agent told it. -/
def remainingStatus (reading : Option Int32Value) (threshold : Option Thresholds) : Status :=
  reading.elim .ok fun value => getStatus value.val threshold

namespace UpsReadings

variable (r : UpsReadings)

/-- The identification fits `buf` in its brackets. -/
def IdentFits : Prop := ∀ ident ∈ r.ident, ident.length + 3 < 64

def onBattery : Status :=
  if Positive r.secondsOnBattery ∨ Tells r.outputSource 5 then .warning else .ok

def alarms : Status := if Positive r.alarmsPresent then .warning else .ok

/-- Normal, low and depleted; anything else is unknown. -/
def battery : Status :=
  if Tells r.batteryStatus 2 then .ok
  else if Tells r.batteryStatus 3 ∨ Tells r.batteryStatus 4 then .critical
  else .unknown

/-- Normal; other, bypass, battery, booster and reducer; none. -/
def source : Status :=
  if Tells r.outputSource 3 then .ok
  else if Tells r.outputSource 1 ∨ Tells r.outputSource 4 ∨ Tells r.outputSource 5 ∨
      Tells r.outputSource 6 ∨ Tells r.outputSource 7 then .warning
  else if Tells r.outputSource 2 then .critical
  else .unknown

/-- The conditions that are looked at. -/
def conditions (thresholds : UpsThresholds) : List Status :=
  [r.onBattery, r.alarms, remainingStatus r.remainingRuntime (thresholds .runtime),
    remainingStatus r.remainingCharge (thresholds .charge), r.battery, r.source]

end UpsReadings

section Reading

variable (reading : Option Int32Value)

theorem longMin_lt_iff : longMin < long reading ↔ reading.isSome = true := by
  cases reading with
  | none => simp [long]
  | some value =>
      have hLower := value.property.1
      simp only [long, longMin, Option.elim_some, Option.isSome_some, iff_true]
      omega

theorem long_eq_iff {n : Int} (h : longMin < n) : long reading = n ↔ Tells reading n := by
  cases reading with
  | none => simp [long, Tells, h.ne]
  | some value => simp [long, Tells]

variable {reading} in
theorem long_of_mem {value : Int32Value} (h : value ∈ reading) : long reading = value.val := by
  rw [long, Option.mem_def.mp h, Option.elim_some]

theorem long_pos_iff : 0 < long reading ↔ Positive reading := by
  cases reading with
  | none => simp [long, Positive, longMin]
  | some value => simp [long, Positive]

theorem judged_long (threshold : Option Thresholds) :
    judged (long reading) threshold = reading.map fun value => getStatus value.val threshold := by
  cases reading with
  | none => exact if_neg (lt_irrefl _)
  | some value => exact if_pos ((longMin_lt_iff _).mpr rfl)

/-- A number that the agent told has ten digits at most. -/
theorem long_digits (h : longMin < long reading) : (long reading).natAbs < 10 ^ 10 := by
  cases reading with
  | none => exact absurd h (lt_irrefl _)
  | some value =>
      have hLower := value.property.1
      have hUpper := value.property.2
      rw [long, Option.elim_some]
      omega

end Reading

/-! The texts fit the buffer. -/

theorem toInt_digits (n : Int) : (toInt n).natAbs < 10 ^ 10 := by
  have hLower : -((2 ^ 32 : Int) / 2) ≤ n.bmod (2 ^ 32) := Int.le_bmod (by decide)
  have hUpper : n.bmod (2 ^ 32) < ((2 ^ 32 : Int) + 1) / 2 := Int.bmod_lt (by decide)
  rw [toInt]
  omega

theorem formatLong_toInt_length (n : Int) : (formatLong (toInt n)).length ≤ 11 :=
  formatLong_length_le (by decide) (toInt_digits n)

theorem plural_length (n : Int) : (plural n).length ≤ 1 := by
  rw [plural]
  split <;> simp

theorem getD_length_le {texts : List (List Char)} {k : Nat} (h : ∀ text ∈ texts, text.length ≤ k)
    (i : Nat) : (texts.getD i []).length ≤ k := by
  rw [List.getD_eq_getElem?_getD]
  cases hText : texts[i]? with
  | none => exact Nat.zero_le k
  | some text => exact h text (List.mem_of_getElem? hText)

theorem batteryStatusToString_length (status : Int) :
    (batteryStatusToString status).length ≤ 8 := by
  rw [batteryStatusToString]
  split
  · exact getD_length_le (by decide) _
  · decide

theorem outputSourceToString_length (source : Int) : (outputSourceToString source).length ≤ 7 := by
  rw [outputSourceToString]
  split
  · exact getD_length_le (by decide) _
  · decide

theorem batteryText_length (status : Int) :
    ("battery: ".toList ++ batteryStatusToString status).length < 64 := by
  have hLength := batteryStatusToString_length status
  simp
  omega

theorem sourceText_length (source : Int) :
    ("source: ".toList ++ outputSourceToString source).length < 64 := by
  have hLength := outputSourceToString_length source
  simp
  omega

theorem formatFixed_tenth_length {n : Int} (h : n.natAbs < 10 ^ 10) {precision : Nat}
    (hPrecision : precision ≤ 1) : (formatFixed precision (tenth n)).length ≤ 14 := by
  have hTen : (0 : ℚ) < 10 := by decide
  have hPower : (10 : ℚ) ^ precision ≤ 10 := by
    simpa using pow_le_pow_right₀ (le_of_lt (by decide : (1 : ℚ) < 10)) hPrecision
  have hNat : n.natAbs + 1 < 10 ^ 11 := by omega
  have hScaled : |tenth n| * 10 ^ precision + 1 < 10 ^ 11 := by
    calc |tenth n| * 10 ^ precision + 1 ≤ |tenth n| * 10 + 1 :=
          add_le_add (mul_le_mul_of_nonneg_left hPower (abs_nonneg _)) le_rfl
      _ = n.natAbs + 1 := by
          rw [tenth, abs_div, abs_of_pos hTen, div_mul_cancel₀ _ hTen.ne', Nat.cast_natAbs,
            Int.cast_abs]
      _ < 10 ^ 11 := by exact_mod_cast hNat
  have hLength := formatFixed_length_le precision (by decide) hScaled
  omega

namespace UpsState

variable (s : UpsState) {text : List Char}

@[simp] theorem strcat_state : (s.strcat text).state = s.state := rfl

@[simp] theorem strcatComma_state : (s.strcatComma text).state = s.state := rfl

theorem print_state (h : text.length < 64) : ∃ s', s.print text = some s' ∧ s'.state = s.state := by
  rw [print, mpSnprintf, if_pos h]
  exact ⟨_, rfl, rfl⟩

theorem printComma_state (h : text.length < 64) :
    ∃ s', s.printComma text = some s' ∧ s'.state = s.state := by
  rw [printComma, mpSnprintf, if_pos h]
  exact ⟨_, rfl, rfl⟩

end UpsState

section Blocks

/-! Each block merges its condition into the state. -/

variable (r : UpsReadings) (s : UpsState)

theorem printIdent_state (h : r.IdentFits) :
    ∃ s', printIdent r.ups s = some s' ∧ s'.state = s.state := by
  rw [printIdent, UpsReadings.ups]
  cases hIdent : r.ident with
  | none => exact ⟨s, rfl, rfl⟩
  | some ident =>
      by_cases hNil : ident = []
      · exact ⟨s, if_pos hNil, rfl⟩
      · have hFits := h ident hIdent
        have hLength : ('[' :: ident ++ "] ".toList).length < 64 := by
          simp
          omega
        simp only [if_neg hNil]
        exact s.print_state hLength

/-- In front of it the state is OK, so nothing is lost by setting it. -/
theorem checkOnBattery_state (h : s.state = .ok) :
    ∃ s', checkOnBattery r.ups s = some s' ∧ s'.state = r.onBattery := by
  have hSource : r.ups.outputSource = 5 ↔ Tells r.outputSource 5 := long_eq_iff _ (by decide)
  have hSeconds : r.ups.secondsOnBattery > 0 ↔ Positive r.secondsOnBattery := long_pos_iff _
  simp only [checkOnBattery, UpsReadings.onBattery, hSource, hSeconds]
  by_cases hBattery : Positive r.secondsOnBattery ∨ Tells r.outputSource 5
  · rw [if_pos hBattery, if_pos hBattery]
    by_cases hPositive : Positive r.secondsOnBattery
    · rw [if_pos hPositive]
      apply UpsState.print_state
      have hNumber := formatLong_toInt_length r.ups.secondsOnBattery
      have hPlural := plural_length r.ups.secondsOnBattery
      simp
      omega
    · rw [if_neg hPositive]
      exact ⟨_, rfl, rfl⟩
  · rw [if_neg hBattery, if_neg hBattery]
    exact ⟨s, rfl, h⟩

theorem checkAlarms_state (h : s.state ≤ .critical) :
    (checkAlarms r.ups s).state = max s.state r.alarms := by
  have hAlarms : (r.ups.alarmsPresent ≠ longMin ∧ r.ups.alarmsPresent > 0) ↔
      Positive r.alarmsPresent := by
    have hPositive : r.ups.alarmsPresent > 0 ↔ Positive r.alarmsPresent := long_pos_iff _
    rw [← hPositive]
    constructor
    · exact And.right
    · intro hPos
      refine ⟨?_, hPos⟩
      intro hAbsent
      rw [hAbsent] at hPos
      exact absurd hPos (by decide)
  simp only [checkAlarms, UpsReadings.alarms, hAlarms]
  by_cases hSome : Positive r.alarmsPresent
  · rw [if_pos hSome, if_pos hSome, max_warning h]
    split_ifs <;> rfl
  · rw [if_neg hSome, if_neg hSome]
    exact (max_ok _).symm

/-- A warning is only set where the state is OK, which loses nothing as long as no block
has set UNKNOWN. -/
theorem checkRemaining_state (name : List Char) (reading : Option Int32Value)
    (threshold : Option Thresholds) (h : s.state ≤ .critical) (hKnown : s.state ≠ .unknown) :
    (checkRemaining name (long reading) threshold s).state =
      max s.state (remainingStatus reading threshold) := by
  rw [checkRemaining, judged_long]
  cases reading with
  | none => exact (max_ok _).symm
  | some value =>
      simp only [remainingStatus, Option.map_some, Option.elim_some]
      rcases getStatus_cases value.val threshold with hStatus | hStatus | hStatus
      · rw [hStatus]
        exact (max_ok _).symm
      · rw [hStatus, max_warning h]
        cases hState : s.state with
        | dependent => exact absurd (hState ▸ h) (by decide)
        | unknown => exact absurd hState hKnown
        | _ => simp [hState]
      · rw [hStatus, max_critical h]
        rfl

theorem checkBatteryStatus_state (h : s.state ≤ .critical) :
    (checkBatteryStatus r.ups s).state = max s.state r.battery := by
  have hStatus : ∀ n : Int, longMin < n → (r.ups.batteryStatus = n ↔ Tells r.batteryStatus n) :=
    fun n hn => long_eq_iff _ hn
  simp only [checkBatteryStatus, UpsReadings.battery, hStatus 2 (by decide),
    hStatus 3 (by decide), hStatus 4 (by decide)]
  split_ifs with hNormal hLow hOk
  · exact (max_ok _).symm
  · exact (max_critical h).symm
  · rw [max_unknown, if_pos hOk]
  · rw [max_unknown, if_neg hOk]

theorem checkOutputSource_state (h : s.state ≤ .critical) :
    (checkOutputSource r.ups s).state = max s.state r.source := by
  have hSource : ∀ n : Int, longMin < n → (r.ups.outputSource = n ↔ Tells r.outputSource n) :=
    fun n hn => long_eq_iff _ hn
  have hOrder : (Tells r.outputSource 1 ∨ Tells r.outputSource 4 ∨ Tells r.outputSource 6 ∨
        Tells r.outputSource 7 ∨ Tells r.outputSource 5) ↔
      (Tells r.outputSource 1 ∨ Tells r.outputSource 4 ∨ Tells r.outputSource 5 ∨
        Tells r.outputSource 6 ∨ Tells r.outputSource 7) := by
    tauto
  simp only [checkOutputSource, UpsReadings.source, hSource 1 (by decide), hSource 2 (by decide),
    hSource 3 (by decide), hSource 4 (by decide), hSource 5 (by decide), hSource 6 (by decide),
    hSource 7 (by decide), hOrder]
  split_ifs with hNormal hOther hState hNone hOk
  · exact (max_ok _).symm
  · rw [max_warning h, if_pos hState]
  · rw [max_warning h, if_neg hState]
  · exact (max_critical h).symm
  · rw [max_unknown, if_pos hOk]
  · rw [max_unknown, if_neg hOk]

/-! The status line leaves the state alone. -/

theorem printRemaining_state :
    ∃ s', printRemaining r.ups s = some s' ∧ s'.state = s.state := by
  have hCharge := formatLong_toInt_length r.ups.remainingCharge
  have hPlural := plural_length r.ups.remainingRuntime
  have hRuntime : r.ups.remainingRuntime > longMin →
      (formatLong r.ups.remainingRuntime).length ≤ 11 := fun hTold =>
    formatLong_length_le (by decide) (long_digits _ hTold)
  simp only [printRemaining]
  split_ifs with hBoth hOne hOther
  · have hLength := hRuntime hBoth.1
    apply UpsState.printComma_state
    simp
    omega
  · have hLength := hRuntime hOne
    apply UpsState.printComma_state
    simp
    omega
  · apply UpsState.printComma_state
    simp
    omega
  · exact ⟨s, rfl, rfl⟩

/-- A number of fourteen characters at most fits between these texts. -/
theorem printReading_state (reading : Option Int32Value) (front back : List Char)
    {number : List Char} (hTexts : front.length + back.length < 50)
    (hNumber : longMin < long reading → number.length ≤ 14) :
    ∃ s', printReading (long reading) (front ++ number ++ back) s = some s' ∧
      s'.state = s.state := by
  rw [printReading]
  split_ifs with hTold
  · have hLength := hNumber hTold
    apply UpsState.printComma_state
    simp only [List.length_append]
    omega
  · exact ⟨s, rfl, rfl⟩

theorem printExtended_state :
    ∃ s', printExtended r.ups s = some s' ∧ s'.state = s.state := by
  have hLong : ∀ reading : Option Int32Value, longMin < long reading →
      (formatLong (long reading)).length ≤ 14 := fun reading hTold =>
    (formatLong_length_le (by decide) (long_digits _ hTold)).trans (by decide)
  have hWhole : ∀ reading : Option Int32Value, longMin < long reading →
      (formatFixed 0 (tenth (long reading))).length ≤ 14 := fun reading hTold =>
    formatFixed_tenth_length (long_digits _ hTold) (by decide)
  have hTenth : ∀ reading : Option Int32Value, longMin < long reading →
      (formatFixed 1 (tenth (long reading))).length ≤ 14 := fun reading hTold =>
    formatFixed_tenth_length (long_digits _ hTold) (by decide)
  obtain ⟨voltage, hVoltage, hState₁⟩ := printReading_state s r.batteryVoltage
    "voltage: ".toList " V".toList (by decide) (hWhole r.batteryVoltage)
  obtain ⟨current, hCurrent, hState₂⟩ := printReading_state voltage r.batteryCurrent
    "current: ".toList " A".toList (by decide) (hTenth r.batteryCurrent)
  obtain ⟨temperature, hTemperature, hState₃⟩ := printReading_state current r.batteryTemperature
    "temperature: ".toList " C".toList (by decide) (hLong r.batteryTemperature)
  obtain ⟨frequency, hFrequency, hState₄⟩ := printReading_state temperature r.outputFrequency
    "output frequency: ".toList " Hz".toList (by decide) (hTenth r.outputFrequency)
  obtain ⟨bads, hBads, hState₅⟩ := printReading_state frequency r.inputLineBads
    "input line bads: ".toList [] (by decide) (hLong r.inputLineBads)
  rw [List.append_nil] at hBads
  refine ⟨bads, ?_, ?_⟩
  · simp only [printExtended, UpsReadings.ups, Option.bind_eq_bind, hVoltage, hCurrent,
      hTemperature, hFrequency, Option.bind_some, hBads]
  · rw [hState₅, hState₄, hState₃, hState₂, hState₁]

end Blocks

/-- OK, WARNING or CRITICAL. -/
def Known (state : Status) : Prop := state ≤ .critical ∧ state ≠ .unknown

instance (state : Status) : Decidable (Known state) := inferInstanceAs (Decidable (_ ∧ _))

section Judgement

variable (r : UpsReadings) (thresholds : UpsThresholds)

theorem Known.max {state state' : Status} (h : Known state) (h' : Known state') :
    Known (max state state') := by
  rcases max_choice state state' with hFirst | hSecond
  · rw [hFirst]
    exact h
  · rw [hSecond]
    exact h'

theorem known_onBattery : Known r.onBattery := by
  rw [UpsReadings.onBattery]
  split <;> decide

theorem known_alarms : Known r.alarms := by
  rw [UpsReadings.alarms]
  split <;> decide

theorem known_remainingStatus (reading : Option Int32Value) (threshold : Option Thresholds) :
    Known (remainingStatus reading threshold) := by
  cases reading with
  | none =>
      show Known .ok
      decide
  | some value =>
      rcases getStatus_cases value.val threshold with h | h | h <;>
        simp only [remainingStatus, Option.elim_some, h] <;> decide

theorem battery_le : r.battery ≤ .critical := by
  rw [UpsReadings.battery]
  split_ifs <;> decide

theorem source_le : r.source ≤ .critical := by
  rw [UpsReadings.source]
  split_ifs <;> decide

/-- No block fails, and the state is the worst of the conditions. The order of the blocks
matters: UNKNOWN is set behind those that would take it for a problem of their own. -/
theorem judgeUps_state (h : r.IdentFits) (extendedStatus : Bool) :
    ∃ s, judgeUps r.ups thresholds extendedStatus = some s ∧
      s.state = worst (r.conditions thresholds) := by
  obtain ⟨s₁, hIdent, hState₁⟩ := printIdent_state r { state := .ok, output := none } h
  obtain ⟨s₂, hOnBattery, hState₂⟩ := checkOnBattery_state r s₁ hState₁
  let s₃ := checkAlarms r.ups s₂
  let s₄ := checkRuntime r.ups thresholds s₃
  let s₅ := checkCharge r.ups thresholds s₄
  let s₆ := checkBatteryStatus r.ups s₅
  let s₇ := checkOutputSource r.ups s₆
  have hKnown₂ : Known s₂.state := by
    rw [hState₂]
    exact known_onBattery r
  have hState₃ : s₃.state = max s₂.state r.alarms := checkAlarms_state r s₂ hKnown₂.1
  have hKnown₃ : Known s₃.state := by
    rw [hState₃]
    exact hKnown₂.max (known_alarms r)
  have hState₄ : s₄.state =
      max s₃.state (remainingStatus r.remainingRuntime (thresholds .runtime)) :=
    checkRemaining_state s₃ _ r.remainingRuntime _ hKnown₃.1 hKnown₃.2
  have hKnown₄ : Known s₄.state := by
    rw [hState₄]
    exact hKnown₃.max (known_remainingStatus _ _)
  have hState₅ : s₅.state =
      max s₄.state (remainingStatus r.remainingCharge (thresholds .charge)) :=
    checkRemaining_state s₄ _ r.remainingCharge _ hKnown₄.1 hKnown₄.2
  have hKnown₅ : Known s₅.state := by
    rw [hState₅]
    exact hKnown₄.max (known_remainingStatus _ _)
  have hState₆ : s₆.state = max s₅.state r.battery := checkBatteryStatus_state r s₅ hKnown₅.1
  have hLe₆ : s₆.state ≤ .critical := by
    rw [hState₆]
    exact max_le hKnown₅.1 (battery_le r)
  have hState₇ : s₇.state = max s₆.state r.source := checkOutputSource_state r s₆ hLe₆
  obtain ⟨s₈, hStatus, hState₈⟩ := s₇.print_state
    (batteryText_length (toInt r.ups.batteryStatus))
  obtain ⟨s₉, hRemaining, hState₉⟩ := printRemaining_state r s₈
  obtain ⟨s₁₀, hSource, hState₁₀⟩ := s₉.printComma_state
    (sourceText_length (toInt r.ups.outputSource))
  obtain ⟨s₁₁, hExtended, hState₁₁⟩ : ∃ s, (if extendedStatus then printExtended r.ups s₁₀
      else some s₁₀) = some s ∧ s.state = s₁₀.state := by
    cases extendedStatus with
    | false => exact ⟨s₁₀, rfl, rfl⟩
    | true => exact printExtended_state r s₁₀
  refine ⟨s₁₁, ?_, ?_⟩
  · simp only [judgeUps, Option.bind_eq_bind, hIdent, Option.bind_some, hOnBattery]
    rw [hStatus, Option.bind_some, hRemaining, Option.bind_some, hSource, Option.bind_some,
      hExtended]
  · rw [hState₁₁, hState₁₀, hState₉, hState₈, hState₇, hState₆, hState₅, hState₄, hState₃,
      hState₂]
    simp only [UpsReadings.conditions, worst_cons, worst_nil, max_ok, max_assoc]

theorem conditions_le : ∀ status ∈ r.conditions thresholds, status ≤ .critical := by
  have hOnBattery := (known_onBattery r).1
  have hAlarms := (known_alarms r).1
  have hRuntime := (known_remainingStatus r.remainingRuntime (thresholds .runtime)).1
  have hCharge := (known_remainingStatus r.remainingCharge (thresholds .charge)).1
  have hBattery := battery_le r
  have hSource := source_le r
  simp only [UpsReadings.conditions, List.forall_mem_cons, List.not_mem_nil, false_implies,
    implies_true, and_true]
  exact ⟨hOnBattery, hAlarms, hRuntime, hCharge, hBattery, hSource⟩

end Judgement

section Reports

/-- Reporting does not fail, and leaves the thresholds object of the other quantity alone. -/
theorem UpsReport.step_some (s : UpsPerfdata) (report : UpsReport) :
    ∃ s', report.step s = some s' ∧
      ∀ q, report.threshold ≠ some q → s'.thresholds q = s.thresholds q := by
  have hAfter : ∀ reported q, report.threshold ≠ some q →
      (s.after report.threshold reported).thresholds q = s.thresholds q := by
    intro reported q hOther
    cases hThreshold : report.threshold with
    | none => rfl
    | some q' =>
        rw [hThreshold] at hOther
        exact Function.update_of_ne (fun h => hOther (congrArg some h.symm)) _ _
  cases report with
  | int label value unit threshold =>
      obtain ⟨reported, hReport, -⟩ := mpPerfdataInt2_threshold label unit
        (threshold.bind s.thresholds) false false true s.perfdata value 0 0
      exact ⟨_, congrArg (Option.map (s.after threshold)) hReport, hAfter reported⟩
  | float label value unit threshold =>
      obtain ⟨reported, hReport, -⟩ := mpPerfdataFloat2_threshold label unit
        (threshold.bind s.thresholds) false false true s.perfdata value 0 0
      exact ⟨_, congrArg (Option.map (s.after threshold)) hReport, hAfter reported⟩

/-- A run of reports. -/
theorem reports_some (reports : List UpsReport) (s : UpsPerfdata) :
    ∃ s', reports.foldlM UpsReport.step s = some s' ∧
      ∀ q, (∀ report ∈ reports, report.threshold ≠ some q) →
        s'.thresholds q = s.thresholds q := by
  induction reports generalizing s with
  | nil => exact ⟨s, rfl, fun q h => rfl⟩
  | cons report reports ih =>
      obtain ⟨middle, hStep, hFrame⟩ := report.step_some s
      obtain ⟨s', hRun, hFrames⟩ := ih middle
      refine ⟨s', ?_, ?_⟩
      · rw [List.foldlM_cons, hStep]
        exact hRun
      · intro q hOthers
        rw [List.forall_mem_cons] at hOthers
        rw [hFrames q hOthers.2, hFrame q hOthers.1]

end Reports

/-- The exit state is the worst of the conditions, whatever the agent told. -/
theorem checkSnmpUps_worst (r : UpsReadings) (thresholds : UpsThresholds)
    (extendedStatus : Bool) (verbose : Nat) (showPerfdata : Bool) (h : r.IdentFits) :
    ∃ exit, checkSnmpUps r.ups thresholds extendedStatus verbose showPerfdata = some exit ∧
      exit.state = worst (r.conditions thresholds) := by
  obtain ⟨s, hJudge, hState⟩ := judgeUps_state r thresholds h extendedStatus
  obtain ⟨reported, hReports, -⟩ := reports_some (shownReports r.ups showPerfdata)
    { perfdata := none, thresholds := thresholds }
  have hLe : s.state ≤ .critical := by
    rw [hState]
    exact worst_le (conditions_le r thresholds)
  rw [checkSnmpUps, hJudge]
  refine ⟨_, congrArg (Option.map _) hReports, ?_⟩
  rw [← hState]
  cases hExit : s.state with
  | dependent => exact absurd (hExit ▸ hLe) (by decide)
  | _ => rfl

theorem byte_bounds (n : Fin 256) : -2 ^ 31 ≤ (n.val : Int) ∧ (n.val : Int) < 2 ^ 32 := by
  omega

/-- A small number that the agent told. -/
def told (n : Fin 256) : Option Int32Value := some ⟨n.val, byte_bounds n⟩

/-- A charge of 8 percent, and an hour left. -/
def lowCharge : UpsReadings where
  ident := some "UPS 1".toList
  batteryStatus := none
  secondsOnBattery := none
  remainingRuntime := told 60
  remainingCharge := told 8
  batteryVoltage := none
  batteryCurrent := none
  batteryTemperature := none
  inputLineBads := none
  inputLines := none
  outputSource := told 3
  outputFrequency := none
  outputLines := none
  alarmsPresent := none

theorem lowCharge_identFits : lowCharge.IdentFits := by
  intro ident hMem
  cases hMem
  decide

theorem checkSnmpUps_worst_lowCharge :
    ∃ exit, checkSnmpUps lowCharge.ups defaultThresholds true 0 true = some exit ∧
      exit.state = .critical := by
  have hWorst : worst (lowCharge.conditions defaultThresholds) = .critical := by
    decide +kernel
  rw [← hWorst]
  exact checkSnmpUps_worst lowCharge defaultThresholds true 0 true lowCharge_identFits

/-- What is published with a thresholds object has there the status with which the
quantity entered the decision. The object is taken as it is when the call is made, in
front of `mp_perfdata_int`, which resolves percent bounds with a maximum of 0. -/
def PublishesJudged (ups : Ups) (thresholds : UpsThresholds)
    (extendedStatus showPerfdata : Bool) : Prop :=
  ∀ front report back,
    madeReports ups thresholds extendedStatus showPerfdata = front ++ report :: back →
      ∀ q ∈ report.threshold, ∃ s, reportUps thresholds front = some s ∧
        judged (q.value ups) (thresholds q) = some (getStatus report.value (s.thresholds q))

section Published

variable (r : UpsReadings) (thresholds : UpsThresholds)

theorem judgeUps_none (h : ¬ r.IdentFits) (extendedStatus : Bool) :
    judgeUps r.ups thresholds extendedStatus = none := by
  have hIdent : printIdent r.ups { state := .ok, output := none } = none := by
    simp only [UpsReadings.IdentFits, not_forall, not_lt] at h
    obtain ⟨ident, hMem, hLong⟩ := h
    have hSome : ident ≠ [] := by
      rintro rfl
      simp at hLong
    have hLength : ¬ ('[' :: ident ++ "] ".toList).length < 64 := by
      simp
      omega
    rw [printIdent, UpsReadings.ups, Option.mem_def.mp hMem]
    simp only [if_neg hSome, UpsState.print, mpSnprintf, if_neg hLength, Option.map_none]
  rw [judgeUps, hIdent]
  rfl

/-- Every thresholds object goes into one call at most. -/
theorem upsReports_pairwise (ups : Ups) :
    (upsReports ups).Pairwise fun a b => ∀ q ∈ a.threshold, b.threshold ≠ some q := by
  rw [upsReports, List.pairwise_map]
  apply List.Pairwise.filter
  simp [possibleReports, UpsReport.threshold]

/-- The calls with a thresholds object ask for its quantity, and report the charge. -/
theorem possible_of_threshold {ups : Ups} {entry : Int × UpsReport} {q : Quantity}
    (h : entry ∈ possibleReports ups) (hThreshold : entry.2.threshold = some q) :
    entry.1 = q.value ups ∧ entry.2.value = ups.remainingCharge := by
  simp only [possibleReports, List.mem_cons, List.not_mem_nil, or_false] at h
  rcases h with rfl | rfl | rfl | rfl | rfl | rfl | rfl
  · cases hThreshold
    exact ⟨rfl, rfl⟩
  · cases hThreshold
    exact ⟨rfl, rfl⟩
  all_goals cases hThreshold

theorem exists_possible (ups : Ups) (q : Quantity) :
    ∃ entry ∈ possibleReports ups, entry.2.threshold = some q := by
  cases q with
  | charge => exact ⟨_, List.mem_cons_self, rfl⟩
  | runtime => exact ⟨_, List.mem_cons_of_mem _ List.mem_cons_self, rfl⟩

theorem exists_report {ups : Ups} {q : Quantity} (h : q.value ups > longMin) :
    ∃ report ∈ upsReports ups, report.threshold = some q := by
  obtain ⟨entry, hMem, hThreshold⟩ := exists_possible ups q
  have hAsks := (possible_of_threshold hMem hThreshold).1
  refine ⟨entry.2, ?_, hThreshold⟩
  rw [upsReports]
  apply List.mem_map_of_mem
  rw [List.mem_filter, decide_eq_true_eq, hAsks]
  exact ⟨hMem, h⟩

theorem report_of_threshold {ups : Ups} {report : UpsReport} {q : Quantity}
    (h : report ∈ upsReports ups) (hThreshold : report.threshold = some q) :
    q.value ups > longMin ∧ report.value = ups.remainingCharge := by
  rw [upsReports, List.mem_map] at h
  obtain ⟨entry, hEntry, rfl⟩ := h
  obtain ⟨hMem, hTold⟩ := List.mem_filter.mp hEntry
  obtain ⟨hAsks, hValue⟩ := possible_of_threshold hMem hThreshold
  rw [decide_eq_true_eq, hAsks] at hTold
  exact ⟨hTold, hValue⟩

/-- At its call a thresholds object is still the one of the decision. -/
theorem object_at_call {ups : Ups} {front back : List UpsReport} {report : UpsReport}
    {q : Quantity} (h : upsReports ups = front ++ report :: back)
    (hThreshold : report.threshold = some q) :
    ∃ s, reportUps thresholds front = some s ∧ s.thresholds q = thresholds q := by
  obtain ⟨s, hRun, hFrame⟩ := reports_some front { perfdata := none, thresholds := thresholds }
  refine ⟨s, hRun, hFrame q ?_⟩
  intro earlier hMem hEarlier
  have hPairwise := upsReports_pairwise ups
  rw [h, List.pairwise_append] at hPairwise
  exact hPairwise.2.2 earlier hMem report List.mem_cons_self q hEarlier hThreshold

/-- The published status is the judged one for every quantity that the agent told. -/
theorem published_iff (ups : Ups) :
    (∀ front report back, upsReports ups = front ++ report :: back →
        ∀ q ∈ report.threshold, ∃ s, reportUps thresholds front = some s ∧
          judged (q.value ups) (thresholds q) = some (getStatus report.value (s.thresholds q))) ↔
      ∀ q : Quantity, q.value ups > longMin →
        getStatus ups.remainingCharge (thresholds q) =
          getStatus (q.value ups) (thresholds q) := by
  constructor
  · intro hPublished q hTold
    obtain ⟨report, hMem, hThreshold⟩ := exists_report hTold
    obtain ⟨front, back, hSplit⟩ := List.append_of_mem hMem
    obtain ⟨s, hRun, hJudged⟩ := hPublished front report back hSplit q hThreshold
    obtain ⟨s', hRun', hObject⟩ := object_at_call thresholds hSplit hThreshold
    cases hRun.symm.trans hRun'
    rw [judged, if_pos hTold, hObject, (report_of_threshold hMem hThreshold).2] at hJudged
    exact (Option.some.inj hJudged).symm
  · intro hSame front report back hSplit q hThreshold
    have hMem : report ∈ upsReports ups := by
      rw [hSplit]
      exact List.mem_append_right _ List.mem_cons_self
    obtain ⟨hTold, hValue⟩ := report_of_threshold hMem hThreshold
    obtain ⟨s, hRun, hObject⟩ := object_at_call thresholds hSplit hThreshold
    refine ⟨s, hRun, ?_⟩
    rw [judged, if_pos hTold, hObject, hValue, hSame q hTold]

theorem publishes_shown_iff (h : r.IdentFits) (extendedStatus : Bool) :
    PublishesJudged r.ups thresholds extendedStatus true ↔
      ∀ q : Quantity, q.value r.ups > longMin →
        getStatus r.ups.remainingCharge (thresholds q) =
          getStatus (q.value r.ups) (thresholds q) := by
  obtain ⟨s, hJudge, -⟩ := judgeUps_state r thresholds h extendedStatus
  have hMade : madeReports r.ups thresholds extendedStatus true = upsReports r.ups := by
    rw [madeReports, hJudge]
    rfl
  rw [PublishesJudged, hMade, published_iff]

end Published

/-- What is published is what was judged exactly when the plugin exits before, publishes
nothing, has no runtime to publish, or the charge that it publishes as the runtime has
the same status there. -/
theorem checkSnmpUps_publishes_iff (r : UpsReadings) (thresholds : UpsThresholds)
    (extendedStatus showPerfdata : Bool) :
    PublishesJudged r.ups thresholds extendedStatus showPerfdata ↔
      (r.IdentFits → showPerfdata = true → ∀ runtime ∈ r.remainingRuntime,
        getStatus (long r.remainingCharge) (thresholds .runtime) =
          getStatus runtime.val (thresholds .runtime)) := by
  by_cases hFits : r.IdentFits
  · cases showPerfdata with
    | false =>
        obtain ⟨s, hJudge, -⟩ := judgeUps_state r thresholds hFits extendedStatus
        have hNone : madeReports r.ups thresholds extendedStatus false = [] := by
          rw [madeReports, hJudge]
          rfl
        simp [PublishesJudged, hNone]
    | true =>
        rw [publishes_shown_iff r thresholds hFits]
        constructor
        · intro hSame _ _ runtime hMem
          have hTold : Quantity.runtime.value r.ups > longMin :=
            (longMin_lt_iff r.remainingRuntime).mpr (Option.isSome_of_mem hMem)
          rw [← long_of_mem hMem]
          exact hSame .runtime hTold
        · intro hSame q hTold
          cases q with
          | charge => rfl
          | runtime =>
              obtain ⟨runtime, hMem⟩ :=
                Option.isSome_iff_exists.mp ((longMin_lt_iff r.remainingRuntime).mp hTold)
              have hValue : Quantity.runtime.value r.ups = runtime.val := long_of_mem hMem
              rw [hValue]
              exact hSame hFits rfl runtime hMem
  · have hNone : madeReports r.ups thresholds extendedStatus showPerfdata = [] := by
      rw [madeReports, judgeUps_none r thresholds hFits]
    simp [PublishesJudged, hNone, hFits]

/-- An hour left with 8 percent of charge is published as 8 minutes. -/
theorem checkSnmpUps_publishes_charge :
    ¬ PublishesJudged lowCharge.ups defaultThresholds false true := by
  rw [publishes_shown_iff lowCharge defaultThresholds lowCharge_identFits]
  intro hSame
  have hRuntime := hSame .runtime (by decide)
  revert hRuntime
  decide +kernel

end MonitoringPlug.Snmp
