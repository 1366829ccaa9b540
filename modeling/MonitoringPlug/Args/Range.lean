import Mathlib.Order.Interval.Set.UnorderedInterval
import Mathlib.Algebra.Order.Ring.Rat
import MonitoringPlug.Lib.Rounding
import MonitoringPlug.Lib.Text
import MonitoringPlug.Common

/-! Threshold ranges: parsing, resolving percent bounds and checking values.
Strings are the characters in front of the NUL. -/
namespace MonitoringPlug.Args

open CText Rounding MonitoringPlug.Common

/-- When a range raises an alert. -/
inductive AlertOn where
  | outside
  | inside
deriving DecidableEq, Repr

/-- `range`. The flags are only ever set to 0 or 1. -/
structure Range where
  start : ℚ
  startInfinity : Bool
  startPercent : Bool
  end_ : ℚ
  endInfinity : Bool
  endPercent : Bool
  alertOn : AlertOn
deriving DecidableEq, Repr

structure Thresholds where
  warning : Option Range
  critical : Option Range
deriving DecidableEq, Repr

/-- `NOEXT`, `BISI` and `TIME`. -/
inductive Multiplier where
  | noext
  | bisi
  | time
deriving DecidableEq, Repr

def parseMultiplierString (str : List Char) : ℚ :=
  match str.head? with
  | some 'k' => 1000
  | some 'K' => 1024
  | some 'm' => 1000000
  | some 'M' => 1048578
  | some 'g' => 1000000000
  | some 'G' => 1073741824
  | some 't' => 1000000000000
  | some 'T' => 1099511627776
  | some 'p' => 1000000000000000
  | some 'P' => 1125899906842624
  | some 'e' => 1000000000000000000
  | some 'E' => 1152921504606846976
  | _ => 1

def parseTimeMultiplierString (str : List Char) : ℚ :=
  match str.head? with
  | some 'm' => 60
  | some 'h' => 3600
  | some 'd' => 86400
  | some 'w' => 604800
  | _ => 1

/-- The factor the `switch` on the multiplier applies. -/
def unitFactor (multiplier : Multiplier) (eptr : List Char) : ℚ :=
  match multiplier with
  | .noext => 1
  | .bisi => parseMultiplierString eptr
  | .time => parseTimeMultiplierString eptr

/-- The percent test and the multiplier `switch` behind a number, the same for
both bounds: the value and its percent flag. -/
def scaleBound (multiplier : Multiplier) (value : ℚ) (eptr : List Char) : ℚ × Bool :=
  let percent := eptr.head? == some '%'
  ((if percent then value / 100 else value) * unitFactor multiplier eptr, percent)

/-- The string objects the pointers of `parse_range_string` point into: the
caller's string and the copy `mp_strdup` made of it. -/
inductive StringObject where
  | argument
  | duplicate
deriving DecidableEq

/-- A pointer as an object and an offset. Pointers into different objects are
never equal. -/
abbrev StringPointer := StringObject × Nat

/-- Exchange the bounds unless one is infinite or they are in order. The
percent flags stay where they are. -/
def orderBounds (range : Range) : Range :=
  if range.startInfinity ∨ range.endInfinity ∨ range.start ≤ range.end_ then range
  else { range with start := range.end_, end_ := range.start }

/-- The fields as they are set before anything is parsed. -/
def defaultRange : Range :=
  { start := 0, startInfinity := false, startPercent := false,
    end_ := 0, endInfinity := false, endPercent := false, alertOn := .outside }

/-- The leading `@`: the alert mode, how far `str` was moved, and the rest. -/
def scanAlertOn : List Char → AlertOn × Nat × List Char
  | '@' :: rest => (.inside, 1, rest)
  | str => (.outside, 0, str)

/-- `start_str` and `end_str` after `strsep`. Without a colon the whole string
is END and START is NULL. -/
def splitBounds (str : List Char) : Option (List Char) × List Char :=
  match strsep ':' str with
  | (token, none) => (none, token)
  | (token, some rest) => (some token, rest)

section Parsing

/-! How far a number reaches is `strtod`'s matter, so the parser takes it as a parameter:
its value and the text behind it. -/

variable (strtod : List Char → ℚ × List Char)

/-- The START part, `none` when there is no colon. `str` is the pointer into the
caller's string that the code compares the end of the number with. -/
def parseStart (range : Range) (str : StringPointer) (startStr : Option (List Char))
    (multiplier : Multiplier) : ReturnCode × Range :=
  match startStr with
  | none => (.ok, range)
  | some startStr =>
      if startStr.head? = some '~' then (.ok, { range with startInfinity := true })
      else
        let (value, eptr) := strtod startStr
        let range := { range with start := value }
        if str = (.duplicate, startStr.length - eptr.length) then (.error, range)
        else
          let (value, percent) := scaleBound multiplier value eptr
          (.ok, { range with start := value, startPercent := percent })

def parseEnd (range : Range) (endStr : List Char) (multiplier : Multiplier) :
    ReturnCode × Range :=
  if endStr.head? = some '~' ∨ endStr = [] then (.ok, { range with endInfinity := true })
  else
    let (value, eptr) := strtod endStr
    let range := { range with end_ := value }
    if eptr.length = endStr.length then (.error, range)
    else
      let (value, percent) := scaleBound multiplier value eptr
      (.ok, { range with end_ := value, endPercent := percent })

/-- The return code and the range written. A failed parse leaves what was
written until then. -/
def parseRangeStringWith (str : List Char) (multiplier : Multiplier) : ReturnCode × Range :=
  let (alertOn, offset, str) := scanAlertOn str
  let range := { defaultRange with alertOn := alertOn }
  let (startStr, endStr) := splitBounds str
  match parseStart strtod range (.argument, offset) startStr multiplier with
  | (.error, range) => (.error, range)
  | (.ok, range) =>
      match parseEnd strtod range endStr multiplier with
      | (.error, range) => (.error, range)
      | (.ok, range) => (.ok, orderBounds range)

end Parsing

def parseRangeString := parseRangeStringWith strtod

def checkRange (value : ℚ) (range : Range) : Bool :=
  if value < range.start ∧ range.startInfinity = false then range.alertOn == .outside
  else if value > range.end_ ∧ range.endInfinity = false then range.alertOn == .outside
  else range.alertOn == .inside

def getStatus (value : ℚ) (thresholds : Option Thresholds) : Status :=
  match thresholds with
  | none => .ok
  | some t =>
      if t.critical.any (checkRange value) then .critical
      else if t.warning.any (checkRange value) then .warning
      else .ok

theorem getStatus_cases (value : ℚ) (thresholds : Option Thresholds) :
    getStatus value thresholds = .ok ∨ getStatus value thresholds = .warning ∨
      getStatus value thresholds = .critical := by
  cases thresholds with
  | none => exact Or.inl rfl
  | some t =>
      simp only [getStatus]
      split_ifs <;> simp

/-- The two ranges of a thresholds object. -/
inductive Slot where
  | warning
  | critical
deriving DecidableEq

def Thresholds.get (t : Thresholds) : Slot → Option Range
  | .warning => t.warning
  | .critical => t.critical

/-- Set one range of a thresholds object, which is allocated when missing. The
range is written even when the parse fails. -/
def mpThresholdSetWith (strtod : List Char → ℚ × List Char) (slot : Slot)
    (thresholds : Option Thresholds) (str : List Char) (multiplier : Multiplier) :
    ReturnCode × Thresholds :=
  let t := thresholds.getD { warning := none, critical := none }
  let (code, range) := parseRangeStringWith strtod str multiplier
  match slot with
  | .warning => (code, { t with warning := some range })
  | .critical => (code, { t with critical := some range })

def mpThresholdSet := mpThresholdSetWith strtod
def mpThresholdSetWarning := mpThresholdSet .warning
def mpThresholdSetCritical := mpThresholdSet .critical
def mpThresholdSetWarningTime (thresholds : Option Thresholds) (str : List Char) :=
  mpThresholdSet .warning thresholds str .time
def mpThresholdSetCriticalTime (thresholds : Option Thresholds) (str : List Char) :=
  mpThresholdSet .critical thresholds str .time

section Resolving

variable (types : FloatTypes)

/-- The part of `mp_perfdata_percent_resolv` for one range. The bounds are `double`s, and
`max` is passed as a `float`. -/
def percentResolvRangeWith (max : ℚ) (range : Range) : Range :=
  { range with
    start := if range.startPercent then types.part max range.start else range.start
    startPercent := false
    end_ := if range.endPercent then types.part max range.end_ else range.end_
    endPercent := false }

def mpPerfdataPercentResolvWith (thresholds : Option Thresholds) (max : ℚ) : Option Thresholds :=
  thresholds.map fun t =>
    { warning := t.warning.map (percentResolvRangeWith types max)
      critical := t.critical.map (percentResolvRangeWith types max) }

end Resolving

def mpPerfdataPercentResolv := mpPerfdataPercentResolvWith .ieee

/-- The parts of this maximum that the bounds stand for are `double`s. -/
structure Range.PartsStored (max : ℚ) (range : Range) : Prop where
  start : range.startPercent = true → binary64.Represents (range.start * max)
  end_ : range.endPercent = true → binary64.Represents (range.end_ * max)

theorem percentResolvRange_exact {max : ℚ} {range : Range} (hMax : binary32.Represents max)
    (h : range.PartsStored max) :
    percentResolvRangeWith .ieee max range = percentResolvRangeWith .exact max range := by
  have hStart : (if range.startPercent then FloatTypes.ieee.part max range.start else range.start) =
      if range.startPercent then FloatTypes.exact.part max range.start else range.start :=
    if_ctx_congr Iff.rfl (fun hPercent => FloatTypes.ieee_part hMax (h.start hPercent)) fun _ => rfl
  have hEnd : (if range.endPercent then FloatTypes.ieee.part max range.end_ else range.end_) =
      if range.endPercent then FloatTypes.exact.part max range.end_ else range.end_ :=
    if_ctx_congr Iff.rfl (fun hPercent => FloatTypes.ieee_part hMax (h.end_ hPercent)) fun _ => rfl
  rw [percentResolvRangeWith, percentResolvRangeWith, hStart, hEnd]

/-- Where nothing is rounded, the bounds are resolved as in exact arithmetic. -/
theorem mpPerfdataPercentResolv_exact {thresholds : Option Thresholds} {max : ℚ}
    (hMax : binary32.Represents max)
    (h : ∀ t ∈ thresholds, ∀ slot, ∀ range ∈ t.get slot, range.PartsStored max) :
    mpPerfdataPercentResolv thresholds max = mpPerfdataPercentResolvWith .exact thresholds max := by
  refine Option.map_congr fun t hThresholds => ?_
  have hSlot : ∀ slot, (t.get slot).map (percentResolvRangeWith .ieee max) =
      (t.get slot).map (percentResolvRangeWith .exact max) := fun slot =>
    Option.map_congr fun range hRange =>
      percentResolvRange_exact hMax (h t hThresholds slot range hRange)
  have hWarning : t.warning.map _ = t.warning.map _ := hSlot .warning
  have hCritical : t.critical.map _ = t.critical.map _ := hSlot .critical
  rw [hWarning, hCritical]

end MonitoringPlug.Args
