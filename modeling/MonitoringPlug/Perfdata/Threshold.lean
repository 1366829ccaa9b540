import Mathlib.Tactic.Linarith
import MonitoringPlug.Args.RangeSyntax
import MonitoringPlug.Perfdata.Item

/-! A range that is printed and parsed again. The text is read in the documented range
syntax, so what it means is what the check of the new range does. -/
namespace MonitoringPlug.Perfdata

open CText MonitoringPlug.Args MonitoringPlug.Common

/-- The range starts at zero and has no end, which is printed as the end alone. -/
def FromZero (range : Range) : Prop :=
  range.startInfinity = false ∧ range.start = 0 ∧ range.endInfinity = true

/-- What is printed agrees with the range once it is parsed without multiplier. -/
def RoundTrips (range : Range) : Prop :=
  ∃ range', parseRangeString (strRange (some range)) .noext = (.ok, range') ∧
    ∀ v, checkRange v range' = checkRange v range

/-- A bound without unit or percent sign. -/
def plainBound (n : Decimal) : Bound .noext := ⟨n, .plain⟩

/-- The parts of what is printed, with the numbers of both bounds. -/
def printedText (range : Range) (start end_ : Decimal) : RangeText .noext where
  inside := false
  start :=
    if range.startInfinity then some .infinity
    else if range.start = 0 then none
    else some (.bound (plainBound start))
  end_ :=
    if range.endInfinity ∧ (range.startInfinity ∨ range.start ≠ 0) then .empty
    else .bound (plainBound end_)

section Printed

variable {range : Range} {start end_ : Decimal}

theorem plainBound_text (n : Decimal) : (plainBound n).text = n.text := by
  simp [plainBound, Bound.text, Tail.text]

theorem plainBound_written (n : Decimal) : (plainBound n).written = n.value := rfl

theorem printedText_text (hStart : start.text = formatFixed 3 range.start)
    (hEnd : end_.text = formatFixed 3 range.end_) :
    (printedText range start end_).text = strRange (some range) := by
  simp only [strRange, ← hStart, ← hEnd]
  cases hOpen : range.startInfinity with
  | true =>
      cases hLast : range.endInfinity with
      | true =>
          simp [printedText, RangeText.text, RangeText.startText, BoundText.text, hOpen, hLast]
      | false =>
          simp [printedText, RangeText.text, RangeText.startText, BoundText.text, hOpen, hLast,
            plainBound_text]
  | false =>
      by_cases hZero : range.start = 0
      · simp [printedText, RangeText.text, RangeText.startText, BoundText.text, hOpen, hZero,
          plainBound_text]
      · cases hLast : range.endInfinity with
        | true =>
            simp [printedText, RangeText.text, RangeText.startText, BoundText.text, hOpen, hLast,
              hZero, plainBound_text]
        | false =>
            simp [printedText, RangeText.text, RangeText.startText, BoundText.text, hOpen, hLast,
              hZero, plainBound_text]

/-- The bounds come back, unless the range is from zero on. -/
theorem printedText_bounds (hStart : start.value = range.start) (hEnd : end_.value = range.end_)
    (hApart : ¬FromZero range) :
    (printedText range start end_).lower Bound.written = range.lower ∧
      (printedText range start end_).upper Bound.written = range.upper := by
  cases hOpen : range.startInfinity with
  | true =>
      cases hLast : range.endInfinity with
      | true =>
          simp [printedText, RangeText.lower, RangeText.upper, Range.lower, Range.upper, hOpen,
            hLast]
      | false =>
          simp [printedText, RangeText.lower, RangeText.upper, Range.lower, Range.upper, hOpen,
            hLast, plainBound_written, hEnd]
  | false =>
      by_cases hZero : range.start = 0
      · have hLast : range.endInfinity = false :=
          Bool.eq_false_iff.mpr fun hLast => hApart ⟨hOpen, hZero, hLast⟩
        simp [printedText, RangeText.lower, RangeText.upper, Range.lower, Range.upper, hOpen,
          hLast, hZero, plainBound_written, hEnd]
      · cases hLast : range.endInfinity with
        | true =>
            simp [printedText, RangeText.lower, RangeText.upper, Range.lower, Range.upper, hOpen,
              hLast, hZero, plainBound_written, hStart]
        | false =>
            simp [printedText, RangeText.lower, RangeText.upper, Range.lower, Range.upper, hOpen,
              hLast, hZero, plainBound_written, hStart, hEnd]

theorem printedText_fromZero (start end_ : Decimal) (hFrom : FromZero range) :
    (printedText range start end_).lower Bound.written = some 0 ∧
      (printedText range start end_).upper Bound.written = some end_.value := by
  obtain ⟨hOpen, hZero, _⟩ := hFrom
  simp [printedText, RangeText.lower, RangeText.upper, hOpen, hZero, plainBound_written]

end Printed

/-- Every range a parse gives is in order. -/
theorem parsed_ordered {strtod : List Char → ℚ × List Char} {str : List Char}
    {multiplier : Multiplier} {range : Range}
    (h : parseRangeStringWith strtod str multiplier = (.ok, range)) : range.Ordered := by
  simp only [parseRangeStringWith] at h
  split at h
  · cases h
  · split at h
    · cases h
    · cases h
      exact orderBounds_ordered _

/-- An alert outside of one set is no alert inside of a set that it meets. -/
theorem not_alert_inside {values values' : Set ℚ} {v : ℚ} (h : v ∈ values) (h' : v ∈ values') :
    ¬∀ v, Alert .outside values' v ↔ Alert .inside values v :=
  fun hAll => (hAll v).mpr h h'

/-- An interval with two ends is not one without an upper end. -/
theorem uIcc_ne_Ici (a b : ℚ) : Set.uIcc a b ≠ Set.Ici a := by
  intro hSame
  have hAbove : a ⊔ b + 1 ∈ Set.Ici a := by
    have hLeft : a ≤ a ⊔ b := le_sup_left
    exact hLeft.trans (by linarith)
  rw [← hSame] at hAbove
  have hBelow : a ⊔ b + 1 ≤ a ⊔ b := hAbove.2
  linarith

section RoundTrip

variable {range : Range} {start end_ : Decimal}

/-- What the range that was printed has to mean. -/
theorem roundTrips_iff_alert (hStart : start.text = formatFixed 3 range.start)
    (hEnd : end_.text = formatFixed 3 range.end_) :
    RoundTrips range ↔ ∀ v, Alert .outside
      (between ((printedText range start end_).lower Bound.written)
        ((printedText range start end_).upper Bound.written)) v ↔
      Alert range.alertOn range.values v := by
  have hParsed := parseRangeString_text (printedText range start end_)
  rw [printedText_text hStart hEnd] at hParsed
  have hCheck : ∀ v, checkRange v (orderBounds (printedText range start end_).stored) = true ↔
      Alert .outside (between ((printedText range start end_).lower Bound.written)
        ((printedText range start end_).upper Bound.written)) v :=
    checkRange_parsed (printedText range start end_)
  constructor
  · rintro ⟨range', hAgain, hAgree⟩ v
    rw [hParsed] at hAgain
    cases hAgain
    rw [← hCheck, hAgree, checkRange_iff]
  · intro hAll
    refine ⟨_, hParsed, fun v => ?_⟩
    rw [Bool.eq_iff_iff, hCheck, hAll, checkRange_iff]

/-- Where the bounds come back, only the alert mode can differ. -/
theorem alert_outside_iff (alertOn : AlertOn) (values : Set ℚ) :
    (∀ v, Alert .outside values v ↔ Alert alertOn values v) ↔ alertOn = .outside := by
  cases alertOn with
  | outside => exact iff_of_true (fun _ => Iff.rfl) rfl
  | inside =>
      refine iff_of_false (fun hAll => ?_) (by decide)
      exact iff_not_self (hAll 0).symm

theorem not_roundTrips_fromZero (hFrom : FromZero range)
    (hStart : start.text = formatFixed 3 range.start)
    (hEnd : end_.text = formatFixed 3 range.end_) : ¬RoundTrips range := by
  obtain ⟨hLower, hUpper⟩ := printedText_fromZero start end_ hFrom
  obtain ⟨hOpen, hZero, hLast⟩ := hFrom
  have hValues : range.values = Set.Ici 0 := by
    ext v
    simp [Range.values, hOpen, hZero, hLast]
  rw [roundTrips_iff_alert hStart hEnd, hLower, hUpper, between, hValues]
  cases range.alertOn with
  | outside => exact fun hAll => uIcc_ne_Ici 0 end_.value ((alert_ext_iff .outside _ _).mp hAll)
  | inside => exact not_alert_inside (v := 0) Set.self_mem_Ici Set.left_mem_uIcc

end RoundTrip

/-- A range that was parsed comes back if and only if it alerts outside of its bounds
and does not go from zero on. -/
theorem strRange_roundTrips_iff (strtod : List Char → ℚ × List Char) (str : List Char)
    (multiplier : Multiplier) (range : Range)
    (hParse : parseRangeStringWith strtod str multiplier = (.ok, range))
    (hStart : ∃ z : ℤ, range.start * 1000 = z) (hEnd : ∃ z : ℤ, range.end_ * 1000 = z) :
    RoundTrips range ↔ range.alertOn = .outside ∧ ¬FromZero range := by
  obtain ⟨low, hLow⟩ := hStart
  obtain ⟨high, hHigh⟩ := hEnd
  have hThousand : (10 : ℚ) ^ 3 = 1000 := by norm_num
  rw [← hThousand] at hLow hHigh
  obtain ⟨start, hStartText, hStartValue⟩ := formatFixed_decimal (by decide) hLow
  obtain ⟨end_, hEndText, hEndValue⟩ := formatFixed_decimal (by decide) hHigh
  by_cases hFrom : FromZero range
  · exact iff_of_false (not_roundTrips_fromZero hFrom hStartText hEndText) fun h => h.2 hFrom
  · obtain ⟨hLower, hUpper⟩ := printedText_bounds hStartValue hEndValue hFrom
    rw [roundTrips_iff_alert hStartText hEndText, hLower, hUpper,
      ← Range.values_eq_between (parsed_ordered hParse), alert_outside_iff]
    exact ⟨fun hOutside => ⟨hOutside, hFrom⟩, fun h => h.1⟩

/-- `10:20` is printed as `10.000:20.000`. -/
theorem strRange_roundTrips_iff_plain :
    (parseRangeStringWith strtod "10:20".toList .bisi).1 = .ok ∧
      RoundTrips (parseRangeStringWith strtod "10:20".toList .bisi).2 := by
  have hParse : parseRangeStringWith strtod "10:20".toList .bisi =
      (.ok, { defaultRange with start := 10, end_ := 20 }) := by
    decide +kernel
  rw [hParse]
  refine ⟨rfl, (strRange_roundTrips_iff strtod _ .bisi _ hParse ⟨10000, ?_⟩ ⟨20000, ?_⟩).mpr
    ⟨rfl, ?_⟩⟩
  · norm_num
  · norm_num
  · rintro ⟨_, hZero, _⟩
    revert hZero
    decide

/-- `@1:2` loses its `@`. -/
theorem strRange_roundTrips_inside :
    (parseRangeStringWith strtod "@1:2".toList .noext).1 = .ok ∧
      ¬RoundTrips (parseRangeStringWith strtod "@1:2".toList .noext).2 := by
  refine ⟨by decide +kernel, ?_⟩
  rintro ⟨range', hAgain, hAgree⟩
  have hPrinted : parseRangeString
      (strRange (some (parseRangeStringWith strtod "@1:2".toList .noext).2)) .noext =
      (.ok, { defaultRange with start := 1, end_ := 2 }) := by
    decide +kernel
  rw [hPrinted] at hAgain
  cases hAgain
  have hZero := hAgree 0
  revert hZero
  decide +kernel

end MonitoringPlug.Perfdata
