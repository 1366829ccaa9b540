import MonitoringPlug.Args.Range

/-! Which threshold arguments are refused. Only where a number ends decides it, so
nothing is assumed about `strtod`: the notations it takes are those of the library the
plugin runs with. -/
namespace MonitoringPlug.Args

open CText MonitoringPlug.Common

/-- The option letter of a threshold. -/
def Slot.letter : Slot → Char
  | .warning => 'w'
  | .critical => 'c'

/-- What an option handler does: the thresholds it leaves, or the message it gives to
`usage`, which does not return. -/
abbrev Handled := Except (List Char) (Option Thresholds)

def illegalThreshold (slot : Slot) (optarg : List Char) : List Char :=
  "Illegal -".toList ++ [slot.letter] ++ " threshold '".toList ++ optarg ++ "'.".toList

section Handlers

variable (strtod : List Char → ℚ × List Char)

/-- One branch of a handler. -/
def setOrUsage (multiplier : Multiplier) (slot : Slot) (optarg : List Char)
    (threshold : Option Thresholds) : Handled :=
  match mpThresholdSetWith strtod slot threshold optarg multiplier with
  | (.error, _) => .error (illegalThreshold slot optarg)
  | (.ok, thresholds) => .ok (some thresholds)

def getoptThreshold (multiplier : Multiplier) (c : Char) (optarg : List Char)
    (threshold : Option Thresholds) : Handled :=
  if c = 'w' then setOrUsage strtod multiplier .warning optarg threshold
  else if c = 'c' then setOrUsage strtod multiplier .critical optarg threshold
  else .ok threshold

def getoptWc := getoptThreshold strtod .bisi
def getoptWcTime := getoptThreshold strtod .time

/-- A bound that is given, is not `~` and starts with no number. -/
def MalformedBound (bound : List Char) : Prop :=
  bound ≠ [] ∧ bound.head? ≠ some '~' ∧ (strtod bound).2.length = bound.length

end Handlers

/-- A range string without its leading `@`. -/
def bounds : List Char → List Char
  | '@' :: rest => rest
  | str => str

/-- What is in front of the first colon, if there is one. -/
def startPart (str : List Char) : Option (List Char) :=
  if ':' ∈ bounds str then some ((bounds str).takeWhile (· != ':')) else none

/-- What is behind the first colon, or all of it. -/
def endPart (str : List Char) : List Char :=
  if ':' ∈ bounds str then ((bounds str).dropWhile (· != ':')).tail else bounds str

section Parts

variable (strtod : List Char → ℚ × List Char)

def MalformedStart (str : List Char) : Prop :=
  ∃ start ∈ startPart str, MalformedBound strtod start

def MalformedEnd (str : List Char) : Prop := MalformedBound strtod (endPart str)

/-- The parser refuses the string in every mode, and both handlers call `usage` for it,
if and only if one of the bounds is malformed. -/
structure RefusesMalformed (str : List Char) : Prop where
  parse : ∀ multiplier, (parseRangeStringWith strtod str multiplier).1 = .error ↔
    MalformedStart strtod str ∨ MalformedEnd strtod str
  wc : ∀ slot threshold,
    getoptWc strtod slot.letter str threshold = .error (illegalThreshold slot str) ↔
      MalformedStart strtod str ∨ MalformedEnd strtod str
  wcTime : ∀ slot threshold,
    getoptWcTime strtod slot.letter str threshold = .error (illegalThreshold slot str) ↔
      MalformedStart strtod str ∨ MalformedEnd strtod str

end Parts

theorem scanAlertOn_bounds (str : List Char) :
    ∃ alertOn offset, scanAlertOn str = (alertOn, offset, bounds str) := by
  unfold scanAlertOn
  split
  · exact ⟨.inside, 1, rfl⟩
  · rename_i hOther
    rw [bounds]
    · exact ⟨.outside, 0, rfl⟩
    · exact hOther

theorem splitBounds_parts (str : List Char) :
    splitBounds (bounds str) = (startPart str, endPart str) := by
  by_cases hColon : ':' ∈ bounds str
  · simp only [splitBounds, strsep_mem hColon, startPart, endPart, if_pos hColon]
  · simp only [splitBounds, strsep_none hColon, startPart, endPart, if_neg hColon]

section Codes

variable {strtod : List Char → ℚ × List Char}

/-- The end of the number is in the copy, and what it is compared with is in the
argument. -/
theorem parseStart_ok (strtod : List Char → ℚ × List Char) (range : Range) (offset : Nat)
    (start : Option (List Char))
    (multiplier : Multiplier) :
    ∃ range', parseStart strtod range (.argument, offset) start multiplier = (.ok, range') := by
  cases start with
  | none => exact ⟨_, rfl⟩
  | some start =>
      by_cases hTilde : start.head? = some '~'
      · exact ⟨_, by simp only [parseStart, if_pos hTilde]; rfl⟩
      · have hApart : ¬((.argument, offset) : StringPointer) =
            (.duplicate, start.length - (strtod start).2.length) := by simp
        exact ⟨_, by simp only [parseStart, if_neg hTilde, if_neg hApart]; rfl⟩

theorem parseEnd_error_iff (range : Range) (bound : List Char) (multiplier : Multiplier) :
    (parseEnd strtod range bound multiplier).1 = .error ↔ MalformedBound strtod bound := by
  rw [parseEnd, MalformedBound]
  by_cases hOpen : bound.head? = some '~' ∨ bound = []
  · rw [if_pos hOpen]
    rcases hOpen with hTilde | hEmpty
    · simp [hTilde]
    · simp [hEmpty]
  · rw [if_neg hOpen]
    obtain ⟨hTilde, hSome⟩ := not_or.mp hOpen
    by_cases hNone : (strtod bound).2.length = bound.length
    · simp [hNone, hTilde, hSome]
    · simp [hNone]

/-- The code refuses exactly the strings with a malformed END. -/
theorem parseRangeStringWith_error_iff (str : List Char) (multiplier : Multiplier) :
    (parseRangeStringWith strtod str multiplier).1 = .error ↔ MalformedEnd strtod str := by
  obtain ⟨alertOn, offset, hScan⟩ := scanAlertOn_bounds str
  obtain ⟨range, hStart⟩ := parseStart_ok strtod
    { defaultRange with alertOn := alertOn } offset (startPart str) multiplier
  rw [MalformedEnd, ← parseEnd_error_iff range (endPart str) multiplier]
  simp only [parseRangeStringWith, hScan, splitBounds_parts, hStart]
  cases hEnd : parseEnd strtod range (endPart str) multiplier with
  | mk code range' =>
      cases code with
      | ok => simp
      | error => simp

theorem mpThresholdSetWith_code (slot : Slot) (threshold : Option Thresholds) (str : List Char)
    (multiplier : Multiplier) :
    (mpThresholdSetWith strtod slot threshold str multiplier).1 =
      (parseRangeStringWith strtod str multiplier).1 := by
  cases slot with
  | warning => rfl
  | critical => rfl

theorem setOrUsage_error_iff (multiplier : Multiplier) (slot : Slot) (str : List Char)
    (threshold : Option Thresholds) :
    setOrUsage strtod multiplier slot str threshold = .error (illegalThreshold slot str) ↔
      MalformedEnd strtod str := by
  rw [← parseRangeStringWith_error_iff str multiplier,
    ← mpThresholdSetWith_code slot threshold str multiplier, setOrUsage]
  cases hSet : mpThresholdSetWith strtod slot threshold str multiplier with
  | mk code thresholds =>
      cases code with
      | ok => simp
      | error => simp

theorem getoptThreshold_letter (multiplier : Multiplier) (slot : Slot) (str : List Char)
    (threshold : Option Thresholds) :
    getoptThreshold strtod multiplier slot.letter str threshold =
      setOrUsage strtod multiplier slot str threshold := by
  cases slot with
  | warning => rfl
  | critical => rfl

end Codes

/-- Malformed bounds are refused if and only if END is malformed where START is. -/
theorem refusesMalformed_iff (strtod : List Char → ℚ × List Char) (str : List Char) :
    RefusesMalformed strtod str ↔ (MalformedStart strtod str → MalformedEnd strtod str) := by
  constructor
  · intro hRefuses hStart
    exact (parseRangeStringWith_error_iff str .noext).mp
      ((hRefuses.parse .noext).mpr (.inl hStart))
  · intro hBoth
    have hEither : MalformedEnd strtod str ↔
        MalformedStart strtod str ∨ MalformedEnd strtod str :=
      ⟨.inr, fun h => h.elim hBoth id⟩
    constructor
    · intro multiplier
      exact (parseRangeStringWith_error_iff str multiplier).trans hEither
    · intro slot threshold
      rw [getoptWc, getoptThreshold_letter]
      exact (setOrUsage_error_iff .bisi slot str threshold).trans hEither
    · intro slot threshold
      rw [getoptWcTime, getoptThreshold_letter]
      exact (setOrUsage_error_iff .time slot str threshold).trans hEither

/-- `abc` is read as 0. -/
theorem refusesMalformed_letters : ¬RefusesMalformed CText.strtod "abc:10".toList := by
  intro hRefuses
  have hStart : MalformedStart CText.strtod "abc:10".toList :=
    ⟨"abc".toList, by decide +kernel, by decide, by decide, by decide +kernel⟩
  have hParsed : (parseRangeStringWith CText.strtod "abc:10".toList .noext).1 = .ok := by
    decide +kernel
  have hRefused := (hRefuses.parse .noext).mpr (.inl hStart)
  rw [hParsed] at hRefused
  cases hRefused

end MonitoringPlug.Args
