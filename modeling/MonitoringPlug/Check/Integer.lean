import MonitoringPlug.Lib.Numeral

/-! `is_integer` of `mp_check.c` and the callers that take the number it accepted:
`getopt_port`, and the owner and group of `check_file`. A string is its characters
in front of the terminating NUL. -/
namespace MonitoringPlug.Check

open CText

def integerChars : List Char :=
  ['-', '0', '1', '2', '3', '4', '5', '6', '7', '8', '9', ' ']

/-- `INT_MIN` to `INT_MAX`. -/
def InIntRange (n : Int) : Prop := -2 ^ 31 ≤ n ∧ n ≤ 2 ^ 31 - 1

instance (n : Int) : Decidable (InIntRange n) := inferInstanceAs (Decidable (_ ∧ _))

def isInteger : Option (List Char) → Bool
  | none => false
  | some number =>
      if strspn integerChars number ≠ number.length then false
      else
        let n := strtol 10 number
        !strtolRange 10 number && decide (InIntRange n)

/-- `(int) strtol(s, NULL, 10)`. -/
def intArgument (s : List Char) : Int := (strtol 10 s).bmod (2 ^ 32)

/-- No result is the end in `usage`. -/
def getoptPort (optarg : List Char) : Option Int :=
  if isInteger (some optarg) then some (intArgument optarg) else none

/-- The test of `check_file` on `st_uid` and on `st_gid`: `true` sets the critical
state. An id is compared as an `unsigned int`; `lookup` is `getpwnam` or `getgrnam`. -/
def idDiffers (lookup : List Char → Option Nat) (fileId : Nat) (name : List Char) : Bool :=
  if isInteger (some name) then fileId != (intArgument name % 2 ^ 32).toNat
  else
    match lookup name with
    | none => true
    | some id => fileId != id

/-- The code takes the string exactly when it is an integer that an `int` holds, and
then takes it for that integer. -/
def TakesInteger (s : List Char) : Prop :=
  (isInteger (some s) = true ↔ ∃ n : Numeral, n.text = s ∧ InIntRange n.value) ∧
    (isInteger (some s) = true → ∃ n : Numeral, n.text = s ∧ intArgument s = n.value)

/-- The string begins with an integer that an `int` does not hold. -/
def StartsOutOfRange (s : List Char) : Prop :=
  ∃ (n : Numeral) (rest : List Char), n.front ++ rest = s ∧
    (∀ c ∈ rest.head?, c.isDigit = false) ∧ ¬ InIntRange n.value

theorem isInteger_eq_true_iff (s : List Char) :
    isInteger (some s) = true ↔ (∀ c ∈ s, c ∈ integerChars) ∧ InIntRange (strtolValue 10 s) := by
  rw [isInteger, ite_not, ← strspn_eq_length_iff]
  split
  · rename_i hChars
    simp only [hChars, true_and]
    constructor
    · intro hTrue
      have hParts : strtolRange 10 s = false ∧ InIntRange (strtol 10 s) := by
        simpa using hTrue
      obtain ⟨hErrno, hInt⟩ := hParts
      have hLong : -2 ^ 63 ≤ strtolValue 10 s ∧ strtolValue 10 s ≤ 2 ^ 63 - 1 := by
        simpa [strtolRange] using hErrno
      rwa [strtol_of_range hLong.1 hLong.2] at hInt
    · intro hInt
      have hLow : -2 ^ 63 ≤ strtolValue 10 s := by
        have hMin := hInt.1
        omega
      have hHigh : strtolValue 10 s ≤ 2 ^ 63 - 1 := by
        have hMax := hInt.2
        omega
      have hErrno : strtolRange 10 s = false := by
        rw [strtolRange, decide_eq_true hLow, decide_eq_true hHigh]
        rfl
      simpa [hErrno, strtol_of_range hLow hHigh] using hInt
  · rename_i hChars
    simp [hChars]

theorem intArgument_of_range {s : List Char} (h : InIntRange (strtolValue 10 s)) :
    intArgument s = strtolValue 10 s := by
  obtain ⟨hMin, hMax⟩ := h
  rw [intArgument, strtol_of_range (by omega) (by omega), Int.bmod_def]
  omega

theorem digitChar_mem_integerChars (d : Fin 10) : digitChar d ∈ integerChars := by
  decide +revert

theorem numeral_chars (n : Numeral) : ∀ c ∈ n.text, c ∈ integerChars := by
  have hBlank : ' ' ∈ integerChars := by decide
  intro c hc
  simp only [Numeral.text, Numeral.front, List.mem_append] at hc
  rcases hc with (hBefore | hSign | hDigit) | hBehind
  · rwa [List.eq_of_mem_replicate hBefore]
  · split at hSign
    · rw [List.mem_singleton.mp hSign]
      decide
    · cases hSign
  · obtain ⟨d, _, rfl⟩ := List.mem_map.mp hDigit
    exact digitChar_mem_integerChars d
  · rwa [List.eq_of_mem_replicate hBehind]

/-- A string over the accepted characters is read as zero or from a numeral in front. -/
theorem strtolValue_integerChars {s : List Char} (hChars : ∀ c ∈ s, c ∈ integerChars) :
    (∃ (n : Numeral) (rest : List Char), n.front ++ rest = s ∧
      ∀ c ∈ rest.head?, c.isDigit = false) ∨ strtolValue 10 s = 0 := by
  refine strtolValue_cases (fun c hc hSpace => ?_) fun hPlus => ?_
  · have hMember := hChars c hc
    simp only [integerChars, List.mem_cons, List.not_mem_nil, or_false] at hMember
    rcases hMember with rfl | rfl | rfl | rfl | rfl | rfl | rfl | rfl | rfl | rfl | rfl | rfl <;>
      first | rfl | cases hSpace
  · exact absurd (hChars '+' hPlus) (by decide)

/-- What is accepted is the integer the callers use, except for a string over the
accepted characters that is no integer and whose number in front, if any, fits. -/
theorem takesInteger_iff (s : List Char) :
    TakesInteger s ↔ (∃ c ∈ s, c ∉ integerChars) ∨ (∃ n : Numeral, n.text = s) ∨
      StartsOutOfRange s := by
  constructor
  · rintro ⟨hExact, -⟩
    by_cases hChars : ∀ c ∈ s, c ∈ integerChars
    · by_cases hNumeral : ∃ n : Numeral, n.text = s
      · exact Or.inr (Or.inl hNumeral)
      · have hRefused : ¬ InIntRange (strtolValue 10 s) := fun hRange =>
          have hTaken := (isInteger_eq_true_iff s).mpr ⟨hChars, hRange⟩
          have ⟨n, hText, _⟩ := hExact.mp hTaken
          hNumeral ⟨n, hText⟩
        rcases strtolValue_integerChars hChars with ⟨n, rest, hSplit, hRest⟩ | hZero
        · rw [← hSplit, n.strtolValue_front hRest] at hRefused
          exact Or.inr (Or.inr ⟨n, rest, hSplit, hRest, hRefused⟩)
        · rw [hZero] at hRefused
          exact absurd (by decide) hRefused
    · push Not at hChars
      exact Or.inl hChars
  · intro hCondition
    have hValue : ∀ n : Numeral, n.text = s → strtolValue 10 s = n.value := by
      rintro n rfl
      exact n.strtolValue_text
    have hNumeral : (∃ n : Numeral, n.text = s ∧ InIntRange n.value) →
        isInteger (some s) = true := by
      rintro ⟨n, hText, hRange⟩
      rw [isInteger_eq_true_iff, hValue n hText]
      exact ⟨hText ▸ numeral_chars n, hRange⟩
    have hTaken : isInteger (some s) = true → ∃ n : Numeral, n.text = s := by
      intro hTrue
      obtain ⟨hChars, hRange⟩ := (isInteger_eq_true_iff s).mp hTrue
      rcases hCondition with ⟨c, hc, hOutside⟩ | hSome | ⟨n, rest, hSplit, hRest, hOut⟩
      · exact absurd (hChars c hc) hOutside
      · exact hSome
      · rw [← hSplit, n.strtolValue_front hRest] at hRange
        exact absurd hRange hOut
    refine ⟨⟨fun hTrue => ?_, hNumeral⟩, fun hTrue => ?_⟩
    · obtain ⟨n, hText⟩ := hTaken hTrue
      have hRange := ((isInteger_eq_true_iff s).mp hTrue).2
      exact ⟨n, hText, hValue n hText ▸ hRange⟩
    · obtain ⟨n, hText⟩ := hTaken hTrue
      have hRange := ((isInteger_eq_true_iff s).mp hTrue).2
      exact ⟨n, hText, (intArgument_of_range hRange).trans (hValue n hText)⟩

theorem isInteger_numeral (n : Numeral) :
    isInteger (some n.text) = decide (InIntRange n.value) := by
  rw [Bool.eq_iff_iff, isInteger_eq_true_iff, n.strtolValue_text, decide_eq_true_iff]
  exact and_iff_right (numeral_chars n)

/-- An integer argument is the port, and the id that is looked at. -/
theorem intArgument_numeral {n : Numeral} (h : InIntRange n.value) :
    getoptPort n.text = some n.value ∧
      ∀ lookup fileId, idDiffers lookup fileId n.text = (fileId != (n.value % 2 ^ 32).toNat) := by
  have hTaken : isInteger (some n.text) = true := by
    rw [isInteger_numeral, decide_eq_true h]
  have hUsed : intArgument n.text = n.value := by
    rw [intArgument_of_range (by rwa [n.strtolValue_text]), n.strtolValue_text]
  refine ⟨?_, fun lookup fileId => ?_⟩
  · rw [getoptPort, if_pos hTaken, hUsed]
  · rw [idDiffers, if_pos hTaken, hUsed]

/-- The text `1-2` is accepted and used as 1. -/
theorem getoptPort_one_minus_two :
    getoptPort ['1', '-', '2'] = some 1 ∧ ¬ TakesInteger ['1', '-', '2'] := by
  have hTaken : isInteger (some ['1', '-', '2']) = true := by decide
  refine ⟨by decide, fun ⟨hExact, _⟩ => ?_⟩
  obtain ⟨⟨before, minus, digits, hSome, behind⟩, hText, -⟩ := hExact.mp hTaken
  simp only [Numeral.text, Numeral.front] at hText
  cases before with
  | succ before => simp [List.replicate_succ] at hText
  | zero =>
      cases minus with
      | true => simp at hText
      | false =>
          -- The minus would have to be one of the digits or of the blanks behind them.
          have hMinus : '-' ∈ digitText digits ++ List.replicate behind ' ' := by
            simp only [Bool.false_eq_true, if_false, List.replicate_zero, List.nil_append] at hText
            rw [hText]
            decide
          rcases List.mem_append.mp hMinus with hDigit | hBlank
          · exact absurd (digitText_isDigit digits _ hDigit) (by decide)
          · exact absurd (List.eq_of_mem_replicate hBlank) (by decide)

end MonitoringPlug.Check
