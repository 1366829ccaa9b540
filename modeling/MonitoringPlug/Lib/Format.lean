import Mathlib.Algebra.Order.Ring.Abs
import Mathlib.Algebra.Order.Ring.Rat
import MonitoringPlug.Lib.Text

/-! Printing numbers as `printf` does, over exact rationals, and reading an
integer back. -/
namespace CText

/-- `%ld`. -/
def formatLong (n : Int) : List Char :=
  if n < 0 then '-' :: Nat.toDigits 10 n.natAbs else Nat.toDigits 10 n.natAbs

/-- The nearest integer, the even one of two that are equally near. -/
def roundHalfEven (q : ℚ) : Int :=
  let low := q.floor
  if q - low < 1 / 2 ∨ (q - low = 1 / 2 ∧ low % 2 = 0) then low else low + 1

/-- `%.*f`. The sign of a negative number is kept when it rounds to zero. -/
def formatFixed (precision : Nat) (q : ℚ) : List Char :=
  let scaled := (roundHalfEven (|q| * 10 ^ precision)).toNat
  let fraction := Nat.toDigits 10 (scaled % 10 ^ precision)
  (if q < 0 then ['-'] else []) ++ Nat.toDigits 10 (scaled / 10 ^ precision) ++
    if precision = 0 then [] else '.' :: fraction.leftpad precision '0'

/-- A signed decimal integer at the front, and the text behind its digits. -/
def scanInteger (s : List Char) : Option (Int × List Char) :=
  let (minus, body) := scanSign s
  let digits := body.takeWhile Char.isDigit
  let value : Int := digitsValue digits
  if digits.isEmpty then none
  else some (if minus then -value else value, body.dropWhile Char.isDigit)

/-- The value of a digit to this base. -/
def digitIn (base : Nat) (c : Char) : Option Nat :=
  let value :=
    if c.isDigit then c.toNat - '0'.toNat
    else if c.isAlpha then c.toLower.toNat - 'a'.toNat + 10
    else base
  if value < base then some value else none

/-- `strtol` to a given base: space, sign and, to base 16, `0x` in front of a digit
are skipped; the value is clamped to a `long`. -/
def strtol (base : Nat) (s : List Char) : Int :=
  let (minus, body) := scanSign (s.dropWhile isSpace)
  let body :=
    match body with
    | '0' :: x :: c :: rest =>
        if base = 16 ∧ (x = 'x' ∨ x = 'X') ∧ (digitIn 16 c).isSome then c :: rest else body
    | _ => body
  let digits := (body.takeWhile fun c => (digitIn base c).isSome).filterMap (digitIn base)
  let value : Nat := digits.foldl (fun n d => n * base + d) 0
  max (-2 ^ 63) (min (2 ^ 63 - 1) (if minus then -(value : Int) else value))

theorem toDigits_isDigit (n : Nat) : ∀ c ∈ Nat.toDigits 10 n, c.isDigit = true :=
  fun _ hc => Nat.isDigit_of_mem_toDigits (by decide) (by decide) hc

theorem digitsValue_toDigits (n : Nat) : digitsValue (Nat.toDigits 10 n) = n := by
  rw [digitsValue, ← Nat.ofDigitChars_eq_foldl, Nat.ofDigitChars_ten_toDigits]

/-- The characters of a printed number. -/
def IsNumberChar (c : Char) : Prop := c.isDigit = true ∨ c = '-' ∨ c = '.'

theorem formatLong_ne_nil (n : Int) : formatLong n ≠ [] := by
  rw [formatLong]
  split
  · exact List.cons_ne_nil _ _
  · exact Nat.toDigits_ne_nil

theorem formatLong_chars (n : Int) : ∀ c ∈ formatLong n, IsNumberChar c := by
  intro c hc
  rw [formatLong] at hc
  split at hc
  · rcases List.mem_cons.mp hc with rfl | hDigit
    · exact Or.inr (Or.inl rfl)
    · exact Or.inl (toDigits_isDigit _ c hDigit)
  · exact Or.inl (toDigits_isDigit _ c hc)

theorem point_not_mem_formatLong (n : Int) : '.' ∉ formatLong n := by
  have hDigits : '.' ∉ Nat.toDigits 10 n.natAbs := fun h =>
    absurd (toDigits_isDigit _ _ h) (by decide)
  rw [formatLong]
  split
  · rw [List.mem_cons]
    exact not_or.mpr ⟨by decide, hDigits⟩
  · exact hDigits

theorem IsNumberChar.toNat_mem {c : Char} (h : IsNumberChar c) : 45 ≤ c.toNat ∧ c.toNat ≤ 57 := by
  rcases h with hDigit | rfl | rfl
  · simp only [Char.isDigit, Bool.and_eq_true, decide_eq_true_eq, UInt32.le_iff_toNat_le] at hDigit
    have hLow : 48 ≤ c.toNat := hDigit.1
    have hHigh : c.toNat ≤ 57 := hDigit.2
    omega
  · decide
  · decide

theorem formatFixed_ne_nil (precision : Nat) (q : ℚ) : formatFixed precision q ≠ [] := by
  simp [formatFixed, Nat.toDigits_ne_nil]

theorem point_mem_formatFixed {precision : Nat} (h : precision ≠ 0) (q : ℚ) :
    '.' ∈ formatFixed precision q := by
  simp [formatFixed, h]

theorem formatFixed_chars (precision : Nat) (q : ℚ) :
    ∀ c ∈ formatFixed precision q, IsNumberChar c := by
  intro c hc
  simp only [formatFixed, List.mem_append] at hc
  rcases hc with (hSign | hWhole) | hFraction
  · split at hSign
    · exact Or.inr (Or.inl (List.mem_singleton.mp hSign))
    · cases hSign
  · exact Or.inl (toDigits_isDigit _ c hWhole)
  · split at hFraction
    · cases hFraction
    · rcases List.mem_cons.mp hFraction with hRadix | hDigits
      · exact Or.inr (Or.inr hRadix)
      · rw [List.leftpad, List.mem_append] at hDigits
        rcases hDigits with hPad | hDigit
        · exact Or.inl (by rw [List.eq_of_mem_replicate hPad]; rfl)
        · exact Or.inl (toDigits_isDigit _ c hDigit)

section Length

/-! How long a printed number can get. -/

theorem toDigits_length_le {n k : Nat} (hk : 0 < k) (h : n < 10 ^ k) :
    (Nat.toDigits 10 n).length ≤ k :=
  (Nat.length_toDigits_le_iff (by decide) hk).mpr h

/-- The sign and at most so many digits. -/
theorem formatLong_length_le {n : Int} {k : Nat} (hk : 0 < k) (h : n.natAbs < 10 ^ k) :
    (formatLong n).length ≤ k + 1 := by
  have hDigits := toDigits_length_le hk h
  rw [formatLong]
  split
  · exact Nat.succ_le_succ hDigits
  · exact Nat.le_succ_of_le hDigits

theorem roundHalfEven_le (q : ℚ) : roundHalfEven q ≤ q + 1 := by
  have hFloor : ((q.floor : Int) : ℚ) ≤ q := Rat.floor_le q
  simp only [roundHalfEven]
  split
  · exact hFloor.trans (by simp)
  · push_cast
    exact add_le_add hFloor le_rfl

theorem formatFixed_length_le (precision : Nat) {q : ℚ} {k : Nat} (hk : 0 < k)
    (h : |q| * 10 ^ precision + 1 < 10 ^ k) :
    (formatFixed precision q).length ≤ k + precision + 2 := by
  obtain ⟨scaled, hDef⟩ : ∃ scaled, (roundHalfEven (|q| * 10 ^ precision)).toNat = scaled :=
    ⟨_, rfl⟩
  have hScaled : scaled < 10 ^ k := by
    have hRound : (roundHalfEven (|q| * 10 ^ precision) : ℚ) < ((10 ^ k : Nat) : Int) := by
      push_cast
      exact (roundHalfEven_le _).trans_lt h
    have hInt := Int.cast_lt.mp hRound
    rw [← hDef]
    exact (Int.toNat_lt' (by positivity)).mpr hInt
  have hWhole : (Nat.toDigits 10 (scaled / 10 ^ precision)).length ≤ k :=
    toDigits_length_le hk ((Nat.div_le_self _ _).trans_lt hScaled)
  have hFraction : 0 < precision →
      (Nat.toDigits 10 (scaled % 10 ^ precision)).length ≤ precision := fun hPrecision =>
    toDigits_length_le hPrecision (Nat.mod_lt _ (by positivity))
  have hSign : (if q < 0 then ['-'] else []).length ≤ 1 := by
    split <;> simp
  simp only [formatFixed, hDef, List.length_append]
  by_cases hZero : precision = 0
  · rw [if_pos hZero, List.length_nil]
    omega
  · rw [if_neg hZero, List.length_cons, List.length_leftpad]
    have hLength := hFraction (Nat.pos_of_ne_zero hZero)
    omega

end Length

section ReadBack

variable {tail : List Char}

theorem scanSign_toDigits (n : Nat) :
    scanSign (Nat.toDigits 10 n ++ tail) = (false, Nat.toDigits 10 n ++ tail) := by
  cases hDigits : Nat.toDigits 10 n with
  | nil => exact absurd hDigits Nat.toDigits_ne_nil
  | cons c rest =>
      have hDigit := toDigits_isDigit n c (by rw [hDigits]; exact List.mem_cons_self)
      exact scanSign_of_isDigit hDigit _

/-- Reading back a printed integer stops behind its digits. -/
theorem scanInteger_formatLong (n : Int) (h : ∀ c ∈ tail.head?, c.isDigit = false) :
    scanInteger (formatLong n ++ tail) = some (n, tail) := by
  have hTake := takeWhile_append_stop (toDigits_isDigit n.natAbs) h
  have hDrop := dropWhile_append_stop (toDigits_isDigit n.natAbs) h
  by_cases hSign : n < 0
  · have hScan : scanSign (formatLong n ++ tail) = (true, Nat.toDigits 10 n.natAbs ++ tail) := by
      simp [formatLong, hSign, scanSign]
    have hValue : -|n| = n := by rw [abs_of_neg hSign, neg_neg]
    simp [scanInteger, hScan, hTake, hDrop, digitsValue_toDigits, Nat.toDigits_ne_nil, hValue]
  · have hScan : scanSign (formatLong n ++ tail) = (false, Nat.toDigits 10 n.natAbs ++ tail) := by
      rw [formatLong, if_neg hSign]
      exact scanSign_toDigits _
    have hValue : |n| = n := abs_of_nonneg (not_lt.mp hSign)
    simp [scanInteger, hScan, hTake, hDrop, digitsValue_toDigits, Nat.toDigits_ne_nil, hValue]

theorem formatLong_inj {m n : Int} (h : formatLong m = formatLong n) : m = n := by
  have hLeft := @scanInteger_formatLong [] m fun c hc => by cases hc
  have hRight := @scanInteger_formatLong [] n fun c hc => by cases hc
  rw [h, hRight] at hLeft
  exact (Prod.mk.inj (Option.some.inj hLeft)).1.symm

end ReadBack

section Decimal

theorem exists_digitChar {c : Char} (h : c.isDigit = true) : ∃ d, digitChar d = c := by
  have hBounds : 48 ≤ c.toNat ∧ c.toNat ≤ 57 := by
    simpa [Char.isDigit, UInt32.le_iff_toNat_le] using h
  refine ⟨⟨c.toNat - 48, by omega⟩, ?_⟩
  have hCode : '0'.toNat + (c.toNat - 48) = c.toNat := by
    have hZero : '0'.toNat = 48 := rfl
    omega
  rw [digitChar, hCode, Char.ofNat_toNat]

theorem exists_digitText {text : List Char} (h : ∀ c ∈ text, c.isDigit = true) :
    ∃ digits, digitText digits = text := by
  induction text with
  | nil => exact ⟨[], rfl⟩
  | cons c text ih =>
      obtain ⟨d, hDigit⟩ := exists_digitChar (h c List.mem_cons_self)
      obtain ⟨digits, hText⟩ := ih fun c' hc => h c' (List.mem_cons_of_mem _ hc)
      exact ⟨d :: digits, by rw [digitText_cons, hDigit, hText]⟩

theorem digitsValue_append (front back : List Char) :
    digitsValue (front ++ back) = digitsValue front * 10 ^ back.length + digitsValue back := by
  induction back using List.reverseRecOn with
  | nil => simp [digitsValue]
  | append_singleton back c ih =>
      rw [← List.append_assoc, digitsValue_append_singleton, digitsValue_append_singleton, ih,
        List.length_append, List.length_singleton, pow_succ]
      ring

theorem digitsValue_replicate_zero (count : Nat) : digitsValue (List.replicate count '0') = 0 := by
  induction count with
  | zero => rfl
  | succ count ih =>
      rw [List.replicate_succ', digitsValue_append_singleton, ih]
      rfl

/-- The digits behind the radix character: as many as asked for, of the same value. -/
theorem digitsValue_leftpad (precision n : Nat) :
    digitsValue ((Nat.toDigits 10 n).leftpad precision '0') = n := by
  rw [List.leftpad, digitsValue_append, digitsValue_replicate_zero, digitsValue_toDigits,
    Nat.zero_mul, Nat.zero_add]

theorem leftpad_isDigit (precision n : Nat) :
    ∀ c ∈ (Nat.toDigits 10 n).leftpad precision '0', c.isDigit = true := by
  intro c hc
  rw [List.leftpad, List.mem_append] at hc
  rcases hc with hPad | hDigit
  · rw [List.eq_of_mem_replicate hPad]
    rfl
  · exact toDigits_isDigit n c hDigit

theorem roundHalfEven_intCast (z : Int) : roundHalfEven z = z := by
  simp [roundHalfEven]

/-- What is printed is a decimal number, and that of the value if it needs no more
digits. -/
theorem formatFixed_decimal {precision : Nat} (hPrecision : 0 < precision) {q : ℚ} {z : Int}
    (h : q * 10 ^ precision = z) :
    ∃ n : Decimal, n.text = formatFixed precision q ∧ n.value = q := by
  obtain ⟨whole, hWhole⟩ :=
    exists_digitText (toDigits_isDigit (z.natAbs / 10 ^ precision))
  obtain ⟨fraction, hFraction⟩ :=
    exists_digitText (leftpad_isDigit precision (z.natAbs % 10 ^ precision))
  have hLength : fraction.length = precision := by
    rw [← digitText_length, hFraction, List.length_leftpad]
    have hDigits := (Nat.length_toDigits_le_iff (b := 10) (by decide) hPrecision).mpr
      (Nat.mod_lt z.natAbs (pow_pos (by decide) precision))
    omega
  have hPower : (0 : ℚ) < 10 ^ precision := by positivity
  have hAbs : |q| * 10 ^ precision = z.natAbs := by
    rw [← abs_of_pos hPower, ← abs_mul, h, ← Int.cast_abs, Int.abs_eq_natAbs, Int.cast_natCast]
  have hScaled : (roundHalfEven (|q| * 10 ^ precision)).toNat = z.natAbs := by
    rw [hAbs, ← Int.cast_natCast, roundHalfEven_intCast, Int.toNat_natCast]
  have hSome : whole ++ (some fraction).getD [] ≠ [] := by
    intro hNil
    have hNone : fraction = [] := (List.append_eq_nil_iff.mp hNil).2
    rw [hNone, List.length_nil] at hLength
    omega
  refine ⟨⟨if q < 0 then .minus else .none, whole, some fraction, hSome⟩, ?_, ?_⟩
  · simp only [Decimal.text, Decimal.fractionText, formatFixed, hScaled, hWhole, hFraction,
      if_neg (Nat.ne_of_gt hPrecision), List.append_assoc]
    split <;> rfl
  · have hDigits : Nat.ofDigits 10 ((whole ++ fraction).reverse.map Fin.val) = z.natAbs := by
      rw [← digitsValue_digitText, digitText_append, hWhole, hFraction, digitsValue_append,
        digitsValue_toDigits, digitsValue_leftpad, ← hFraction, digitText_length, hLength,
        Nat.div_add_mod']
    have hMagnitude : ((z.natAbs : ℕ) : ℚ) / 10 ^ precision = |q| := by
      rw [div_eq_iff hPower.ne', hAbs]
    simp only [Decimal.value, Decimal.magnitude, Option.getD_some, hDigits, hLength, hMagnitude]
    by_cases hSign : q < 0
    · simp [hSign, abs_of_neg]
    · simp [hSign, abs_of_nonneg (not_lt.mp hSign)]

end Decimal

end CText
