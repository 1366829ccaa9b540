import Mathlib.Data.List.Induction
import Mathlib.Data.List.TakeWhile
import Mathlib.Data.Nat.Digits.Defs
import Mathlib.Algebra.Field.Rat

/-! Scanning functions of the C library over the characters in front of the
terminating NUL. Doubles are exact rationals here, and `strtod` reads decimal
notation; its hexadecimal, infinity and NaN spellings are left out. -/
namespace CText

/-- `isspace` in the C locale. -/
def isSpace (c : Char) : Bool :=
  c == ' ' || c == '\t' || c == '\n' || c == '\x0b' || c == '\x0c' || c == '\r'

/-- The token in front of the first delimiter and, if there is one, the rest
behind it: `strsep` with a single delimiter. -/
def strsep (delimiter : Char) (s : List Char) : List Char × Option (List Char) :=
  match s.dropWhile (· != delimiter) with
  | [] => (s, none)
  | _ :: rest => (s.takeWhile (· != delimiter), some rest)

/-- `fgets`: the characters up to the first newline, which is kept, but fewer
than `size` of them, and the rest of the stream. At its end there is none. -/
def fgets (size : Nat) (stream : List Char) : Option (List Char × List Char) :=
  if stream.isEmpty then none
  else
    let window := stream.take (size - 1)
    let line := window.takeWhile (· != '\n')
    let count := if line.length < window.length then line.length + 1 else line.length
    some (stream.take count, stream.drop count)

def digitsValue (digits : List Char) : Nat :=
  digits.foldl (fun value c => 10 * value + (c.toNat - '0'.toNat)) 0

/-- An optional sign; `true` is minus. -/
def scanSign : List Char → Bool × List Char
  | '-' :: rest => (true, rest)
  | '+' :: rest => (false, rest)
  | s => (false, s)

/-- The digits behind an optional radix character. -/
def scanFraction : List Char → List Char × List Char
  | '.' :: rest => (rest.takeWhile Char.isDigit, rest.dropWhile Char.isDigit)
  | s => ([], s)

/-- An exponent is only taken when it has a digit. -/
def scanExponent : List Char → Int × List Char
  | [] => (0, [])
  | c :: rest =>
      if c == 'e' || c == 'E' then
        let (minus, body) := scanSign rest
        let digits := body.takeWhile Char.isDigit
        if digits.isEmpty then (0, c :: rest)
        else
          let power : Int := digitsValue digits
          (if minus then -power else power, body.dropWhile Char.isDigit)
      else (0, c :: rest)

/-- The value of the longest numeric start and the text behind it. Without a
conversion the value is zero and nothing is consumed. -/
def strtod (s : List Char) : ℚ × List Char :=
  let (minus, body) := scanSign (s.dropWhile isSpace)
  let whole := body.takeWhile Char.isDigit
  let (fraction, tail) := scanFraction (body.dropWhile Char.isDigit)
  if whole.isEmpty && fraction.isEmpty then (0, s)
  else
    let (power, rest) := scanExponent tail
    let magnitude : ℚ := digitsValue (whole ++ fraction) / 10 ^ fraction.length * 10 ^ power
    (if minus then -magnitude else magnitude, rest)

section Scan

/-! A scan for characters of one kind stops behind them. -/

variable {α : Type*} {p : α → Bool} {front tail : List α}

theorem takeWhile_append_stop (hFront : ∀ a ∈ front, p a = true)
    (hTail : ∀ a ∈ tail.head?, p a = false) : (front ++ tail).takeWhile p = front := by
  rw [List.takeWhile_append_of_pos hFront]
  cases tail with
  | nil => simp
  | cons a rest => simp [hTail a rfl]

theorem dropWhile_append_stop (hFront : ∀ a ∈ front, p a = true)
    (hTail : ∀ a ∈ tail.head?, p a = false) : (front ++ tail).dropWhile p = tail := by
  rw [List.dropWhile_append_of_pos hFront]
  cases tail with
  | nil => simp
  | cons a rest => simp [hTail a rfl]

/-- What is in front of the first `a`, and it. -/
theorem eq_takeWhile_append_cons [DecidableEq α] {a : α} {s : List α} (h : a ∈ s) :
    ∃ rest, s = s.takeWhile (· != a) ++ a :: rest := by
  induction s with
  | nil => cases h
  | cons b s ih =>
      by_cases hFirst : b = a
      · exact ⟨s, by simp [hFirst]⟩
      · obtain ⟨rest, hRest⟩ := ih ((List.mem_cons.mp h).resolve_left (Ne.symm hFirst))
        refine ⟨rest, ?_⟩
        rw [List.takeWhile_cons_of_pos (by simpa using hFirst), List.cons_append, ← hRest]

theorem takeWhile_ne_append_of_not_mem [DecidableEq α] {a : α} {s : List α} (h : a ∉ s)
    (rest : List α) : (s ++ rest).takeWhile (· != a) = s ++ rest.takeWhile (· != a) := by
  rw [List.takeWhile_append_of_pos]
  intro c hc
  simpa using fun hEq : c = a => h (hEq ▸ hc)

theorem takeWhile_ne_append_of_mem [DecidableEq α] {a : α} {s : List α} (h : a ∈ s)
    (rest : List α) : (s ++ rest).takeWhile (· != a) = s.takeWhile (· != a) := by
  induction s with
  | nil => cases h
  | cons b s ih =>
      by_cases hFirst : b = a
      · simp [hFirst]
      · have hRest := ih ((List.mem_cons.mp h).resolve_left (Ne.symm hFirst))
        simp [hFirst, hRest]

end Scan

theorem strsep_none {delimiter : Char} {s : List Char} (h : delimiter ∉ s) :
    strsep delimiter s = (s, none) := by
  have hDrop : s.dropWhile (· != delimiter) = [] := by
    rw [List.dropWhile_eq_nil_iff]
    intro c hc
    simpa using fun he : c = delimiter => h (he ▸ hc)
  simp [strsep, hDrop]

theorem strsep_append {delimiter : Char} {front : List Char} (h : delimiter ∉ front)
    (rest : List Char) :
    strsep delimiter (front ++ delimiter :: rest) = (front, some rest) := by
  have hAll : ∀ c ∈ front, (c != delimiter) = true := by
    intro c hc
    simpa using fun he : c = delimiter => h (he ▸ hc)
  rw [strsep, List.dropWhile_append_of_pos hAll, List.takeWhile_append_of_pos hAll]
  simp

theorem strsep_mem {delimiter : Char} {s : List Char} (h : delimiter ∈ s) :
    strsep delimiter s =
      (s.takeWhile (· != delimiter), some (s.dropWhile (· != delimiter)).tail) := by
  cases hDrop : s.dropWhile (· != delimiter) with
  | nil =>
      rw [List.dropWhile_eq_nil_iff] at hDrop
      exact absurd (hDrop delimiter h) (by simp)
  | cons c rest => simp [strsep, hDrop]

section Lines

/-- A line that fits is read whole, with its newline. -/
theorem fgets_line (size : Nat) {line : List Char} (hLine : '\n' ∉ line)
    (hSize : line.length + 1 < size)
    (rest : List Char) : fgets size (line ++ '\n' :: rest) = some (line ++ ['\n'], rest) := by
  have hStream : (line ++ '\n' :: rest).isEmpty = false := by simp
  have hWindow : (line ++ '\n' :: rest).take (size - 1) =
      line ++ '\n' :: rest.take (size - 1 - (line.length + 1)) := by
    obtain ⟨more, hMore⟩ : ∃ more, size - 1 = line.length + (more + 1) :=
      ⟨size - 1 - (line.length + 1), by omega⟩
    rw [hMore, List.take_length_add_append, List.take_succ_cons]
    congr 3
    omega
  have hScan : ((line ++ '\n' :: rest).take (size - 1)).takeWhile (· != '\n') = line := by
    rw [hWindow]
    refine takeWhile_append_stop (fun c hc => ?_) (by simp)
    simpa using fun he : c = '\n' => hLine (he ▸ hc)
  have hCount : line.length < ((line ++ '\n' :: rest).take (size - 1)).length := by
    rw [hWindow]
    simp
  simp only [fgets, hStream, hScan, hCount, if_true, Bool.false_eq_true, if_false]
  rw [List.take_length_add_append, List.drop_length_add_append]
  rfl

/-- A line that does not fit, or the stream ends in, is read without a newline. -/
theorem fgets_incomplete (size : Nat) {stream : List Char} (hSome : stream ≠ [])
    (hLine : '\n' ∉ stream.take (size - 1)) :
    fgets size stream = some (stream.take (size - 1), stream.drop (size - 1)) := by
  have hScan : (stream.take (size - 1)).takeWhile (· != '\n') = stream.take (size - 1) := by
    rw [List.takeWhile_eq_self_iff]
    intro c hc
    simpa using fun he : c = '\n' => hLine (he ▸ hc)
  have hLength : (stream.take (size - 1)).length = min (size - 1) stream.length := List.length_take
  simp only [fgets, List.isEmpty_eq_false_iff.mpr hSome, hScan, Nat.lt_irrefl, if_false,
    Bool.false_eq_true, hLength]
  rcases Nat.le_total (size - 1) stream.length with hLe | hLe
  · rw [Nat.min_eq_left hLe]
  · rw [Nat.min_eq_right hLe, List.take_of_length_le hLe, List.take_length,
      List.drop_eq_nil_of_le hLe, List.drop_length]

/-- A stream that is not at its end is read from its front. -/
theorem fgets_front {size : Nat} {stream : List Char} (hSize : 1 < size) (hSome : stream ≠ []) :
    ∃ read rest, fgets size stream = some (read, rest) ∧ read.head? = stream.head? := by
  obtain ⟨c, more, rfl⟩ := List.exists_cons_of_ne_nil hSome
  obtain ⟨room, hRoom⟩ : ∃ room, size - 1 = room + 1 := ⟨size - 2, by omega⟩
  have hCount : ∀ line : List Char,
      ∃ count, (if line.length < ((c :: more).take (size - 1)).length then line.length + 1
        else line.length) = count + 1 := by
    intro line
    rw [hRoom, List.take_succ_cons, List.length_cons]
    split
    · exact ⟨_, rfl⟩
    · exact ⟨line.length - 1, by omega⟩
  obtain ⟨count, hTaken⟩ := hCount (((c :: more).take (size - 1)).takeWhile (· != '\n'))
  refine ⟨(c :: more).take (count + 1), (c :: more).drop (count + 1), ?_, rfl⟩
  simp only [fgets, List.isEmpty_cons, Bool.false_eq_true, if_false, hTaken]

/-- Something is taken off a stream that is not at its end. -/
theorem fgets_shortens {size : Nat} {stream read rest : List Char} (hSize : 1 < size)
    (h : fgets size stream = some (read, rest)) : rest.length < stream.length := by
  unfold fgets at h
  split at h
  · cases h
  · rename_i hSome
    have hPos : 0 < stream.length := by
      rw [List.length_pos_iff]
      simpa using hSome
    simp only [Option.some.injEq, Prod.mk.injEq] at h
    rw [← h.2, List.length_drop]
    split
    · omega
    · rename_i hAll
      have hLe : ((stream.take (size - 1)).takeWhile (· != '\n')).length ≤
          (stream.take (size - 1)).length := (List.takeWhile_sublist _).length_le
      rw [List.length_take] at hAll hLe
      omega

end Lines

/-- A sign as it is written. -/
inductive Sign where
  | none
  | plus
  | minus
deriving DecidableEq

def Sign.text : Sign → List Char
  | .none => []
  | .plus => ['+']
  | .minus => ['-']

def digitChar (d : Fin 10) : Char := Char.ofNat ('0'.toNat + d.val)

def digitText (digits : List (Fin 10)) : List Char := digits.map digitChar

/-- A signed decimal number without exponent, with at least one digit. -/
structure Decimal where
  sign : Sign
  whole : List (Fin 10)
  fraction : Option (List (Fin 10))
  someDigit : whole ++ fraction.getD [] ≠ []

namespace Decimal

def fractionText (n : Decimal) : List Char :=
  match n.fraction with
  | none => []
  | some digits => '.' :: digitText digits

def text (n : Decimal) : List Char :=
  n.sign.text ++ (digitText n.whole ++ n.fractionText)

def magnitude (n : Decimal) : ℚ :=
  (Nat.ofDigits 10 ((n.whole ++ n.fraction.getD []).reverse.map Fin.val) : ℕ) /
    10 ^ (n.fraction.getD []).length

def value (n : Decimal) : ℚ :=
  if n.sign = .minus then -n.magnitude else n.magnitude

end Decimal

section Digits

theorem isSpace_of_isDigit {c : Char} (h : c.isDigit = true) : isSpace c = false := by
  have hBounds : 48 ≤ c.toNat ∧ c.toNat ≤ 57 := by
    simpa [Char.isDigit, UInt32.le_iff_toNat_le] using h
  have hApart : ∀ x : Char, x.toNat < 48 → c ≠ x := by
    rintro x hx rfl
    omega
  simp [isSpace, hApart]

/-- A digit is no sign. -/
theorem scanSign_of_isDigit {c : Char} (h : c.isDigit = true) (rest : List Char) :
    scanSign (c :: rest) = (false, c :: rest) := by
  unfold scanSign
  split
  · simp_all
  · simp_all
  · rfl

theorem digitChar_isDigit (d : Fin 10) : (digitChar d).isDigit = true := by
  decide +revert

theorem digitText_isDigit (digits : List (Fin 10)) : ∀ c ∈ digitText digits, c.isDigit = true := by
  intro c hc
  obtain ⟨d, _, rfl⟩ := List.mem_map.mp hc
  exact digitChar_isDigit d

@[simp] theorem digitText_length (digits : List (Fin 10)) :
    (digitText digits).length = digits.length := by
  simp [digitText]

@[simp] theorem digitText_isEmpty (digits : List (Fin 10)) :
    (digitText digits).isEmpty = digits.isEmpty := by
  cases digits <;> rfl

theorem digitText_cons (d : Fin 10) (digits : List (Fin 10)) :
    digitText (d :: digits) = digitChar d :: digitText digits := rfl

theorem digitText_append (front back : List (Fin 10)) :
    digitText (front ++ back) = digitText front ++ digitText back := by
  simp [digitText]

theorem digitsValue_append_singleton (digits : List Char) (c : Char) :
    digitsValue (digits ++ [c]) = 10 * digitsValue digits + (c.toNat - '0'.toNat) := by
  simp [digitsValue]

theorem digitsValue_digitText (digits : List (Fin 10)) :
    digitsValue (digitText digits) = Nat.ofDigits 10 (digits.reverse.map Fin.val) := by
  -- The scanner reads the most significant digit first, so the last digit is peeled off.
  induction digits using List.reverseRecOn with
  | nil => rfl
  | append_singleton front d ih =>
      have hDigit : (digitChar d).toNat - '0'.toNat = d.val := by decide +revert
      rw [digitText_append, show digitText [d] = [digitChar d] from rfl,
        digitsValue_append_singleton, ih, hDigit]
      simp [Nat.ofDigits_cons, Nat.add_comm]

variable {digits : List (Fin 10)} {tail : List Char}

theorem takeWhile_digitText (h : ∀ c ∈ tail.head?, c.isDigit = false) :
    (digitText digits ++ tail).takeWhile Char.isDigit = digitText digits :=
  takeWhile_append_stop (digitText_isDigit digits) h

theorem dropWhile_digitText (h : ∀ c ∈ tail.head?, c.isDigit = false) :
    (digitText digits ++ tail).dropWhile Char.isDigit = tail :=
  dropWhile_append_stop (digitText_isDigit digits) h

end Digits

/-- What may follow a number so that the number ends there: nothing, or one
character that is neither a digit nor the radix character. -/
def EndsNumber : List Char → Prop
  | [] => True
  | [c] => c.isDigit = false ∧ c ≠ '.'
  | _ => False

theorem scanExponent_of_endsNumber {tail : List Char} (h : EndsNumber tail) :
    scanExponent tail = (0, tail) := by
  match tail with
  | [] => rfl
  | [c] => simp [scanExponent, scanSign]
  | _ :: _ :: _ => exact h.elim

theorem EndsNumber.head_not_digit {tail : List Char} (h : EndsNumber tail) :
    ∀ c ∈ tail.head?, c.isDigit = false := by
  match tail with
  | [] => simp
  | [c] => simpa using h.1
  | _ :: _ :: _ => exact h.elim

theorem scanFraction_of_endsNumber {tail : List Char} (h : EndsNumber tail) :
    scanFraction tail = ([], tail) := by
  match tail with
  | [] => rfl
  | [c] =>
      have hRadix := h.2
      unfold scanFraction
      split
      · simp_all
      · rfl
  | _ :: _ :: _ => exact h.elim

namespace Decimal

variable (n : Decimal)

/-- The text behind the sign. -/
def unsignedText : List Char := digitText n.whole ++ n.fractionText

theorem unsignedText_cons :
    ∃ c rest, n.unsignedText = c :: rest ∧ (c.isDigit = true ∨ c = '.') := by
  rw [unsignedText]
  cases hWhole : n.whole with
  | cons d rest => exact ⟨_, _, rfl, Or.inl (digitChar_isDigit d)⟩
  | nil =>
      cases hFraction : n.fraction with
      | none => exact absurd (by simp [hWhole, hFraction]) n.someDigit
      | some digits =>
          exact ⟨'.', digitText digits, by simp [digitText, fractionText, hFraction], Or.inr rfl⟩

/-- The characters a number is written with. -/
theorem text_chars : ∀ c ∈ n.text, c.isDigit = true ∨ c = '.' ∨ c = '+' ∨ c = '-' := by
  intro c hc
  rw [text, List.mem_append, List.mem_append] at hc
  rcases hc with hSign | hWhole | hFraction
  · cases hs : n.sign <;> simp_all [Sign.text]
  · exact Or.inl (digitText_isDigit _ c hWhole)
  · unfold fractionText at hFraction
    split at hFraction
    · simp at hFraction
    · rcases List.mem_cons.mp hFraction with hRadix | hDigit
      · exact Or.inr (Or.inl hRadix)
      · exact Or.inl (digitText_isDigit _ c hDigit)

theorem text_ne_nil : n.text ≠ [] := by
  obtain ⟨c, rest, hText, _⟩ := n.unsignedText_cons
  have hSplit : n.text = n.sign.text ++ n.unsignedText := rfl
  rw [hSplit, hText]
  simp

theorem dropWhile_isSpace_text (tail : List Char) :
    (n.text ++ tail).dropWhile isSpace = n.text ++ tail := by
  cases hText : n.text with
  | nil => exact absurd hText n.text_ne_nil
  | cons c rest =>
      have hSpace : isSpace c = false := by
        rcases n.text_chars c (by simp [hText]) with h | h | h | h
        · exact isSpace_of_isDigit h
        · subst h; rfl
        · subst h; rfl
        · subst h; rfl
      simp [hSpace]

theorem scanSign_text (tail : List Char) :
    scanSign (n.text ++ tail) = (decide (n.sign = .minus), n.unsignedText ++ tail) := by
  have hSplit : n.text ++ tail = n.sign.text ++ (n.unsignedText ++ tail) := by
    simp [text, unsignedText]
  rw [hSplit]
  cases hSign : n.sign with
  | plus => rfl
  | minus => rfl
  | none =>
      obtain ⟨c, rest, hText, hChar⟩ := n.unsignedText_cons
      rw [hText]
      unfold scanSign
      split
      · simp_all [Sign.text]
      · simp_all [Sign.text]
      · simp [Sign.text]

end Decimal

/-- `strtod` reads a decimal number exactly and stops behind it. -/
theorem strtod_decimal (n : Decimal) {tail : List Char} (h : EndsNumber tail) :
    strtod (n.text ++ tail) = (n.value, tail) := by
  have hWholeTail : ∀ c ∈ (n.fractionText ++ tail).head?, c.isDigit = false := by
    rw [Decimal.fractionText]
    cases n.fraction with
    | none => exact h.head_not_digit
    | some digits => simp
  have hFraction : scanFraction (n.fractionText ++ tail) =
      (digitText (n.fraction.getD []), tail) := by
    rw [Decimal.fractionText]
    cases n.fraction with
    | none => exact scanFraction_of_endsNumber h
    | some digits =>
        simp [scanFraction, takeWhile_digitText h.head_not_digit,
          dropWhile_digitText h.head_not_digit]
  have hDigits : (n.whole.isEmpty && (n.fraction.getD []).isEmpty) = false := by
    have hSome := n.someDigit
    cases hWhole : n.whole with
    | cons d rest => rfl
    | nil =>
        rw [hWhole, List.nil_append] at hSome
        simpa using hSome
  have hWhole : (n.unsignedText ++ tail).takeWhile Char.isDigit = digitText n.whole := by
    rw [Decimal.unsignedText, List.append_assoc, takeWhile_digitText hWholeTail]
  have hRest : (n.unsignedText ++ tail).dropWhile Char.isDigit = n.fractionText ++ tail := by
    rw [Decimal.unsignedText, List.append_assoc, dropWhile_digitText hWholeTail]
  simp only [strtod, n.dropWhile_isSpace_text, n.scanSign_text, hWhole, hRest, hFraction,
    digitText_isEmpty, hDigits, scanExponent_of_endsNumber h, ← digitText_append,
    digitsValue_digitText, digitText_length]
  simp [Decimal.value, Decimal.magnitude]

end CText
