import MonitoringPlug.Lib.Format

/-! Integers in text: what `strtol` reads at the front of a string, and
`strspn`, which tests the characters alone. -/
namespace CText

/-- The length of the front that has characters of `accept` only. -/
def strspn (accept s : List Char) : Nat := (s.takeWhile fun c => c ∈ accept).length

/-- What `strtol` reads before it is clamped to a `long`. -/
def strtolValue (base : Nat) (s : List Char) : Int :=
  let (minus, body) := scanSign (s.dropWhile isSpace)
  let body :=
    match body with
    | '0' :: x :: c :: rest =>
        if base = 16 ∧ (x = 'x' ∨ x = 'X') ∧ (digitIn 16 c).isSome then c :: rest else body
    | _ => body
  let digits := (body.takeWhile fun c => (digitIn base c).isSome).filterMap (digitIn base)
  let value : Nat := digits.foldl (fun n d => n * base + d) 0
  if minus then -(value : Int) else value

/-- `strtol` sets `errno` to `ERANGE`. -/
def strtolRange (base : Nat) (s : List Char) : Bool :=
  !(-2 ^ 63 ≤ strtolValue base s && strtolValue base s ≤ 2 ^ 63 - 1)

theorem strtol_eq_clamp (base : Nat) (s : List Char) :
    strtol base s = max (-2 ^ 63) (min (2 ^ 63 - 1) (strtolValue base s)) := rfl

theorem strtol_of_range {base : Nat} {s : List Char} (hLow : -2 ^ 63 ≤ strtolValue base s)
    (hHigh : strtolValue base s ≤ 2 ^ 63 - 1) : strtol base s = strtolValue base s := by
  rw [strtol_eq_clamp]
  omega

/-- All characters are accepted when the front is as long as the string. -/
theorem strspn_eq_length_iff (accept s : List Char) :
    strspn accept s = s.length ↔ ∀ c ∈ s, c ∈ accept := by
  rw [strspn]
  constructor
  · intro hLength c hc
    have hAll : s.takeWhile (fun c => decide (c ∈ accept)) = s :=
      (List.takeWhile_prefix _).eq_of_length hLength
    simpa using List.takeWhile_eq_self_iff.mp hAll c hc
  · intro hAll
    rw [List.takeWhile_eq_self_iff.mpr (by simpa using hAll)]

section BaseTen

theorem digitIn_ten (c : Char) :
    digitIn 10 c = if c.isDigit then some (c.toNat - '0'.toNat) else none := by
  unfold digitIn
  by_cases hDigit : c.isDigit = true
  · have hBounds : 48 ≤ c.toNat ∧ c.toNat ≤ 57 := by
      simpa [Char.isDigit, UInt32.le_iff_toNat_le] using hDigit
    have hZero : '0'.toNat = 48 := rfl
    have hLess : c.toNat - '0'.toNat < 10 := by omega
    simp only [hDigit, if_true, if_pos hLess]
  · by_cases hAlpha : c.isAlpha = true
    · simp [hDigit, hAlpha]
    · simp [hDigit, hAlpha]

theorem digitIn_ten_isSome : (fun c => (digitIn 10 c).isSome) = Char.isDigit := by
  funext c
  rw [digitIn_ten]
  cases c.isDigit <;> rfl

theorem foldl_digitIn_ten {digits : List Char} (h : ∀ c ∈ digits, c.isDigit = true) (n : Nat) :
    (digits.filterMap (digitIn 10)).foldl (fun n d => n * 10 + d) n =
      digits.foldl (fun value c => 10 * value + (c.toNat - '0'.toNat)) n := by
  induction digits generalizing n with
  | nil => rfl
  | cons c digits ih =>
      have hFirst : digitIn 10 c = some (c.toNat - '0'.toNat) := by
        rw [digitIn_ten, if_pos (h c List.mem_cons_self)]
      rw [List.filterMap_cons_some hFirst, List.foldl_cons, List.foldl_cons,
        ih fun d hd => h d (List.mem_cons_of_mem _ hd), Nat.mul_comm n 10]

/-- To base ten: space, a sign and the digits behind it. -/
theorem strtolValue_ten (s : List Char) :
    strtolValue 10 s =
      let (minus, body) := scanSign (s.dropWhile isSpace)
      let value : Int := digitsValue (body.takeWhile Char.isDigit)
      if minus then -value else value := by
  have hBody : ∀ body : List Char,
      (match body with
        | '0' :: x :: c :: rest =>
            if (10 : Nat) = 16 ∧ (x = 'x' ∨ x = 'X') ∧ (digitIn 16 c).isSome then c :: rest
            else body
        | _ => body) = body := by
    intro body
    split
    · simp
    · rfl
  simp only [strtolValue, hBody, digitIn_ten_isSome]
  rw [foldl_digitIn_ten fun c hc => List.mem_takeWhile_imp hc, ← digitsValue]

end BaseTen

section BaseSixteen

/-- The value of digits from the left on. -/
theorem foldl_digits (base : Nat) (digits : List Nat) :
    digits.foldl (fun n d => n * base + d) 0 = Nat.ofDigits base digits.reverse := by
  induction digits using List.reverseRecOn with
  | nil => rfl
  | append_singleton digits d ih =>
      rw [List.foldl_append, ih, List.reverse_append, List.reverse_singleton,
        List.singleton_append, Nat.ofDigits_cons, Nat.mul_comm, Nat.add_comm]
      rfl

/-- The character of a hexadecimal digit is no space and no sign. -/
theorem digitIn_space {base : Nat} {c : Char} (h : isSpace c = true ∨ c = '-' ∨ c = '+') :
    digitIn base c = none := by
  simp only [isSpace, Bool.or_eq_true, beq_iff_eq] at h
  have hOther : c.isDigit = false ∧ c.isAlpha = false := by
    rcases h with (((((rfl | rfl) | rfl) | rfl) | rfl) | rfl) | rfl | rfl <;> decide
  simp [digitIn, hOther.1, hOther.2]

/-- To base sixteen: digits alone stand for their number. -/
theorem strtolValue_hex {digits : List Char} (h : ∀ c ∈ digits, (digitIn 16 c).isSome = true) :
    strtolValue 16 digits = (Nat.ofDigits 16 (digits.filterMap (digitIn 16)).reverse : Nat) := by
  have hPlain : ∀ c ∈ digits, isSpace c = false ∧ c ≠ '-' ∧ c ≠ '+' := by
    intro c hc
    by_contra hOther
    have hSpace : isSpace c = true ∨ c = '-' ∨ c = '+' := by
      by_contra hNone
      rw [not_or, not_or, Bool.not_eq_true] at hNone
      exact hOther hNone
    have hSome := h c hc
    rw [digitIn_space hSpace] at hSome
    cases hSome
  have hDrop : digits.dropWhile isSpace = digits := by
    cases digits with
    | nil => rfl
    | cons c rest => exact List.dropWhile_cons_of_neg (by simp [hPlain c List.mem_cons_self])
  have hSign : scanSign digits = (false, digits) := by
    unfold scanSign
    split
    · exact absurd rfl (hPlain '-' List.mem_cons_self).2.1
    · exact absurd rfl (hPlain '+' List.mem_cons_self).2.2
    · rfl
  have hPrefix : ∀ body : List Char, (∀ c ∈ body, (digitIn 16 c).isSome = true) →
      (match body with
        | '0' :: x :: c :: rest =>
            if (x = 'x' ∨ x = 'X') ∧ (digitIn 16 c).isSome then c :: rest
            else body
        | _ => body) = body := by
    intro body hBody
    split
    · next x c rest =>
        have hSome := hBody x (List.mem_cons_of_mem _ List.mem_cons_self)
        have hNone : ¬ (x = 'x' ∨ x = 'X') := by
          rintro (rfl | rfl)
          · exact absurd hSome (by decide)
          · exact absurd hSome (by decide)
        exact if_neg fun hAll => hNone hAll.1
    · rfl
  have hTake : digits.takeWhile (fun c => (digitIn 16 c).isSome) = digits :=
    List.takeWhile_eq_self_iff.mpr h
  simp only [strtolValue, hDrop, hSign, true_and, hPrefix digits h, hTake, foldl_digits,
    Bool.false_eq_true, if_false]

end BaseSixteen

/-- An integer as it is written with blanks around it. -/
structure Numeral where
  before : Nat
  minus : Bool
  digits : List (Fin 10)
  someDigit : digits ≠ []
  behind : Nat

namespace Numeral

variable (n : Numeral)

/-- The text up to the last digit. -/
def front : List Char :=
  List.replicate n.before ' ' ++ ((if n.minus then ['-'] else []) ++ digitText n.digits)

def text : List Char := n.front ++ List.replicate n.behind ' '

def value : Int :=
  let magnitude : Int := (Nat.ofDigits 10 (n.digits.reverse.map Fin.val) : Nat)
  if n.minus then -magnitude else magnitude

/-- A numeral is read whole and the text behind its digits is not looked at. -/
theorem strtolValue_front {rest : List Char} (hRest : ∀ c ∈ rest.head?, c.isDigit = false) :
    strtolValue 10 (n.front ++ rest) = n.value := by
  obtain ⟨d, more, hDigits⟩ := List.exists_cons_of_ne_nil n.someDigit
  have hFirst := digitChar_isDigit d
  have hSpaces : ((n.front ++ rest).dropWhile isSpace) =
      (if n.minus then ['-'] else []) ++ (digitText n.digits ++ rest) := by
    rw [front, List.append_assoc, List.append_assoc]
    refine dropWhile_append_stop (fun c hc => ?_) (fun c hc => ?_)
    · rw [List.eq_of_mem_replicate hc]
      rfl
    · cases hMinus : n.minus with
      | true =>
          rw [hMinus] at hc
          cases hc
          rfl
      | false =>
          rw [hMinus, hDigits, digitText_cons] at hc
          cases hc
          exact isSpace_of_isDigit hFirst
  have hSign : scanSign ((if n.minus then ['-'] else []) ++ (digitText n.digits ++ rest)) =
      (n.minus, digitText n.digits ++ rest) := by
    cases hMinus : n.minus with
    | true => rfl
    | false =>
        rw [hDigits, digitText_cons]
        exact scanSign_of_isDigit hFirst _
  rw [strtolValue_ten, hSpaces, hSign]
  simp only [takeWhile_digitText hRest, digitsValue_digitText]
  rfl

theorem strtolValue_text : strtolValue 10 n.text = n.value := by
  refine n.strtolValue_front fun c hc => ?_
  rw [List.eq_of_mem_replicate (List.mem_of_mem_head? hc)]
  rfl

end Numeral

/-- A string starts with a numeral, where blanks are the only space in it and it has no
plus sign, or `strtol` reads zero. -/
theorem strtolValue_cases {s : List Char} (hSpace : ∀ c ∈ s, isSpace c = true → c = ' ')
    (hPlus : '+' ∉ s) :
    (∃ (n : Numeral) (rest : List Char), n.front ++ rest = s ∧
      ∀ c ∈ rest.head?, c.isDigit = false) ∨ strtolValue 10 s = 0 := by
  have hSplit := List.takeWhile_append_dropWhile (p := isSpace) (l := s)
  generalize hBody : s.dropWhile isSpace = body at hSplit
  have hBlank : s.takeWhile isSpace = List.replicate (s.takeWhile isSpace).length ' ' :=
    List.eq_replicate_of_mem fun c hc =>
      hSpace c ((List.takeWhile_sublist _).subset hc) (List.mem_takeWhile_imp hc)
  have hScan : ∃ minus unsigned, scanSign body = (minus, unsigned) ∧
      body = (if minus then ['-'] else []) ++ unsigned := by
    unfold scanSign
    split
    · exact ⟨true, _, rfl, rfl⟩
    · refine absurd ?_ hPlus
      rw [← hSplit]
      simp
    · exact ⟨false, _, rfl, rfl⟩
  obtain ⟨minus, unsigned, hSign, hUnsigned⟩ := hScan
  by_cases hNone : unsigned.takeWhile Char.isDigit = []
  · refine Or.inr ?_
    rw [strtolValue_ten, hBody, hSign]
    simp [hNone, digitsValue]
  · have hAll : ∀ c ∈ unsigned.takeWhile Char.isDigit, c.isDigit = true :=
      fun c hc => List.mem_takeWhile_imp hc
    obtain ⟨digits, hDigits⟩ := exists_digitText hAll
    have hSome : digits ≠ [] := by
      rintro rfl
      exact hNone hDigits.symm
    refine Or.inl ⟨⟨(s.takeWhile isSpace).length, minus, digits, hSome, 0⟩,
      unsigned.dropWhile Char.isDigit, ?_, ?_⟩
    · simp only [Numeral.front]
      rw [← hBlank, hDigits, List.append_assoc, List.append_assoc, List.takeWhile_append_dropWhile,
        ← hUnsigned, hSplit]
    · intro c hc
      have hStop := List.head?_dropWhile_not Char.isDigit unsigned
      rw [Option.mem_def.mp hc] at hStop
      exact hStop

end CText
