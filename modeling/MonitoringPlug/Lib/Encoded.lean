import MonitoringPlug.Lib.Format

/-! Text that is cut at the first of several delimiters, and percent-encoded text. -/
namespace CText

/-- `isxdigit` in the C locale. -/
def isXdigit (c : Char) : Bool := (digitIn 16 c).isSome

/-- The token in front of the first delimiter and, if there is one, the rest
behind it: `strsep` with several delimiters. -/
def strsepAny (delimiters s : List Char) : List Char × Option (List Char) :=
  match s.dropWhile (· ∉ delimiters) with
  | [] => (s, none)
  | _ :: rest => (s.takeWhile (· ∉ delimiters), some rest)

/-- A loop over characters of one kind and escapes of two hexadecimal digits. -/
def percentEncoded (p : Char → Bool) : List Char → Bool
  | [] => true
  | c :: rest =>
      if p c then percentEncoded p rest
      else
        match c, rest with
        | '%', x :: y :: rest => isXdigit x && isXdigit y && percentEncoded p rest
        | _, _ => false

/-- Characters of one kind and escapes of two hexadecimal digits. -/
inductive PercentEncoded (p : Char → Bool) : List Char → Prop
  | nil : PercentEncoded p []
  | char {c : Char} {s : List Char} (hc : p c = true) (hs : PercentEncoded p s) :
      PercentEncoded p (c :: s)
  | escape {x y : Char} {s : List Char} (hx : isXdigit x = true) (hy : isXdigit y = true)
      (hs : PercentEncoded p s) : PercentEncoded p ('%' :: x :: y :: s)

section Cut

variable {delimiters front : List Char}

theorem strsepAny_none (h : ∀ c ∈ front, c ∉ delimiters) :
    strsepAny delimiters front = (front, none) := by
  have hDrop : front.dropWhile (fun c => decide (c ∉ delimiters)) = [] := by
    simpa [List.dropWhile_eq_nil_iff] using h
  rw [strsepAny, hDrop]

theorem strsepAny_append (h : ∀ c ∈ front, c ∉ delimiters) {d : Char} (hd : d ∈ delimiters)
    (rest : List Char) : strsepAny delimiters (front ++ d :: rest) = (front, some rest) := by
  have hAll : ∀ c ∈ front, decide (c ∉ delimiters) = true := fun c hc => decide_eq_true (h c hc)
  have hStop : ∀ c ∈ (d :: rest).head?, decide (c ∉ delimiters) = false := by
    rintro _ ⟨⟩
    simpa using hd
  rw [strsepAny, dropWhile_append_stop hAll hStop, takeWhile_append_stop hAll hStop]

theorem strsepAny_singleton (delimiter : Char) (s : List Char) :
    strsepAny [delimiter] s = strsep delimiter s := by
  have hKind : (fun c => decide (c ∉ [delimiter])) = (· != delimiter) := by
    funext c
    by_cases hc : c = delimiter <;> simp [hc]
  cases hDrop : s.dropWhile (· != delimiter) <;> simp only [strsepAny, strsep, hKind, hDrop]

/-- A text has no delimiter or is cut at its first one. -/
theorem exists_cut (delimiters s : List Char) : (∀ c ∈ s, c ∉ delimiters) ∨
    ∃ front d rest, s = front ++ d :: rest ∧ (∀ c ∈ front, c ∉ delimiters) ∧ d ∈ delimiters := by
  induction s with
  | nil => exact Or.inl (List.forall_mem_nil _)
  | cons c s ih =>
      by_cases hc : c ∈ delimiters
      · exact Or.inr ⟨[], c, s, rfl, List.forall_mem_nil _, hc⟩
      · rcases ih with hFree | ⟨front, d, rest, rfl, hFront, hd⟩
        · exact Or.inl (List.forall_mem_cons.mpr ⟨hc, hFree⟩)
        · exact Or.inr ⟨c :: front, d, rest, rfl, List.forall_mem_cons.mpr ⟨hc, hFront⟩, hd⟩

/-- The delimiters aside, all characters are in the tokens. -/
theorem mem_splitOn {delimiter c : Char} {s : List Char} (hc : c ∈ s) :
    c = delimiter ∨ ∃ token ∈ s.splitOn delimiter, c ∈ token := by
  induction s with
  | nil => cases hc
  | cons d s ih =>
      rw [List.splitOn_cons_eq_if_modifyHead]
      obtain ⟨first, tokens, hTokens⟩ :=
        List.exists_cons_of_ne_nil (List.splitOn_ne_nil delimiter s)
      rw [hTokens] at ih ⊢
      by_cases hd : d = delimiter
      · rw [if_pos (beq_iff_eq.mpr hd)]
        rcases List.mem_cons.mp hc with rfl | hRest
        · exact Or.inl hd
        · exact (ih hRest).imp_right fun ⟨token, hToken, hMem⟩ =>
            ⟨token, List.mem_cons_of_mem _ hToken, hMem⟩
      · rw [if_neg (by simpa using hd), List.modifyHead_cons]
        rcases List.mem_cons.mp hc with rfl | hRest
        · exact Or.inr ⟨_, List.mem_cons_self, List.mem_cons_self⟩
        · rcases ih hRest with hEq | ⟨token, hToken, hMem⟩
          · exact Or.inl hEq
          · rcases List.mem_cons.mp hToken with rfl | hLater
            · exact Or.inr ⟨_, List.mem_cons_self, List.mem_cons_of_mem _ hMem⟩
            · exact Or.inr ⟨token, List.mem_cons_of_mem _ hLater, hMem⟩

end Cut

theorem percentEncoded_iff {p : Char → Bool} (hp : p '%' = false) (s : List Char) :
    percentEncoded p s = true ↔ PercentEncoded p s := by
  constructor
  · intro h
    fun_induction percentEncoded p s with
    | case1 => exact .nil
    | case2 c rest hc ih => exact .char hc (ih h)
    | case3 x y rest hc ih =>
        simp only [Bool.and_eq_true] at h
        exact .escape h.1.1 h.1.2 (ih h.2)
    | case4 => cases h
  · intro h
    induction h with
    | nil => rfl
    | char hc _ ih =>
        unfold percentEncoded
        rw [if_pos hc, ih]
    | escape hx hy _ ih => simp [percentEncoded, hp, hx, hy, ih]

namespace PercentEncoded

variable {p q : Char → Bool} {s t : List Char}

theorem append (hs : PercentEncoded p s) (ht : PercentEncoded p t) :
    PercentEncoded p (s ++ t) := by
  induction hs with
  | nil => exact ht
  | char hc _ ih => exact .char hc ih
  | escape hx hy _ ih => exact .escape hx hy ih

theorem mem (hs : PercentEncoded p s) {c : Char} (hc : c ∈ s) :
    p c = true ∨ c = '%' ∨ isXdigit c = true := by
  induction hs with
  | nil => cases hc
  | char hFirst _ ih =>
      rcases List.mem_cons.mp hc with rfl | hRest
      · exact Or.inl hFirst
      · exact ih hRest
  | escape hx hy _ ih =>
      simp only [List.mem_cons] at hc
      rcases hc with rfl | rfl | rfl | hRest
      · exact Or.inr (Or.inl rfl)
      · exact Or.inr (Or.inr hx)
      · exact Or.inr (Or.inr hy)
      · exact ih hRest

/-- The characters that occur decide of which kind the text is. -/
theorem of_mem (hs : PercentEncoded p s) (h : ∀ c ∈ s, p c = true → q c = true) :
    PercentEncoded q s := by
  induction hs with
  | nil => exact .nil
  | char hc _ ih =>
      rw [List.forall_mem_cons] at h
      exact .char (h.1 hc) (ih h.2)
  | escape hx hy _ ih =>
      simp only [List.forall_mem_cons] at h
      exact .escape hx hy (ih h.2.2.2)

/-- No escape reaches over a character that is neither `%` nor a digit. -/
theorem cut {front back : List Char} {d : Char} (hs : PercentEncoded p (front ++ d :: back))
    (hd : d ≠ '%') (hDigit : isXdigit d = false) :
    PercentEncoded p front ∧ p d = true ∧ PercentEncoded p back := by
  generalize hText : front ++ d :: back = text at hs
  induction hs generalizing front with
  | nil => simp at hText
  | char hc hs ih =>
      cases front with
      | nil =>
          obtain ⟨rfl, rfl⟩ := List.cons.inj hText
          exact ⟨.nil, hc, hs⟩
      | cons c front =>
          obtain ⟨rfl, hRest⟩ := List.cons.inj hText
          have hParts := ih hRest
          exact ⟨.char hc hParts.1, hParts.2⟩
  | escape hx hy hs ih =>
      -- The delimiter is none of the three characters of the escape.
      match front, hText with
      | [], hText => exact absurd (List.cons.inj hText).1 hd
      | [_], hText =>
          have hFirst := (List.cons.inj (List.cons.inj hText).2).1
          rw [← hFirst, hDigit] at hx
          cases hx
      | [_, _], hText =>
          have hSecond := (List.cons.inj (List.cons.inj (List.cons.inj hText).2).2).1
          rw [← hSecond, hDigit] at hy
          cases hy
      | a :: b :: c :: front, hText =>
          simp only [List.cons_append, List.cons.injEq] at hText
          obtain ⟨rfl, rfl, rfl, hRest⟩ := hText
          have hParts := ih hRest
          exact ⟨.escape hx hy hParts.1, hParts.2⟩

end PercentEncoded

end CText
