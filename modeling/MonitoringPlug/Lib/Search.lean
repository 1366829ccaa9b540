import Mathlib.Data.List.Infix

/-! `strstr`: the first place where one string occurs in another, and how the
search runs over a delimiter that does not occur in what is searched for. -/
namespace CText

universe u

variable {α : Type u}

section Infix

variable {needle s front : List α} {c : α}

/-- What does not occur in the needle may stand around the string. -/
theorem infix_cons_of_notMem (hSome : needle ≠ []) (hFree : c ∉ needle) :
    needle <:+: c :: s ↔ needle <:+: s := by
  rw [List.infix_cons_iff]
  constructor
  · intro h
    rcases h with hPrefix | hInfix
    · obtain ⟨back, hBack⟩ := hPrefix
      cases needle with
      | nil => exact absurd rfl hSome
      | cons d needle =>
          obtain rfl : d = c := (List.cons.inj hBack).1
          exact absurd (List.mem_cons_self ..) hFree
    · exact hInfix
  · exact Or.inr

theorem infix_append_of_notMem (hSome : needle ≠ []) (hFree : ∀ d ∈ front, d ∉ needle) :
    needle <:+: front ++ s ↔ needle <:+: s := by
  induction front with
  | nil => rfl
  | cons d front ih =>
      rw [List.cons_append, infix_cons_of_notMem hSome (hFree d (List.mem_cons_self ..)),
        ih fun e he => hFree e (List.mem_cons_of_mem _ he)]

/-- It lies in front of what does not occur in it, or behind that. -/
theorem infix_of_notMem (hSome : needle ≠ []) (hFree : c ∉ needle)
    (h : needle <:+: front ++ c :: s) : needle <:+: front ∨ needle <:+: s := by
  rcases List.infix_append_iff.mp h with hFront | hBehind | ⟨start, rest, rfl, hSuffix, hPrefix⟩
  · exact Or.inl hFront
  · exact Or.inr ((infix_cons_of_notMem hSome hFree).mp hBehind)
  · cases rest with
    | nil =>
        rw [List.append_nil]
        exact Or.inl hSuffix.isInfix
    | cons d rest =>
        obtain rfl : d = c := (List.cons_prefix_cons.mp hPrefix).1
        exact absurd (List.mem_append_right start List.mem_cons_self) hFree

theorem infix_padded_iff {back : List α} (hSome : needle ≠ []) (hFront : ∀ d ∈ front, d ∉ needle)
    (hBack : ∀ d ∈ back, d ∉ needle) : needle <:+: front ++ s ++ back ↔ needle <:+: s := by
  have hReversed : needle.reverse <:+: back.reverse ++ s.reverse ↔ needle.reverse <:+: s.reverse :=
    infix_append_of_notMem (by simpa using hSome) fun d hd => by
      simpa using hBack d (List.mem_reverse.mp hd)
  rw [List.append_assoc, infix_append_of_notMem hSome hFront, ← List.reverse_infix,
    List.reverse_append, hReversed, List.reverse_infix]

end Infix

variable [DecidableEq α]

/-- The offset of the first occurrence. -/
def strstr (needle : List α) : List α → Option Nat
  | [] => if needle = [] then some 0 else none
  | c :: s => if needle.isPrefixOf (c :: s) then some 0 else (strstr needle s).map (· + 1)

variable {needle s front rest : List α} {position : Nat} {delimiter : α}

theorem strstr_eq_none_iff : strstr needle s = none ↔ ¬needle <:+: s := by
  induction s with
  | nil =>
      rw [strstr, List.infix_nil]
      split <;> simp [*]
  | cons c s ih =>
      rw [strstr, List.infix_cons_iff, not_or, ← ih]
      split
      · next hPrefix => simp [List.isPrefixOf_iff_prefix.mp hPrefix]
      · next hPrefix =>
          have hNot : ¬needle <+: c :: s := fun h => hPrefix (List.isPrefixOf_iff_prefix.mpr h)
          simp [hNot]

theorem strstr_isSome_iff : (strstr needle s).isSome ↔ needle <:+: s := by
  rw [← not_iff_not, ← strstr_eq_none_iff]
  simp

/-- Where it is found, it stands. -/
theorem strstr_split (h : strstr needle s = some position) :
    ∃ front back, s = front ++ needle ++ back ∧ front.length = position := by
  induction s generalizing position with
  | nil =>
      rw [strstr, Option.ite_none_right_eq_some] at h
      obtain ⟨rfl, hZero⟩ := h
      exact ⟨[], [], rfl, Option.some.inj hZero⟩
  | cons c s ih =>
      rw [strstr] at h
      split at h
      · next hPrefix =>
          obtain ⟨back, hBack⟩ := List.isPrefixOf_iff_prefix.mp hPrefix
          exact ⟨[], back, hBack.symm, Option.some.inj h⟩
      · obtain ⟨position', hFound, rfl⟩ := Option.map_eq_some_iff.mp h
        obtain ⟨front, back, rfl, rfl⟩ := ih hFound
        exact ⟨c :: front, back, rfl, rfl⟩

theorem isPrefixOf_append_delimiter (hFree : delimiter ∉ needle) (front rest : List α) :
    needle.isPrefixOf (front ++ delimiter :: rest) = needle.isPrefixOf front := by
  induction needle generalizing front with
  | nil => simp
  | cons c needle ih =>
      obtain ⟨hFirst, hNeedle⟩ := not_or.mp (mt List.mem_cons.mpr hFree)
      cases front with
      | nil =>
          rw [List.nil_append, List.isPrefixOf_cons_cons]
          simp [Ne.symm hFirst]
      | cons d front =>
          rw [List.cons_append, List.isPrefixOf_cons_cons, List.isPrefixOf_cons_cons, ih hNeedle]

/-- Nothing is found across a delimiter: first what is in front of it is searched,
then what is behind. -/
theorem strstr_append_delimiter (hSome : needle ≠ []) (hFree : delimiter ∉ needle) :
    strstr needle (front ++ delimiter :: rest) =
      (strstr needle front).or ((strstr needle rest).map (· + (front.length + 1))) := by
  induction front with
  | nil =>
      have hPrefix : needle.isPrefixOf (delimiter :: rest) = false := by
        have h := isPrefixOf_append_delimiter hFree [] rest
        rw [List.nil_append] at h
        cases needle with
        | nil => exact absurd rfl hSome
        | cons c needle => rw [h]; rfl
      simp [strstr, hPrefix, hSome]
  | cons c front ih =>
      have hPrefix := isPrefixOf_append_delimiter hFree (c :: front) rest
      rw [List.cons_append] at hPrefix
      rw [List.cons_append, strstr, strstr, hPrefix]
      split
      · rfl
      · rw [ih, Option.map_or, Option.map_map]
        simp only [List.length_cons, Function.comp_def, Nat.add_assoc]

end CText
