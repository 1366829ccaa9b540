import Mathlib.Data.List.Basic

/-! Loops over a list whose rounds can fail, as folds in `Option`. -/
namespace CLoop

universe u v

variable {α : Type u} {β : Type v} {f : β → α → Option β} {list : List α} {a : α} {b b' : β}

theorem foldlM_cons_eq_some_iff :
    (a :: list).foldlM f b = some b' ↔
      ∃ next, f b a = some next ∧ list.foldlM f next = some b' := by
  rw [List.foldlM_cons]
  exact Option.bind_eq_some_iff

/-- What each round carries on from the elements passed over is true behind all of them. -/
theorem foldlM_carries {P : List α → β → Prop}
    (hRound : ∀ passed b a next, P passed b → f b a = some next → P (passed ++ [a]) next)
    (passed : List α) (hStart : P passed b) (h : list.foldlM f b = some b') :
    P (passed ++ list) b' := by
  induction list generalizing passed b with
  | nil =>
      obtain rfl := Option.some.inj h
      rwa [List.append_nil]
  | cons a list ih =>
      obtain ⟨next, hFirst, hRest⟩ := foldlM_cons_eq_some_iff.mp h
      have hAll := ih _ (hRound passed b a next hStart hFirst) hRest
      rwa [List.append_assoc] at hAll

theorem foldlM_invariant {P : β → Prop}
    (hRound : ∀ b a next, P b → f b a = some next → P next)
    (hStart : P b) (h : list.foldlM f b = some b') : P b' :=
  foldlM_carries (P := fun _ => P) (fun _ => hRound) [] hStart h

/-- A loop comes to its end exactly if every round of it does, whatever is carried
from one round to the next. -/
theorem foldlM_isSome_iff {P : α → Prop} (hRound : ∀ b a, (f b a).isSome ↔ P a)
    (list : List α) (b : β) : (list.foldlM f b).isSome ↔ ∀ a ∈ list, P a := by
  induction list generalizing b with
  | nil => simp
  | cons a list ih =>
      rw [List.foldlM_cons, List.forall_mem_cons]
      cases hStep : f b a with
      | none =>
          have hNot : ¬P a := by
            rw [← hRound b a, hStep]
            simp
          simp [hNot]
      | some next =>
          have hHolds : P a := by
            rw [← hRound b a, hStep]
            rfl
          exact (ih next).trans (and_iff_right hHolds).symm

theorem foldlM_fault (hMem : a ∈ list) (hFault : ∀ b, f b a = none) (b : β) :
    list.foldlM f b = none := by
  induction list generalizing b with
  | nil => cases hMem
  | cons first list ih =>
      rw [List.foldlM_cons]
      rcases List.mem_cons.mp hMem with rfl | hRest
      · rw [hFault]
        rfl
      · cases f b first with
        | none => rfl
        | some next => exact ih hRest next

/-- A loop over the first indices of a list is one over its first elements. -/
theorem foldlM_range (step : β → α → Option β) (l : List α) {n : Nat} (h : n ≤ l.length)
    (start : β) :
    (List.range n).foldlM (fun b j => l[j]?.bind (step b)) start =
      (l.take n).foldlM step start := by
  induction n with
  | zero => rfl
  | succ n ih =>
      have hInside : n < l.length := h
      rw [List.range_succ, List.foldlM_append, ih (Nat.le_of_lt hInside),
        List.take_succ_eq_append_getElem hInside, List.foldlM_append]
      simp [hInside]

/-! A loop that is left once a test holds of the elements taken so far. -/

def takeUntil (stops : List α → Bool) (taken : List α) : List α → List α
  | [] => taken
  | a :: list =>
      if stops (taken ++ [a]) then taken ++ [a] else takeUntil stops (taken ++ [a]) list

section TakeUntil

variable {stops stops' : List α → Bool} {taken : List α}

theorem takeUntil_prefix (stops : List α → Bool) (taken list : List α) :
    ∃ front back, list = front ++ back ∧ takeUntil stops taken list = taken ++ front ∧
      (back = [] ∨ stops (taken ++ front) = true) := by
  induction list generalizing taken with
  | nil => exact ⟨[], [], rfl, (List.append_nil taken).symm, Or.inl rfl⟩
  | cons a list ih =>
      rw [takeUntil]
      split
      · next hStop => exact ⟨[a], list, rfl, rfl, Or.inr hStop⟩
      · obtain ⟨front, back, rfl, hTaken, hStop⟩ := ih (taken ++ [a])
        rw [List.append_assoc] at hTaken hStop
        exact ⟨a :: front, back, rfl, hTaken, hStop⟩

theorem takeUntil_ne_nil (stops : List α → Bool) (taken : List α) (h : list ≠ []) :
    takeUntil stops taken list ≠ [] := by
  cases list with
  | nil => exact absurd rfl h
  | cons a list =>
      rw [takeUntil]
      split
      · exact List.append_ne_nil_of_right_ne_nil taken (List.cons_ne_nil a [])
      · obtain ⟨front, -, -, hTaken, -⟩ :=
          takeUntil_prefix stops (taken ++ [a]) list
        rw [hTaken, List.append_assoc]
        exact List.append_ne_nil_of_right_ne_nil taken (List.cons_ne_nil a front)

/-- Tests that agree while all elements are good leave the loop at the same place, if
the elements taken until then are good. -/
theorem takeUntil_congr {P : α → Prop}
    (hAgree : ∀ l : List α, (∀ a ∈ l, P a) → stops l = stops' l)
    (hGood : ∀ a ∈ takeUntil stops taken list, P a) :
    takeUntil stops' taken list = takeUntil stops taken list := by
  induction list generalizing taken with
  | nil => rfl
  | cons a list ih =>
      have hSoFar : ∀ b ∈ taken ++ [a], P b := by
        intro b hMem
        apply hGood b
        rw [takeUntil]
        split
        · exact hMem
        · obtain ⟨front, -, -, hTaken, -⟩ :=
            takeUntil_prefix stops (taken ++ [a]) list
          rw [hTaken]
          exact List.mem_append_left front hMem
      rw [takeUntil] at hGood
      rw [takeUntil, takeUntil, ← hAgree _ hSoFar]
      by_cases hStop : stops (taken ++ [a]) = true
      · rw [if_pos hStop, if_pos hStop]
      · rw [if_neg hStop] at hGood
        rw [if_neg hStop, if_neg hStop]
        exact ih hGood

end TakeUntil

end CLoop
