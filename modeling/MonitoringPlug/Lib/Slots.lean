import Mathlib.Data.List.Basic

/-! Arrays of pointers that grow by one pointer and a NULL behind it, at an index
that is kept elsewhere. -/
namespace CMemory

universe u

/-- One pointer of an array, by what it points to. -/
inductive Slot (α : Type u) where
  | indeterminate
  | null
  | points (a : α)
deriving DecidableEq

/-- The pointers of an array. Without any the array itself is NULL. -/
abbrev Slots (α : Type u) := List (Slot α)

namespace Slots

variable {α : Type u}

/-- `realloc` to room for two pointers at `index`, and assignments to both. -/
def put (slots : Slots α) (index : Nat) (a : α) : Slots α :=
  let slots := slots ++ List.replicate (index + 2 - slots.length) Slot.indeterminate
  (slots.set index (.points a)).set (index + 1) .null

/-- What a pointer of the array points to. No result for any other pointer. -/
def deref (slots : Slots α) (index : Nat) : Option α :=
  match slots[index]? with
  | some (.points a) => some a
  | _ => none

/-- The array is NULL, or all pointers up to a NULL were assigned. -/
def Terminated (slots : Slots α) : Prop :=
  slots = [] ∨ ∃ count : Nat, slots[count]? = some Slot.null ∧
    ∀ i < count, ∃ a, slots[i]? = some (Slot.points a)

variable {slots : Slots α} {index : Nat} {a : α}

theorem put_length : (slots.put index a).length = max slots.length (index + 2) := by
  simp only [put, List.length_set, List.length_append, List.length_replicate]
  omega

theorem put_ne_nil : slots.put index a ≠ [] := by
  intro hNil
  have hLength := congrArg List.length hNil
  rw [put_length, List.length_nil] at hLength
  omega

theorem getElem?_put_of_lt {i : Nat} (h : i < index) :
    (slots.put index a)[i]? =
      if i < slots.length then slots[i]? else some .indeterminate := by
  rw [put, List.getElem?_set_ne (by omega), List.getElem?_set_ne (by omega)]
  split
  · rename_i hInside
    rw [List.getElem?_append_left hInside]
  · rename_i hOutside
    rw [List.getElem?_append_right (by omega), List.getElem?_replicate, if_pos (by omega)]

theorem getElem?_put_self : (slots.put index a)[index]? = some (.points a) := by
  rw [put, List.getElem?_set_ne (by omega), List.getElem?_set_self]
  rw [List.length_append, List.length_replicate]
  omega

theorem getElem?_put_succ : (slots.put index a)[index + 1]? = some .null := by
  rw [put, List.getElem?_set_self]
  rw [List.length_set, List.length_append, List.length_replicate]
  omega

theorem getElem?_put_of_gt {i : Nat} (h : index + 1 < i) :
    (slots.put index a)[i]? = slots[i]? := by
  rw [put, List.getElem?_set_ne (by omega), List.getElem?_set_ne (by omega)]
  by_cases hInside : i < slots.length
  · rw [List.getElem?_append_left hInside]
  · have hLength : (slots ++ List.replicate (index + 2 - slots.length) Slot.indeterminate).length ≤
        i := by
      rw [List.length_append, List.length_replicate]
      omega
    rw [List.getElem?_eq_none hLength, List.getElem?_eq_none (by omega)]

@[simp] theorem deref_nil : deref ([] : Slots α) index = none := rfl

/-- Growing keeps an array terminated, unless the first pointer of a new one is
left out. -/
theorem Terminated.put (h : Terminated slots) (hFirst : slots = [] → index = 0) :
    Terminated (slots.put index a) := by
  rcases h with rfl | ⟨count, hNull, hFront⟩
  · rw [hFirst rfl]
    refine Or.inr ⟨1, getElem?_put_succ, fun i hi => ?_⟩
    rw [Nat.lt_one_iff.mp hi]
    exact ⟨a, getElem?_put_self⟩
  · have hInside : count < slots.length := (List.getElem?_eq_some_iff.mp hNull).1
    by_cases hBehind : count < index
    · refine Or.inr ⟨count, ?_, fun i hi => ?_⟩
      · rw [getElem?_put_of_lt hBehind, if_pos hInside]
        exact hNull
      · rw [getElem?_put_of_lt (Nat.lt_trans hi hBehind), if_pos (Nat.lt_trans hi hInside)]
        exact hFront i hi
    · refine Or.inr ⟨index + 1, getElem?_put_succ, fun i hi => ?_⟩
      by_cases hSelf : i = index
      · rw [hSelf]
        exact ⟨a, getElem?_put_self⟩
      · have hLess : i < index := by omega
        rw [getElem?_put_of_lt hLess, if_pos (by omega)]
        exact hFront i (by omega)

/-- What the pointers in front of the first NULL point to. -/
def entries : Slots α → List α
  | .points a :: slots => a :: entries slots
  | _ => []

/-- A loop over the array up to its NULL. No result for a NULL array, for a pointer that
was never written and behind the end. -/
def foldM {β : Type*} (f : β → α → Option β) : β → Slots α → Option β
  | b, .points a :: slots => (f b a).bind fun b => foldM f b slots
  | b, .null :: _ => some b
  | _, _ => none

/-- The array is there, and its pointers are written up to a NULL. -/
theorem Terminated.cases (h : Terminated slots) (hSome : slots ≠ []) :
    (∃ rest, slots = .null :: rest) ∨
      ∃ a rest, slots = .points a :: rest ∧ rest ≠ [] ∧ Terminated rest := by
  obtain ⟨count, hNull, hFront⟩ := h.resolve_left hSome
  cases slots with
  | nil => exact absurd rfl hSome
  | cons first rest =>
      cases count with
      | zero =>
          obtain rfl := Option.some.inj hNull
          exact Or.inl ⟨rest, rfl⟩
      | succ count =>
          obtain ⟨a, hFirst⟩ := hFront 0 (Nat.succ_pos count)
          obtain rfl := Option.some.inj hFirst
          refine Or.inr ⟨a, rest, rfl, ?_, Or.inr ⟨count, hNull, fun i hi => ?_⟩⟩
          · rintro rfl
            cases hNull
          · exact hFront (i + 1) (Nat.succ_lt_succ hi)

/-- Over a terminated array the loop is one over its entries. -/
theorem Terminated.foldM_eq {β : Type*} (h : Terminated slots) (hSome : slots ≠ [])
    (f : β → α → Option β) (b : β) : foldM f b slots = slots.entries.foldlM f b := by
  induction slots generalizing b with
  | nil => exact absurd rfl hSome
  | cons first rest ih =>
      rcases h.cases hSome with ⟨behind, hSplit⟩ | ⟨a, behind, hSplit, hMore, hRest⟩
      · cases hSplit
        rfl
      · cases hSplit
        rw [foldM, entries, List.foldlM_cons]
        show (f b a).bind _ = (f b a).bind _
        congr 1
        funext next
        exact ih hRest hMore next

theorem foldM_nil {β : Type*} (f : β → α → Option β) (b : β) : foldM f b [] = none := rfl

end Slots

end CMemory
