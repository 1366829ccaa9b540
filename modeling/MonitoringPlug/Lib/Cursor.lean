import Mathlib.Data.List.Lex
import Mathlib.Order.Lattice

/-! A cursor over a table that is sorted by key: what lies behind a key, and how
going from one entry to the next walks through it. With lists as keys, in
lexicographic order, the entries under one prefix lie together. -/
namespace Cursor

universe u v

section Table

variable {Entry : Type u} {Key : Type v} [LinearOrder Key] {key : Entry → Key}
  {table : List Entry}

def Sorted (key : Entry → Key) (table : List Entry) : Prop :=
  table.Pairwise fun a b => key a < key b

/-- The entries behind a key, in table order. -/
def behind (key : Entry → Key) (table : List Entry) (k : Key) : List Entry :=
  table.filter fun e => k < key e

theorem mem_behind {k : Key} {e : Entry} :
    e ∈ behind key table k ↔ e ∈ table ∧ k < key e := by
  simp [behind]

/-- What lies behind a later key is found behind an earlier one. -/
theorem behind_behind {k k' : Key} (h : k ≤ k') :
    behind key (behind key table k) k' = behind key table k' := by
  rw [behind, behind, List.filter_filter]
  apply List.filter_congr
  intro e _
  simp only [← Bool.decide_and, decide_eq_decide]
  exact ⟨fun hBoth => hBoth.1, fun hLater => ⟨hLater, h.trans_lt hLater⟩⟩

/-- One step of the cursor: behind the first entry lie the others. -/
theorem behind_head (hSorted : Sorted key table) {k : Key} {e : Entry} {rest : List Entry}
    (h : behind key table k = e :: rest) :
    k < key e ∧ behind key table (key e) = rest ∧ ∀ x ∈ rest, key e < key x := by
  have hLess : k < key e := by
    have hMem : e ∈ behind key table k := by simp [h]
    exact (mem_behind.mp hMem).2
  have hLater : ∀ x ∈ rest, key e < key x := by
    have hTail : Sorted key (e :: rest) := h ▸ hSorted.filter _
    exact fun x hx => List.rel_of_pairwise_cons hTail hx
  refine ⟨hLess, ?_, hLater⟩
  rw [← behind_behind hLess.le, h, behind, List.filter_cons_of_neg (by simp)]
  rw [List.filter_eq_self]
  simpa using hLater

/-- In a sorted table an entry stands behind those with a smaller key. -/
theorem getElem?_eq_some_iff (hSorted : Sorted key table) {index : Nat} {e : Entry} :
    table[index]? = some e ↔ e ∈ table ∧ (table.countP fun x => key x < key e) = index := by
  induction table generalizing index with
  | nil => simp
  | cons first rest ih =>
      have hLater : ∀ x ∈ rest, key first < key x :=
        fun x hx => List.rel_of_pairwise_cons hSorted hx
      have hNone : (rest.countP fun x => key x < key first) = 0 := by
        rw [List.countP_eq_zero]
        intro x hx
        simpa using (hLater x hx).le
      cases index with
      | zero =>
          rw [List.getElem?_cons_zero, Option.some_inj]
          constructor
          · rintro rfl
            refine ⟨List.mem_cons_self, ?_⟩
            rw [List.countP_cons, hNone]
            simp
          · rintro ⟨hMem, hCount⟩
            rcases List.mem_cons.mp hMem with rfl | hRest
            · rfl
            · rw [List.countP_cons_of_pos (by simpa using hLater e hRest)] at hCount
              omega
      | succ index =>
          rw [List.getElem?_cons_succ, ih (List.Pairwise.of_cons hSorted)]
          constructor
          · rintro ⟨hMem, hCount⟩
            refine ⟨List.mem_cons_of_mem _ hMem, ?_⟩
            rw [List.countP_cons_of_pos (by simpa using hLater e hMem), hCount]
          · rintro ⟨hMem, hCount⟩
            rcases List.mem_cons.mp hMem with rfl | hRest
            · rw [List.countP_cons, hNone] at hCount
              simp at hCount
            · rw [List.countP_cons_of_pos (by simpa using hLater e hRest)] at hCount
              exact ⟨hRest, by omega⟩

end Table

section Prefixes

variable {α : Type u} [LinearOrder α] {p v w : List α}

/-- A key behind a prefix that is not under it lies behind everything that is. -/
theorem lt_of_prefix_of_lt (h : p < w) (hOutside : ¬p <+: w) (hUnder : p <+: v) : v < w := by
  induction p generalizing v w with
  | nil => exact (hOutside List.nil_prefix).elim
  | cons a p ih =>
      obtain ⟨rest, rfl⟩ := hUnder
      cases w with
      | nil => simp at h
      | cons b w =>
          rw [List.cons_lt_cons_iff] at h
          rw [List.cons_append, List.cons_lt_cons_iff]
          rcases h with hHead | ⟨rfl, hTail⟩
          · exact Or.inl hHead
          · right
            refine ⟨rfl, ih hTail ?_ (List.prefix_append _ _)⟩
            intro hPrefix
            exact hOutside (by simpa using hPrefix)

theorem not_prefix_of_lt (h : v < w) : ¬w <+: v := by
  intro hPrefix
  exact hPrefix.le h

theorem le_of_prefix (h : p <+: v) : p ≤ v := by
  rw [← not_lt]
  intro hLess
  exact not_prefix_of_lt hLess h

end Prefixes

end Cursor
