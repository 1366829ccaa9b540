import MonitoringPlug.Lib.Block

/-! Lines that are ended by delimiters: those of a list, and `strsep`, which ends the
lines of an object by writing over the delimiters. -/
namespace CMemory

section Lists

variable {α : Type*} {p : α → Bool} {line rest : List α} {c : α}

/-- The lines that are ended by a delimiter, without the empty ones. -/
def completeLines (p : α → Bool) (s : List α) : List (List α) :=
  (s.splitOnP p).dropLast.filter fun line => !line.isEmpty

theorem completeLines_unfinished (h : ∀ c ∈ line, p c = false) : completeLines p line = [] := by
  rw [completeLines, List.splitOnP_eq_singleton h]
  rfl

theorem completeLines_line (hLine : ∀ c ∈ line, p c = false) (hEnd : p c = true)
    (rest : List α) : completeLines p (line ++ c :: rest) =
      if line.isEmpty then completeLines p rest else line :: completeLines p rest := by
  have hRest : rest.splitOnP p ≠ [] := List.splitOnP_ne_nil p rest
  rw [completeLines, List.splitOnP_append_cons_of_forall_mem hLine c hEnd,
    List.dropLast_cons_of_ne_nil hRest, List.filter_cons]
  cases line with
  | nil => rfl
  | cons a line => rfl

theorem completeLines_empty (hEnd : p c = true) (rest : List α) :
    completeLines p (c :: rest) = completeLines p rest :=
  completeLines_line (List.forall_mem_nil _) hEnd rest

/-- A list is an unfinished line, or a line with its delimiter and then a list. -/
theorem lines_induction {motive : List α → Prop}
    (unfinished : ∀ line, (∀ c ∈ line, p c = false) → motive line)
    (line : ∀ line c rest, (∀ a ∈ line, p a = false) → p c = true → motive rest →
      motive (line ++ c :: rest)) (s : List α) : motive s := by
  induction hLength : s.length using Nat.strongRecOn generalizing s with
  | ind bound ih =>
      cases hDrop : s.dropWhile (fun c => !p c) with
      | nil =>
          refine unfinished s fun c hc => ?_
          simpa using List.dropWhile_eq_nil_iff.mp hDrop c hc
      | cons c rest =>
          have hSplit := List.takeWhile_append_dropWhile (p := fun c => !p c) (l := s)
          rw [hDrop] at hSplit
          have hEnd : p c = true := by
            have hHead := List.head?_dropWhile_not (fun c => !p c) s
            rw [hDrop] at hHead
            simpa using hHead
          have hShort : rest.length < bound := by
            rw [← hLength, ← hSplit, List.length_append, List.length_cons]
            omega
          rw [← hSplit]
          refine line _ c rest (fun a ha => ?_) hEnd (ih rest.length hShort rest rfl)
          simpa using List.mem_takeWhile_imp ha

end Lists

section Memory

/-- How far the first delimiter or the NUL is, and whether it is a delimiter. -/
def separator (isDelimiter : UInt8 → Bool) : Block → Option (Nat × Bool)
  | some c :: rest =>
      if c = 0 then some (0, false)
      else if isDelimiter c then some (0, true)
      else (separator isDelimiter rest).map fun (n, found) => (n + 1, found)
  | _ => none

/-- `strsep` from an offset on, where the line starts: the object, in which the line now
ends, and where the next one starts. -/
def strsep (isDelimiter : UInt8 → Bool) (b : Block) (ptr : Nat) : Option (Block × Option Nat) :=
  match separator isDelimiter (b.drop ptr) with
  | none => none
  | some (_, false) => some (b, none)
  | some (n, true) => (store b (ptr + n) [0]).map fun b => (b, some (ptr + n + 1))

variable {isDelimiter : UInt8 → Bool} {line : List UInt8}

theorem separator_append (hLine : ∀ c ∈ line, isDelimiter c = false) (hFree : 0 ∉ line)
    (b : Block) : separator isDelimiter (line.map some ++ b) =
      (separator isDelimiter b).map fun (n, found) => (line.length + n, found) := by
  induction line with
  | nil => simp
  | cons c line ih =>
      have hFirst : c ≠ 0 := fun hZero => hFree (hZero ▸ List.mem_cons_self)
      have hRest := ih (fun d hd => hLine d (List.mem_cons_of_mem _ hd))
        fun hMem => hFree (List.mem_cons_of_mem _ hMem)
      simp only [List.map_cons, List.cons_append, separator, if_neg hFirst,
        hLine c List.mem_cons_self, Bool.false_eq_true, if_false, hRest, Option.map_map]
      congr 1
      funext ⟨n, found⟩
      simp only [Function.comp_apply, List.length_cons]
      rw [Nat.add_right_comm]

/-- A line with its delimiter. -/
theorem strsep_line (front : List UInt8) {c : UInt8} (hLine : ∀ c ∈ line, isDelimiter c = false)
    (hFree : 0 ∉ line) (hEnd : isDelimiter c = true) (hSome : c ≠ 0) (back : Block) :
    strsep isDelimiter (front.map some ++ (line.map some ++ some c :: back)) front.length =
      some ((front ++ line ++ [0]).map some ++ back, some (front ++ line ++ [0]).length) := by
  have hDrop : (front.map some ++ (line.map some ++ some c :: back)).drop front.length =
      line.map some ++ some c :: back := List.drop_left' (by simp)
  have hFound : separator isDelimiter (line.map some ++ some c :: back) =
      some (line.length, true) := by
    rw [separator_append hLine hFree, separator, if_neg hSome, if_pos hEnd]
    rfl
  have hOld : front.map some ++ (line.map some ++ some c :: back) =
      (front ++ line).map some ++ some c :: back := by simp
  have hNew : (front ++ line).map some ++ some 0 :: back =
      (front ++ line ++ [0]).map some ++ back := by simp
  have hLength : front.length + line.length = ((front ++ line).map some).length := by simp
  rw [strsep, hDrop, hFound]
  simp only [hOld, hLength, store_cell, hNew, Option.map_some]
  simp [Nat.add_assoc]

/-- A line without one. -/
theorem strsep_unfinished (front : List UInt8) (hLine : ∀ c ∈ line, isDelimiter c = false)
    (hFree : 0 ∉ line) (back : Block) :
    strsep isDelimiter (front.map some ++ (line.map some ++ some 0 :: back)) front.length =
      some (front.map some ++ (line.map some ++ some 0 :: back), none) := by
  have hDrop : (front.map some ++ (line.map some ++ some 0 :: back)).drop front.length =
      line.map some ++ some 0 :: back := List.drop_left' (by simp)
  rw [strsep, hDrop, separator_append hLine hFree, separator, if_pos rfl]
  rfl

/-- Behind the last byte that was written no line ends. -/
theorem strsep_fault (front : List UInt8) (hLine : ∀ c ∈ line, isDelimiter c = false)
    (hFree : 0 ∉ line) (unwritten : Nat) :
    strsep isDelimiter (front.map some ++ (line.map some ++ List.replicate unwritten none))
      front.length = none := by
  have hDrop : (front.map some ++ (line.map some ++ List.replicate unwritten none)).drop
      front.length = line.map some ++ List.replicate unwritten none := List.drop_left' (by simp)
  have hEnd : separator isDelimiter (List.replicate unwritten none) = none := by
    cases unwritten with
    | zero => rfl
    | succ unwritten => rfl
  rw [strsep, hDrop, separator_append hLine hFree, hEnd]
  rfl

end Memory

end CMemory
