import Mathlib.Algebra.Group.Nat.Defs
import MonitoringPlug.Lib.Rounds
import MonitoringPlug.Snmp.Values

/-! Rows of a fetched subtree: `mp_snmp_subtree_get_value` and
`mp_snmp_subtree_get_values`, which take a row of a table by its number. -/
namespace MonitoringPlug.Snmp

open CLoop CMemory

/-- The loop of `mp_snmp_subtree_get_value`: the variable it copies from. `j` counts the
matches of the prefix. -/
def nthMatch (net : NetSnmp) (oidPrefix : Oid) (idx : Nat) : List Variable → Nat → Option Variable
  | [], _ => none
  | v :: vars, j =>
      if net.oidtreeCompare oidPrefix v.name = 0 then
        if j = idx then some v else nthMatch net oidPrefix idx vars (j + 1)
      else nthMatch net oidPrefix idx vars j

/-- The return value and the target behind the call. -/
def mpSnmpSubtreeGetValue (net : NetSnmp) (subtree : List Variable) (oidPrefix : Oid) (idx : Nat)
    (type : AsnType) (targetLen : Nat) (target : Target) : Option (Nat × Target) :=
  if subtree.length < 1 then some (0, target)
  else
    match nthMatch net oidPrefix idx subtree 0 with
    | some v => copyValue v type targetLen target
    | none => some (0, target)

/-- The state of the loop over the values. `stored` is no variable of the source: it
says which variable was copied for which value. -/
structure Got where
  count : Nat
  mem : Targets
  stored : List (Value × Variable)

/-- The target holds what the call left, and a return value above 0 is counted. -/
def Got.put (got : Got) (value : Value) (source : Option Variable) (rc : Nat) (target : Target) :
    Got :=
  let mem := Function.update got.mem value.target target
  if rc > 0 then
    { count := got.count + 1, mem := mem, stored := got.stored ++ source.toList.map (value, ·) }
  else { got with mem := mem }

/-- One value. What `read_objid` returns is not looked at; `left` is what the prefix is
where it fails. -/
def getValuesPass (net : NetSnmp) (readObjid : ReadObjid) (left : List Char → Oid)
    (subtree : List Variable) (idx : Nat) (got : Got) (v : Value) : Option Got :=
  let oidPrefix := (readObjid v.oid).getD (left v.oid)
  (mpSnmpSubtreeGetValue net subtree oidPrefix idx v.type v.targetLen (got.mem v.target)).map
    fun (rc, target) => got.put v (nthMatch net oidPrefix idx subtree 0) rc target

def mpSnmpSubtreeGetValues (net : NetSnmp) (readObjid : ReadObjid) (left : List Char → Oid)
    (subtree : List Variable) (idx : Nat) (values : List Value) (mem : Targets) : Option Got :=
  let got := { count := 0, mem := mem, stored := [] }
  if subtree.length < 1 then some got
  else values.foldlM (getValuesPass net readObjid left subtree idx) got

/-- A conceptual table as a walk returns it: sorted, and every variable is the cell of
a column and a row, `entry.column.row`. Columns may have different rows. -/
structure Table where
  entry : Oid
  vars : List Variable
  sorted : Cursor.Sorted Variable.name vars
  cells : ∀ v ∈ vars, ∃ column row, row ≠ [] ∧ v.name = entry ++ column :: row

def Table.Cell (table : Table) (column : Nat) (row : Oid) (v : Variable) : Prop :=
  v ∈ table.vars ∧ v.name = table.entry ++ column :: row

/-- The cells of a column with a smaller row index. -/
def Table.rowsBefore (table : Table) (column : Nat) (row : Oid) : Nat :=
  table.vars.countP fun v =>
    table.entry ++ [column] <+: v.name ∧ v.name < table.entry ++ column :: row

/-- A variable that is copied for the value: of the type, and not too long. -/
def Value.Takes (value : Value) (v : Variable) : Prop :=
  v.type = value.type ∧
    if value.type = .octetStr then value.targetLen = 0 ∨ v.val.length + 1 ≤ value.targetLen
    else value.type.isNumber = true ∧ v.val.length ≤ value.targetLen

instance (value : Value) (v : Variable) : Decidable (value.Takes v) := by
  unfold Value.Takes
  infer_instance

/-- All that was stored is of one row, and for a column without that row nothing was. -/
structure RowAligned (table : Table) (column : Value → Nat) (values : List Value)
    (stored : List (Value × Variable)) (row : Oid) : Prop where
  sameRow : ∀ value v, (value, v) ∈ stored → table.Cell (column value) row v
  lacking : ∀ value ∈ values, (∀ v, ¬ table.Cell (column value) row v) →
    ∀ v, (value, v) ∉ stored

/-- One row index stands behind `idx` others in all the columns that have so many
rows, as far as their cell there is one to copy. -/
def SameRank (table : Table) (column : Value → Nat) (values : List Value) (idx : Nat)
    (row : Oid) : Prop :=
  ∀ value ∈ values, ∀ row' v, table.Cell (column value) row' v →
    table.rowsBefore (column value) row' = idx → value.Takes v → row' = row

section Loops

variable {net : NetSnmp} {oidPrefix : Oid} {idx : Nat}

/-- The loop finds the match with the number it looks for. -/
theorem nthMatch_eq (subtree : List Variable) {j : Nat} (h : j ≤ idx) :
    nthMatch net oidPrefix idx subtree j =
      (subtree.filter fun v => net.oidtreeCompare oidPrefix v.name = 0)[idx - j]? := by
  induction subtree generalizing j with
  | nil => rfl
  | cons v subtree ih =>
      rw [nthMatch]
      split
      · rename_i hMatch
        rw [List.filter_cons_of_pos (by simpa using hMatch)]
        split
        · rename_i hLast
          rw [hLast, Nat.sub_self, List.getElem?_cons_zero]
        · rename_i hMore
          rw [ih (by omega), show idx - j = idx - (j + 1) + 1 by omega, List.getElem?_cons_succ]
      · rename_i hOther
        rw [List.filter_cons_of_neg (by simpa using hOther), ih h]

/-- The empty subtree needs no case of its own. -/
theorem mpSnmpSubtreeGetValue_eq (subtree : List Variable) (type : AsnType) (targetLen : Nat)
    (target : Target) :
    mpSnmpSubtreeGetValue net subtree oidPrefix idx type targetLen target =
      match nthMatch net oidPrefix idx subtree 0 with
      | some v => copyValue v type targetLen target
      | none => some (0, target) := by
  cases subtree with
  | nil => rfl
  | cons v subtree => simp [mpSnmpSubtreeGetValue]

theorem copyValue_other {v : Variable} (hString : v.type ≠ .octetStr)
    (hNumber : v.type.isNumber = false) (targetLen : Nat) (target : Target) :
    copyValue v v.type targetLen target = some (0, target) := by
  rw [copyValue, if_neg (not_not.mpr rfl)]
  cases hKind : v.type with
  | octetStr => exact absurd hKind hString
  | integer | counter | gauge | timeticks =>
      rw [hKind] at hNumber
      cases hNumber
  | noSuchObject | noSuchInstance | endOfMibView | other => rfl

/-- A copy that returns says whether it stored the variable. -/
theorem copyValue_rc {value : Value} {v : Variable} {target target' : Target} {rc : Nat}
    (h : copyValue v value.type value.targetLen target = some (rc, target')) :
    0 < rc ↔ value.Takes v := by
  by_cases hType : v.type = value.type
  · rw [← hType] at h
    have hTakes : value.Takes v ↔
        if v.type = .octetStr then value.targetLen = 0 ∨ v.val.length + 1 ≤ value.targetLen
        else v.type.isNumber = true ∧ v.val.length ≤ value.targetLen := by
      rw [Value.Takes, ← hType]
      exact and_iff_right rfl
    rw [hTakes]
    by_cases hString : v.type = .octetStr
    · rw [if_pos hString]
      rw [copyValue_octetStr hString] at h
      split_ifs at h with hSized hLong
      · cases h
        constructor
        · intro hZero
          omega
        · intro hShort
          omega
      · obtain ⟨_, -, hPair⟩ := Option.map_eq_some_iff.mp h
        cases hPair
        exact ⟨fun _ => Or.inr (by omega), fun _ => Nat.one_pos⟩
      · obtain ⟨_, -, hPair⟩ := Option.map_eq_some_iff.mp h
        cases hPair
        exact ⟨fun _ => Or.inl (by omega), fun _ => Nat.one_pos⟩
    · rw [if_neg hString]
      cases hNumber : v.type.isNumber with
      | true =>
          rw [copyValue_number hNumber] at h
          split_ifs at h with hLong
          · cases h
            constructor
            · intro hZero
              omega
            · intro hShort
              omega
          · obtain ⟨_, -, hPair⟩ := Option.map_eq_some_iff.mp h
            cases hPair
            exact ⟨fun _ => ⟨rfl, by omega⟩, fun _ => Nat.one_pos⟩
      | false =>
          rw [copyValue_other hString hNumber] at h
          cases h
          simp
  · rw [copyValue, if_pos hType] at h
    cases h
    constructor
    · intro hZero
      omega
    · intro hTakes
      exact (hType hTakes.1).elim

/-- What one call copies for a value, if anything. -/
def copied (net : NetSnmp) (subtree : List Variable) (idx : Nat) (oidPrefix : Oid)
    (value : Value) : Option Variable :=
  (nthMatch net oidPrefix idx subtree 0).filter fun v => value.Takes v

variable {readObjid : ReadObjid} {left : List Char → Oid} {subtree : List Variable}

/-- The values a run stores, in their order. -/
def storedFor (net : NetSnmp) (readObjid : ReadObjid) (left : List Char → Oid)
    (subtree : List Variable) (idx : Nat) (value : Value) : List (Value × Variable) :=
  (copied net subtree idx ((readObjid value.oid).getD (left value.oid)) value).toList.map (value, ·)

theorem Got.put_stored (got : Got) (value : Value) (source : Option Variable) (rc : Nat)
    (target : Target) : (got.put value source rc target).stored =
      got.stored ++ if rc > 0 then source.toList.map (value, ·) else [] := by
  rw [Got.put]
  split
  · rfl
  · simp

theorem getValuesPass_stored {got got' : Got} {value : Value}
    (h : getValuesPass net readObjid left subtree idx got value = some got') :
    got'.stored = got.stored ++ storedFor net readObjid left subtree idx value := by
  rw [getValuesPass] at h
  obtain ⟨⟨rc, target⟩, hGet, rfl⟩ := Option.map_eq_some_iff.mp h
  rw [mpSnmpSubtreeGetValue_eq] at hGet
  rw [Got.put_stored, storedFor, copied]
  cases hMatch : nthMatch net ((readObjid value.oid).getD (left value.oid)) idx subtree 0 with
  | none =>
      simp
  | some v =>
      rw [hMatch] at hGet
      have hRc := copyValue_rc hGet
      by_cases hTakes : value.Takes v
      · rw [if_pos (hRc.mpr hTakes), Option.filter_some_pos (by simpa using hTakes)]
      · have hZero : ¬ 0 < rc := fun hPos => hTakes (hRc.mp hPos)
        rw [if_neg hZero, Option.filter_some_neg (by simpa using hTakes)]
        rfl

theorem getValues_stored {values : List Value} {got got' : Got}
    (h : values.foldlM (getValuesPass net readObjid left subtree idx) got = some got') :
    got'.stored = got.stored ++ values.flatMap (storedFor net readObjid left subtree idx) := by
  apply foldlM_carries (P := fun passed next => next.stored =
    got.stored ++ passed.flatMap (storedFor net readObjid left subtree idx)) _ [] _ h
  · intro passed middle value next hMiddle hPass
    rw [getValuesPass_stored hPass, hMiddle, List.append_assoc, List.flatMap_append,
      List.flatMap_singleton]
  · rw [List.flatMap_nil, List.append_nil]

/-- A run stores for each value the variable its prefix has with this number. -/
theorem mem_stored_iff {values : List Value} {mem : Targets} {got : Got}
    (h : mpSnmpSubtreeGetValues net readObjid left subtree idx values mem = some got)
    (value : Value) (v : Variable) :
    (value, v) ∈ got.stored ↔ value ∈ values ∧ value.Takes v ∧
      nthMatch net ((readObjid value.oid).getD (left value.oid)) idx subtree 0 = some v := by
  have hStored : got.stored = values.flatMap (storedFor net readObjid left subtree idx) := by
    rw [mpSnmpSubtreeGetValues] at h
    split_ifs at h with hEmpty
    · cases h
      have hNil : subtree = [] := List.eq_nil_of_length_eq_zero (by omega)
      simp [hNil, storedFor, copied, nthMatch]
    · rw [getValues_stored h, List.nil_append]
  rw [hStored, List.mem_flatMap]
  simp only [storedFor, copied, List.mem_map, Option.mem_toList,
    Option.filter_eq_some_iff, decide_eq_true_eq, Prod.mk.injEq]
  constructor
  · rintro ⟨other, hMem, found, ⟨hFound, hTakes⟩, rfl, rfl⟩
    exact ⟨hMem, hTakes, hFound⟩
  · rintro ⟨hMem, hTakes, hFound⟩
    exact ⟨value, hMem, v, ⟨hFound, hTakes⟩, rfl, rfl⟩

/-- The count is that of what was stored. -/
theorem getValues_count {values : List Value} {got got' : Got}
    (h : values.foldlM (getValuesPass net readObjid left subtree idx) got = some got')
    (hCount : got.count = got.stored.length) : got'.count = got'.stored.length := by
  apply foldlM_invariant (P := fun got => got.count = got.stored.length) _ hCount h
  intro got value next hCount hPass
  rw [getValuesPass] at hPass
  obtain ⟨⟨rc, target⟩, hGet, rfl⟩ := Option.map_eq_some_iff.mp hPass
  rw [mpSnmpSubtreeGetValue_eq] at hGet
  cases hMatch : nthMatch net ((readObjid value.oid).getD (left value.oid)) idx subtree 0 with
  | none =>
      rw [hMatch] at hGet
      cases hGet
      exact hCount
  | some v =>
      simp only [Got.put]
      split
      · simp [hCount]
      · exact hCount

theorem mpSnmpSubtreeGetValues_count {values : List Value} {mem : Targets} {got : Got}
    (h : mpSnmpSubtreeGetValues net readObjid left subtree idx values mem = some got) :
    got.count = got.stored.length := by
  rw [mpSnmpSubtreeGetValues] at h
  split_ifs at h
  · cases h
    rfl
  · exact getValues_count h rfl

/-- With targets of their own, as large as stated, a run stays inside of them. -/
theorem getValues_returns {values : List Value} {got : Got}
    (hTargets : (values.map (·.target)).Nodup)
    (hSuits : ∀ value ∈ values,
      QueryCmd.Suits ⟨[], value.type, value.target, value.targetLen⟩ (got.mem value.target)) :
    ∃ got', values.foldlM (getValuesPass net readObjid left subtree idx) got = some got' := by
  induction values generalizing got with
  | nil => exact ⟨got, rfl⟩
  | cons value values ih =>
      rw [List.map_cons, List.nodup_cons] at hTargets
      obtain ⟨next, hPass, hMem⟩ : ∃ next,
          getValuesPass net readObjid left subtree idx got value = some next ∧
          ∀ other, other ≠ value.target → next.mem other = got.mem other := by
        have hPut : ∀ source rc target other, other ≠ value.target →
            (got.put value source rc target).mem other = got.mem other := by
          intro source rc target other hOther
          rw [Got.put]
          split <;> exact Function.update_of_ne hOther _ _
        rw [getValuesPass, mpSnmpSubtreeGetValue_eq]
        cases nthMatch net ((readObjid value.oid).getD (left value.oid)) idx subtree 0 with
        | none => exact ⟨_, rfl, hPut none 0 _⟩
        | some v =>
            obtain ⟨rc, target, hCopy, -⟩ := copyValue_spec (hSuits value List.mem_cons_self) v
            exact ⟨_, Option.map_eq_some_iff.mpr ⟨(rc, target), hCopy, rfl⟩,
              hPut (some v) rc target⟩
      have hRest : ∀ other ∈ values, QueryCmd.Suits
          ⟨[], other.type, other.target, other.targetLen⟩ (next.mem other.target) := by
        intro other hOther
        have hDistinct : other.target ≠ value.target := by
          intro hSame
          exact hTargets.1 (List.mem_map.mpr ⟨other, hOther, hSame⟩)
        rw [hMem _ hDistinct]
        exact hSuits other (List.mem_cons_of_mem _ hOther)
      obtain ⟨got', hGot⟩ := ih hTargets.2 hRest
      exact ⟨got', by rw [List.foldlM_cons, hPass]; exact hGot⟩

theorem mpSnmpSubtreeGetValues_returns {values : List Value} {mem : Targets}
    (hTargets : (values.map (·.target)).Nodup)
    (hSuits : ∀ value ∈ values,
      QueryCmd.Suits ⟨[], value.type, value.target, value.targetLen⟩ (mem value.target)) :
    ∃ got, mpSnmpSubtreeGetValues net readObjid left subtree idx values mem = some got := by
  rw [mpSnmpSubtreeGetValues]
  split
  · exact ⟨_, rfl⟩
  · exact getValues_returns hTargets hSuits

end Loops

/-- The variables that a prefix is compared equal with: those under it and above it. -/
def column (oidPrefix : Oid) (subtree : List Variable) : List Variable :=
  subtree.filter fun v => oidPrefix <+: v.name ∨ v.name <+: oidPrefix

theorem nthMatch_column (net : NetSnmp) (oidPrefix : Oid) (idx : Nat) (subtree : List Variable) :
    nthMatch net oidPrefix idx subtree 0 = (column oidPrefix subtree)[idx]? := by
  rw [nthMatch_eq subtree (Nat.zero_le idx), Nat.sub_zero, column]
  simp only [net.oidtreeCompare_eq_zero]

/-- The text a C string with these octets in front of its NUL has. -/
def text (val : List UInt8) : List Char :=
  (CString.ofBytes val).bytes.map fun b => Char.ofNat b.toNat

/-- The string that a buffer of `targetLen` bytes holds behind a call for it, and none
where the call returns 0. -/
def subtreeString (net : NetSnmp) (subtree : List Variable) (oidPrefix : Oid) (idx : Nat)
    (targetLen : Nat) : Option (List Char) :=
  match nthMatch net oidPrefix idx subtree 0 with
  | some v => if v.type = .octetStr ∧ v.val.length + 1 ≤ targetLen then some (text v.val) else none
  | none => none

/-- The `long` that eight bytes are. -/
def longOf (val : List UInt8) : Int :=
  ((val.foldr (fun b n => 256 * n + b.toNat) 0 : Nat) : Int).bmod (2 ^ 64)

/-- The number that a `long` holds behind a call for it. The library gives numbers as
a `long`. -/
def subtreeLong (net : NetSnmp) (subtree : List Variable) (oidPrefix : Oid) (idx : Nat)
    (type : AsnType) : Option Int :=
  match nthMatch net oidPrefix idx subtree 0 with
  | some v => if v.type = type ∧ v.val.length = 8 then some (longOf v.val) else none
  | none => none

section Buffers

variable {net : NetSnmp} {subtree : List Variable} {oidPrefix : Oid} {idx : Nat}

/-- A call on a buffer of the stated size leaves the string in it, or nothing. -/
theorem subtreeString_spec {targetLen : Nat} {buffer : Block} (hPos : 0 < targetLen)
    (hRoom : targetLen ≤ buffer.length) :
    match subtreeString net subtree oidPrefix idx targetLen with
    | some s => ∃ buffer' bytes,
        mpSnmpSubtreeGetValue net subtree oidPrefix idx .octetStr targetLen
            (.string (some buffer)) =
          some (1, .string (some buffer')) ∧ buffer'.length = buffer.length ∧
        loadString buffer' = some bytes ∧ s = bytes.map fun b => Char.ofNat b.toNat
    | none =>
        mpSnmpSubtreeGetValue net subtree oidPrefix idx .octetStr targetLen
            (.string (some buffer)) =
          some (0, .string (some buffer)) := by
  rw [mpSnmpSubtreeGetValue_eq, subtreeString]
  cases nthMatch net oidPrefix idx subtree 0 with
  | none => rfl
  | some v =>
      simp only
      by_cases hType : v.type = .octetStr
      · by_cases hFits : v.val.length + 1 ≤ targetLen
        · rw [if_pos ⟨hType, hFits⟩]
          obtain ⟨filled, hFill, hValue, hLength⟩ := store_front buffer v.val (by omega)
          obtain ⟨ended, hEnd, hHolds, hSame⟩ := hValue.store [0] (by simp; omega)
          refine ⟨ended, (CString.ofBytes v.val).bytes, ?_, hSame.trans hLength, ?_, rfl⟩
          · rw [← hType, copyValue_octetStr hType, if_pos hPos, if_neg (by omega)]
            simp [copyString, hFill, hEnd]
          · exact hHolds.loadString_ofBytes
        · rw [if_neg fun h => hFits h.2, ← hType, copyValue_octetStr hType, if_pos hPos,
            if_pos (by omega)]
      · rw [if_neg fun h => hType h.1, copyValue, if_pos hType]

/-- The same for a number, where the library gave all numbers as a `long`. -/
theorem subtreeLong_spec {type : AsnType} (hNumber : type.isNumber = true) {storage : Block}
    (hRoom : storage.length = 8) (hLong : ∀ v ∈ subtree, v.type = type → v.val.length = 8) :
    match subtreeLong net subtree oidPrefix idx type with
    | some n => ∃ val, val.length = 8 ∧ n = longOf val ∧
        mpSnmpSubtreeGetValue net subtree oidPrefix idx type 8 (.number storage) =
          some (1, .number (val.map some))
    | none =>
        mpSnmpSubtreeGetValue net subtree oidPrefix idx type 8 (.number storage) =
          some (0, .number storage) := by
  rw [mpSnmpSubtreeGetValue_eq, subtreeLong]
  cases hMatch : nthMatch net oidPrefix idx subtree 0 with
  | none => rfl
  | some v =>
      have hMem : v ∈ subtree := by
        rw [nthMatch_column] at hMatch
        exact (List.mem_filter.mp (List.mem_of_getElem? hMatch)).1
      simp only
      by_cases hType : v.type = type
      · have hLength := hLong v hMem hType
        rw [if_pos ⟨hType, hLength⟩]
        refine ⟨v.val, hLength, rfl, ?_⟩
        rw [← hType] at hNumber ⊢
        rw [copyValue_number hNumber, if_neg (by omega)]
        simp [copyNumber, CMemory.store, hLength, hRoom, List.drop_of_length_le]
      · rw [if_neg fun h => hType h.1, copyValue, if_pos hType]

end Buffers

section Columns

variable {net : NetSnmp} {table : Table} {column idx : Nat}

/-- A cell is never above the OID of a column. -/
theorem Table.compare_eq_zero_iff {v : Variable} (h : v ∈ table.vars) :
    net.oidtreeCompare (table.entry ++ [column]) v.name = 0 ↔
      table.entry ++ [column] <+: v.name := by
  rw [net.oidtreeCompare_eq_zero]
  constructor
  · rintro (hUnder | hAbove)
    · exact hUnder
    · obtain ⟨column', row, hRow, hName⟩ := table.cells v h
      have hLength := hAbove.length_le
      have hPos := List.length_pos_iff.mpr hRow
      simp only [hName, List.length_append, List.length_cons, List.length_nil] at hLength
      omega
  · exact Or.inl

/-- The cells under the OID of a column are those of the column. -/
theorem Table.cell_iff {v : Variable} :
    v ∈ table.vars ∧ table.entry ++ [column] <+: v.name ↔ ∃ row, table.Cell column row v := by
  constructor
  · rintro ⟨hMem, row, hName⟩
    exact ⟨row, hMem, by rw [← hName, List.append_assoc, List.singleton_append]⟩
  · rintro ⟨row, hMem, hName⟩
    exact ⟨hMem, row, by rw [hName, List.append_assoc, List.singleton_append]⟩

/-- The getter takes the cell that stands behind so many smaller rows of its column. -/
theorem Table.nthMatch_iff {v : Variable} :
    nthMatch net (table.entry ++ [column]) idx table.vars 0 = some v ↔
      ∃ row, table.Cell column row v ∧ table.rowsBefore column row = idx := by
  have hFilter : (table.vars.filter fun v =>
      net.oidtreeCompare (table.entry ++ [column]) v.name = 0) =
      table.vars.filter fun v => table.entry ++ [column] <+: v.name := by
    apply List.filter_congr
    intro v hMem
    exact decide_eq_decide.mpr (Table.compare_eq_zero_iff hMem)
  have hSorted : Cursor.Sorted Variable.name
      (table.vars.filter fun v => table.entry ++ [column] <+: v.name) := table.sorted.filter _
  rw [nthMatch_eq _ (Nat.zero_le idx), Nat.sub_zero, hFilter, Cursor.getElem?_eq_some_iff hSorted,
    List.countP_filter, List.mem_filter, decide_eq_true_eq, Table.cell_iff, ← exists_and_right]
  refine exists_congr fun row => and_congr_right fun hCell => Eq.congr_left ?_
  rw [Table.rowsBefore]
  apply List.countP_congr
  intro x _
  simp [hCell.2, and_comm]

end Columns

/-- The values of a row number are of one row exactly when the columns that have so
many rows, with a cell to copy, have the same row there. -/
theorem mpSnmpSubtreeGetValues_aligned_iff (net : NetSnmp) (readObjid : ReadObjid)
    (left : List Char → Oid) (table : Table) (idx : Nat) (values : List Value)
    (column : Value → Nat)
    (hColumns : ∀ value ∈ values, readObjid value.oid = some (table.entry ++ [column value]))
    (mem : Targets) (got : Got)
    (h : mpSnmpSubtreeGetValues net readObjid left table.vars idx values mem = some got) :
    got.count = got.stored.length ∧
      ((∃ row, RowAligned table column values got.stored row) ↔
        ∃ row, SameRank table column values idx row) := by
  have hStored : ∀ value v, (value, v) ∈ got.stored ↔ value ∈ values ∧ value.Takes v ∧
      ∃ row, table.Cell (column value) row v ∧ table.rowsBefore (column value) row = idx := by
    intro value v
    rw [mem_stored_iff h]
    refine and_congr_right fun hValue => and_congr_right fun _ => ?_
    rw [hColumns value hValue, Option.getD_some, Table.nthMatch_iff]
  refine ⟨mpSnmpSubtreeGetValues_count h, exists_congr fun row => ?_⟩
  constructor
  · intro hAligned value hValue row' v hCell hRank hTakes
    have hMem := (hStored value v).mpr ⟨hValue, hTakes, row', hCell, hRank⟩
    have hNames := hCell.2.symm.trans (hAligned.sameRow value v hMem).2
    simpa using hNames
  · intro hRank
    have hSame : ∀ value v, (value, v) ∈ got.stored → table.Cell (column value) row v := by
      intro value v hMem
      obtain ⟨hValue, hTakes, row', hCell, hIdx⟩ := (hStored value v).mp hMem
      rw [← hRank value hValue row' v hCell hIdx hTakes]
      exact hCell
    refine ⟨hSame, ?_⟩
    intro value _ hLacking v hMem
    exact hLacking v (hSame value v hMem)

/-- Two interfaces, the first of which lacks the second column. -/
def sparseVars : List Variable :=
  [⟨[9, 1, 1], .integer, [5]⟩, ⟨[9, 1, 2], .integer, [6]⟩, ⟨[9, 2, 2], .integer, [7]⟩]

theorem sparseVars_sorted : Cursor.Sorted Variable.name sparseVars := by
  unfold Cursor.Sorted
  decide

theorem sparseVars_cells :
    ∀ v ∈ sparseVars, ∃ column row, row ≠ [] ∧ v.name = [9] ++ column :: row := by
  simp [sparseVars]

def sparseTable : Table where
  entry := [9]
  vars := sparseVars
  sorted := sparseVars_sorted
  cells := sparseVars_cells

/-- A value of one byte, asked for by the number of its column, which is its target too. -/
def byteValue (column : Char) : Value :=
  { oid := ['.', '9', '.', column], type := .integer, target := column.toNat - '0'.toNat
    targetLen := 1 }

def byteTargets : Targets := fun _ => .number (CMemory.malloc 1)

/-- The same table with the cell that it lacks. -/
def fullVars : List Variable :=
  [⟨[9, 1, 1], .integer, [5]⟩, ⟨[9, 1, 2], .integer, [6]⟩, ⟨[9, 2, 1], .integer, [8]⟩,
    ⟨[9, 2, 2], .integer, [7]⟩]

theorem fullVars_sorted : Cursor.Sorted Variable.name fullVars := by
  unfold Cursor.Sorted
  decide

theorem fullVars_cells : ∀ v ∈ fullVars, ∃ column row, row ≠ [] ∧ v.name = [9] ++ column :: row := by
  simp [fullVars]

def fullTable : Table where
  entry := [9]
  vars := fullVars
  sorted := fullVars_sorted
  cells := fullVars_cells

theorem mpSnmpSubtreeGetValues_aligned_columns :
    ∃ got, mpSnmpSubtreeGetValues NetSnmp.reference numericOid (fun _ => []) fullTable.vars 1
        [byteValue '1', byteValue '2'] byteTargets = some got ∧
      got.stored = [(byteValue '1', ⟨[9, 1, 2], .integer, [6]⟩),
        (byteValue '2', ⟨[9, 2, 2], .integer, [7]⟩)] ∧
      ∃ row, RowAligned fullTable (·.target) [byteValue '1', byteValue '2'] got.stored row := by
  have hColumns : ∀ value ∈ [byteValue '1', byteValue '2'],
      numericOid value.oid = some (fullTable.entry ++ [value.target]) := by decide
  refine ⟨_, rfl, rfl, ?_⟩
  apply (mpSnmpSubtreeGetValues_aligned_iff NetSnmp.reference numericOid (fun _ => []) fullTable 1
    [byteValue '1', byteValue '2'] (·.target) hColumns byteTargets _ rfl).2.mpr
  -- The row that has the cells behind those of row 1.
  refine ⟨[2], ?_⟩
  intro value hValue row' v ⟨hMem, hName⟩ hRank _
  simp only [List.mem_cons, List.not_mem_nil, or_false] at hValue
  simp only [fullTable, fullVars, List.mem_cons, List.not_mem_nil, or_false] at hMem
  rcases hValue with rfl | rfl <;> rcases hMem with rfl | rfl | rfl | rfl <;>
    simp [fullTable, byteValue] at hName <;> subst hName
  · exact absurd hRank (by decide)
  · rfl
  · exact absurd hRank (by decide)
  · rfl

/-- For row 0 the state of the first interface comes with a value of the second. -/
theorem mpSnmpSubtreeGetValues_mixes_rows :
    ∃ got, mpSnmpSubtreeGetValues NetSnmp.reference numericOid (fun _ => []) sparseTable.vars 0
        [byteValue '1', byteValue '2'] byteTargets = some got ∧
      ¬ ∃ row, RowAligned sparseTable (·.target) [byteValue '1', byteValue '2'] got.stored row := by
  refine ⟨_, rfl, ?_⟩
  rintro ⟨row, hAligned⟩
  have hFirst := hAligned.sameRow (byteValue '1') ⟨[9, 1, 1], .integer, [5]⟩ (by decide)
  have hSecond := hAligned.sameRow (byteValue '2') ⟨[9, 2, 2], .integer, [7]⟩ (by decide)
  have hOne : [9, 1, 1] = [9] ++ 1 :: row := hFirst.2
  have hTwo : [9, 2, 2] = [9] ++ 2 :: row := hSecond.2
  simp at hOne hTwo
  rw [← hOne] at hTwo
  cases hTwo

end MonitoringPlug.Snmp
