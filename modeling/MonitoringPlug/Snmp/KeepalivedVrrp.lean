import MonitoringPlug.Snmp.Row
import MonitoringPlug.Utils
import MonitoringPlug.Common

/-! `check_keepalived_vrrp` from the fetched table on: the loop over the rows, the
patterns given with `--instance`, and the exit. -/
namespace MonitoringPlug.Snmp

open MonitoringPlug.Common MonitoringPlug.Utils

def vrrpInstanceName : Oid := [1, 3, 6, 1, 4, 1, 9586, 100, 5, 2, 3, 1, 2]

def vrrpInstanceVirtualRouterId : Oid := [1, 3, 6, 1, 4, 1, 9586, 100, 5, 2, 3, 1, 3]

def vrrpInstanceState : Oid := [1, 3, 6, 1, 4, 1, 9586, 100, 5, 2, 3, 1, 4]

def vrrpInstanceInitialState : Oid := [1, 3, 6, 1, 4, 1, 9586, 100, 5, 2, 3, 1, 5]

/-- `STATENAME[state]`. `beyond` is what is read outside of the array. -/
def stateName (beyond : Int → String) (state : Int) : String :=
  if state = 0 then "" else if state = 1 then "BACKUP" else if state = 2 then "MASTER"
  else beyond state

/-- The variables of the loop. `instances` is the array `instance`, `calls` the messages
set so far. `indexed` is no variable of the source: it says where `STATENAME` was read. -/
structure Vrrp where
  i : Nat
  instances : List (Option (List Char))
  calls : List Call
  indexed : List Int

def Vrrp.start (patterns : List (List Char)) : Vrrp :=
  { i := 0, instances := patterns.map some, calls := [], indexed := [] }

/-- A place of the array that the name is matched with. -/
def slotMatches (vrrpName : List Char) : Option (List Char) → Bool
  | none => false
  | some pattern => mpStrmatch vrrpName pattern

/-- The check whether the instance should be checked. No array is the `continue`. -/
def selectInstance (vrrpName : List Char) (instances : List (Option (List Char))) :
    Option (List (Option (List Char))) :=
  if instances.length > 0 then
    match instances.findIdx? (slotMatches vrrpName) with
    | none => none
    | some j =>
        if (instances[j]?.join.map isPattern).getD false then some instances
        else some (instances.set j none)
  else some instances

def Vrrp.warn (s : Vrrp) (message : String) : Vrrp :=
  { s with calls := s.calls ++ [.warning message] }

/-- The rest of the body for a name that was fetched. -/
def vrrpPass (net : NetSnmp) (tableState : List Variable) (beyond : Int → String) (s : Vrrp)
    (vrrpName : List Char) : Vrrp :=
  let next := { s with i := s.i + 1 }
  match selectInstance vrrpName s.instances with
  | none => next
  | some instances =>
      let next := { next with instances := instances }
      match subtreeLong net tableState vrrpInstanceVirtualRouterId s.i .gauge with
      | none => next.warn ("Fetching vrrp_if for instance " ++ toString s.i ++ " failed")
      | some vrrpId =>
          match subtreeLong net tableState vrrpInstanceState s.i .integer with
          | none => next.warn ("Fetching vrrp_state for instance " ++ toString s.i ++ " failed")
          | some vrrpState =>
              match subtreeLong net tableState vrrpInstanceInitialState s.i .integer with
              | none =>
                  next.warn ("Fetching vrrp_state_initial for instance " ++ toString s.i ++
                    " failed")
              | some vrrpStateInitial =>
                  if vrrpState ≠ vrrpStateInitial then
                    { next.warn (String.ofList vrrpName ++ "(" ++ toString vrrpId ++ ") is " ++
                        stateName beyond vrrpState) with
                      indexed := next.indexed ++ [vrrpState] }
                  else next

/-- The loop for at most so many rows as are left of `table_state.size`. -/
def vrrpLoop (net : NetSnmp) (tableState : List Variable) (beyond : Int → String) :
    Nat → Vrrp → Vrrp
  | 0, s => s
  | left + 1, s =>
      match subtreeString net tableState vrrpInstanceName s.i 24 with
      | none => s
      | some vrrpName => vrrpLoop net tableState beyond left
          (vrrpPass net tableState beyond s vrrpName)

/-- The check for unmatched instances. -/
def unmatched (instances : List (Option (List Char))) : List Call :=
  instances.filterMap fun slot =>
    match slot with
    | some pattern =>
        if isPattern pattern then none
        else some (.critical (String.ofList pattern ++ " (not found)"))
    | none => none

/-- The line and the exit code, and the places `STATENAME` was read at. The loop over the
patterns leaves its own bound in `i`. -/
def checkKeepalivedVrrp (net : NetSnmp) (tableState : List Variable) (beyond : Int → String)
    (showPerfdata : Bool) (patterns : List (List Char)) : (String × Int) × List Int :=
  let s := vrrpLoop net tableState beyond tableState.length (.start patterns)
  let i := if s.instances.length > 0 then s.instances.length else s.i
  if i = 0 then
    (("UNKNOWN - Keepalived VRRP: No Instances found.\n", Status.unknown.code), s.indexed)
  else
    (mpExit "Keepalived VRRP" (run (s.calls ++ unmatched s.instances) (initial showPerfdata none)),
      s.indexed)

/-- A row of the table. -/
structure VrrpRow where
  name : List Char
  id : Int
  state : Int
  initialState : Int
deriving DecidableEq, Repr

/-- A cell that holds a display string. -/
def stringCell (v : Variable) : Option (List Char) :=
  if v.type = .octetStr ∧ 0 ∉ v.val then some (text v.val) else none

/-- A cell that holds a number, which the library gives as a `long`. -/
def longCell (type : AsnType) (v : Variable) : Option Int :=
  if v.type = type ∧ v.val.length = 8 then some (longOf v.val) else none

/-- A `vrrpInstance` table as it was fetched: every row has a cell in each column, and
the names are different. -/
structure VrrpTable where
  vars : List Variable
  rows : List VrrpRow
  names : (column vrrpInstanceName vars).map stringCell = rows.map fun r => some r.name
  ids : (column vrrpInstanceVirtualRouterId vars).map (longCell .gauge) =
    rows.map fun r => some r.id
  states : (column vrrpInstanceState vars).map (longCell .integer) = rows.map fun r => some r.state
  initialStates : (column vrrpInstanceInitialState vars).map (longCell .integer) =
    rows.map fun r => some r.initialState
  unique : (rows.map (·.name)).Nodup

/-- The row is one to check: its name matches a pattern, or there are none. -/
def VrrpRow.Selected (patterns : List (List Char)) (r : VrrpRow) : Prop :=
  patterns = [] ∨ ∃ pattern ∈ patterns, mpStrmatch r.name pattern = true

instance (patterns : List (List Char)) (r : VrrpRow) : Decidable (r.Selected patterns) :=
  inferInstanceAs (Decidable (_ ∨ _))

/-- A selected row that is not in its initial state. -/
def VrrpRow.Differs (patterns : List (List Char)) (r : VrrpRow) : Prop :=
  r.Selected patterns ∧ r.state ≠ r.initialState

instance (patterns : List (List Char)) (r : VrrpRow) : Decidable (r.Differs patterns) :=
  inferInstanceAs (Decidable (_ ∧ _))

/-- An exact pattern is the name of no row. -/
def Missing (table : VrrpTable) (patterns : List (List Char)) : Prop :=
  ∃ pattern ∈ patterns, isPattern pattern = false ∧ ∀ r ∈ table.rows, r.name ≠ pattern

/-- What the exit should say about the selected rows. -/
structure JudgesInstances (table : VrrpTable) (patterns : List (List Char)) (code : Int)
    (indexed : List Int) : Prop where
  wrong : (∃ r ∈ table.rows, r.Differs patterns) ∨ Missing table patterns →
    code = Status.warning.code ∨ code = Status.critical.code
  none : ¬ (∃ r ∈ table.rows, r.Selected patterns) → ¬ Missing table patterns →
    code = Status.unknown.code
  fine : (∃ r ∈ table.rows, r.Selected patterns) → ¬ (∃ r ∈ table.rows, r.Differs patterns) →
    ¬ Missing table patterns → code = Status.ok.code
  stateName : ∀ n ∈ indexed, 0 ≤ n ∧ n ≤ 2

/-- The name of a row fits its buffer. -/
def VrrpRow.short (r : VrrpRow) : Bool := r.name.length + 1 ≤ 24

/-- The rows in front of the first with a name that does not fit the buffer. -/
def VrrpTable.seen (table : VrrpTable) : List VrrpRow :=
  table.rows.takeWhile VrrpRow.short

/-- An exact pattern is not taken out: no seen row has this name, or an earlier pattern
takes the row. -/
def Left (table : VrrpTable) (patterns : List (List Char)) : Prop :=
  ∃ front pattern back, patterns = front ++ pattern :: back ∧ isPattern pattern = false ∧
    ((∀ r ∈ table.seen, r.name ≠ pattern) ∨ ∃ earlier ∈ front, mpStrmatch pattern earlier = true)

section Fetching

variable {net : NetSnmp} {table : VrrpTable}

theorem text_length {val : List UInt8} (h : 0 ∉ val) : (text val).length = val.length := by
  have hFree : CMemory.CString.ofBytes val = ⟨val, h⟩ := CMemory.CString.ofBytes_bytes ⟨val, h⟩
  rw [text, hFree, List.length_map]

/-- The name of a row is fetched when it fits. -/
theorem subtreeString_name (i : Nat) :
    subtreeString net table.vars vrrpInstanceName i 24 =
      (table.rows[i]?).bind fun r => if r.name.length + 1 ≤ 24 then some r.name else none := by
  have hCell := congrArg (fun cells => cells[i]?) table.names
  simp only [List.getElem?_map] at hCell
  rw [subtreeString, nthMatch_column]
  cases hVar : (column vrrpInstanceName table.vars)[i]? with
  | none =>
      rw [hVar] at hCell
      cases hRow : table.rows[i]? with
      | none => rfl
      | some r =>
          rw [hRow] at hCell
          cases hCell
  | some v =>
      rw [hVar] at hCell
      cases hRow : table.rows[i]? with
      | none =>
          rw [hRow] at hCell
          cases hCell
      | some r =>
          rw [hRow] at hCell
          have hName : stringCell v = some r.name := Option.some.inj hCell
          rw [stringCell, Option.ite_none_right_eq_some] at hName
          obtain ⟨⟨hType, hFree⟩, hText⟩ := hName
          have hText : text v.val = r.name := Option.some.inj hText
          simp only [Option.bind_some, hType, true_and, ← hText, text_length hFree]

/-- The numbers of a row are fetched. -/
theorem subtreeLong_cell {oidPrefix : Oid} {type : AsnType} {field : VrrpRow → Int}
    (hCells : (column oidPrefix table.vars).map (longCell type) =
      table.rows.map fun r => some (field r)) {i : Nat} {r : VrrpRow}
    (hRow : table.rows[i]? = some r) :
    subtreeLong net table.vars oidPrefix i type = some (field r) := by
  have hCell := congrArg (fun cells => cells[i]?) hCells
  simp only [List.getElem?_map, hRow, Option.map_some] at hCell
  obtain ⟨v, hVar, hLong⟩ := Option.map_eq_some_iff.mp hCell
  rw [subtreeLong, nthMatch_column, hVar]
  exact hLong

/-- The warning for a row. -/
def VrrpRow.message (beyond : Int → String) (r : VrrpRow) : String :=
  String.ofList r.name ++ "(" ++ toString r.id ++ ") is " ++ stateName beyond r.state

/-- A row of the table, judged. -/
theorem vrrpPass_row {beyond : Int → String} {s : Vrrp} {r : VrrpRow}
    (hRow : table.rows[s.i]? = some r) :
    vrrpPass net table.vars beyond s r.name =
      match selectInstance r.name s.instances with
      | none => { s with i := s.i + 1 }
      | some instances =>
          if r.state ≠ r.initialState then
            { i := s.i + 1, instances := instances
              calls := s.calls ++ [.warning (r.message beyond)], indexed := s.indexed ++ [r.state] }
          else { s with i := s.i + 1, instances := instances } := by
  rw [vrrpPass, subtreeLong_cell table.ids hRow, subtreeLong_cell table.states hRow,
    subtreeLong_cell table.initialStates hRow]
  rfl

end Fetching

section Slots

variable {patterns names : List (List Char)}

/-- A pattern that was set to NULL once rows with these names were seen. -/
def isTaken (patterns names : List (List Char)) (j : Nat) (pattern : List Char) : Bool :=
  !isPattern pattern && names.contains pattern &&
    (patterns.take j).all fun earlier => !mpStrmatch pattern earlier

def slots (patterns names : List (List Char)) : List (Option (List Char)) :=
  patterns.mapIdx fun j pattern => if isTaken patterns names j pattern then none else some pattern

theorem slots_nil : slots patterns [] = patterns.map some := by
  rw [slots, List.mapIdx_eq_iff]
  intro j
  simp [isTaken]

theorem isTaken_exact {j : Nat} {pattern : List Char}
    (h : isTaken patterns names j pattern = true) :
    isPattern pattern = false ∧ pattern ∈ names := by
  simp only [isTaken, Bool.and_eq_true, Bool.not_eq_true', List.contains_iff_mem] at h
  exact h.1

/-- What was taken out matches no other name. -/
theorem slots_findIdx? {name : List Char} (hNew : name ∉ names) :
    (slots patterns names).findIdx? (slotMatches name) = patterns.findIdx? (mpStrmatch name) := by
  have hSame : (slots patterns names).map (slotMatches name) = patterns.map (mpStrmatch name) := by
    apply List.ext_getElem?
    intro j
    rw [slots, List.getElem?_map, List.getElem?_mapIdx, List.getElem?_map]
    cases patterns[j]? with
    | none => rfl
    | some pattern =>
        simp only [Option.map_some, Option.some.injEq]
        split
        · rename_i hTaken
          obtain ⟨hExact, hMem⟩ := isTaken_exact hTaken
          have hOther : mpStrmatch name pattern ≠ true := by
            rw [Ne, mpStrmatch_exact hExact]
            rintro rfl
            exact hNew hMem
          rw [slotMatches, Bool.eq_false_iff.mpr hOther]
        · rfl
  have hLeft := List.findIdx?_map (p := id) (f := slotMatches name) (l := slots patterns names)
  have hRight := List.findIdx?_map (p := id) (f := mpStrmatch name) (l := patterns)
  rw [hSame, hRight] at hLeft
  exact hLeft.symm

/-- A pattern that matches is the first one when none before it does. -/
theorem all_take_iff {name : List Char} {first : Nat}
    (hFirst : patterns.findIdx? (mpStrmatch name) = some first) {j : Nat} {pattern : List Char}
    (hAt : patterns[j]? = some pattern) (hMatch : mpStrmatch name pattern = true) :
    ((patterns.take j).all fun earlier => !mpStrmatch name earlier) = true ↔ j = first := by
  obtain ⟨hInside, hHere, hBefore⟩ := List.findIdx?_eq_some_iff_getElem.mp hFirst
  obtain ⟨hLength, hPattern⟩ := List.getElem?_eq_some_iff.mp hAt
  have hLe : first ≤ j := by
    by_contra hLess
    have hNot := hBefore j (by omega)
    rw [hPattern] at hNot
    exact hNot hMatch
  rw [List.all_eq_true]
  constructor
  · intro hAll
    by_contra hNe
    have hMem : patterns[first] ∈ patterns.take j :=
      List.mem_take_iff_getElem.mpr ⟨first, by omega, rfl⟩
    have hNot := hAll _ hMem
    rw [hHere] at hNot
    cases hNot
  · rintro rfl earlier hMem
    obtain ⟨k, hk, rfl⟩ := List.mem_take_iff_getElem.mp hMem
    rw [Bool.not_eq_true', Bool.eq_false_iff]
    exact hBefore k (by omega)

/-- A row that is selected takes out the first pattern that matches, if that is exact. -/
theorem isTaken_append {name : List Char} {first : Nat}
    (hFirst : patterns.findIdx? (mpStrmatch name) = some first) {j : Nat} {pattern : List Char}
    (hAt : patterns[j]? = some pattern) :
    isTaken patterns (names ++ [name]) j pattern = true ↔
      isTaken patterns names j pattern = true ∨ j = first ∧ isPattern pattern = false := by
  cases hExact : isPattern pattern with
  | true => simp [isTaken, hExact]
  | false =>
      simp only [isTaken, hExact, Bool.not_false, Bool.true_and, Bool.and_eq_true,
        List.contains_iff_mem, List.mem_append, List.mem_singleton, and_true]
      by_cases hName : pattern = name
      · subst hName
        have hMatch : mpStrmatch pattern pattern = true := (mpStrmatch_exact hExact).mpr rfl
        rw [all_take_iff hFirst hAt hMatch]
        simp only [or_true, true_and]
        exact (or_iff_right_of_imp And.right).symm
      · have hOther : j ≠ first := by
          rintro rfl
          obtain ⟨hInside, hHere, -⟩ := List.findIdx?_eq_some_iff_getElem.mp hFirst
          obtain ⟨_, hPattern⟩ := List.getElem?_eq_some_iff.mp hAt
          rw [hPattern, mpStrmatch_exact hExact] at hHere
          exact hName hHere.symm
        simp only [hName, or_false, hOther]

theorem isTaken_append_same {name : List Char} {first : Nat}
    (hFirst : patterns.findIdx? (mpStrmatch name) = some first) {j : Nat} {pattern : List Char}
    (hAt : patterns[j]? = some pattern) (h : j = first → isPattern pattern = true) :
    isTaken patterns (names ++ [name]) j pattern = isTaken patterns names j pattern := by
  rw [Bool.eq_iff_iff, isTaken_append hFirst hAt]
  refine or_iff_left ?_
  rintro ⟨hSelf, hExact⟩
  rw [h hSelf] at hExact
  cases hExact

theorem selectInstance_slots {r : VrrpRow} (hNew : r.name ∉ names) :
    selectInstance r.name (slots patterns names) =
      if r.Selected patterns then some (slots patterns (names ++ [r.name])) else none := by
  have hLength : (slots patterns names).length = patterns.length := by simp [slots]
  rw [selectInstance, hLength, slots_findIdx? hNew]
  by_cases hNone : patterns = []
  · subst hNone
    have hSelected : r.Selected [] := Or.inl rfl
    rw [if_neg (by simp), if_pos hSelected]
    rfl
  · rw [if_pos (List.length_pos_iff.mpr hNone)]
    cases hFirst : patterns.findIdx? (mpStrmatch r.name) with
    | none =>
        have hOther : ¬ r.Selected patterns := by
          rintro (hEmpty | ⟨pattern, hMem, hMatch⟩)
          · exact hNone hEmpty
          · have hNot := List.findIdx?_eq_none_iff.mp hFirst pattern hMem
            rw [hMatch] at hNot
            cases hNot
        rw [if_neg hOther]
    | some first =>
        obtain ⟨hInside, hHere, -⟩ := List.findIdx?_eq_some_iff_getElem.mp hFirst
        have hSelected : r.Selected patterns := Or.inr ⟨_, List.getElem_mem hInside, hHere⟩
        rw [if_pos hSelected]
        have hStays : isTaken patterns names first patterns[first] = false := by
          rw [Bool.eq_false_iff]
          intro hTaken
          obtain ⟨hExact, hMem⟩ := isTaken_exact hTaken
          rw [← (mpStrmatch_exact hExact).mp hHere] at hMem
          exact hNew hMem
        have hSlot : (slots patterns names)[first]?.join = some patterns[first] := by
          simp [slots, hStays, hInside]
        simp only [hSlot, Option.map_some, Option.getD_some]
        cases hExact : isPattern patterns[first] with
        | true =>
            rw [if_pos rfl, Option.some_inj, slots, slots, List.mapIdx_eq_mapIdx_iff]
            intro j hj
            have hSame : isTaken patterns (names ++ [r.name]) j patterns[j] =
                isTaken patterns names j patterns[j] := by
              apply isTaken_append_same hFirst (List.getElem?_eq_getElem hj)
              rintro rfl
              exact hExact
            rw [hSame]
        | false =>
            rw [if_neg (by simp), Option.some_inj]
            apply List.ext_getElem?
            intro j
            rw [List.getElem?_set, slots, slots, List.getElem?_mapIdx, List.getElem?_mapIdx,
              List.length_mapIdx]
            by_cases hj : first = j
            · subst hj
              have hTaken : isTaken patterns (names ++ [r.name]) first patterns[first] = true :=
                (isTaken_append hFirst (List.getElem?_eq_getElem hInside)).mpr
                  (Or.inr ⟨rfl, hExact⟩)
              simp [hInside, hTaken]
            · rw [if_neg hj]
              cases hAt : patterns[j]? with
              | none => rfl
              | some pattern =>
                  have hSame : isTaken patterns (names ++ [r.name]) j pattern =
                      isTaken patterns names j pattern :=
                    isTaken_append_same hFirst hAt fun hSelf => (hj hSelf.symm).elim
                  simp only [Option.map_some, hSame]

/-- A row that is not selected takes out nothing. -/
theorem slots_not_selected {r : VrrpRow} (h : ¬ r.Selected patterns) :
    slots patterns (names ++ [r.name]) = slots patterns names := by
  rw [slots, slots, List.mapIdx_eq_mapIdx_iff]
  intro j hj
  have hSame : isTaken patterns (names ++ [r.name]) j patterns[j] =
      isTaken patterns names j patterns[j] := by
    cases hExact : isPattern patterns[j] with
    | true => simp [isTaken, hExact]
    | false =>
        have hOther : patterns[j] ≠ r.name := by
          intro hName
          have hMatch : mpStrmatch r.name patterns[j] = true :=
            (mpStrmatch_exact hExact).mpr hName.symm
          exact h (Or.inr ⟨_, List.getElem_mem hj, hMatch⟩)
        simp [isTaken, hExact, hOther]
  rw [hSame]

end Slots

section Loop

variable {net : NetSnmp} {table : VrrpTable} {beyond : Int → String} {patterns : List (List Char)}

/-- The state behind `rows`, judged in a state behind the rows `done`. -/
def Vrrp.judged (beyond : Int → String) (patterns : List (List Char)) (done rows : List VrrpRow)
    (s : Vrrp) : Vrrp :=
  { i := s.i + rows.length
    instances := slots patterns ((done ++ rows).map (·.name))
    calls := s.calls ++
      (rows.filter (·.Differs patterns)).map fun r => .warning (r.message beyond)
    indexed := s.indexed ++ (rows.filter (·.Differs patterns)).map (·.state) }

theorem Vrrp.judged_nil {done : List VrrpRow} {s : Vrrp}
    (h : s.instances = slots patterns (done.map (·.name))) :
    s.judged beyond patterns done [] = s := by
  simp [judged, ← h]

/-- Rows are judged one after the other. -/
theorem Vrrp.judged_cons (done rows : List VrrpRow) (r : VrrpRow) (s : Vrrp) :
    (s.judged beyond patterns done [r]).judged beyond patterns (done ++ [r]) rows =
      s.judged beyond patterns done (r :: rows) := by
  by_cases hDiffers : r.Differs patterns
  · simp [judged, hDiffers, Nat.add_comm, Nat.add_left_comm]
  · simp [judged, hDiffers, Nat.add_comm, Nat.add_left_comm]

/-- One pass judges a row that was not looked at before. -/
theorem vrrpPass_judged {s : Vrrp} {r : VrrpRow} (hRow : table.rows[s.i]? = some r)
    (hSlots : s.instances = slots patterns ((table.rows.take s.i).map (·.name))) :
    vrrpPass net table.vars beyond s r.name =
      s.judged beyond patterns (table.rows.take s.i) [r] := by
  obtain ⟨hInside, hAt⟩ := List.getElem?_eq_some_iff.mp hRow
  have hNew : r.name ∉ (table.rows.take s.i).map (·.name) := by
    have hUnique := table.unique
    rw [← List.take_append_drop (s.i + 1) table.rows, List.take_succ_eq_append_getElem hInside, hAt,
      List.map_append, List.map_append] at hUnique
    have hFront := (List.nodup_append.mp hUnique).1
    intro hMem
    exact (List.nodup_append.mp hFront).2.2 _ hMem _ List.mem_cons_self rfl
  rw [vrrpPass_row hRow, hSlots, selectInstance_slots hNew, Vrrp.judged, List.map_append,
    List.map_singleton]
  by_cases hSelected : r.Selected patterns
  · rw [if_pos hSelected]
    by_cases hState : r.state ≠ r.initialState
    · have hDiffers : r.Differs patterns := ⟨hSelected, hState⟩
      simp [hState, hDiffers]
    · have hSame : ¬ r.Differs patterns := fun h => hState h.2
      simp [hState, hSame]
  · have hSame : ¬ r.Differs patterns := fun h => hSelected h.1
    rw [if_neg hSelected, slots_not_selected hSelected, ← hSlots]
    simp [hSame]

/-- The loop judges the rows up to the first with a name that does not fit. -/
theorem vrrpLoop_judged (left : Nat) (s : Vrrp) (hLeft : table.rows.length ≤ s.i + left)
    (hSlots : s.instances = slots patterns ((table.rows.take s.i).map (·.name))) :
    vrrpLoop net table.vars beyond left s =
      s.judged beyond patterns (table.rows.take s.i)
        ((table.rows.drop s.i).takeWhile VrrpRow.short) := by
  induction left generalizing s with
  | zero =>
      rw [Nat.add_zero] at hLeft
      rw [List.drop_eq_nil_of_le hLeft, List.takeWhile_nil, Vrrp.judged_nil hSlots, vrrpLoop]
  | succ left ih =>
      rw [vrrpLoop, subtreeString_name]
      cases hRow : table.rows[s.i]? with
      | none =>
          rw [List.drop_eq_nil_of_le (List.getElem?_eq_none_iff.mp hRow), List.takeWhile_nil,
            Vrrp.judged_nil hSlots]
          rfl
      | some r =>
          obtain ⟨hInside, hAt⟩ := List.getElem?_eq_some_iff.mp hRow
          rw [List.drop_eq_getElem_cons hInside, hAt, List.takeWhile_cons, Option.bind_some]
          cases hShort : r.short with
          | false =>
              have hLong : ¬ r.name.length + 1 ≤ 24 := by simpa [VrrpRow.short] using hShort
              rw [if_neg hLong, if_neg (by simp), Vrrp.judged_nil hSlots]
          | true =>
              have hFits : r.name.length + 1 ≤ 24 := by simpa [VrrpRow.short] using hShort
              have hDone : table.rows.take (s.i + 1) = table.rows.take s.i ++ [r] := by
                rw [List.take_succ_eq_append_getElem hInside, hAt]
              have hI : (s.judged beyond patterns (table.rows.take s.i) [r]).i = s.i + 1 := rfl
              have hInstances : (s.judged beyond patterns (table.rows.take s.i) [r]).instances =
                  slots patterns ((table.rows.take (s.i + 1)).map (·.name)) := by
                rw [hDone]
                rfl
              have hNext := ih (s.judged beyond patterns (table.rows.take s.i) [r])
                (by rw [hI]; omega) (by rw [hI]; exact hInstances)
              rw [hI] at hNext
              rw [if_pos hFits, if_pos rfl]
              simp only
              rw [vrrpPass_judged hRow hSlots, hNext, hDone, Vrrp.judged_cons]

theorem mem_unmatched {instances : List (Option (List Char))} {call : Call} :
    call ∈ unmatched instances ↔ ∃ pattern, some pattern ∈ instances ∧
      isPattern pattern = false ∧ call = .critical (String.ofList pattern ++ " (not found)") := by
  rw [unmatched, List.mem_filterMap]
  constructor
  · rintro ⟨slot, hMem, hCall⟩
    cases slot with
    | none => cases hCall
    | some pattern =>
        simp only [Option.ite_none_left_eq_some, Option.some.injEq] at hCall
        exact ⟨pattern, hMem, Bool.eq_false_iff.mpr hCall.1, hCall.2.symm⟩
  · rintro ⟨pattern, hMem, hExact, rfl⟩
    exact ⟨some pattern, hMem, by simp [hExact]⟩

/-- A pattern stands in the array as long as it is not taken out. -/
theorem mem_slots {names : List (List Char)} {pattern : List Char} :
    some pattern ∈ slots patterns names ↔ ∃ front back, patterns = front ++ pattern :: back ∧
      isTaken patterns names front.length pattern = false := by
  rw [slots, List.mem_mapIdx]
  constructor
  · rintro ⟨j, hj, hSlot⟩
    simp only [Option.ite_none_left_eq_some, Option.some.injEq] at hSlot
    obtain ⟨hStays, rfl⟩ := hSlot
    refine ⟨patterns.take j, patterns.drop (j + 1), ?_, ?_⟩
    · rw [List.getElem_cons_drop, List.take_append_drop]
    · rw [List.length_take, Nat.min_eq_left hj.le]
      exact Bool.eq_false_iff.mpr hStays
  · rintro ⟨front, back, rfl, hStays⟩
    exact ⟨front.length, by simp, by simp [hStays]⟩

/-- What is left is an exact pattern that no seen row has as its name, or that stands
behind one that matches it. -/
theorem unmatched_slots_iff (names : List (List Char)) :
    (∃ message, .critical message ∈ unmatched (slots patterns names)) ↔
      ∃ front pattern back, patterns = front ++ pattern :: back ∧ isPattern pattern = false ∧
        (pattern ∉ names ∨ ∃ earlier ∈ front, mpStrmatch pattern earlier = true) := by
  have hTaken : ∀ (front back : List (List Char)) pattern,
      patterns = front ++ pattern :: back → isPattern pattern = false →
      (isTaken patterns names front.length pattern = false ↔
        pattern ∉ names ∨ ∃ earlier ∈ front, mpStrmatch pattern earlier = true) := by
    rintro front back pattern rfl hExact
    rw [← Bool.not_eq_true, isTaken, hExact, List.take_left]
    simp [← imp_iff_not_or]
  constructor
  · rintro ⟨message, hMem⟩
    obtain ⟨pattern, hSlot, hExact, -⟩ := mem_unmatched.mp hMem
    obtain ⟨front, back, hSplit, hStays⟩ := mem_slots.mp hSlot
    exact ⟨front, pattern, back, hSplit, hExact,
      (hTaken front back pattern hSplit hExact).mp hStays⟩
  · rintro ⟨front, pattern, back, hSplit, hExact, hLeft⟩
    have hStays := (hTaken front back pattern hSplit hExact).mpr hLeft
    exact ⟨_, mem_unmatched.mpr ⟨pattern, mem_slots.mpr ⟨front, back, hSplit, hStays⟩, hExact, rfl⟩⟩

theorem left_iff_unmatched :
    (∃ message, .critical message ∈ unmatched (slots patterns (table.seen.map (·.name)))) ↔
      Left table patterns := by
  rw [unmatched_slots_iff, Left]
  simp only [List.mem_map, not_exists, not_and]

/-- The messages of a run that judged the seen rows. -/
def vrrpCalls (beyond : Int → String) (table : VrrpTable) (patterns : List (List Char)) :
    List Call :=
  ((table.seen.filter (·.Differs patterns)).map fun r => .warning (r.message beyond)) ++
    unmatched (slots patterns (table.seen.map (·.name)))

theorem vrrpCalls_critical_iff :
    criticalMessages (vrrpCalls beyond table patterns) = [] ↔ ¬ Left table patterns := by
  rw [criticalMessages_eq_nil_iff, ← left_iff_unmatched, not_exists]
  refine forall_congr' fun message => ?_
  simp [vrrpCalls]

theorem vrrpCalls_warning_iff :
    warningMessages (vrrpCalls beyond table patterns) = [] ↔
      ¬ ∃ r ∈ table.seen, r.Differs patterns := by
  rw [warningMessages_eq_nil_iff]
  constructor
  · rintro hNone ⟨r, hMem, hDiffers⟩
    apply hNone (r.message beyond)
    rw [vrrpCalls, List.mem_append]
    left
    exact List.mem_map.mpr ⟨r, List.mem_filter.mpr ⟨hMem, by simpa using hDiffers⟩, rfl⟩
  · intro hNone message hMem
    rw [vrrpCalls, List.mem_append] at hMem
    rcases hMem with hWarning | hCritical
    · obtain ⟨r, hFilter, -⟩ := List.mem_map.mp hWarning
      obtain ⟨hSeen, hDiffers⟩ := List.mem_filter.mp hFilter
      exact hNone ⟨r, hSeen, by simpa using hDiffers⟩
    · obtain ⟨pattern, -, -, hCall⟩ := mem_unmatched.mp hCritical
      cases hCall

theorem checkKeepalivedVrrp_eq (showPerfdata : Bool) :
    checkKeepalivedVrrp net table.vars beyond showPerfdata patterns =
      (if patterns = [] ∧ table.seen = [] then
          ("UNKNOWN - Keepalived VRRP: No Instances found.\n", Status.unknown.code)
        else
          mpExit "Keepalived VRRP"
            (run (vrrpCalls beyond table patterns) (initial showPerfdata none)),
        (table.seen.filter (·.Differs patterns)).map (·.state)) := by
  have hSize : table.rows.length ≤ table.vars.length := by
    have hLength := congrArg List.length table.names
    rw [List.length_map, List.length_map] at hLength
    rw [← hLength]
    exact List.length_filter_le _ _
  have hLoop : vrrpLoop net table.vars beyond table.vars.length (.start patterns) =
      { i := table.seen.length
        instances := slots patterns (table.seen.map (·.name))
        calls := (table.seen.filter (·.Differs patterns)).map fun r => .warning (r.message beyond)
        indexed := (table.seen.filter (·.Differs patterns)).map (·.state) } := by
    have hSlots : (Vrrp.start patterns).instances =
        slots patterns ((table.rows.take (Vrrp.start patterns).i).map (·.name)) := by
      simp [Vrrp.start, slots_nil]
    rw [vrrpLoop_judged _ _ (by simpa [Vrrp.start] using hSize) hSlots]
    simp [Vrrp.judged, Vrrp.start, VrrpTable.seen]
  have hSlots : (slots patterns (table.seen.map (·.name))).length = patterns.length := by
    simp [slots]
  rw [checkKeepalivedVrrp]
  simp only [hLoop, hSlots]
  by_cases hNone : patterns = [] ∧ table.seen = []
  · simp [hNone]
  · have hCount : (if patterns.length > 0 then patterns.length else table.seen.length) ≠ 0 := by
      rw [not_and_or] at hNone
      split_ifs with hPatterns
      · omega
      · have hEmpty : patterns = [] := List.eq_nil_of_length_eq_zero (by omega)
        rcases hNone with hSome | hSome
        · exact absurd hEmpty hSome
        · exact List.length_pos_iff.mpr hSome |>.ne'
    rw [if_neg hCount, if_neg hNone, vrrpCalls]

/-- The exit code: a pattern that is left over decides before a row that differs. -/
def ExitsWith (table : VrrpTable) (patterns : List (List Char)) (code : Int) : Prop :=
  patterns = [] ∧ table.seen = [] ∧ code = 3 ∨
    ¬ (patterns = [] ∧ table.seen = []) ∧
      (Left table patterns ∧ code = 2 ∨
        ¬ Left table patterns ∧ (∃ r ∈ table.seen, r.Differs patterns) ∧ code = 1 ∨
        ¬ Left table patterns ∧ (¬ ∃ r ∈ table.seen, r.Differs patterns) ∧ code = 0)

theorem checkKeepalivedVrrp_code (showPerfdata : Bool) :
    ExitsWith table patterns
      (checkKeepalivedVrrp net table.vars beyond showPerfdata patterns).1.2 := by
  rw [checkKeepalivedVrrp_eq]
  by_cases hNone : patterns = [] ∧ table.seen = []
  · left
    rw [if_pos hNone]
    exact ⟨hNone.1, hNone.2, rfl⟩
  · right
    refine ⟨hNone, ?_⟩
    rw [if_neg hNone, mpExit_code, exitStatus_code]
    by_cases hLeft : Left table patterns
    · have hCritical : criticalMessages (vrrpCalls beyond table patterns) ≠ [] := fun hNil =>
        vrrpCalls_critical_iff.mp hNil hLeft
      exact Or.inl ⟨hLeft, if_pos hCritical⟩
    · have hCritical : criticalMessages (vrrpCalls beyond table patterns) = [] :=
        vrrpCalls_critical_iff.mpr hLeft
      rw [if_neg (not_not.mpr hCritical)]
      by_cases hDiffers : ∃ r ∈ table.seen, r.Differs patterns
      · have hWarning : warningMessages (vrrpCalls beyond table patterns) ≠ [] := fun hNil =>
          vrrpCalls_warning_iff.mp hNil hDiffers
        exact Or.inr (Or.inl ⟨hLeft, hDiffers, if_pos hWarning⟩)
      · have hWarning : warningMessages (vrrpCalls beyond table patterns) = [] :=
          vrrpCalls_warning_iff.mpr hDiffers
        exact Or.inr (Or.inr ⟨hLeft, hDiffers, if_neg (not_not.mpr hWarning)⟩)

end Loop

/-- When the selected rows are judged rightly: a selected row that differs is seen or shows
by a pattern that is left over, a pattern is left over only when something is wrong, the
first row is seen where all are selected, patterns that select no row have an exact one
among them, and the states that are named have a name. -/
structure SeesInstances (table : VrrpTable) (patterns : List (List Char)) : Prop where
  wrong : (∃ r ∈ table.rows, r.Differs patterns) →
    (∃ r ∈ table.seen, r.Differs patterns) ∨ Left table patterns
  left : Left table patterns → (∃ r ∈ table.rows, r.Differs patterns) ∨ Missing table patterns
  first : patterns = [] → table.rows ≠ [] → table.seen ≠ []
  exact : patterns ≠ [] → (∃ r ∈ table.rows, r.Selected patterns) ∨ Missing table patterns
  named : ∀ r ∈ table.seen, r.Differs patterns → 0 ≤ r.state ∧ r.state ≤ 2

section Judgement

variable {table : VrrpTable} {patterns : List (List Char)}

theorem mem_rows_of_seen {r : VrrpRow} (h : r ∈ table.seen) : r ∈ table.rows :=
  (List.takeWhile_prefix _).subset h

/-- A missing pattern is left over. -/
theorem left_of_missing (h : Missing table patterns) : Left table patterns := by
  obtain ⟨pattern, hMem, hExact, hNone⟩ := h
  obtain ⟨front, back, hSplit⟩ := List.append_of_mem hMem
  exact ⟨front, pattern, back, hSplit, hExact, Or.inl fun r hr => hNone r (mem_rows_of_seen hr)⟩

/-- An exact pattern that is not missing selects a row. -/
theorem selected_of_left (h : Left table patterns) :
    (∃ r ∈ table.rows, r.Selected patterns) ∨ Missing table patterns := by
  obtain ⟨front, pattern, back, rfl, hExact, -⟩ := h
  by_cases hRow : ∃ r ∈ table.rows, r.name = pattern
  · obtain ⟨r, hMem, hName⟩ := hRow
    left
    exact ⟨r, hMem, Or.inr ⟨pattern, by simp, (mpStrmatch_exact hExact).mpr hName⟩⟩
  · right
    refine ⟨pattern, by simp, hExact, ?_⟩
    intro r hMem hName
    exact hRow ⟨r, hMem, hName⟩

theorem differs_of_seen (h : ∃ r ∈ table.seen, r.Differs patterns) :
    ∃ r ∈ table.rows, r.Differs patterns := by
  obtain ⟨r, hSeen, hDiffers⟩ := h
  exact ⟨r, mem_rows_of_seen hSeen, hDiffers⟩

theorem patterns_ne_nil_of_left (h : Left table patterns) : patterns ≠ [] := by
  obtain ⟨front, pattern, back, rfl, -⟩ := h
  simp

/-- Without patterns every row is selected. -/
theorem selected_iff_rows (h : patterns = []) :
    (∃ r ∈ table.rows, r.Selected patterns) ↔ table.rows ≠ [] := by
  constructor
  · rintro ⟨r, hMem, -⟩
    exact List.ne_nil_of_mem hMem
  · intro hRows
    obtain ⟨r, hMem⟩ := List.exists_mem_of_ne_nil _ hRows
    exact ⟨r, hMem, Or.inl h⟩

variable {code : Int} {indexed : List Int}

theorem sees_of_judges (hCode : ExitsWith table patterns code)
    (hNamed : ∀ r ∈ table.seen, r.Differs patterns → 0 ≤ r.state ∧ r.state ≤ 2)
    (h : JudgesInstances table patterns code indexed) : SeesInstances table patterns where
  wrong hWrong := by
    have hBad : code = 1 ∨ code = 2 := h.wrong (Or.inl hWrong)
    rcases hCode with ⟨-, -, rfl⟩ | ⟨-, ⟨hLeft, -⟩ | ⟨-, hDiffers, -⟩ | ⟨-, -, rfl⟩⟩
    · omega
    · exact Or.inr hLeft
    · exact Or.inl hDiffers
    · omega
  left hLeft := by
    by_contra hRight
    rw [not_or] at hRight
    have hFine : code = 0 :=
      h.fine ((selected_of_left hLeft).resolve_right hRight.2) hRight.1 hRight.2
    rcases hCode with ⟨hNone, -⟩ | ⟨-, ⟨-, rfl⟩ | ⟨hNot, -⟩ | ⟨hNot, -⟩⟩
    · exact patterns_ne_nil_of_left hLeft hNone
    · omega
    · exact hNot hLeft
    · exact hNot hLeft
  first hAll hRows hUnseen := by
    have hUnknown : code = 3 := by
      rcases hCode with ⟨-, -, hCode⟩ | ⟨hNot, -⟩
      · exact hCode
      · exact (hNot ⟨hAll, hUnseen⟩).elim
    have hFound : ¬ Missing table patterns := fun hMissing =>
      patterns_ne_nil_of_left (left_of_missing hMissing) hAll
    by_cases hWrong : ∃ r ∈ table.rows, r.Differs patterns
    · have hBad : code = 1 ∨ code = 2 := h.wrong (Or.inl hWrong)
      omega
    · have hFine : code = 0 := h.fine ((selected_iff_rows hAll).mpr hRows) hWrong hFound
      omega
  exact hPatterns := by
    by_contra hNone
    rw [not_or] at hNone
    have hUnknown : code = 3 := h.none hNone.1 hNone.2
    rcases hCode with ⟨hNil, -⟩ | ⟨-, ⟨-, rfl⟩ | ⟨-, -, rfl⟩ | ⟨-, -, rfl⟩⟩
    · exact hPatterns hNil
    · omega
    · omega
    · omega
  named := hNamed

theorem judges_of_sees (hCode : ExitsWith table patterns code)
    (hIndexed : ∀ n ∈ indexed, 0 ≤ n ∧ n ≤ 2) (h : SeesInstances table patterns) :
    JudgesInstances table patterns code indexed where
  wrong hBad := by
    have hShows : (∃ r ∈ table.seen, r.Differs patterns) ∨ Left table patterns := by
      rcases hBad with hWrong | hMissing
      · exact h.wrong hWrong
      · exact Or.inr (left_of_missing hMissing)
    rcases hCode with ⟨hNil, hUnseen, -⟩ | ⟨-, ⟨-, hCode⟩ | ⟨-, -, hCode⟩ | ⟨hNot, hSame, -⟩⟩
    · rcases hShows with ⟨r, hSeen, -⟩ | hLeft
      · rw [hUnseen] at hSeen
        cases hSeen
      · exact (patterns_ne_nil_of_left hLeft hNil).elim
    · exact Or.inr hCode
    · exact Or.inl hCode
    · exact (hShows.elim hSame hNot).elim
  none hNone hFound := by
    have hAll : patterns = [] := by
      by_contra hPatterns
      exact (h.exact hPatterns).elim hNone hFound
    have hRows : table.rows = [] := by
      rw [selected_iff_rows hAll, not_not] at hNone
      exact hNone
    have hUnseen : table.seen = [] := by
      rw [VrrpTable.seen, hRows]
      rfl
    rcases hCode with ⟨-, -, hCode⟩ | ⟨hNot, -⟩
    · exact hCode
    · exact (hNot ⟨hAll, hUnseen⟩).elim
  fine hSome hSame hFound := by
    rcases hCode with ⟨hAll, hUnseen, -⟩ | ⟨-, ⟨hLeft, -⟩ | ⟨-, hDiffers, -⟩ | ⟨-, -, hCode⟩⟩
    · exact (h.first hAll ((selected_iff_rows hAll).mp hSome) hUnseen).elim
    · exact ((h.left hLeft).elim hSame hFound).elim
    · exact (hSame (differs_of_seen hDiffers)).elim
    · exact hCode
  stateName := hIndexed

end Judgement

/-- The selected instances are judged rightly exactly under these conditions. -/
theorem checkKeepalivedVrrp_judges_iff (net : NetSnmp) (table : VrrpTable)
    (beyond : Int → String) (showPerfdata : Bool) (patterns : List (List Char)) :
    JudgesInstances table patterns
        (checkKeepalivedVrrp net table.vars beyond showPerfdata patterns).1.2
        (checkKeepalivedVrrp net table.vars beyond showPerfdata patterns).2 ↔
      SeesInstances table patterns := by
  have hCode : ExitsWith table patterns
      (checkKeepalivedVrrp net table.vars beyond showPerfdata patterns).1.2 :=
    checkKeepalivedVrrp_code showPerfdata
  have hIndexed : (checkKeepalivedVrrp net table.vars beyond showPerfdata patterns).2 =
      (table.seen.filter (·.Differs patterns)).map (·.state) := by
    rw [checkKeepalivedVrrp_eq]
  have hNamed : (∀ n ∈ (table.seen.filter (·.Differs patterns)).map (·.state), 0 ≤ n ∧ n ≤ 2) ↔
      ∀ r ∈ table.seen, r.Differs patterns → 0 ≤ r.state ∧ r.state ≤ 2 := by
    simp only [List.forall_mem_map, List.mem_filter, decide_eq_true_eq, and_imp]
  rw [hIndexed]
  constructor
  · intro hJudges
    exact sees_of_judges hCode (hNamed.mp hJudges.stateName) hJudges
  · intro hSees
    exact judges_of_sees hCode (hNamed.mpr hSees.named) hSees

/-- A name of one letter, so often. -/
def longName (length : Nat) : List UInt8 := List.replicate length 97

/-- An instance in its initial state, and one with a name of 24 characters that is not. -/
def backupVars : List Variable :=
  [⟨vrrpInstanceName ++ [1], .octetStr, longName 1⟩,
    ⟨vrrpInstanceName ++ [2], .octetStr, longName 24⟩,
    ⟨vrrpInstanceVirtualRouterId ++ [1], .gauge, [51, 0, 0, 0, 0, 0, 0, 0]⟩,
    ⟨vrrpInstanceVirtualRouterId ++ [2], .gauge, [52, 0, 0, 0, 0, 0, 0, 0]⟩,
    ⟨vrrpInstanceState ++ [1], .integer, [2, 0, 0, 0, 0, 0, 0, 0]⟩,
    ⟨vrrpInstanceState ++ [2], .integer, [1, 0, 0, 0, 0, 0, 0, 0]⟩,
    ⟨vrrpInstanceInitialState ++ [1], .integer, [2, 0, 0, 0, 0, 0, 0, 0]⟩,
    ⟨vrrpInstanceInitialState ++ [2], .integer, [2, 0, 0, 0, 0, 0, 0, 0]⟩]

def backupRows : List VrrpRow :=
  [⟨List.replicate 1 'a', 51, 2, 2⟩, ⟨List.replicate 24 'a', 52, 1, 2⟩]

theorem backup_names :
    (column vrrpInstanceName backupVars).map stringCell = backupRows.map fun r => some r.name := by
  decide

theorem backup_ids : (column vrrpInstanceVirtualRouterId backupVars).map (longCell .gauge) =
    backupRows.map fun r => some r.id := by
  decide

theorem backup_states : (column vrrpInstanceState backupVars).map (longCell .integer) =
    backupRows.map fun r => some r.state := by
  decide

theorem backup_initialStates :
    (column vrrpInstanceInitialState backupVars).map (longCell .integer) =
      backupRows.map fun r => some r.initialState := by
  decide

theorem backup_unique : (backupRows.map (·.name)).Nodup := by
  decide

def backupTable : VrrpTable where
  vars := backupVars
  rows := backupRows
  names := backup_names
  ids := backup_ids
  states := backup_states
  initialStates := backup_initialStates
  unique := backup_unique

/-- The exit is OK, though all instances are to be checked. -/
theorem checkKeepalivedVrrp_misses :
    ¬ JudgesInstances backupTable []
      (checkKeepalivedVrrp NetSnmp.reference backupTable.vars (fun _ => "") false []).1.2
      (checkKeepalivedVrrp NetSnmp.reference backupTable.vars (fun _ => "") false []).2 := by
  intro hJudges
  have hBad := hJudges.wrong (by left; decide)
  rw [checkKeepalivedVrrp_eq] at hBad
  revert hBad
  decide

end MonitoringPlug.Snmp
