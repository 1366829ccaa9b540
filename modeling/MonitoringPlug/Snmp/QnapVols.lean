import MonitoringPlug.Common.Severity
import MonitoringPlug.Snmp.Row
import MonitoringPlug.Utils

/-! `check_qnap_vols` from the fetched table on: the loop over the volumes and the
exit. -/
namespace MonitoringPlug.Snmp

open MonitoringPlug.Common MonitoringPlug.Utils

def qnapVolStatus : Oid := [1, 3, 6, 1, 4, 1, 24681, 1, 2, 17, 1, 6]

def qnapVolName : Oid := [1, 3, 6, 1, 4, 1, 24681, 1, 2, 17, 1, 2]

def ready : List Char := ['R', 'e', 'a', 'd', 'y']

def inDegradedMode : List Char :=
  ['I', 'n', ' ', 'd', 'e', 'g', 'r', 'a', 'd', 'e', 'd', ' ', 'm', 'o', 'd', 'e']

/-- The variables of the loop. `volName` is the string in its buffer, at first whatever
the new buffer held. -/
structure Vols where
  i : Nat
  status : Status
  volName : List Char
  output : Option (List Char)
deriving DecidableEq, Repr

def Vols.start (volName : List Char) : Vols :=
  { i := 0, status := .ok, volName := volName, output := none }

/-- The rest of the body for a status that was fetched. -/
def volsPass (net : NetSnmp) (tableState : List Variable) (s : Vols) (volState : List Char) :
    Vols :=
  if volState = ready then { s with i := s.i + 1 }
  else
    let volName := (subtreeString net tableState qnapVolName s.i 64).getD s.volName
    { i := s.i + 1
      volName := volName
      output := mpStrcatSpace (mpStrcatSpace (mpStrcatComma s.output (some volName))
        (some ['i', 's'])) (some volState)
      status := if s.status = .critical ∨ volState = inDegradedMode then .critical else .warning }

/-- The loop for at most so many volumes as are left of `table_state.size`. -/
def volsLoop (net : NetSnmp) (tableState : List Variable) : Nat → Vols → Vols
  | 0, s => s
  | left + 1, s =>
      match subtreeString net tableState qnapVolStatus s.i 24 with
      | none => s
      | some volState => volsLoop net tableState left (volsPass net tableState s volState)

/-- The exit state with the formatted message. -/
def checkQnapVols (net : NetSnmp) (tableState : List Variable) (volName : List Char) :
    Status × String :=
  let s := volsLoop net tableState tableState.length (.start volName)
  let output := "QNAP: " ++ String.ofList (s.output.getD ['(', 'n', 'u', 'l', 'l', ')'])
  if s.i = 0 then (.unknown, "QNAP: No Volumes found.")
  else if s.status = .ok then (.ok, "QNAP: All Volumes are \"Ready\"")
  else if s.status = .warning then (.warning, output)
  else (.critical, output)

/-- The volumes of a table: the cells of the status column, in order. -/
def volumes (tableState : List Variable) : List Variable := column qnapVolStatus tableState

/-- A status that fits the buffer: a string of at most 23 characters. -/
def StatusFits (v : Variable) : Prop := v.type = .octetStr ∧ v.val.length + 1 ≤ 24

instance (v : Variable) : Decidable (StatusFits v) := inferInstanceAs (Decidable (_ ∧ _))

/-- The volumes in front of the first with a status that does not fit. -/
def seenVolumes (tableState : List Variable) : List Variable :=
  (volumes tableState).takeWhile fun v => StatusFits v

/-- The exit hides no volume that is not ready. -/
structure ShowsVolumes (tableState : List Variable) (status : Status) : Prop where
  notReady : (∃ v ∈ volumes tableState, text v.val ≠ ready) → status ≠ .ok
  degraded : (∃ v ∈ volumes tableState, inDegradedMode <+: text v.val) → status = .critical

/-- What a volume contributes to the exit state. -/
def volumeStatus (v : Variable) : Status :=
  if text v.val = ready then .ok
  else if text v.val = inDegradedMode then .critical
  else .warning

section Loop

variable {net : NetSnmp} {tableState : List Variable}

theorem subtreeString_volumes (i : Nat) :
    subtreeString net tableState qnapVolStatus i 24 =
      ((volumes tableState)[i]?).bind fun v =>
        if StatusFits v then some (text v.val) else none := by
  rw [subtreeString, nthMatch_column, ← volumes]
  cases (volumes tableState)[i]? with
  | none => rfl
  | some v => rfl

theorem volumeStatus_le (v : Variable) : volumeStatus v ≤ .critical := by
  rw [volumeStatus]
  split_ifs <;> decide

/-- One pass merges the state of the volume. -/
theorem volsPass_status (s : Vols) (v : Variable) (h : s.status ≤ .critical) :
    (volsPass net tableState s (text v.val)).status = max s.status (volumeStatus v) := by
  rw [volsPass, volumeStatus]
  by_cases hReady : text v.val = ready
  · rw [if_pos hReady, if_pos hReady]
    exact (max_ok _).symm
  · rw [if_neg hReady, if_neg hReady]
    by_cases hDegraded : text v.val = inDegradedMode
    · simp only [hDegraded, or_true, if_true]
      exact (max_critical h).symm
    · simp only [hDegraded, or_false, if_false]
      rw [max_warning h]
      by_cases hCritical : s.status = .critical
      · simp [hCritical]
      · simp [hCritical]

theorem volsPass_i (s : Vols) (volState : List Char) :
    (volsPass net tableState s volState).i = s.i + 1 := by
  rw [volsPass]
  split <;> rfl

/-- The loop goes through the volumes up to the first with a status that does not fit,
and merges their states. -/
theorem volsLoop_spec (left : Nat) (s : Vols) (hLeft : (volumes tableState).length ≤ s.i + left)
    (h : s.status ≤ .critical) :
    (volsLoop net tableState left s).i =
        s.i + (((volumes tableState).drop s.i).takeWhile fun v => StatusFits v).length ∧
      (volsLoop net tableState left s).status = max s.status
        (worst ((((volumes tableState).drop s.i).takeWhile fun v => StatusFits v).map
          volumeStatus)) := by
  induction left generalizing s with
  | zero =>
      rw [Nat.add_zero] at hLeft
      rw [List.drop_eq_nil_of_le hLeft]
      exact ⟨rfl, (max_ok _).symm⟩
  | succ left ih =>
      rw [volsLoop, subtreeString_volumes]
      cases hRow : (volumes tableState)[s.i]? with
      | none =>
          rw [List.drop_eq_nil_of_le (List.getElem?_eq_none_iff.mp hRow)]
          exact ⟨rfl, (max_ok _).symm⟩
      | some v =>
          obtain ⟨hInside, hAt⟩ := List.getElem?_eq_some_iff.mp hRow
          rw [List.drop_eq_getElem_cons hInside, hAt, List.takeWhile_cons, Option.bind_some]
          by_cases hFits : StatusFits v
          · obtain ⟨hI, hStatus⟩ := ih (volsPass net tableState s (text v.val))
              (by rw [volsPass_i]; omega)
              (by rw [volsPass_status s v h]; exact max_le h (volumeStatus_le v))
            rw [if_pos hFits, if_pos (decide_eq_true hFits), List.map_cons, worst_cons,
              List.length_cons]
            simp only
            rw [hI, hStatus, volsPass_i, volsPass_status s v h, max_assoc]
            exact ⟨by omega, rfl⟩
          · rw [if_neg hFits, if_neg (by simpa using hFits)]
            exact ⟨rfl, (max_ok _).symm⟩

theorem volumeStatus_eq_ok_iff (v : Variable) : volumeStatus v = .ok ↔ text v.val = ready := by
  rw [volumeStatus]
  split_ifs with hReady hDegraded <;> simp [hReady]

theorem volumeStatus_eq_critical_iff (v : Variable) :
    volumeStatus v = .critical ↔ text v.val = inDegradedMode := by
  rw [volumeStatus]
  split_ifs with hReady hDegraded
  · rw [hReady]
    decide
  · simp [hDegraded]
  · simp [hDegraded]

theorem volumeStatus_cases (v : Variable) :
    volumeStatus v = .ok ∨ volumeStatus v = .warning ∨ volumeStatus v = .critical := by
  rw [volumeStatus]
  split_ifs <;> simp

theorem worst_volumes_cases (vars : List Variable) :
    worst (vars.map volumeStatus) = .ok ∨ worst (vars.map volumeStatus) = .warning ∨
      worst (vars.map volumeStatus) = .critical := by
  by_cases hOk : worst (vars.map volumeStatus) = .ok
  · exact Or.inl hOk
  · obtain ⟨v, -, hStatus⟩ := List.mem_map.mp (worst_mem hOk)
    rw [← hStatus]
    exact volumeStatus_cases v

/-- The exit state is the worst of the seen volumes, and UNKNOWN without any. -/
theorem checkQnapVols_status (volName : List Char) :
    (checkQnapVols net tableState volName).1 =
      if seenVolumes tableState = [] then .unknown
      else worst ((seenVolumes tableState).map volumeStatus) := by
  have hSize : (volumes tableState).length ≤ 0 + tableState.length := by
    rw [Nat.zero_add]
    exact List.length_filter_le _ _
  obtain ⟨hI, hStatus⟩ := @volsLoop_spec net tableState tableState.length (.start volName) hSize
    (Status.ok_le _)
  have hStart : (volumes tableState).drop (Vols.start volName).i = volumes tableState := rfl
  rw [hStart, ← seenVolumes] at hI hStatus
  have hWorst : (volsLoop net tableState tableState.length (.start volName)).status =
      worst ((seenVolumes tableState).map volumeStatus) := by
    rw [hStatus]
    exact ok_max _
  rw [checkQnapVols]
  simp only [hWorst]
  by_cases hNone : seenVolumes tableState = []
  · rw [if_pos hNone, if_pos (by rw [hI, hNone]; rfl)]
  · have hSome : (volsLoop net tableState tableState.length (.start volName)).i ≠ 0 := by
      have hPos := List.length_pos_iff.mpr hNone
      omega
    rw [if_neg hNone, if_neg hSome]
    rcases worst_volumes_cases (seenVolumes tableState) with hOk | hWarning | hCritical
    · rw [hOk]
      rfl
    · rw [hWarning]
      rfl
    · rw [hCritical]
      rfl

theorem checkQnapVols_ok_iff (volName : List Char) :
    (checkQnapVols net tableState volName).1 = .ok ↔
      seenVolumes tableState ≠ [] ∧ ∀ v ∈ seenVolumes tableState, text v.val = ready := by
  rw [checkQnapVols_status]
  split_ifs with hNone
  · simp [hNone]
  · rw [worst_eq_ok_iff, List.forall_mem_map]
    simp only [volumeStatus_eq_ok_iff, ne_eq, hNone, not_false_eq_true, true_and]

theorem checkQnapVols_critical_iff (volName : List Char) :
    (checkQnapVols net tableState volName).1 = .critical ↔
      ∃ v ∈ seenVolumes tableState, text v.val = inDegradedMode := by
  rw [checkQnapVols_status]
  split_ifs with hNone
  · simp [hNone]
  · constructor
    · intro hCritical
      have hProblem : worst ((seenVolumes tableState).map volumeStatus) ≠ .ok := by
        rw [hCritical]
        decide
      obtain ⟨v, hSeen, hStatus⟩ := List.mem_map.mp (worst_mem hProblem)
      exact ⟨v, hSeen, (volumeStatus_eq_critical_iff v).mp (hStatus.trans hCritical)⟩
    · rintro ⟨v, hSeen, hText⟩
      have hStatus := (volumeStatus_eq_critical_iff v).mpr hText
      apply le_antisymm
      · apply worst_le
        rw [List.forall_mem_map]
        intro v _
        exact volumeStatus_le v
      · rw [← hStatus]
        exact le_worst (List.mem_map_of_mem hSeen)

end Loop

/-- Volumes are hidden exactly when the loop ends early at a status that does not fit
and has seen nothing wrong before, or no degraded volume in just these words. -/
theorem checkQnapVols_shows_iff (net : NetSnmp) (tableState : List Variable)
    (volName : List Char) :
    ShowsVolumes tableState (checkQnapVols net tableState volName).1 ↔
      ((∀ v ∈ volumes tableState, text v.val = ready) ∨ seenVolumes tableState = [] ∨
        ∃ v ∈ seenVolumes tableState, text v.val ≠ ready) ∧
      ((∃ v ∈ volumes tableState, inDegradedMode <+: text v.val) →
        ∃ v ∈ seenVolumes tableState, text v.val = inDegradedMode) := by
  have hNotReady : ((∃ v ∈ volumes tableState, text v.val ≠ ready) →
      (checkQnapVols net tableState volName).1 ≠ .ok) ↔
      ((∀ v ∈ volumes tableState, text v.val = ready) ∨ seenVolumes tableState = [] ∨
        ∃ v ∈ seenVolumes tableState, text v.val ≠ ready) := by
    rw [ne_eq, checkQnapVols_ok_iff, imp_iff_not_or, not_and_or, not_not]
    simp only [not_exists, not_forall, not_and, ne_eq, not_not, exists_prop]
  rw [← hNotReady, ← @checkQnapVols_critical_iff net tableState volName]
  constructor
  · intro hShows
    exact ⟨hShows.notReady, hShows.degraded⟩
  · rintro ⟨hReady, hDegraded⟩
    exact ⟨hReady, hDegraded⟩

/-- A table of one column of status strings. -/
def statusTable (statuses : List (List Char)) : List Variable :=
  statuses.mapIdx fun i status =>
    { name := qnapVolStatus ++ [i + 1], type := .octetStr
      val := status.map fun c => UInt8.ofNat c.toNat }

/-- A rebuilding volume with a status of 25 characters behind a ready one. -/
theorem checkQnapVols_hides :
    ¬ ShowsVolumes (statusTable [ready, inDegradedMode ++ [',', ' ', 'r', 'e', 'b', 'u', 'i', 'l',
        'd']])
      (checkQnapVols NetSnmp.reference (statusTable [ready, inDegradedMode ++
        [',', ' ', 'r', 'e', 'b', 'u', 'i', 'l', 'd']]) []).1 := by
  intro hShows
  apply hShows.notReady
  · decide
  · decide

end MonitoringPlug.Snmp
