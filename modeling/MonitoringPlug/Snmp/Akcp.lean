import Mathlib.Data.List.Flatten
import MonitoringPlug.Common.Severity
import MonitoringPlug.Perfdata.Report

/-! `check_akcp`: the temperature and the humidity of every selected sensor are queried,
and their states are merged in this order. -/
namespace MonitoringPlug.Snmp

open CText MonitoringPlug.Common MonitoringPlug.Utils MonitoringPlug.Args MonitoringPlug.Perfdata

/-- The variables of a query, whatever they were before where the agent has no value. -/
structure SensorReading where
  name : Option (List Char)
  value : Int
  state : Int
  online : Int
  warnHigh : Int
  critHigh : Int
  warnLow : Int
  critLow : Int

/-- A temperature comes with its unit. -/
structure TempReading extends SensorReading where
  tempUnit : Int

/-- What the two queries of an index give, and none where a query fails. -/
structure AkcpAgent where
  temp : Int → Option TempReading
  hum : Int → Option SensorReading

/-- `--name`, `--temp` and `--hum`. -/
structure AkcpOptions where
  name : Bool
  temp : Bool
  hum : Bool

def initialMode (given : Bool) : Int := if given then 1 else -1

def AkcpOptions.sensorTemp (options : AkcpOptions) : Int :=
  if initialMode options.temp > 0 ∨ initialMode options.hum > 0 then initialMode options.temp + 1
  else initialMode options.temp

def AkcpOptions.sensorHum (options : AkcpOptions) : Int :=
  if initialMode options.temp > 0 ∨ initialMode options.hum > 0 then initialMode options.hum + 1
  else initialMode options.hum

/-- `degreeeUnit`, and what a read outside of it finds. -/
def degreeeUnit (beyond : Int → List Char) (unit : Int) : List Char :=
  if unit = 0 then ['F'] else if unit = 1 then ['C'] else beyond unit

/-- The variables of `main` and the globals it changes. -/
structure AkcpState where
  state : Status
  output : Option (List Char)
  perfdata : Option (List Char)
  sensorFound : Nat

def AkcpState.start : AkcpState :=
  { state := .ok, output := none, perfdata := none, sensorFound := 0 }

def AkcpState.comment (s : AkcpState) (text : List Char) : AkcpState :=
  { s with output := mpStrcatComma s.output (some text) }

/-- `state = state == STATE_OK ? status : state;` -/
def AkcpState.unlessProblem (s : AkcpState) (status : Status) : AkcpState :=
  { s with state := if s.state = .ok then status else s.state }

/-- The loop is left by `break`, or a read leaves a string. -/
inductive AkcpLeave where
  | broken (s : AkcpState)
  | undefined

/-- How `%s` prints a pointer. -/
def printed (text : Option (List Char)) : List Char := text.getD "(null)".toList

/-- What the texts of a block say: the quantity, its unit, and the front of the label. -/
structure SensorTexts where
  quantity : List Char
  unit : List Char
  label : List Char

section Block

variable (options : AkcpOptions) (explicit showPerfdata : Bool) (texts : SensorTexts)

/-- The name of the sensor at a place of the list. -/
def sensorName (i : Nat) (reading : SensorReading) : Option (List Char) :=
  if options.name then reading.name else some (formatLong (i + 1))

/-- The `switch` on the state of a sensor that is online. -/
def judgeOnline (name : List Char) (reading : SensorReading) (s : AkcpState) : AkcpState :=
  let text := texts.quantity ++ ' ' :: (name ++ ':' :: ' ' :: (formatLong reading.value ++
    texts.unit))
  if reading.state = 2 then s.comment text
  else if reading.state = 3 ∨ reading.state = 5 then
    (s.unlessProblem .warning).comment ("Warning ".toList ++ text)
  else { s with state := .critical }.comment ("Critical ".toList ++ text)

def reportReading (name : List Char) (reading : SensorReading) (s : AkcpState) :
    Except AkcpLeave AkcpState :=
  let threshold :=
    { warning := some { defaultRange with
        start := reading.warnLow, end_ := reading.warnHigh }
      critical := some { defaultRange with
        start := reading.critLow, end_ := reading.critHigh } }
  if showPerfdata then
    match mpPerfdataInt (texts.label ++ name) reading.value texts.unit (some threshold)
        showPerfdata s.perfdata with
    | none => .error .undefined
    | some reported => .ok { s with perfdata := reported.perfdata }
  else .ok s

/-- The text for a sensor that is not online. `explicit` is `sensors > 0`. -/
def noteMissing (name text : List Char) (s : AkcpState) : AkcpState :=
  if explicit ∧ options.sensorTemp > 0 then
    (s.unlessProblem .unknown).comment (texts.quantity ++ ' ' :: (name ++ text))
  else s

/-- A block behind its query. The count of what was found of the sensor comes along. -/
def checkReading (i : Nat) (reading : SensorReading) (s : AkcpState) (found : Nat) :
    Except AkcpLeave (AkcpState × Nat) :=
  let name := printed (sensorName options i reading)
  if explicit = false ∧ reading.online = 0 then .error (.broken s)
  else if reading.online = 1 then
    (reportReading showPerfdata texts name reading (judgeOnline texts name reading s)).map
      fun s => (s, found + 1)
  else if reading.online = 2 then
    .ok (noteMissing options explicit texts name ": offline".toList s, found)
  else .ok (noteMissing options explicit texts name ": not available".toList s, found)

end Block

section Main

variable (agent : AkcpAgent) (beyond : Int → List Char) (options : AkcpOptions)
  (showPerfdata : Bool)

def checkTemp (explicit : Bool) (i : Nat) (idx : Int) (s : AkcpState) (found : Nat) :
    Except AkcpLeave (AkcpState × Nat) :=
  if options.sensorTemp ≠ 0 then
    match agent.temp idx with
    | none => .error (.broken s)
    | some reading =>
        checkReading options explicit showPerfdata
          ⟨"Temperature".toList, degreeeUnit beyond reading.tempUnit, "temp_".toList⟩
          i reading.toSensorReading s found
  else .ok (s, found)

def checkHum (explicit : Bool) (i : Nat) (idx : Int) (s : AkcpState) (found : Nat) :
    Except AkcpLeave (AkcpState × Nat) :=
  if options.sensorHum ≠ 0 then
    match agent.hum idx with
    | none => .error (.broken s)
    | some reading =>
        checkReading options explicit showPerfdata ⟨"Humidity".toList, ['%'], "hum_".toList⟩
          i reading s found
  else .ok (s, found)

/-- The name is left over from the humidity. -/
def checkFound (explicit : Bool) (i : Nat) (idx : Int) (s : AkcpState) (found : Nat) :
    AkcpState :=
  let name := if options.sensorHum ≠ 0 then (agent.hum idx).bind (sensorName options i) else none
  let s :=
    if explicit ∧ found = 0 then
      (s.unlessProblem .unknown).comment
        ("Humidity ".toList ++ printed name ++ ": not available".toList)
    else s
  { s with sensorFound := s.sensorFound + found }

/-- The body of the loop over the sensors. -/
def akcpPass (explicit : Bool) (s : AkcpState) (entry : Nat × Int) :
    Except AkcpLeave AkcpState := do
  let (s, found) ← checkTemp agent beyond options showPerfdata explicit entry.1 entry.2 s 0
  let (s, found) ← checkHum agent options showPerfdata explicit entry.1 entry.2 s found
  .ok (checkFound agent options explicit entry.1 entry.2 s found)

/-- The places and indices the loop goes through: those of the selected sensors, or ten. -/
def akcpEntries (sensors : List Int) : List (Nat × Int) :=
  if sensors = [] then (List.range 10).map fun i => (i, (i : Int))
  else sensors.mapIdx fun i sensor => (i, sensor - 1)

inductive AkcpEnd where
  | exit (status : Status) (message : List Char) (perfdata : Option (List Char))
  | undefined

/-- Behind the loop. -/
def akcpExit (s : AkcpState) : AkcpEnd :=
  let message := "AKCP - ".toList ++ printed s.output
  if s.sensorFound = 0 then .exit .unknown "No Sensors found.".toList s.perfdata
  else
    match s.state with
    | .ok => .exit .ok message s.perfdata
    | .warning => .exit .warning message s.perfdata
    | .critical => .exit .critical message s.perfdata
    | _ => .exit .unknown message s.perfdata

def checkAkcp (sensors : List Int) : AkcpEnd :=
  match (akcpEntries sensors).foldlM
      (akcpPass agent beyond options showPerfdata (sensors ≠ [])) .start with
  | .ok s => akcpExit s
  | .error (.broken s) => akcpExit s
  | .error .undefined => .undefined

end Main

/-- How the blocks change the state: CRITICAL always, the others only when it is OK. -/
def escalate (state status : Status) : Status :=
  if status = .critical then .critical else if state = .ok then status else state

/-- An online sensor by its state; another one where temperatures were asked for. -/
def readingStatus (options : AkcpOptions) (reading : SensorReading) : Status :=
  if reading.online = 1 then
    if reading.state = 2 then .ok
    else if reading.state = 3 ∨ reading.state = 5 then .warning
    else .critical
  else if options.sensorTemp > 0 then .unknown
  else .ok

/-- A reading counts for `found`. -/
def SensorReading.count (reading : SensorReading) : Nat := if reading.online = 1 then 1 else 0

/-- Readings for every index. -/
structure AkcpSensors where
  temp : Int → TempReading
  hum : Int → SensorReading

/-- The agent that answers all queries. -/
def AkcpSensors.agent (readings : AkcpSensors) : AkcpAgent where
  temp idx := some (readings.temp idx)
  hum idx := some (readings.hum idx)

namespace AkcpSensors

variable (readings : AkcpSensors) (options : AkcpOptions) (idx : Int)

/-- The readings that are looked at. -/
def queriedTemp : List SensorReading :=
  if options.sensorTemp ≠ 0 then [(readings.temp idx).toSensorReading] else []

def queriedHum : List SensorReading :=
  if options.sensorHum ≠ 0 then [readings.hum idx] else []

def queried : List SensorReading :=
  readings.queriedTemp options idx ++ readings.queriedHum options idx

def found : Nat := ((readings.queried options idx).map SensorReading.count).sum

/-- The conditions of a sensor: its readings, and nothing of it being online. -/
def conditions : List Status :=
  (readings.queried options idx).map (readingStatus options) ++
    [if readings.found options idx = 0 then .unknown else .ok]

end AkcpSensors

section Escalation

theorem escalate_ok (state : Status) : escalate state .ok = state := by
  cases state <;> rfl

theorem foldl_escalate_critical (statuses : List Status) :
    statuses.foldl escalate .critical = .critical := by
  induction statuses with
  | nil => rfl
  | cons status statuses ih =>
      have hStep : escalate .critical status = .critical := by
        cases status <;> rfl
      rw [List.foldl_cons, hStep, ih]

/-- A problem that is not critical stays until a critical one comes. -/
theorem foldl_escalate_problem {state : Status} (hOk : state ≠ .ok) (statuses : List Status) :
    statuses.foldl escalate state = if .critical ∈ statuses then .critical else state := by
  induction statuses with
  | nil => rfl
  | cons status statuses ih =>
      rw [List.foldl_cons]
      by_cases hCritical : status = .critical
      · rw [hCritical, if_pos List.mem_cons_self]
        exact foldl_escalate_critical statuses
      · have hStep : escalate state status = state := by
          rw [escalate, if_neg hCritical, if_neg hOk]
        simp only [hStep, ih, List.mem_cons, Ne.symm hCritical, false_or]

/-- From OK on: CRITICAL if there is one, else the first problem. -/
theorem foldl_escalate (statuses : List Status) :
    statuses.foldl escalate .ok =
      if .critical ∈ statuses then .critical
      else (statuses.find? fun status => status ≠ .ok).getD .ok := by
  induction statuses with
  | nil => rfl
  | cons status statuses ih =>
      rw [List.foldl_cons]
      by_cases hCritical : status = .critical
      · rw [hCritical, if_pos List.mem_cons_self]
        exact foldl_escalate_critical statuses
      · have hStep : escalate .ok status = status := by
          rw [escalate, if_neg hCritical, if_pos rfl]
        by_cases hOk : status = .ok
        · rw [hStep, hOk, ih]
          simp
        · rw [hStep, foldl_escalate_problem hOk]
          simp [Ne.symm hCritical, hOk]

/-- The first problem of a list. -/
def firstProblem (statuses : List Status) : Option Status :=
  statuses.find? fun status => status ≠ .ok

/-- The rules keep the worst state unless an UNKNOWN comes before a WARNING. -/
theorem foldl_escalate_eq_worst_iff {statuses : List Status}
    (h : ∀ status ∈ statuses, status ≤ .critical) :
    statuses.foldl escalate .ok = worst statuses ↔
      .critical ∈ statuses ∨ .warning ∉ statuses ∨ firstProblem statuses ≠ some .unknown := by
  rw [foldl_escalate, worst_eq h]
  by_cases hCritical : .critical ∈ statuses
  · simp [hCritical]
  · simp only [hCritical, if_false, false_or]
    cases hFirst : statuses.find? fun status => status ≠ .ok with
    | none =>
        have hOk : ∀ status ∈ statuses, status = .ok := by
          simpa using List.find?_eq_none.mp hFirst
        have hWarning : .warning ∉ statuses := fun hMem => absurd (hOk _ hMem) (by decide)
        have hUnknown : .unknown ∉ statuses := fun hMem => absurd (hOk _ hMem) (by decide)
        simp [hWarning, hUnknown]
    | some problem =>
        have hMem := List.mem_of_find?_eq_some hFirst
        have hProblem : problem ≠ .ok := by
          simpa using List.find?_some hFirst
        rw [firstProblem, hFirst]
        cases problem with
        | ok => exact absurd rfl hProblem
        | warning => simp [hMem]
        | critical => exact absurd hMem hCritical
        | unknown =>
            by_cases hWarning : .warning ∈ statuses
            · simp [hWarning]
            · simp [hWarning, hMem]
        | dependent => exact absurd (h _ hMem) (by decide)

theorem foldl_escalate_le {statuses : List Status} (h : ∀ status ∈ statuses, status ≤ .critical)
    {state : Status} (hState : state ≤ .critical) : statuses.foldl escalate state ≤ .critical := by
  induction statuses generalizing state with
  | nil => exact hState
  | cons status statuses ih =>
      rw [List.forall_mem_cons] at h
      apply ih h.2
      rw [escalate]
      split_ifs
      · exact le_rfl
      · exact h.1
      · exact hState

theorem foldl_escalate_unknown {statuses : List Status} (hMem : .unknown ∈ statuses)
    (h : ∀ status ∈ statuses, status = .ok ∨ status = .unknown) :
    statuses.foldl escalate .ok = .unknown := by
  have hLe : ∀ status ∈ statuses, status ≤ .critical := by
    intro status hStatus
    rcases h status hStatus with rfl | rfl <;> decide
  have hWarning : .warning ∉ statuses := fun hStatus => absurd (h _ hStatus) (by decide)
  have hCritical : .critical ∉ statuses := fun hStatus => absurd (h _ hStatus) (by decide)
  rw [(foldl_escalate_eq_worst_iff hLe).mpr (Or.inr (Or.inl hWarning)), worst_eq hLe,
    if_neg hCritical, if_neg hWarning, if_pos hMem]

end Escalation

section Pass

variable (options : AkcpOptions) (showPerfdata : Bool)

theorem reportReading_spec (texts : SensorTexts) (name : List Char) (reading : SensorReading)
    (s : AkcpState) :
    ∃ s', reportReading showPerfdata texts name reading s = .ok s' ∧ s'.state = s.state ∧
      s'.sensorFound = s.sensorFound := by
  rw [reportReading]
  cases showPerfdata with
  | false => exact ⟨s, rfl, rfl, rfl⟩
  | true =>
      let threshold : Thresholds :=
        { warning := some { defaultRange with start := reading.warnLow, end_ := reading.warnHigh }
          critical := some { defaultRange with
            start := reading.critLow, end_ := reading.critHigh } }
      obtain ⟨reported, hReport, -⟩ := mpPerfdataInt2_threshold (texts.label ++ name) texts.unit
        (some threshold) false false true s.perfdata reading.value 0 0
      have hCall : mpPerfdataInt (texts.label ++ name) reading.value texts.unit (some threshold)
          true s.perfdata = some reported := hReport
      refine ⟨{ s with perfdata := reported.perfdata }, ?_, rfl, rfl⟩
      simp only [if_true, threshold] at hCall ⊢
      rw [hCall]

theorem unlessProblem_state (s : AkcpState) {status : Status} (h : status ≠ .critical) :
    (s.unlessProblem status).state = escalate s.state status := by
  rw [escalate, if_neg h]
  rfl

theorem judgeOnline_state (texts : SensorTexts) (name : List Char) (reading : SensorReading)
    (s : AkcpState) (h : reading.online = 1) :
    (judgeOnline texts name reading s).state = escalate s.state (readingStatus options reading) ∧
      (judgeOnline texts name reading s).sensorFound = s.sensorFound := by
  rw [judgeOnline, readingStatus, if_pos h]
  split_ifs with hNormal hWarning
  · refine ⟨?_, rfl⟩
    exact (escalate_ok s.state).symm
  · exact ⟨unlessProblem_state s (by decide), rfl⟩
  · exact ⟨rfl, rfl⟩

theorem noteMissing_spec (texts : SensorTexts) (name text : List Char) (reading : SensorReading)
    (s : AkcpState) (h : reading.online ≠ 1) :
    (noteMissing options true texts name text s).state =
        escalate s.state (readingStatus options reading) ∧
      (noteMissing options true texts name text s).sensorFound = s.sensorFound := by
  simp only [noteMissing, readingStatus, if_neg h, true_and]
  split_ifs
  · exact ⟨unlessProblem_state s (by decide), rfl⟩
  · exact ⟨(escalate_ok s.state).symm, rfl⟩

/-- A block of an explicitly selected sensor merges the status of its reading. -/
theorem checkReading_spec (texts : SensorTexts) (i : Nat) (reading : SensorReading)
    (s : AkcpState) (found : Nat) :
    ∃ s', checkReading options true showPerfdata texts i reading s found =
        .ok (s', found + reading.count) ∧
      s'.state = escalate s.state (readingStatus options reading) ∧
      s'.sensorFound = s.sensorFound := by
  rw [checkReading, SensorReading.count]
  simp only [Bool.true_eq_false, false_and, if_false]
  by_cases hOnline : reading.online = 1
  · obtain ⟨s', hReport, hState, hFound⟩ := reportReading_spec showPerfdata texts
      (printed (sensorName options i reading)) reading
      (judgeOnline texts (printed (sensorName options i reading)) reading s)
    obtain ⟨hJudge, hJudgeFound⟩ := judgeOnline_state options texts
      (printed (sensorName options i reading)) reading s hOnline
    refine ⟨s', ?_, hState.trans hJudge, hFound.trans hJudgeFound⟩
    rw [if_pos hOnline, if_pos hOnline, hReport]
    rfl
  · rw [if_neg hOnline, if_neg hOnline]
    by_cases hOffline : reading.online = 2
    · rw [if_pos hOffline]
      exact ⟨_, rfl, noteMissing_spec options texts _ _ reading s hOnline⟩
    · rw [if_neg hOffline]
      exact ⟨_, rfl, noteMissing_spec options texts _ _ reading s hOnline⟩

variable (readings : AkcpSensors) (beyond : Int → List Char)

theorem checkTemp_spec (i : Nat) (idx : Int) (s : AkcpState) (found : Nat) :
    ∃ s', checkTemp readings.agent beyond options showPerfdata true i idx s found =
        .ok (s', found + ((readings.queriedTemp options idx).map SensorReading.count).sum) ∧
      s'.state =
        ((readings.queriedTemp options idx).map (readingStatus options)).foldl escalate s.state ∧
      s'.sensorFound = s.sensorFound := by
  rw [checkTemp, AkcpSensors.agent, AkcpSensors.queriedTemp]
  split_ifs with hAsked
  · simpa using checkReading_spec options showPerfdata
      ⟨"Temperature".toList, degreeeUnit beyond (readings.temp idx).tempUnit, "temp_".toList⟩ i
      (readings.temp idx).toSensorReading s found
  · exact ⟨s, rfl, rfl, rfl⟩

theorem checkHum_spec (i : Nat) (idx : Int) (s : AkcpState) (found : Nat) :
    ∃ s', checkHum readings.agent options showPerfdata true i idx s found =
        .ok (s', found + ((readings.queriedHum options idx).map SensorReading.count).sum) ∧
      s'.state =
        ((readings.queriedHum options idx).map (readingStatus options)).foldl escalate s.state ∧
      s'.sensorFound = s.sensorFound := by
  rw [checkHum, AkcpSensors.agent, AkcpSensors.queriedHum]
  split_ifs with hAsked
  · simpa using checkReading_spec options showPerfdata
      ⟨"Humidity".toList, ['%'], "hum_".toList⟩ i (readings.hum idx) s found
  · exact ⟨s, rfl, rfl, rfl⟩

theorem checkFound_spec (i : Nat) (idx : Int) (s : AkcpState) (found : Nat) :
    (checkFound readings.agent options true i idx s found).state =
        escalate s.state (if found = 0 then .unknown else .ok) ∧
      (checkFound readings.agent options true i idx s found).sensorFound =
        s.sensorFound + found := by
  rw [checkFound]
  by_cases hNone : found = 0
  · simp only [hNone, and_self, if_true]
    exact ⟨unlessProblem_state s (by decide), rfl⟩
  · simp only [hNone, and_false, if_false]
    exact ⟨(escalate_ok s.state).symm, trivial⟩

/-- One pass merges the conditions of its sensor in their order. -/
theorem akcpPass_spec (s : AkcpState) (entry : Nat × Int) :
    ∃ s', akcpPass readings.agent beyond options showPerfdata true s entry = .ok s' ∧
      s'.state = (readings.conditions options entry.2).foldl escalate s.state ∧
      s'.sensorFound = s.sensorFound + readings.found options entry.2 := by
  obtain ⟨temp, hTemp, hTempState, hTempFound⟩ :=
    checkTemp_spec options showPerfdata readings beyond entry.1 entry.2 s 0
  obtain ⟨hum, hHum, hHumState, hHumFound⟩ := checkHum_spec options showPerfdata readings
    entry.1 entry.2 temp (0 + ((readings.queriedTemp options entry.2).map SensorReading.count).sum)
  have hCount : 0 + ((readings.queriedTemp options entry.2).map SensorReading.count).sum +
      ((readings.queriedHum options entry.2).map SensorReading.count).sum =
      readings.found options entry.2 := by
    rw [AkcpSensors.found, AkcpSensors.queried, List.map_append, List.sum_append, Nat.zero_add]
  rw [hCount] at hHum
  obtain ⟨hState, hFound⟩ := checkFound_spec options readings entry.1 entry.2 hum
    (readings.found options entry.2)
  refine ⟨checkFound readings.agent options true entry.1 entry.2 hum
    (readings.found options entry.2), ?_, ?_, ?_⟩
  · rw [akcpPass, hTemp]
    show (checkHum readings.agent options showPerfdata true entry.1 entry.2 temp _).bind _ = _
    rw [hHum]
    rfl
  · rw [hState, hHumState, hTempState, AkcpSensors.conditions, AkcpSensors.queried,
      List.map_append, List.foldl_append, List.foldl_append]
    rfl
  · rw [hFound, hHumFound, hTempFound]

/-- The whole loop. -/
theorem akcpLoop_spec (entries : List (Nat × Int)) (s : AkcpState) :
    ∃ s', entries.foldlM (akcpPass readings.agent beyond options showPerfdata true) s = .ok s' ∧
      s'.state =
        ((entries.map Prod.snd).flatMap (readings.conditions options)).foldl escalate s.state ∧
      s'.sensorFound =
        s.sensorFound + ((entries.map Prod.snd).map (readings.found options)).sum := by
  induction entries generalizing s with
  | nil => exact ⟨s, rfl, rfl, rfl⟩
  | cons entry entries ih =>
      obtain ⟨middle, hPass, hState, hFound⟩ :=
        akcpPass_spec options showPerfdata readings beyond s entry
      obtain ⟨s', hRun, hStates, hFounds⟩ := ih middle
      refine ⟨s', ?_, ?_, ?_⟩
      · rw [List.foldlM_cons, hPass]
        exact hRun
      · rw [hStates, hState, List.map_cons, List.flatMap_cons, List.foldl_append]
      · rw [hFounds, hFound, List.map_cons, List.map_cons, List.sum_cons, Nat.add_assoc]

theorem akcpEntries_snd {sensors : List Int} (h : sensors ≠ []) :
    (akcpEntries sensors).map Prod.snd = sensors.map fun sensor => sensor - 1 := by
  rw [akcpEntries, if_neg h]
  apply List.ext_getElem
  · simp
  · intro i _ _
    simp

end Pass

section Sensors

variable (readings : AkcpSensors) (options : AkcpOptions)

/-- The conditions of a selected sensor. -/
def sensorConditions (sensor : Int) : List Status := readings.conditions options (sensor - 1)

/-- The status of a selected sensor. -/
def sensorStatus (sensor : Int) : Status := worst (sensorConditions readings options sensor)

theorem readingStatus_le (reading : SensorReading) : readingStatus options reading ≤ .critical := by
  rw [readingStatus]
  split_ifs <;> decide

theorem sensorConditions_le (sensor : Int) :
    ∀ status ∈ sensorConditions readings options sensor, status ≤ .critical := by
  rw [sensorConditions, AkcpSensors.conditions, List.forall_mem_append]
  constructor
  · rw [List.forall_mem_map]
    intro reading _
    exact readingStatus_le options reading
  · rw [List.forall_mem_singleton]
    split <;> decide

theorem allConditions_le (sensors : List Int) :
    ∀ status ∈ sensors.flatMap (sensorConditions readings options), status ≤ .critical := by
  intro status hMem
  obtain ⟨sensor, -, hStatus⟩ := List.mem_flatMap.mp hMem
  exact sensorConditions_le readings options sensor status hStatus

theorem worst_flatMap (sensors : List Int) :
    worst (sensors.flatMap (sensorConditions readings options)) =
      worst (sensors.map (sensorStatus readings options)) := by
  induction sensors with
  | nil => rfl
  | cons sensor sensors ih =>
      rw [List.flatMap_cons, worst_append, ih, List.map_cons, worst_cons, sensorStatus]

/-- Of a sensor that was not found everything is OK or UNKNOWN. -/
theorem conditions_of_not_found {sensor : Int} (h : readings.found options (sensor - 1) = 0) :
    .unknown ∈ sensorConditions readings options sensor ∧
      ∀ status ∈ sensorConditions readings options sensor, status = .ok ∨ status = .unknown := by
  rw [sensorConditions, AkcpSensors.conditions, if_pos h]
  refine ⟨by simp, ?_⟩
  rw [List.forall_mem_append]
  constructor
  · rw [List.forall_mem_map]
    intro reading hMem
    have hCount : reading.count = 0 :=
      List.sum_eq_zero_iff_forall_eq_nat.mp h _ (List.mem_map_of_mem hMem)
    have hOffline : reading.online ≠ 1 := by
      intro hOnline
      rw [SensorReading.count, if_pos hOnline] at hCount
      cases hCount
    rw [readingStatus, if_neg hOffline]
    split <;> simp
  · simp

/-- Where no sensor was found, every condition is UNKNOWN or nothing. -/
theorem merged_of_none_found {sensors : List Int} (h : sensors ≠ [])
    (hNone : ∀ sensor ∈ sensors, readings.found options (sensor - 1) = 0) :
    (sensors.flatMap (sensorConditions readings options)).foldl escalate .ok = .unknown := by
  obtain ⟨first, hFirst⟩ := List.exists_mem_of_ne_nil _ h
  apply foldl_escalate_unknown
  · exact List.mem_flatMap.mpr
      ⟨first, hFirst, (conditions_of_not_found readings options (hNone first hFirst)).1⟩
  · intro status hMem
    obtain ⟨sensor, hSensor, hStatus⟩ := List.mem_flatMap.mp hMem
    exact (conditions_of_not_found readings options (hNone sensor hSensor)).2 status hStatus

variable (beyond : Int → List Char) (showPerfdata : Bool)

/-- The exit state is the merged one, also where no sensor was found. -/
theorem checkAkcp_state {sensors : List Int} (h : sensors ≠ []) :
    ∃ message perfdata, checkAkcp readings.agent beyond options showPerfdata sensors =
      .exit ((sensors.flatMap (sensorConditions readings options)).foldl escalate .ok) message
        perfdata := by
  obtain ⟨s, hRun, hState, hFound⟩ := akcpLoop_spec options showPerfdata readings beyond
    (akcpEntries sensors) .start
  rw [akcpEntries_snd h, List.flatMap_map] at hState
  rw [akcpEntries_snd h, List.map_map] at hFound
  have hMerged : s.state =
      (sensors.flatMap (sensorConditions readings options)).foldl escalate .ok := hState
  have hExplicit : decide (sensors ≠ []) = true := decide_eq_true h
  rw [checkAkcp, hExplicit, hRun, ← hMerged]
  show ∃ message perfdata, akcpExit s = .exit s.state message perfdata
  rw [akcpExit]
  by_cases hNone : s.sensorFound = 0
  · have hUnknown : s.state = .unknown := by
      have hEach : ∀ sensor ∈ sensors, readings.found options (sensor - 1) = 0 := by
        have hSum : (sensors.map (readings.found options ∘ fun sensor => sensor - 1)).sum = 0 := by
          rw [← hNone, hFound]
          exact (Nat.zero_add _).symm
        have hAll := List.sum_eq_zero_iff_forall_eq_nat.mp hSum
        rwa [List.forall_mem_map] at hAll
      rw [hMerged]
      exact merged_of_none_found readings options h hEach
    rw [if_pos hNone, hUnknown]
    exact ⟨_, _, rfl⟩
  · rw [if_neg hNone]
    cases hExit : s.state with
    | dependent =>
        have hBound := foldl_escalate_le (allConditions_le readings options sensors)
          (Status.ok_le .critical)
        rw [← hMerged, hExit] at hBound
        exact absurd hBound (by decide)
    | _ => exact ⟨_, _, rfl⟩

/-- One order: the exit state is that of the worst sensor. -/
theorem checkAkcp_worst_iff {order : List Int} (h : order ≠ []) :
    (∃ message perfdata, checkAkcp readings.agent beyond options showPerfdata order =
        .exit (worst (order.map (sensorStatus readings options))) message perfdata) ↔
      (∃ sensor ∈ order, .critical ∈ sensorConditions readings options sensor) ∨
        (∀ sensor ∈ order, .warning ∉ sensorConditions readings options sensor) ∨
        firstProblem (order.flatMap (sensorConditions readings options)) ≠ some .unknown := by
  have hWorst := foldl_escalate_eq_worst_iff (allConditions_le readings options order)
  simp only [List.mem_flatMap, not_exists, not_and] at hWorst
  obtain ⟨message, perfdata, hExit⟩ := checkAkcp_state readings options beyond showPerfdata h
  rw [← hWorst, worst_flatMap, hExit]
  constructor
  · rintro ⟨message', perfdata', hSame⟩
    exact (AkcpEnd.exit.inj hSame).1
  · intro hSame
    rw [hSame]
    exact ⟨message, perfdata, rfl⟩

theorem firstProblem_flatMap (sensors : List Int) :
    firstProblem (sensors.flatMap (sensorConditions readings options)) =
      sensors.findSome? fun sensor => firstProblem (sensorConditions readings options sensor) :=
  List.find?_flatMap

/-- In every order another problem than UNKNOWN comes first exactly when no sensor has an
UNKNOWN in front. -/
theorem firstProblem_perm_iff (sensors : List Int) :
    (∀ order : List Int, order.Perm sensors →
        firstProblem (order.flatMap (sensorConditions readings options)) ≠ some .unknown) ↔
      ∀ sensor ∈ sensors, firstProblem (sensorConditions readings options sensor) ≠
        some .unknown := by
  constructor
  · intro hOrders sensor hMem hUnknown
    have hPerm : (sensor :: sensors.erase sensor).Perm sensors := (List.perm_cons_erase hMem).symm
    apply hOrders _ hPerm
    rw [firstProblem_flatMap, List.findSome?_cons, hUnknown]
  · intro hSensors order hPerm hUnknown
    rw [firstProblem_flatMap] at hUnknown
    obtain ⟨sensor, hMem, hFirst⟩ := List.exists_of_findSome?_eq_some hUnknown
    exact hSensors sensor (hPerm.mem_iff.mp hMem) hFirst

end Sensors

/-- The exit state is that of the worst sensor in every order exactly when some sensor is
CRITICAL, nothing is WARNING, or no sensor shows an UNKNOWN first. -/
theorem checkAkcp_order_iff (readings : AkcpSensors) (beyond : Int → List Char)
    (options : AkcpOptions) (showPerfdata : Bool) (sensors : List Int) (h : sensors ≠ []) :
    (∀ order : List Int, order.Perm sensors → ∃ message perfdata,
        checkAkcp readings.agent beyond options showPerfdata order =
          .exit (worst (sensors.map (sensorStatus readings options))) message perfdata) ↔
      (∃ sensor ∈ sensors, .critical ∈ sensorConditions readings options sensor) ∨
      (∀ sensor ∈ sensors, .warning ∉ sensorConditions readings options sensor) ∨
      ∀ sensor ∈ sensors, firstProblem (sensorConditions readings options sensor) ≠
        some .unknown := by
  have hOrder : ∀ order : List Int, order.Perm sensors →
      ((∃ message perfdata, checkAkcp readings.agent beyond options showPerfdata order =
          .exit (worst (sensors.map (sensorStatus readings options))) message perfdata) ↔
        (∃ sensor ∈ sensors, .critical ∈ sensorConditions readings options sensor) ∨
        (∀ sensor ∈ sensors, .warning ∉ sensorConditions readings options sensor) ∨
        firstProblem (order.flatMap (sensorConditions readings options)) ≠ some .unknown) := by
    intro order hPerm
    have hSome : order ≠ [] := by
      rintro rfl
      exact h hPerm.symm.eq_nil
    rw [← worst_perm (hPerm.map (sensorStatus readings options)),
      checkAkcp_worst_iff readings options beyond showPerfdata hSome]
    simp only [hPerm.mem_iff]
  rw [← firstProblem_perm_iff readings options sensors]
  constructor
  · intro hAll
    by_cases hCritical :
        ∃ sensor ∈ sensors, .critical ∈ sensorConditions readings options sensor
    · exact Or.inl hCritical
    · by_cases hWarning :
          ∀ sensor ∈ sensors, .warning ∉ sensorConditions readings options sensor
      · exact Or.inr (Or.inl hWarning)
      · refine Or.inr (Or.inr fun order hPerm => ?_)
        exact (((hOrder order hPerm).mp (hAll order hPerm)).resolve_left hCritical).resolve_left
          hWarning
  · intro hFine order hPerm
    rw [hOrder order hPerm]
    rcases hFine with hCritical | hWarning | hFirst
    · exact Or.inl hCritical
    · exact Or.inr (Or.inl hWarning)
    · exact Or.inr (Or.inr (hFirst order hPerm))

/-- An online temperature in state 3 at index 0, and an offline one elsewhere. -/
def someOffline : AkcpSensors where
  temp idx :=
    { name := none, value := 30, state := if idx = 0 then 3 else 2
      online := if idx = 0 then 1 else 2
      warnHigh := 25, critHigh := 35, warnLow := 15, critLow := 10, tempUnit := 1 }
  hum _ :=
    { name := none, value := 50, state := 2, online := 1
      warnHigh := 60, critHigh := 80, warnLow := 20, critLow := 10 }

/-- `--temp`. -/
def tempOnly : AkcpOptions := { name := false, temp := true, hum := false }

/-- A warning at index 0, a critical temperature at index 2, and the others offline. -/
def oneTooHot : AkcpSensors where
  temp idx :=
    { someOffline.temp idx with
      state := if idx = 0 then 3 else 4, online := if idx = 0 ∨ idx = 2 then 1 else 2 }
  hum := someOffline.hum

theorem checkAkcp_order_tooHot :
    (∀ order : List Int, order.Perm [1, 2, 3] → ∃ message perfdata,
      checkAkcp oneTooHot.agent (fun _ => []) tempOnly true order =
        .exit (worst ([1, 2, 3].map (sensorStatus oneTooHot tempOnly))) message perfdata) ∧
      [1, 2, 3].map (sensorStatus oneTooHot tempOnly) = [.warning, .unknown, .critical] :=
  ⟨(checkAkcp_order_iff oneTooHot (fun _ => []) tempOnly true [1, 2, 3]
      (List.cons_ne_nil _ _)).mpr (by left; decide), by decide⟩

/-- The offline sensor masks the warning of the other where it is named first. -/
theorem checkAkcp_masks_warning :
    ¬ ∀ order : List Int, order.Perm [1, 2] → ∃ message perfdata,
      checkAkcp someOffline.agent (fun _ => []) tempOnly false order =
        .exit (worst ([1, 2].map (sensorStatus someOffline tempOnly))) message perfdata := by
  intro hAll
  obtain ⟨message, perfdata, hExit⟩ := hAll [2, 1] (List.Perm.swap 1 2 [])
  obtain ⟨message', perfdata', hState⟩ := checkAkcp_state someOffline tempOnly (fun _ => []) false
    (List.cons_ne_nil 2 [1])
  rw [hState] at hExit
  have hSame := (AkcpEnd.exit.inj hExit).1
  revert hSame
  decide

end MonitoringPlug.Snmp
