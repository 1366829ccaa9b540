import Mathlib.Algebra.Order.BigOperators.Group.List
import MonitoringPlug.Check.Bonding
import MonitoringPlug.Common.Severity
import MonitoringPlug.Perfdata.Report

/-! `check_cups_jobs`: the active jobs of the printers, each counted and judged by its
age, and the exit for them when they are summarised. -/
namespace MonitoringPlug.Cups

open CText MonitoringPlug.Common MonitoringPlug.Args MonitoringPlug.Perfdata MonitoringPlug.Utils
open MonitoringPlug.Snmp (mpSnprintf toInt)
open MonitoringPlug.Check (formatString)

structure CupsJob where
  id : Int
  creationTime : Int
deriving DecidableEq

/-- A printer with what is asked for it: the jobs `cupsGetJobs` finds, if it can ask for
them, and the time when they are looked at. -/
structure CupsDest where
  name : List Char
  jobs : Option (List CupsJob)
  now : Int
deriving DecidableEq

/-- What `cupsGetJobs` returns. -/
def CupsDest.jobsNum (dest : CupsDest) : Int :=
  match dest.jobs with
  | none => -1
  | some jobs => jobs.length

def CupsDest.age (dest : CupsDest) (job : CupsJob) : Int := dest.now - job.creationTime

/-- How the program ends. An overflow of `jobs_total` is `undefined`. -/
inductive JobsEnd where
  | exit (status : Status) (message : List Char) (perfdata : Option (List Char))
  | undefined
deriving DecidableEq

/-- The variables of `main` and the global it changes. -/
structure JobsState where
  jobsNum : Int
  jobsTotal : Int
  state : Status
  warn : Option (List Char)
  crit : Option (List Char)
  perfdata : Option (List Char)
deriving DecidableEq

/-- The state of the loop takes the number of `lstate` if it is greater, and an alert is
printed into `buf` and noted. -/
def JobsState.judge (s : JobsState) (lstate : Status) (text : List Char) :
    Except JobsEnd JobsState :=
  let s := { s with state := if lstate.code > s.state.code then lstate else s.state }
  match lstate with
  | .warning =>
      match mpSnprintf 64 text with
      | none => .error (.exit .critical "snprintf failed!".toList s.perfdata)
      | some buf => .ok { s with warn := mpStrcatComma s.warn (some buf) }
  | .critical =>
      match mpSnprintf 64 text with
      | none => .error (.exit .critical "snprintf failed!".toList s.perfdata)
      | some buf => .ok { s with crit := mpStrcatComma s.crit (some buf) }
  | _ => .ok s

def countText (dest : CupsDest) : List Char :=
  dest.name ++ ": ".toList ++ formatLong dest.jobsNum

def jobText (dest : CupsDest) (job : CupsJob) : List Char :=
  formatLong job.id ++ '@' :: dest.name ++ ' ' :: formatLong (toInt (dest.age job)) ++ ['s']

section Main

variable (summerize showPerfdata : Bool) (countThreshold timeThreshold : Option Thresholds)

def checkCount (dest : CupsDest) (s : JobsState) : Except JobsEnd JobsState :=
  if summerize = false then s.judge (getStatus s.jobsNum countThreshold) (countText dest)
  else .ok s

/-- One round of the loop over the jobs. -/
def checkJob (dest : CupsDest) (s : JobsState) (job : CupsJob) : Except JobsEnd JobsState :=
  s.judge (getStatus (dest.age job) timeThreshold) (jobText dest job)

/-- One round of the loop over the printers. -/
def checkDest (s : JobsState) (dest : CupsDest) : Except JobsEnd JobsState :=
  let jobsTotal := s.jobsTotal + dest.jobsNum
  if -2 ^ 31 ≤ jobsTotal ∧ jobsTotal < 2 ^ 31 then do
    let s ← checkCount summerize countThreshold dest
      { s with jobsNum := dest.jobsNum, jobsTotal := jobsTotal }
    if s.jobsNum > 0 ∧ timeThreshold.isSome then
      (dest.jobs.getD []).foldlM (checkJob timeThreshold dest) s
    else .ok s
  else .error .undefined

/-- The block for the total. It judges `jobs_num`. -/
def checkTotal (s : JobsState) : Except JobsEnd JobsState :=
  if summerize = true then do
    let s ← s.judge (getStatus s.jobsNum countThreshold)
      ("Total Jobs: ".toList ++ formatLong s.jobsTotal)
    match mpPerfdataInt "jobs".toList s.jobsTotal [] countThreshold showPerfdata s.perfdata with
    | none => .error .undefined
    | some reported => .ok { s with perfdata := reported.perfdata }
  else .ok s

def finishJobs (s : JobsState) : JobsEnd :=
  match s.state with
  | .warning => .exit .warning ("CUPS: ".toList ++ formatString s.warn) s.perfdata
  | .critical =>
      match s.warn with
      | some warn =>
          .exit .critical ("CUPS: ".toList ++ formatString s.crit ++ " (Warn: ".toList ++ warn ++
            [')']) s.perfdata
      | none => .exit .critical ("CUPS: ".toList ++ formatString s.crit) s.perfdata
  | _ => .exit .ok "CUPS Jobs".toList s.perfdata

/-- The number of the printers is reported unless they were named in the arguments. -/
def printersPerfdata (named : Bool) (destNum : Nat) : Except JobsEnd (Option (List Char)) :=
  if named then .ok none
  else
    match mpPerfdataInt "printers".toList destNum [] none showPerfdata none with
    | none => .error .undefined
    | some reported => .ok reported.perfdata

def runJobs (named : Bool) (dests : List CupsDest) : Except JobsEnd JobsState := do
  let perfdata ← printersPerfdata showPerfdata named dests.length
  let s ← dests.foldlM (checkDest summerize countThreshold timeThreshold)
    { jobsNum := 0, jobsTotal := 0, state := .ok, warn := none, crit := none, perfdata := perfdata }
  checkTotal summerize showPerfdata countThreshold s

/-- `main` from the list of the printers on. -/
def checkCupsJobs (named : Bool) (dests : List CupsDest) : JobsEnd :=
  match runJobs summerize showPerfdata countThreshold timeThreshold named dests with
  | .error result => result
  | .ok s => finishJobs s

end Main

/-- The jobs of all printers. -/
def jobsOf (dests : List CupsDest) : Int := (dests.map CupsDest.jobsNum).sum

def CupsDest.ages (dest : CupsDest) : List ℚ := (dest.jobs.getD []).map fun job => dest.age job

/-- The worst state of the jobs' ages. -/
def agesStatus (timeThreshold : Option Thresholds) (dests : List CupsDest) : Status :=
  worst ((dests.flatMap CupsDest.ages).map (getStatus · timeThreshold))

def totalStatus (countThreshold timeThreshold : Option Thresholds) (dests : List CupsDest) :
    Status :=
  max (getStatus (jobsOf dests) countThreshold) (agesStatus timeThreshold dests)

/-- A state and the text that is printed for it. -/
abbrev Alert := Status × List Char

def Alert.fits (alert : Alert) : Bool := alert.1 = .ok || alert.2.length < 64

/-- What judging some alerts in turn makes of the state: a text that does not fit ends
the program. -/
def Judged (s : JobsState) (alerts : List Alert) (result : Except JobsEnd JobsState) : Prop :=
  if alerts.all Alert.fits then
    ∃ s', result = .ok s' ∧ s'.state = max s.state (worst (alerts.map Prod.fst)) ∧
      Graded s'.state ∧ s'.jobsNum = s.jobsNum ∧ s'.jobsTotal = s.jobsTotal
  else ∃ message perfdata, result = .error (.exit .critical message perfdata)

theorem judge_judged {s : JobsState} (hState : Graded s.state) {lstate : Status}
    (hLstate : Graded lstate) (text : List Char) :
    Judged s [(lstate, text)] (s.judge lstate text) := by
  have hRaise := hState.raise hLstate
  have hMax := hState.max hLstate
  have hAlert (hNot : lstate ≠ .ok) :
      [((lstate, text) : Alert)].all Alert.fits = decide (text.length < 64) := by
    simp [Alert.fits, hNot]
  by_cases hFits : text.length < 64
  · have hPrinted : mpSnprintf 64 text = some text := if_pos hFits
    rcases hLstate with rfl | rfl | rfl
    · exact ⟨_, rfl, hRaise, hRaise ▸ hMax, rfl, rfl⟩
    · rw [Judged, hAlert Status.noConfusion, if_pos (decide_eq_true hFits)]
      simp only [JobsState.judge, hRaise, hPrinted]
      exact ⟨_, rfl, rfl, hMax, rfl, rfl⟩
    · rw [Judged, hAlert Status.noConfusion, if_pos (decide_eq_true hFits)]
      simp only [JobsState.judge, hRaise, hPrinted]
      exact ⟨_, rfl, rfl, hMax, rfl, rfl⟩
  · have hPrinted : mpSnprintf 64 text = none := if_neg hFits
    rcases hLstate with rfl | rfl | rfl
    · exact ⟨_, rfl, hRaise, hRaise ▸ hMax, rfl, rfl⟩
    · rw [Judged, hAlert Status.noConfusion, if_neg (by simpa using hFits)]
      simp only [JobsState.judge, hPrinted]
      exact ⟨_, _, rfl⟩
    · rw [Judged, hAlert Status.noConfusion, if_neg (by simpa using hFits)]
      simp only [JobsState.judge, hPrinted]
      exact ⟨_, _, rfl⟩

theorem Judged.of_fits {s : JobsState} {alerts : List Alert} {result : Except JobsEnd JobsState}
    (h : Judged s alerts result) (hFits : alerts.all Alert.fits = true) :
    ∃ s', result = .ok s' ∧ s'.state = max s.state (worst (alerts.map Prod.fst)) ∧
      Graded s'.state ∧ s'.jobsNum = s.jobsNum ∧ s'.jobsTotal = s.jobsTotal := by
  rwa [Judged, if_pos hFits] at h

theorem Judged.of_overlong {s : JobsState} {alerts : List Alert}
    {result : Except JobsEnd JobsState} (h : Judged s alerts result)
    (hOverlong : alerts.all Alert.fits = false) :
    ∃ message perfdata, result = .error (.exit .critical message perfdata) := by
  rwa [Judged, hOverlong] at h

theorem Judged.bind {s : JobsState} {front back : List Alert} {result : Except JobsEnd JobsState}
    {next : JobsState → Except JobsEnd JobsState} (h : Judged s front result)
    (hNext : ∀ s', Graded s'.state → Judged s' back (next s')) :
    Judged s (front ++ back) (result >>= next) := by
  rw [Judged, List.all_append]
  cases hFront : front.all Alert.fits with
  | false =>
      obtain ⟨message, perfdata, rfl⟩ := h.of_overlong hFront
      exact ⟨message, perfdata, rfl⟩
  | true =>
      obtain ⟨s', rfl, hState, hGraded, hNum, hTotal⟩ := h.of_fits hFront
      have hBack := hNext s' hGraded
      rw [Judged] at hBack
      rw [Bool.true_and, List.map_append, worst_append, ← max_assoc, ← hState, ← hNum, ← hTotal]
      exact hBack

/-- Where nothing alerts nothing needs to be done. -/
theorem Judged.refl {s : JobsState} (hState : Graded s.state) {alerts : List Alert}
    (h : ∀ alert ∈ alerts, alert.1 = .ok) : Judged s alerts (.ok s) := by
  have hFits : alerts.all Alert.fits = true := by
    rw [List.all_eq_true]
    intro alert hMem
    simp [Alert.fits, h alert hMem]
  have hWorst : worst (alerts.map Prod.fst) = .ok := by
    rw [worst_eq_ok_iff, List.forall_mem_map]
    exact h
  rw [Judged, if_pos hFits, hWorst, max_ok]
  exact ⟨s, rfl, rfl, hState, rfl, rfl⟩

section Loop

variable (countThreshold timeThreshold : Option Thresholds)

def CupsDest.alerts (dest : CupsDest) : List Alert :=
  (dest.jobs.getD []).map fun job => (getStatus (dest.age job) timeThreshold, jobText dest job)

/-- Every alert of the printer's jobs fits into `buf`. -/
def CupsDest.fits (dest : CupsDest) : Bool := (dest.alerts timeThreshold).all Alert.fits

theorem checkJobs_judged (dest : CupsDest) (jobs : List CupsJob) {s : JobsState}
    (hState : Graded s.state) :
    Judged s (jobs.map fun job => (getStatus (dest.age job) timeThreshold, jobText dest job))
      (jobs.foldlM (checkJob timeThreshold dest) s) := by
  induction jobs generalizing s with
  | nil =>
      apply Judged.refl hState
      intro alert hMem
      cases hMem
  | cons job jobs ih =>
      rw [List.foldlM_cons, List.map_cons]
      have hJob := judge_judged hState (getStatus_cases (dest.age job) timeThreshold)
        (jobText dest job)
      exact hJob.bind fun s' hGraded => ih hGraded

/-- A round of the summarising loop, where the total does not overflow. -/
theorem checkDest_judged {dest : CupsDest} {s : JobsState} (hState : Graded s.state)
    (hLower : 0 ≤ s.jobsTotal + dest.jobsNum) (hUpper : s.jobsTotal + dest.jobsNum < 2 ^ 31) :
    Judged { s with jobsNum := dest.jobsNum, jobsTotal := s.jobsTotal + dest.jobsNum }
      (dest.alerts timeThreshold) (checkDest true countThreshold timeThreshold s dest) := by
  have hInt : -2 ^ 31 ≤ s.jobsTotal + dest.jobsNum ∧ s.jobsTotal + dest.jobsNum < 2 ^ 31 :=
    ⟨by omega, hUpper⟩
  rw [checkDest]
  simp only [if_pos hInt]
  show Judged _ _ (if dest.jobsNum > 0 ∧ timeThreshold.isSome then _ else _)
  split
  · exact checkJobs_judged timeThreshold dest _ hState
  · next hSkipped =>
      apply Judged.refl
      · exact hState
      rw [CupsDest.alerts, List.forall_mem_map]
      intro job hMem
      cases hTime : timeThreshold with
      | none => rfl
      | some time =>
          have hNone : ¬dest.jobsNum > 0 := fun hSome => hSkipped ⟨hSome, by rw [hTime]; rfl⟩
          cases hJobs : dest.jobs with
          | none =>
              rw [hJobs] at hMem
              cases hMem
          | some jobs =>
              rw [hJobs] at hMem
              have hLength := List.length_pos_of_mem hMem
              simp only [Option.getD_some] at hLength
              simp only [CupsDest.jobsNum, hJobs] at hNone
              omega

theorem checkDest_overflows {dest : CupsDest} {s : JobsState}
    (hOver : 2 ^ 31 ≤ s.jobsTotal + dest.jobsNum) :
    checkDest true countThreshold timeThreshold s dest = .error .undefined := by
  have hInt : ¬(-2 ^ 31 ≤ s.jobsTotal + dest.jobsNum ∧ s.jobsTotal + dest.jobsNum < 2 ^ 31) :=
    fun h => Int.not_lt.mpr hOver h.2
  rw [checkDest]
  simp only [if_neg hInt]

theorem jobsNum_nonneg {dest : CupsDest} (h : dest.jobs.isSome) : 0 ≤ dest.jobsNum := by
  obtain ⟨jobs, hJobs⟩ := Option.isSome_iff_exists.mp h
  rw [CupsDest.jobsNum, hJobs]
  exact Int.natCast_nonneg _

theorem jobsOf_nonneg {dests : List CupsDest} (h : ∀ dest ∈ dests, dest.jobs.isSome) :
    0 ≤ jobsOf dests := by
  apply List.sum_nonneg
  rw [List.forall_mem_map]
  intro dest hMem
  exact jobsNum_nonneg (h dest hMem)

@[simp] theorem jobsOf_cons (dest : CupsDest) (dests : List CupsDest) :
    jobsOf (dest :: dests) = dest.jobsNum + jobsOf dests := rfl

theorem worst_alerts (dest : CupsDest) :
    worst ((dest.alerts timeThreshold).map Prod.fst) = agesStatus timeThreshold [dest] := by
  rw [agesStatus, List.flatMap_cons, List.flatMap_nil, List.append_nil, CupsDest.alerts,
    CupsDest.ages, List.map_map, List.map_map]
  rfl

theorem agesStatus_append (front back : List CupsDest) :
    agesStatus timeThreshold (front ++ back) =
      max (agesStatus timeThreshold front) (agesStatus timeThreshold back) := by
  rw [agesStatus, List.flatMap_append, List.map_append, worst_append, agesStatus, agesStatus]

/-- What `jobs_num` is behind the loop. -/
def lastNum (jobsNum : Int) (dests : List CupsDest) : Int :=
  dests.foldl (fun _ dest => dest.jobsNum) jobsNum

/-- The summarising loop over printers whose alerts all fit. -/
theorem checkDests_fit (dests : List CupsDest) {s : JobsState} (hState : Graded s.state)
    (hAnswered : ∀ dest ∈ dests, dest.jobs.isSome)
    (hFits : ∀ dest ∈ dests, dest.fits timeThreshold = true) (hTotal : 0 ≤ s.jobsTotal)
    (hBound : s.jobsTotal + jobsOf dests < 2 ^ 31) :
    ∃ s', dests.foldlM (checkDest true countThreshold timeThreshold) s = .ok s' ∧
      s'.state = max s.state (agesStatus timeThreshold dests) ∧ Graded s'.state ∧
      s'.jobsNum = lastNum s.jobsNum dests ∧ s'.jobsTotal = s.jobsTotal + jobsOf dests := by
  induction dests generalizing s with
  | nil => exact ⟨s, rfl, (max_ok _).symm, hState, rfl, (Int.add_zero _).symm⟩
  | cons dest dests ih =>
      rw [List.forall_mem_cons] at hAnswered hFits
      rw [jobsOf_cons] at hBound
      have hNum := jobsNum_nonneg hAnswered.1
      have hRest := jobsOf_nonneg hAnswered.2
      have hStep := checkDest_judged countThreshold timeThreshold hState
        (show 0 ≤ s.jobsTotal + dest.jobsNum by omega) (by omega)
      obtain ⟨middle, hMiddle, hMiddleState, hGraded, hMiddleNum, hMiddleTotal⟩ :=
        hStep.of_fits hFits.1
      rw [worst_alerts] at hMiddleState
      simp only at hMiddleState hMiddleNum hMiddleTotal
      obtain ⟨s', hRun, hState', hGraded', hNum', hTotal'⟩ := ih hGraded hAnswered.2 hFits.2
        (by omega) (by omega)
      refine ⟨s', ?_, ?_, hGraded', hNum'.trans (congrArg (lastNum · dests) hMiddleNum), ?_⟩
      · rw [List.foldlM_cons, hMiddle]
        exact hRun
      · rw [hState', hMiddleState, max_assoc, ← agesStatus_append, List.singleton_append]
      · rw [hTotal', hMiddleTotal, jobsOf_cons, Int.add_assoc]

/-- Behind such printers the first one with an alert that does not fit ends the program. -/
theorem checkDests_exits {front : List CupsDest} {dest : CupsDest} (back : List CupsDest)
    {s : JobsState}
    (hState : Graded s.state) (hAnswered : ∀ dest ∈ front, dest.jobs.isSome)
    (hFits : ∀ dest ∈ front, dest.fits timeThreshold = true) (hDest : dest.jobs.isSome)
    (hOverlong : dest.fits timeThreshold = false) (hTotal : 0 ≤ s.jobsTotal)
    (hBound : s.jobsTotal + jobsOf front + dest.jobsNum < 2 ^ 31) :
    ∃ message perfdata,
      (front ++ dest :: back).foldlM (checkDest true countThreshold timeThreshold) s =
        .error (.exit .critical message perfdata) := by
  have hNum := jobsNum_nonneg hDest
  have hFront := jobsOf_nonneg hAnswered
  obtain ⟨middle, hMiddle, -, hGraded, -, hMiddleTotal⟩ := checkDests_fit countThreshold
    timeThreshold front hState hAnswered hFits hTotal (by omega)
  have hStep := checkDest_judged countThreshold timeThreshold hGraded
    (show 0 ≤ middle.jobsTotal + dest.jobsNum by omega) (by omega)
  obtain ⟨message, perfdata, hExit⟩ := hStep.of_overlong hOverlong
  refine ⟨message, perfdata, ?_⟩
  rw [List.foldlM_append, hMiddle]
  show (dest :: back).foldlM (checkDest true countThreshold timeThreshold) middle = _
  rw [List.foldlM_cons, hExit]
  rfl

/-- And one with which the total overflows. -/
theorem checkDests_overflows {front : List CupsDest} {dest : CupsDest} (back : List CupsDest)
    {s : JobsState}
    (hState : Graded s.state) (hAnswered : ∀ dest ∈ front, dest.jobs.isSome)
    (hFits : ∀ dest ∈ front, dest.fits timeThreshold = true) (hTotal : 0 ≤ s.jobsTotal)
    (hBound : 2 ^ 31 ≤ s.jobsTotal + jobsOf front + dest.jobsNum) :
    (front ++ dest :: back).foldlM (checkDest true countThreshold timeThreshold) s =
      .error .undefined := by
  induction front generalizing s with
  | nil =>
      have hOver : 2 ^ 31 ≤ s.jobsTotal + dest.jobsNum := by
        simpa only [jobsOf, List.map_nil, List.sum_nil, Int.add_zero] using hBound
      rw [List.nil_append, List.foldlM_cons,
        checkDest_overflows countThreshold timeThreshold hOver]
      rfl
  | cons first front ih =>
      rw [List.forall_mem_cons] at hAnswered hFits
      rw [jobsOf_cons] at hBound
      have hNum := jobsNum_nonneg hAnswered.1
      rw [List.cons_append, List.foldlM_cons]
      by_cases hUpper : s.jobsTotal + first.jobsNum < 2 ^ 31
      · have hStep := checkDest_judged countThreshold timeThreshold hState
          (show 0 ≤ s.jobsTotal + first.jobsNum by omega) hUpper
        obtain ⟨middle, hMiddle, -, hGraded, -, hMiddleTotal⟩ := hStep.of_fits hFits.1
        simp only at hMiddleTotal
        rw [hMiddle]
        exact ih hGraded hAnswered.2 hFits.2 (by omega) (by omega)
      · rw [checkDest_overflows countThreshold timeThreshold (Int.not_lt.mp hUpper)]
        rfl

end Loop

section Run

variable (showPerfdata named : Bool) (countThreshold timeThreshold : Option Thresholds)

theorem printersPerfdata_ok (destNum : Nat) :
    ∃ perfdata, printersPerfdata showPerfdata named destNum = .ok perfdata := by
  cases named with
  | true => exact ⟨none, rfl⟩
  | false =>
      obtain ⟨reported, hReported, -⟩ := mpPerfdataInt2_threshold "printers".toList [] none false
        false showPerfdata none destNum 0 0
      refine ⟨reported.perfdata, ?_⟩
      simp only [printersPerfdata, mpPerfdataInt, hReported, Bool.false_eq_true, if_false]

/-- The text of an `int` total fits into `buf`. -/
theorem checkTotal_ends {s : JobsState} (hState : Graded s.state) (hLower : 0 ≤ s.jobsTotal)
    (hUpper : s.jobsTotal < 2 ^ 31) :
    ∃ s', checkTotal true showPerfdata countThreshold s = .ok s' ∧
      s'.state = max s.state (getStatus s.jobsNum countThreshold) ∧ Graded s'.state := by
  have hLength : (formatLong s.jobsTotal).length ≤ 11 :=
    formatLong_length_le (by omega) (by omega)
  have hFits (status : Status) : [((status, "Total Jobs: ".toList ++ formatLong s.jobsTotal) :
      Alert)].all Alert.fits = true := by
    have hShort : ("Total Jobs: ".toList ++ formatLong s.jobsTotal).length < 64 := by
      rw [List.length_append]
      have hLabel : "Total Jobs: ".toList.length = 12 := rfl
      omega
    simp only [List.all_cons, List.all_nil, Bool.and_true, Alert.fits, Bool.or_eq_true]
    exact Or.inr (decide_eq_true hShort)
  obtain ⟨s', hJudge, hState', hGraded, -, -⟩ := (judge_judged hState
    (getStatus_cases s.jobsNum countThreshold) _).of_fits (hFits _)
  obtain ⟨reported, hReported, -⟩ := mpPerfdataInt2_threshold "jobs".toList [] countThreshold
    false false showPerfdata s'.perfdata s'.jobsTotal 0 0
  refine ⟨{ s' with perfdata := reported.perfdata }, ?_, ?_, hGraded⟩
  · simp only [checkTotal, hJudge, bind, Except.bind, mpPerfdataInt, hReported, if_true]
  · rw [List.map_cons, List.map_nil, worst_cons, worst_nil, max_ok] at hState'
    exact hState'

theorem finishJobs_status {s : JobsState} (h : Graded s.state) :
    ∃ message perfdata, finishJobs s = .exit s.state message perfdata := by
  rw [finishJobs]
  rcases h with h | h | h
  · rw [h]
    exact ⟨_, _, rfl⟩
  · rw [h]
    exact ⟨_, _, rfl⟩
  · rw [h]
    cases s.warn with
    | none => exact ⟨_, _, rfl⟩
    | some warn => exact ⟨_, _, rfl⟩

/-- Where all alerts fit, the exit is made of the ages and of the last printer's jobs. -/
theorem checkCupsJobs_fit {dests : List CupsDest}
    (hAnswered : ∀ dest ∈ dests, dest.jobs.isSome)
    (hFits : ∀ dest ∈ dests, dest.fits timeThreshold = true) (hBound : jobsOf dests < 2 ^ 31) :
    ∃ message perfdata,
      checkCupsJobs true showPerfdata countThreshold timeThreshold named dests =
        .exit (max (agesStatus timeThreshold dests)
          (getStatus (lastNum 0 dests) countThreshold)) message perfdata := by
  obtain ⟨perfdata, hPerfdata⟩ := printersPerfdata_ok showPerfdata named dests.length
  obtain ⟨s, hLoop, hState, hGraded, hNum, hTotal⟩ := checkDests_fit countThreshold timeThreshold
    dests (s := ⟨0, 0, .ok, none, none, perfdata⟩) (Or.inl rfl) hAnswered hFits (Int.le_refl 0)
    (by simpa using hBound)
  have hLower := jobsOf_nonneg hAnswered
  simp only at hTotal
  obtain ⟨s', hEnd, hState', hGraded'⟩ := checkTotal_ends showPerfdata countThreshold hGraded
    (by omega) (by omega)
  obtain ⟨message, perfdata', hFinish⟩ := finishJobs_status hGraded'
  refine ⟨message, perfdata', ?_⟩
  simp only [checkCupsJobs, runJobs, hPerfdata, hLoop, hEnd, bind, Except.bind]
  rw [hFinish, hState', hState, hNum, ok_max]

theorem checkCupsJobs_exits {front : List CupsDest} {dest : CupsDest} (back : List CupsDest)
    (hAnswered : ∀ dest ∈ front, dest.jobs.isSome)
    (hFits : ∀ dest ∈ front, dest.fits timeThreshold = true) (hDest : dest.jobs.isSome)
    (hOverlong : dest.fits timeThreshold = false)
    (hBound : jobsOf front + dest.jobsNum < 2 ^ 31) :
    ∃ message perfdata,
      checkCupsJobs true showPerfdata countThreshold timeThreshold named (front ++ dest :: back) =
        .exit .critical message perfdata := by
  obtain ⟨perfdata, hPerfdata⟩ := printersPerfdata_ok showPerfdata named
    (front ++ dest :: back).length
  obtain ⟨message, perfdata', hLoop⟩ := checkDests_exits countThreshold
    timeThreshold back (s := ⟨0, 0, .ok, none, none, perfdata⟩) (Or.inl rfl) hAnswered hFits hDest
    hOverlong (Int.le_refl 0) (by simpa using hBound)
  refine ⟨message, perfdata', ?_⟩
  simp only [checkCupsJobs, runJobs, hPerfdata, hLoop, bind, Except.bind]

theorem checkCupsJobs_overflows {front : List CupsDest} {dest : CupsDest} (back : List CupsDest)
    (hAnswered : ∀ dest ∈ front, dest.jobs.isSome)
    (hFits : ∀ dest ∈ front, dest.fits timeThreshold = true)
    (hBound : 2 ^ 31 ≤ jobsOf front + dest.jobsNum) :
    checkCupsJobs true showPerfdata countThreshold timeThreshold named (front ++ dest :: back) =
      .undefined := by
  obtain ⟨perfdata, hPerfdata⟩ := printersPerfdata_ok showPerfdata named
    (front ++ dest :: back).length
  have hLoop := checkDests_overflows countThreshold timeThreshold back
    (s := ⟨0, 0, .ok, none, none, perfdata⟩) (Or.inl rfl) hAnswered hFits (Int.le_refl 0)
    (by simpa using hBound)
  simp only [checkCupsJobs, runJobs, hPerfdata, hLoop, bind, Except.bind]

end Run

/-! Which lists of printers are judged by their total. -/

theorem jobsOf_perm {dests order : List CupsDest} (h : order.Perm dests) :
    jobsOf order = jobsOf dests := (h.map CupsDest.jobsNum).sum_eq

theorem agesStatus_perm (timeThreshold : Option Thresholds) {dests order : List CupsDest}
    (h : order.Perm dests) : agesStatus timeThreshold order = agesStatus timeThreshold dests :=
  worst_perm ((h.flatMap_right CupsDest.ages).map _)

theorem jobsOf_sublist {front dests : List CupsDest} (h : front.Sublist dests)
    (hAnswered : ∀ dest ∈ dests, dest.jobs.isSome) : jobsOf front ≤ jobsOf dests := by
  induction h with
  | slnil => exact Int.le_refl _
  | cons dest _ ih =>
      rw [List.forall_mem_cons] at hAnswered
      have hNum := jobsNum_nonneg hAnswered.1
      have hRest := ih hAnswered.2
      rw [jobsOf_cons]
      omega
  | cons_cons dest _ ih =>
      rw [List.forall_mem_cons] at hAnswered
      exact Int.add_le_add_left (ih hAnswered.2) _

/-- The printers whose alerts fit can come in front of any that does not. -/
theorem fitting_first_perm (timeThreshold : Option Thresholds) {dests : List CupsDest}
    {dest : CupsDest} (hMem : dest ∈ dests) (hDest : dest.fits timeThreshold = false) :
    ∃ back, (dests.filter (CupsDest.fits timeThreshold) ++ dest :: back).Perm dests := by
  have hBack : dest ∈ dests.filter fun dest => !dest.fits timeThreshold :=
    List.mem_filter.mpr ⟨hMem, by rw [hDest]; rfl⟩
  refine ⟨_, ((List.perm_cons_erase hBack).symm.append_left _).trans ?_⟩
  exact List.filter_append_perm (CupsDest.fits timeThreshold) dests

theorem max_eq_max_iff {α : Type*} [LinearOrder α] {a b c : α} :
    max c a = max c b ↔ a = b ∨ (a ≤ c ∧ b ≤ c) := by
  rw [sup_eq_sup_iff_left, le_sup_iff, le_sup_iff]
  constructor
  · rintro ⟨hA | hA, hB | hB⟩
    · exact Or.inr ⟨hA, hB⟩
    · exact Or.inr ⟨hA, hB.trans hA⟩
    · exact Or.inr ⟨hA.trans hB, hB⟩
    · exact Or.inl (hA.antisymm hB)
  · rintro (rfl | ⟨hA, hB⟩)
    · exact ⟨Or.inr (le_refl _), Or.inr (le_refl _)⟩
    · exact ⟨Or.inl hA, Or.inl hB⟩

section Total

variable (showPerfdata named : Bool) (countThreshold timeThreshold : Option Thresholds)

/-- In whatever order the printers come, the exit is the worse of the total and the ages. -/
def JudgedByTotal (dests : List CupsDest) : Prop :=
  ∀ order : List CupsDest, order.Perm dests → ∃ message perfdata,
    checkCupsJobs true showPerfdata countThreshold timeThreshold named order =
      .exit (totalStatus countThreshold timeThreshold dests) message perfdata

/-- All alerts fit, and the jobs of each printer are judged as those of all printers
are, or neither is worse than the ages of the jobs. -/
structure JudgedAlike (dests : List CupsDest) : Prop where
  fits : ∀ dest ∈ dests, dest.fits timeThreshold = true
  total : jobsOf dests < 2 ^ 31
  alike : ∀ dest ∈ dests,
    getStatus dest.jobsNum countThreshold = getStatus (jobsOf dests) countThreshold ∨
      (getStatus dest.jobsNum countThreshold ≤ agesStatus timeThreshold dests ∧
        getStatus (jobsOf dests) countThreshold ≤ agesStatus timeThreshold dests)

/-- Some alert does not fit, which is CRITICAL in any case, and the total does not
overflow in front of it. -/
structure CutShort (dests : List CupsDest) : Prop where
  overlong : ∃ dest ∈ dests, dest.fits timeThreshold = false
  critical : totalStatus countThreshold timeThreshold dests = .critical
  total : ∀ dest ∈ dests, dest.fits timeThreshold = false →
    jobsOf (dests.filter (CupsDest.fits timeThreshold)) + dest.jobsNum < 2 ^ 31

variable {dests : List CupsDest} (hAnswered : ∀ dest ∈ dests, dest.jobs.isSome)

include hAnswered

theorem judgedByTotal_iff_alike (hFits : ∀ dest ∈ dests, dest.fits timeThreshold = true) :
    JudgedByTotal showPerfdata named countThreshold timeThreshold dests ↔
      JudgedAlike countThreshold timeThreshold dests := by
  constructor
  · intro h
    have hTotal : jobsOf dests < 2 ^ 31 := by
      by_contra hOver
      rcases dests.eq_nil_or_concat with rfl | ⟨front, dest, rfl⟩
      · exact hOver (by decide)
      · rw [List.concat_eq_append] at h hAnswered hFits hOver
        rw [List.forall_mem_append] at hAnswered hFits
        obtain ⟨message, perfdata, hExit⟩ := h _ (List.Perm.refl _)
        have hUndefined := checkCupsJobs_overflows showPerfdata named countThreshold
          timeThreshold [] hAnswered.1 hFits.1
          (show 2 ^ 31 ≤ jobsOf front + dest.jobsNum by simpa [jobsOf] using hOver)
        rw [hUndefined] at hExit
        cases hExit
    refine ⟨hFits, hTotal, ?_⟩
    intro dest hMem
    obtain ⟨front, back, rfl⟩ := List.append_of_mem hMem
    have hPerm : (front ++ back ++ [dest]).Perm (front ++ dest :: back) := by
      rw [List.append_assoc]
      exact (show (back ++ [dest]).Perm ([dest] ++ back) from
        List.perm_append_comm).append_left front
    obtain ⟨message, perfdata, hExit⟩ := h _ hPerm
    obtain ⟨message', perfdata', hRun⟩ := checkCupsJobs_fit showPerfdata named countThreshold
      timeThreshold (fun other hOther => hAnswered other (hPerm.mem_iff.mp hOther))
      (fun other hOther => hFits other (hPerm.mem_iff.mp hOther))
      ((jobsOf_perm hPerm).trans_lt hTotal)
    rw [hRun] at hExit
    have hStatus := (JobsEnd.exit.inj hExit).1
    have hLast : lastNum 0 (front ++ back ++ [dest]) = dest.jobsNum := List.foldl_concat ..
    rw [hLast, agesStatus_perm timeThreshold hPerm, totalStatus,
      max_comm (getStatus _ _)] at hStatus
    exact max_eq_max_iff.mp hStatus
  · intro h order hPerm
    obtain ⟨message, perfdata, hRun⟩ := checkCupsJobs_fit showPerfdata named countThreshold
      timeThreshold (fun dest hMem => hAnswered dest (hPerm.mem_iff.mp hMem))
      (fun dest hMem => hFits dest (hPerm.mem_iff.mp hMem))
      ((jobsOf_perm hPerm).trans_lt h.total)
    refine ⟨message, perfdata, ?_⟩
    rw [hRun, agesStatus_perm timeThreshold hPerm, totalStatus, max_comm (getStatus _ _)]
    congr 1
    rcases order.eq_nil_or_concat with rfl | ⟨front, dest, rfl⟩
    · rw [← jobsOf_perm hPerm]
      rfl
    · have hLast : lastNum 0 (front.concat dest) = dest.jobsNum := by
        rw [List.concat_eq_append]
        exact List.foldl_concat ..
      rw [hLast]
      apply max_eq_max_iff.mpr
      exact h.alike dest (hPerm.mem_iff.mp (by simp))

theorem judgedByTotal_iff_cutShort (hOverlong : ∃ dest ∈ dests, dest.fits timeThreshold = false) :
    JudgedByTotal showPerfdata named countThreshold timeThreshold dests ↔
      CutShort countThreshold timeThreshold dests := by
  constructor
  · intro h
    have hOrder (dest : CupsDest) (hMem : dest ∈ dests) (hDest : dest.fits timeThreshold = false) :
        totalStatus countThreshold timeThreshold dests = .critical ∧
          jobsOf (dests.filter (CupsDest.fits timeThreshold)) + dest.jobsNum < 2 ^ 31 := by
      have hFront : ∀ other ∈ dests.filter (CupsDest.fits timeThreshold), other.jobs.isSome :=
        fun other hOther => hAnswered other (List.mem_filter.mp hOther).1
      have hFits : ∀ other ∈ dests.filter (CupsDest.fits timeThreshold),
          other.fits timeThreshold = true := fun other hOther => (List.mem_filter.mp hOther).2
      obtain ⟨back, hPerm⟩ := fitting_first_perm timeThreshold hMem hDest
      obtain ⟨message, perfdata, hExit⟩ := h _ hPerm
      by_cases hBound : jobsOf (dests.filter (CupsDest.fits timeThreshold)) + dest.jobsNum < 2 ^ 31
      · obtain ⟨message', perfdata', hRun⟩ := checkCupsJobs_exits showPerfdata named
          countThreshold timeThreshold back hFront hFits (hAnswered dest hMem) hDest
          hBound
        rw [hRun] at hExit
        exact ⟨(JobsEnd.exit.inj hExit).1.symm, hBound⟩
      · rw [checkCupsJobs_overflows showPerfdata named countThreshold timeThreshold back hFront
          hFits (Int.not_lt.mp hBound)] at hExit
        cases hExit
    obtain ⟨dest, hMem, hDest⟩ := hOverlong
    exact ⟨⟨dest, hMem, hDest⟩, (hOrder dest hMem hDest).1, fun other hOther hNot =>
      (hOrder other hOther hNot).2⟩
  · intro h order hPerm
    rw [h.critical]
    have hFound : (order.find? fun dest => !dest.fits timeThreshold).isSome := by
      obtain ⟨dest, hMem, hDest⟩ := hOverlong
      rw [List.find?_isSome]
      exact ⟨dest, hPerm.mem_iff.mpr hMem, by rw [hDest]; rfl⟩
    obtain ⟨dest, hFirst⟩ := Option.isSome_iff_exists.mp hFound
    obtain ⟨hDest, front, back, rfl, hFits⟩ := List.find?_eq_some_iff_append.mp hFirst
    simp only [Bool.not_not, Bool.not_eq_true'] at hDest hFits
    have hMem : dest ∈ dests := hPerm.mem_iff.mp (by simp)
    have hAll (other : CupsDest) (hOther : other ∈ front) : other.jobs.isSome :=
      hAnswered other (hPerm.mem_iff.mp (List.mem_append_left _ hOther))
    have hFront : jobsOf front ≤ jobsOf (dests.filter (CupsDest.fits timeThreshold)) := by
      rw [← jobsOf_perm (hPerm.filter (CupsDest.fits timeThreshold)), List.filter_append,
        List.filter_eq_self.mpr hFits]
      apply jobsOf_sublist (List.sublist_append_left _ _)
      intro other hOther
      apply hAnswered other
      apply hPerm.mem_iff.mp
      rcases List.mem_append.mp hOther with hHere | hHere
      · exact List.mem_append_left _ hHere
      · exact List.mem_append_right _ (List.mem_filter.mp hHere).1
    have hBound := h.total dest hMem hDest
    exact checkCupsJobs_exits showPerfdata named countThreshold timeThreshold back hAll hFits
      (hAnswered dest hMem) hDest (by omega)

/-- The total decides exactly if every printer alone would be judged like all of them, or
if the run ends CRITICAL as it should in front of that. The last printer decides else. -/
theorem checkCupsJobs_total_iff :
    JudgedByTotal showPerfdata named countThreshold timeThreshold dests ↔
      JudgedAlike countThreshold timeThreshold dests ∨
        CutShort countThreshold timeThreshold dests := by
  by_cases hFits : ∀ dest ∈ dests, dest.fits timeThreshold = true
  · rw [judgedByTotal_iff_alike showPerfdata named countThreshold timeThreshold hAnswered hFits]
    constructor
    · exact Or.inl
    · rintro (hAlike | hCut)
      · exact hAlike
      · obtain ⟨dest, hMem, hDest⟩ := hCut.overlong
        rw [hFits dest hMem] at hDest
        cases hDest
  · have hOverlong : ∃ dest ∈ dests, dest.fits timeThreshold = false := by simpa using hFits
    rw [judgedByTotal_iff_cutShort showPerfdata named countThreshold timeThreshold hAnswered
      hOverlong]
    constructor
    · exact Or.inr
    · rintro (hAlike | hCut)
      · exact absurd hAlike.fits hFits
      · exact hCut

end Total

/-- `-w 0`: a warning for any job. -/
def noJobs : Thresholds := { warning := some defaultRange, critical := none }

/-- `Laser` has a job, `Ink` has none. -/
def laser : CupsDest :=
  { name := "Laser".toList, jobs := some [{ id := 1, creationTime := 0 }], now := 5 }

def ink : CupsDest := { name := "Ink".toList, jobs := some [], now := 5 }

/-- A printer with two jobs, one of which is old. -/
def plotter : CupsDest :=
  { name := "Plotter".toList
    jobs := some [{ id := 2, creationTime := -7200 }, { id := 3, creationTime := 4 }], now := 5 }

/-- `-W 3600`: critical for a job that waits for more than an hour. -/
def oneHour : Thresholds :=
  { warning := none, critical := some { defaultRange with end_ := 3600 } }

/-- Each printer alone has jobs, as all of them have: the order does not matter. -/
theorem checkCupsJobs_total_iff_busy :
    JudgedByTotal true false (some noJobs) (some oneHour) [laser, plotter] ∧
      totalStatus (some noJobs) (some oneHour) [laser, plotter] = .critical := by
  have hAnswered : ∀ dest ∈ [laser, plotter], dest.jobs.isSome := by decide
  refine ⟨(checkCupsJobs_total_iff true false (some noJobs) (some oneHour) hAnswered).mpr
    (Or.inl ⟨?_, ?_, ?_⟩), ?_⟩
  · decide
  · decide
  · decide +kernel
  · decide

/-- With the idle printer last, the job of the other one is not seen. -/
theorem checkCupsJobs_idle_last :
    checkCupsJobs true false (some noJobs) none false [laser, ink] =
        .exit .ok "CUPS Jobs".toList none ∧
      checkCupsJobs true false (some noJobs) none false [ink, laser] =
        .exit .warning "CUPS: Total Jobs: 1".toList none ∧
      totalStatus (some noJobs) none [laser, ink] = .warning := by
  refine ⟨?_, ?_, ?_⟩
  · decide
  · decide
  · decide

end MonitoringPlug.Cups
