import MonitoringPlug.Perfdata.Percent
import MonitoringPlug.Perfdata.Report

/-! `check_ldap_replication`: the databases of a slave, the change sequence numbers the
plugin reads for each of them, and its exit against the lag behind the masters. -/
namespace MonitoringPlug.Ldap

open MonitoringPlug.Common MonitoringPlug.Args MonitoringPlug.Perfdata MonitoringPlug.Utils

/-- The attributes of an entry below `cn=Monitor`, by their values.
`ldap_get_values_len` yields NULL for one without any. -/
structure MonitorEntry where
  namingContexts : List (List Char)
  monitorUpdateRef : List (List Char)

/-- A connection, by what a search for the `contextCSN` of a base finds. `none` when
the search fails. -/
structure Directory where
  contextCSN : List Char → Option (List (List Char))

/-- How the program ends. In a failed connection or search it is CRITICAL with the
message of the library; a NULL pointer that is read is `undefined`. -/
inductive ReplicationEnd where
  | exit (status : Status) (message : List Char)
  | failed
  | undefined
deriving DecidableEq

/-- The variables of `main` and the globals it changes. -/
structure ReplicationState where
  outWarn : Option (List Char)
  outCrit : Option (List Char)
  thresholds : Option Thresholds
  perfdata : Option (List Char)

section Main

/-! `csnTime` is `strptime` and `mktime` on the front of a change sequence number,
`lagText` what `mp_asprintf` makes of a naming context and a master: its format asks for
a number that is not among the arguments. `connect` is `mp_ldap_init`. -/

variable (csnTime : List Char → Int) (lagText : List Char → List Char → List Char)
  (connect : List Char → Option Directory) (ld : Directory) (showPerfdata : Bool)

/-- The first value of the first entry, as a time. -/
def readCsn (ld : Directory) (namingContexts : List Char) : Except ReplicationEnd Int :=
  match ld.contextCSN namingContexts with
  | none => .error .failed
  | some [] => .error .undefined
  | some (csn :: _) => .ok (csnTime csn)

/-- The `switch` on the status of a lag. -/
def noteLag (buf : List Char) (lag : ℚ) (s : ReplicationState) : ReplicationState :=
  match getStatus lag s.thresholds with
  | .warning => { s with outWarn := mpStrcatComma s.outWarn (some buf) }
  | .critical => { s with outCrit := mpStrcatComma s.outCrit (some buf) }
  | _ => s

/-- One round of the loop. Both searches are made on the connection to the slave. -/
def checkDatabase (s : ReplicationState) (database : MonitorEntry) :
    Except ReplicationEnd ReplicationState :=
  match database.namingContexts, database.monitorUpdateRef with
  | namingContexts :: _, updateRef :: _ => do
      let localTime ← readCsn csnTime ld namingContexts
      match connect updateRef with
      | none => .error .failed
      | some _masterld =>
          let remoteTime ← readCsn csnTime ld namingContexts
          let lag : ℚ := (remoteTime - localTime : Int)
          let s := noteLag (lagText namingContexts updateRef) lag s
          match mpPerfdataFloat ['l', 'a', 'g'] lag ['s'] s.thresholds showPerfdata s.perfdata with
          | none => .error .undefined
          | some reported =>
              .ok { s with thresholds := reported.threshold, perfdata := reported.perfdata }
  | _, _ => .ok s

def slaveText : List Char := ['L', 'D', 'A', 'P', ' ', 'S', 'l', 'a', 'v', 'e']

/-- `main` from the entries the first search finds. -/
def checkReplication (monitor : List MonitorEntry) (thresholds : Option Thresholds) :
    ReplicationEnd :=
  let start : ReplicationState :=
    { outWarn := none, outCrit := none, thresholds := thresholds, perfdata := none }
  match monitor.foldlM (checkDatabase csnTime lagText connect ld showPerfdata) start with
  | .error result => result
  | .ok s =>
      match s.outCrit, s.outWarn with
      | some out, _ => .exit .critical (slaveText ++ ' ' :: out)
      | none, some out => .exit .warning (slaveText ++ ' ' :: out)
      | none, none => .exit .ok slaveText

/-- The replicated databases: their naming contexts and masters. -/
def replicated (monitor : List MonitorEntry) : List (List Char × List Char) :=
  monitor.filterMap fun database =>
    match database.namingContexts, database.monitorUpdateRef with
    | namingContexts :: _, updateRef :: _ => some (namingContexts, updateRef)
    | _, _ => none

/-- The time of the latest change a server knows of, if it tells one. -/
def csnOf (server : Directory) (namingContexts : List Char) : Option Int :=
  match server.contextCSN namingContexts with
  | some (csn :: _) => some (csnTime csn)
  | _ => none

/-- How far the slave is behind the master of a database, each asked itself. -/
def lagOf (database : List Char × List Char) : Option ℚ := do
  let localTime ← csnOf csnTime ld database.1
  let masterld ← connect database.2
  let remoteTime ← csnOf csnTime masterld database.1
  some (remoteTime - localTime : Int)

end Main

/-- CRITICAL if some lag alerts critical, else WARNING if some alerts warning, else OK. -/
def lagStatus (lags : List ℚ) (thresholds : Option Thresholds) : Status :=
  if .critical ∈ lags.map (getStatus · thresholds) then .critical
  else if .warning ∈ lags.map (getStatus · thresholds) then .warning
  else .ok

/-- Percent bounds once performance data was reported. -/
def reportedThresholds (thresholds : Option Thresholds) : Option Thresholds :=
  mpPerfdataPercentResolv thresholds 0

/-- The states of so many databases that are not behind at all: reporting the first
resolves the percent bounds for the others. -/
def zeroStatuses : Nat → Option Thresholds → List Status
  | 0, _ => []
  | count + 1, thresholds =>
      getStatus 0 thresholds :: zeroStatuses count (reportedThresholds thresholds)

theorem reportedThresholds_again (thresholds : Option Thresholds) :
    reportedThresholds (reportedThresholds thresholds) = reportedThresholds thresholds := by
  cases thresholds with
  | none => rfl
  | some t => simp [reportedThresholds, mpPerfdataPercentResolv]

theorem mem_zeroStatuses_iff (count : Nat) (thresholds : Option Thresholds) (status : Status) :
    status ∈ zeroStatuses count thresholds ↔
      (1 ≤ count ∧ getStatus 0 thresholds = status) ∨
      (2 ≤ count ∧ getStatus 0 (reportedThresholds thresholds) = status) := by
  induction count generalizing thresholds with
  | zero => simp [zeroStatuses]
  | succ count ih =>
      rw [zeroStatuses, List.mem_cons, ih, reportedThresholds_again, ← or_and_right,
        eq_comm (a := status)]
      have hCount : (1 ≤ count ∨ 2 ≤ count) ↔ 2 ≤ count + 1 := by omega
      rw [hCount]
      simp

section Run

variable (csnTime : List Char → Int) (lagText : List Char → List Char → List Char)
  (connect : List Char → Option Directory) (ld : Directory) (showPerfdata : Bool)

theorem readCsn_eq {server : Directory} {namingContexts : List Char} {time : Int}
    (h : csnOf csnTime server namingContexts = some time) :
    readCsn csnTime server namingContexts = .ok time := by
  rw [csnOf] at h
  rw [readCsn]
  split at h
  · next csn more hFound =>
      rw [hFound, ← Option.some.inj h]
  · cases h

theorem noteLag_outs (buf : List Char) (lag : ℚ) (s : ReplicationState) :
    ((noteLag buf lag s).outCrit.isSome ↔
        s.outCrit.isSome ∨ getStatus lag s.thresholds = .critical) ∧
      ((noteLag buf lag s).outWarn.isSome ↔
        s.outWarn.isSome ∨ getStatus lag s.thresholds = .warning) ∧
      (noteLag buf lag s).thresholds = s.thresholds ∧
      (noteLag buf lag s).perfdata = s.perfdata := by
  have hComma (out : Option (List Char)) : (mpStrcatComma out (some buf)).isSome := by
    cases out <;> rfl
  rw [noteLag]
  rcases getStatus_cases lag s.thresholds with hStatus | hStatus | hStatus <;>
    simp [hStatus, hComma]

/-- A replicated database is taken for one that is not behind. -/
theorem checkDatabase_replicated (s : ReplicationState) {database : MonitorEntry}
    {namingContexts updateRef : List Char} {more moreRefs : List (List Char)} {lag : ℚ}
    (hContexts : database.namingContexts = namingContexts :: more)
    (hRefs : database.monitorUpdateRef = updateRef :: moreRefs)
    (hLag : lagOf csnTime connect ld (namingContexts, updateRef) = some lag) :
    ∃ s', checkDatabase csnTime lagText connect ld showPerfdata s database = .ok s' ∧
      (s'.outCrit.isSome ↔ s.outCrit.isSome ∨ getStatus 0 s.thresholds = .critical) ∧
      (s'.outWarn.isSome ↔ s.outWarn.isSome ∨ getStatus 0 s.thresholds = .warning) ∧
      s'.thresholds = reportedThresholds s.thresholds := by
  simp only [lagOf, Option.bind_eq_bind, Option.bind_eq_some_iff] at hLag
  obtain ⟨localTime, hLocal, masterld, hConnect, -⟩ := hLag
  obtain ⟨hCrit, hWarn, hThresholds, -⟩ := noteLag_outs (lagText namingContexts updateRef) 0 s
  obtain ⟨reported, hReport, hReported⟩ := mpPerfdataFloat2_threshold ['l', 'a', 'g'] ['s']
    (noteLag (lagText namingContexts updateRef) 0 s).thresholds false false showPerfdata
    (noteLag (lagText namingContexts updateRef) 0 s).perfdata 0 0 0
  refine ⟨{ noteLag (lagText namingContexts updateRef) 0 s with
    thresholds := reported.threshold, perfdata := reported.perfdata }, ?_, hCrit, hWarn, ?_⟩
  · have hZero : ((localTime - localTime : Int) : ℚ) = 0 := by simp
    simp only [checkDatabase, hContexts, hRefs, readCsn_eq csnTime hLocal, hConnect, hZero, bind,
      Except.bind, mpPerfdataFloat, hReport]
  · show reported.threshold = _
    rw [hReported, hThresholds]
    rfl

theorem checkDatabase_skipped (s : ReplicationState) {database : MonitorEntry}
    (h : database.namingContexts = [] ∨ database.monitorUpdateRef = []) :
    checkDatabase csnTime lagText connect ld showPerfdata s database = .ok s := by
  rw [checkDatabase]
  rcases h with hNone | hNone
  · rw [hNone]
  · rw [hNone]
    cases database.namingContexts <;> rfl

/-- The loop notes the states of databases that are not behind, one for each. -/
theorem checkDatabases_eq (monitor : List MonitorEntry) {lags : List ℚ}
    (hLags : (replicated monitor).mapM (lagOf csnTime connect ld) = some lags)
    (s : ReplicationState) :
    ∃ s', monitor.foldlM (checkDatabase csnTime lagText connect ld showPerfdata) s = .ok s' ∧
      (s'.outCrit.isSome ↔
        s.outCrit.isSome ∨ .critical ∈ zeroStatuses lags.length s.thresholds) ∧
      (s'.outWarn.isSome ↔
        s.outWarn.isSome ∨ .warning ∈ zeroStatuses lags.length s.thresholds) := by
  induction monitor generalizing lags s with
  | nil =>
      obtain rfl : [] = lags := Option.some.inj hLags
      exact ⟨s, rfl, by simp [zeroStatuses], by simp [zeroStatuses]⟩
  | cons database monitor ih =>
      have hSkip (hNone : database.namingContexts = [] ∨ database.monitorUpdateRef = []) :
          replicated (database :: monitor) = replicated monitor := by
        apply List.filterMap_cons_none
        rcases hNone with hNone | hNone
        · rw [hNone]
        · rw [hNone]
          cases database.namingContexts <;> rfl
      cases hContexts : database.namingContexts with
      | nil =>
          rw [hSkip (Or.inl hContexts)] at hLags
          rw [List.foldlM_cons, checkDatabase_skipped _ _ _ _ _ s (Or.inl hContexts)]
          exact ih hLags s
      | cons namingContexts more =>
          cases hRefs : database.monitorUpdateRef with
          | nil =>
              rw [hSkip (Or.inr hRefs)] at hLags
              rw [List.foldlM_cons, checkDatabase_skipped _ _ _ _ _ s (Or.inr hRefs)]
              exact ih hLags s
          | cons updateRef moreRefs =>
              have hHere : replicated (database :: monitor) =
                  (namingContexts, updateRef) :: replicated monitor := by
                apply List.filterMap_cons_some
                rw [hContexts, hRefs]
              rw [hHere, List.mapM_cons] at hLags
              simp only [Option.bind_eq_bind, Option.bind_eq_some_iff, Option.pure_def,
                Option.some.injEq] at hLags
              obtain ⟨lag, hLag, rest, hRest, rfl⟩ := hLags
              obtain ⟨middle, hStep, hCrit, hWarn, hThresholds⟩ := checkDatabase_replicated
                csnTime lagText connect ld showPerfdata s hContexts hRefs hLag
              obtain ⟨s', hRun, hCrit', hWarn'⟩ := ih hRest middle
              refine ⟨s', ?_, ?_, ?_⟩
              · rw [List.foldlM_cons, hStep]
                exact hRun
              · rw [hCrit', hCrit, hThresholds, List.length_cons, zeroStatuses, List.mem_cons,
                  or_assoc, eq_comm (a := Status.critical)]
              · rw [hWarn', hWarn, hThresholds, List.length_cons, zeroStatuses, List.mem_cons,
                  or_assoc, eq_comm (a := Status.warning)]

end Run

/-- The lags that are there alert as often as no lag would: in the first database with the
thresholds as given, in the others with percent bounds resolved. -/
structure AlertsLikeZero (lags : List ℚ) (thresholds : Option Thresholds) : Prop where
  critical : (∃ lag ∈ lags, getStatus lag thresholds = .critical) ↔
    (1 ≤ lags.length ∧ getStatus 0 thresholds = .critical) ∨
    (2 ≤ lags.length ∧ getStatus 0 (reportedThresholds thresholds) = .critical)
  warning : (∃ lag ∈ lags, getStatus lag thresholds = .critical) ∨
    ((∃ lag ∈ lags, getStatus lag thresholds = .warning) ↔
      (1 ≤ lags.length ∧ getStatus 0 thresholds = .warning) ∨
      (2 ≤ lags.length ∧ getStatus 0 (reportedThresholds thresholds) = .warning))

theorem lagStatus_eq_iff (lags : List ℚ) (thresholds : Option Thresholds) :
    (if .critical ∈ zeroStatuses lags.length thresholds then .critical
      else if .warning ∈ zeroStatuses lags.length thresholds then .warning
      else .ok) = lagStatus lags thresholds ↔ AlertsLikeZero lags thresholds := by
  have hGiven (status : Status) : status ∈ lags.map (getStatus · thresholds) ↔
      ∃ lag ∈ lags, getStatus lag thresholds = status := List.mem_map
  rw [lagStatus]
  constructor
  · intro hSame
    have hCritical : .critical ∈ zeroStatuses lags.length thresholds ↔
        .critical ∈ lags.map (getStatus · thresholds) := by
      split_ifs at hSame <;> simp_all
    refine ⟨?_, ?_⟩
    · rw [← hGiven, ← hCritical, mem_zeroStatuses_iff]
    · by_cases hFound : .critical ∈ lags.map (getStatus · thresholds)
      · exact Or.inl ((hGiven _).mp hFound)
      · right
        rw [if_neg (mt hCritical.mp hFound), if_neg hFound] at hSame
        rw [← hGiven, ← mem_zeroStatuses_iff]
        split_ifs at hSame <;> simp_all
  · intro h
    have hCritical := h.critical
    have hWarning := h.warning
    rw [← mem_zeroStatuses_iff, ← hGiven] at hCritical
    rw [← mem_zeroStatuses_iff, ← hGiven, ← hGiven] at hWarning
    by_cases hFound : .critical ∈ lags.map (getStatus · thresholds)
    · rw [if_pos (hCritical.mp hFound), if_pos hFound]
    · have hWarn := hWarning.resolve_left hFound
      simp only [if_neg hFound, if_neg (mt hCritical.mpr hFound), hWarn]

/-- The exit is that of the lags between slave and masters exactly if these alert as no
lag does: the times compared both come from the slave. -/
theorem checkReplication_lag_iff (csnTime : List Char → Int)
    (lagText : List Char → List Char → List Char) (connect : List Char → Option Directory)
    (ld : Directory) (showPerfdata : Bool) (monitor : List MonitorEntry)
    (thresholds : Option Thresholds) {lags : List ℚ}
    (hLags : (replicated monitor).mapM (lagOf csnTime connect ld) = some lags) :
    (∃ message, checkReplication csnTime lagText connect ld showPerfdata monitor thresholds =
        .exit (lagStatus lags thresholds) message) ↔ AlertsLikeZero lags thresholds := by
  obtain ⟨s, hRun, hCrit, hWarn⟩ := checkDatabases_eq csnTime lagText connect ld showPerfdata
    monitor hLags { outWarn := none, outCrit := none, thresholds := thresholds, perfdata := none }
  simp only [Option.isSome_none, Bool.false_eq_true, false_or] at hCrit hWarn
  have hExit : ∃ message, checkReplication csnTime lagText connect ld showPerfdata monitor
      thresholds = .exit (if .critical ∈ zeroStatuses lags.length thresholds then .critical
        else if .warning ∈ zeroStatuses lags.length thresholds then .warning
        else .ok) message := by
    simp only [checkReplication, hRun, ← hCrit, ← hWarn]
    cases s.outCrit with
    | some out => exact ⟨_, rfl⟩
    | none =>
        cases s.outWarn with
        | some out => exact ⟨_, rfl⟩
        | none => exact ⟨_, rfl⟩
  obtain ⟨message, hMessage⟩ := hExit
  rw [← lagStatus_eq_iff, hMessage]
  constructor
  · rintro ⟨message', hSame⟩
    exact (ReplicationEnd.exit.inj hSame).1
  · intro hSame
    exact ⟨message, by rw [hSame]⟩

/-- Midnight and two o'clock on the first of January 2024. -/
def midnight : List Char := "20240101000000Z".toList
def twoOClock : List Char := "20240101020000Z".toList

def fivePast : List Char := "20240101000500Z".toList

/-- Seconds since 1970 in UTC. -/
def utcTime (csn : List Char) : Int :=
  if csn = twoOClock then 1704074400 else if csn = fivePast then 1704067500 else 1704067200

def contextDn : List Char := "dc=example".toList
def masterUri : List Char := "ldap://master".toList

/-- A slave with one database that was last changed at midnight. -/
def slaveServer : Directory := { contextCSN := fun _ => some [midnight] }

/-- Its master, with a change at this time. -/
def masterAt (csn : List Char) (uri : List Char) : Option Directory :=
  if uri = masterUri then some { contextCSN := fun _ => some [csn] } else none

def monitorEntries : List MonitorEntry :=
  [{ namingContexts := [contextDn], monitorUpdateRef := [masterUri] }]

def behindText (namingContexts updateRef : List Char) : List Char :=
  namingContexts ++ " is 0.0s behind ".toList ++ updateRef

/-- The thresholds the plugin sets when it is given none, "600s" and "3600s". -/
def defaultThresholds : Thresholds :=
  { warning := some { start := 0, startInfinity := false, startPercent := false,
                      end_ := 600, endInfinity := false, endPercent := false, alertOn := .outside }
    critical := some { start := 0, startInfinity := false, startPercent := false,
                       end_ := 3600, endInfinity := false, endPercent := false,
                       alertOn := .outside } }

theorem lags_twoOClock :
    (replicated monitorEntries).mapM (lagOf utcTime (masterAt twoOClock) slaveServer) =
      some [((7200 : Int) : ℚ)] := rfl

/-- A second database, in front of an entry of another kind. -/
def peopleDn : List Char := "ou=people,dc=example".toList

def twoDatabases : List MonitorEntry :=
  monitorEntries ++ [{ namingContexts := [], monitorUpdateRef := [] },
    { namingContexts := [peopleDn], monitorUpdateRef := [masterUri] }]

/-- A master with a change at five past in the first database. -/
def masterAhead (uri : List Char) : Option Directory :=
  if uri = masterUri then
    some { contextCSN := fun base => some [if base = contextDn then fivePast else midnight] }
  else none

theorem lags_fivePast :
    (replicated twoDatabases).mapM (lagOf utcTime masterAhead slaveServer) =
      some [((300 : Int) : ℚ), ((0 : Int) : ℚ)] := rfl

/-- A lag of five minutes raises no alert. -/
theorem checkReplication_lag_iff_fivePast :
    ∃ message, checkReplication utcTime behindText masterAhead slaveServer true twoDatabases
      (some defaultThresholds) =
        .exit (lagStatus [((300 : Int) : ℚ), ((0 : Int) : ℚ)] (some defaultThresholds)) message := by
  refine (checkReplication_lag_iff utcTime behindText masterAhead slaveServer true twoDatabases
    (some defaultThresholds) lags_fivePast).mpr ?_
  constructor
  · decide +kernel
  · decide +kernel

/-- A slave that is two hours behind is fine to the plugin. -/
theorem checkReplication_two_hours :
    (replicated monitorEntries).mapM (lagOf utcTime (masterAt twoOClock) slaveServer) =
        some [((7200 : Int) : ℚ)] ∧
      checkReplication utcTime behindText (masterAt twoOClock) slaveServer false monitorEntries
        (some defaultThresholds) = .exit .ok slaveText ∧
      lagStatus [((7200 : Int) : ℚ)] (some defaultThresholds) = .critical := by
  refine ⟨lags_twoOClock, by decide, by decide⟩

end MonitoringPlug.Ldap
