import MonitoringPlug.Lib.Scanner
import MonitoringPlug.Net.Dialogue
import MonitoringPlug.Perfdata.Report
import MonitoringPlug.Check.Bonding
import MonitoringPlug.Snmp.Ups

/-! `check_memcached`: the answer to the `stats` command, line by line, and the version
and the performance data the check ends with. -/
namespace MonitoringPlug.Base

open CText Scanner Dialogue
open MonitoringPlug.Args MonitoringPlug.Common MonitoringPlug.Net MonitoringPlug.Perfdata
open MonitoringPlug.Check (formatString)
open MonitoringPlug.Snmp (toInt)

/-- What the loop of `main` gathers; -1 where the server did not tell. -/
structure Stats where
  version : Option (List Char)
  bytes : Int
  limitMaxbytes : Int
  perfdata : Option (List Char)
deriving DecidableEq

def Stats.start : Stats := { version := none, bytes := -1, limitMaxbytes := -1, perfdata := none }

inductive Answered where
  | stats (s : Stats)
  | refused
deriving DecidableEq

def versionKey : List Char := "version".toList
def limitKey : List Char := "limit_maxbytes".toList
def bytesKey : List Char := "bytes".toList

/-- The label that a counter is reported under. -/
def counterLabel (key : List Char) : Option (List Char) :=
  if key = "total_connections".toList then some "connections".toList
  else if key = "total_items".toList then some "total_items".toList
  else if key = "curr_items".toList then some "items".toList
  else if key = "evictions".toList then some "evictions".toList
  else if "cmd_".toList.isPrefixOf key then some (key.drop 4)
  else none

/-- `strtol` reads the value, which is NULL when there is no blank behind the key. -/
def reportCounter (label : List Char) (value : Option (List Char)) (s : Stats) :
    Option Stats := do
  let value ← value
  let reported ← mpPerfdataInt label (strtol 10 value) ['c'] none true s.perfdata
  some { s with perfdata := reported.perfdata }

/-- The body under `STAT `, from the key on. -/
def readStat (showPerfdata : Bool) (line : List Char) (s : Stats) : Option Stats :=
  let (key, value) := strsep ' ' line
  if key = versionKey then value.map fun value => { s with version := some value }
  else if !showPerfdata then some s
  else if key = limitKey then
    value.map fun value => { s with limitMaxbytes := toInt (strtol 10 value) }
  else if key = bytesKey then
    value.map fun value => { s with bytes := toInt (strtol 10 value) }
  else
    match counterLabel key with
    | some label => reportCounter label value s
    | none => some s

/-- The loop, from the `stats` command on. -/
def stats (showPerfdata : Bool) : Client Stats (List UInt8) (List UInt8) Answered :=
  fun s line => do
    let _ ← chomp line
    if Says (ascii "STAT ") line then
      let s ← readStat showPerfdata (characters ((chomped line).drop 5)) s
      some (.go s [])
    else if Says (ascii "END") line then some (.stop (.stats s))
    else some (.stop .refused)

/-- The text of `ok` in the three branches. All of them exit as ok. -/
def memcachedText (version : Option (List Char)) : Status → List Char
  | .ok => "Memcached ".toList ++ formatString version
  | .warning => "Memcached ".toList ++ formatString version ++ " is slow.".toList
  | _ => "Memcached ".toList ++ formatString version ++ " is real slow.".toList

/-- The memory as it is reported behind the loop. -/
def reportBytes (s : Stats) : Option (Option (List Char)) :=
  mpPerfdataInt3 "bytes".toList s.bytes [] false 0 false 0 true 0 true s.limitMaxbytes true
    s.perfdata

/-- `main` behind the loop: the text and the performance data of the exit. -/
def memcachedExit (showPerfdata : Bool) (s : Stats) (timeDelta : ℚ)
    (thresholds : Option Thresholds) : Option (List Char × Option (List Char)) :=
  if showPerfdata then do
    let perfdata ← reportBytes s
    let time ← mpPerfdataFloat "time".toList timeDelta ['s'] thresholds true perfdata
    some (memcachedText s.version (getStatus timeDelta time.threshold), time.perfdata)
  else some (memcachedText s.version (getStatus timeDelta thresholds), s.perfdata)

/-- Key and value of a line behind `STAT `. -/
def statOf (line : List UInt8) : List Char × Option (List Char) :=
  strsep ' ' (characters ((chomped line).drop 5))

/-- The keys whose value the loop looks at. -/
def usesValue (showPerfdata : Bool) (key : List Char) : Bool :=
  key = versionKey || (showPerfdata &&
    (key = limitKey || key = bytesKey || (counterLabel key).isSome))

/-- A line the loop goes on behind: no NULL is read for it. -/
def GoesOn (showPerfdata : Bool) (line : List UInt8) : Prop :=
  Says (ascii "STAT ") line ∧
    (usesValue showPerfdata (statOf line).1 = true → (statOf line).2.isSome)

def valueOf (key : List Char) (line : List UInt8) : Option (List Char) :=
  if (statOf line).1 = key then (statOf line).2 else none

/-- The last value told for a key. -/
def lastValue (key : List Char) (lines : List (List UInt8)) : Option (List Char) :=
  (lines.filterMap (valueOf key)).getLast?

def lastInt (key : List Char) (lines : List (List UInt8)) : Int :=
  ((lastValue key lines).map fun value => toInt (strtol 10 value)).getD (-1)

def counterItem (label value : List Char) : Item :=
  { label := label, value := strtol 10 value, unit := ['c']
    warn := none, crit := none, min := none, max := none }

def counterOf (line : List UInt8) : Option Item := do
  let label ← counterLabel (statOf line).1
  let value ← (statOf line).2
  some (counterItem label value)

/-- What the check knows once it has read these lines. -/
def gathered (showPerfdata : Bool) (lines : List (List UInt8)) : Stats :=
  if showPerfdata then
    { version := lastValue versionKey lines
      bytes := lastInt bytesKey lines
      limitMaxbytes := lastInt limitKey lines
      perfdata := perfdataText (lines.filterMap counterOf) }
  else { Stats.start with version := lastValue versionKey lines }

section Line

variable {showPerfdata : Bool} {line : List UInt8} {lines : List (List UInt8)} {key : List Char}

theorem lastValue_other (h : (statOf line).1 ≠ key) :
    lastValue key (lines ++ [line]) = lastValue key lines := by
  simp [lastValue, valueOf, h]

theorem lastValue_told {value : List Char} (hKey : (statOf line).1 = key)
    (hValue : (statOf line).2 = some value) :
    lastValue key (lines ++ [line]) = some value := by
  simp [lastValue, valueOf, hKey, hValue]

theorem counters_other (h : counterLabel (statOf line).1 = none) :
    (lines ++ [line]).filterMap counterOf = lines.filterMap counterOf := by
  simp [counterOf, h]

theorem lastInt_other (h : (statOf line).1 ≠ key) :
    lastInt key (lines ++ [line]) = lastInt key lines := by
  rw [lastInt, lastValue_other h, lastInt]

theorem lastInt_told {value : List Char} (hKey : (statOf line).1 = key)
    (hValue : (statOf line).2 = some value) :
    lastInt key (lines ++ [line]) = toInt (strtol 10 value) := by
  rw [lastInt, lastValue_told hKey hValue, Option.map_some, Option.getD_some]

theorem readStat_eq (s : Stats) :
    readStat showPerfdata (characters ((chomped line).drop 5)) s =
      if (statOf line).1 = versionKey then
        (statOf line).2.map fun value => { s with version := some value }
      else if !showPerfdata then some s
      else if (statOf line).1 = limitKey then
        (statOf line).2.map fun value => { s with limitMaxbytes := toInt (strtol 10 value) }
      else if (statOf line).1 = bytesKey then
        (statOf line).2.map fun value => { s with bytes := toInt (strtol 10 value) }
      else
        match counterLabel (statOf line).1 with
        | some label => reportCounter label (statOf line).2 s
        | none => some s := rfl

/-- A counter is one more item, and nothing else changes. -/
theorem reportCounter_gathered {label value : List Char}
    (hLabel : counterLabel (statOf line).1 = some label) (hValue : (statOf line).2 = some value) :
    reportCounter label (some value) (gathered true lines) =
      some { gathered true lines with
        perfdata := perfdataText ((lines ++ [line]).filterMap counterOf) } := by
  have hCounter : counterOf line = some (counterItem label value) := by
    simp [counterOf, hLabel, hValue]
  have hUnit : ∀ c ∈ ['c'], isUnitChar c = true := List.forall_mem_singleton.mpr rfl
  have hReport := mpPerfdataInt2_showing label (strtol 10 value) ⟨['c'], hUnit⟩ none false 0
    false 0 (gathered true lines).perfdata
  have hAppend : perfdataText ((lines ++ [line]).filterMap counterOf) =
      some (joinItem (gathered true lines).perfdata (counterItem label value).text) := by
    rw [List.filterMap_append, List.filterMap_cons_some hCounter, List.filterMap_nil,
      perfdataText_append]
    rfl
  rw [hAppend, reportCounter, Option.bind_eq_bind, Option.bind_some]
  exact congrArg (Option.bind · _) hReport

/-- One line more. -/
theorem readStat_gathered (h : GoesOn showPerfdata line) :
    readStat showPerfdata (characters ((chomped line).drop 5)) (gathered showPerfdata lines) =
      some (gathered showPerfdata (lines ++ [line])) := by
  have hReads := h.2
  rw [readStat_eq]
  by_cases hVersion : (statOf line).1 = versionKey
  · obtain ⟨value, hValue⟩ := Option.isSome_iff_exists.mp (hReads (by simp [usesValue, hVersion]))
    have hCounter : counterLabel (statOf line).1 = none := by rw [hVersion]; decide
    have hBytes : (statOf line).1 ≠ bytesKey := by rw [hVersion]; decide
    have hLimit : (statOf line).1 ≠ limitKey := by rw [hVersion]; decide
    rw [if_pos hVersion, hValue]
    simp only [gathered, lastValue_told hVersion hValue, lastInt_other hBytes,
      lastInt_other hLimit, counters_other hCounter, Option.map_some]
    cases showPerfdata <;> rfl
  · rw [if_neg hVersion]
    cases showPerfdata with
    | false => simp [gathered, lastValue_other hVersion]
    | true =>
        simp only [Bool.not_true, Bool.false_eq_true, if_false]
        by_cases hLimit : (statOf line).1 = limitKey
        · obtain ⟨value, hValue⟩ :=
            Option.isSome_iff_exists.mp (hReads (by simp [usesValue, hLimit]))
          have hCounter : counterLabel (statOf line).1 = none := by rw [hLimit]; decide
          have hBytes : (statOf line).1 ≠ bytesKey := by rw [hLimit]; decide
          simp [gathered, hLimit, hValue, lastValue_other hVersion, lastInt_told hLimit hValue,
            lastInt_other hBytes, counters_other hCounter]
        · by_cases hBytes : (statOf line).1 = bytesKey
          · obtain ⟨value, hValue⟩ :=
              Option.isSome_iff_exists.mp (hReads (by simp [usesValue, hBytes]))
            have hCounter : counterLabel (statOf line).1 = none := by rw [hBytes]; decide
            rw [if_neg hLimit, if_pos hBytes]
            simp [gathered, hValue, lastValue_other hVersion, lastInt_told hBytes hValue,
              lastInt_other hLimit, counters_other hCounter]
          · rw [if_neg hLimit, if_neg hBytes]
            cases hLabel : counterLabel (statOf line).1 with
            | none =>
                simp [gathered, lastValue_other hVersion, lastInt_other hLimit,
                  lastInt_other hBytes, counters_other hLabel]
            | some label =>
                obtain ⟨value, hValue⟩ :=
                  Option.isSome_iff_exists.mp (hReads (by simp [usesValue, hLabel]))
                rw [hValue]
                simp only [reportCounter_gathered hLabel hValue]
                simp [gathered, lastValue_other hVersion, lastInt_other hLimit,
                  lastInt_other hBytes]

theorem readStat_fault {s : Stats} (hUses : usesValue showPerfdata (statOf line).1 = true)
    (hValue : (statOf line).2 = none) :
    readStat showPerfdata (characters ((chomped line).drop 5)) s = none := by
  rw [readStat_eq, hValue]
  by_cases hVersion : (statOf line).1 = versionKey
  · rw [if_pos hVersion, Option.map_none]
  · cases showPerfdata with
    | false => simp [usesValue, hVersion] at hUses
    | true =>
        rw [if_neg hVersion, if_neg (by simp)]
        by_cases hLimit : (statOf line).1 = limitKey
        · rw [if_pos hLimit, Option.map_none]
        · by_cases hBytes : (statOf line).1 = bytesKey
          · rw [if_neg hLimit, if_pos hBytes, Option.map_none]
          · rw [if_neg hLimit, if_neg hBytes]
            cases hLabel : counterLabel (statOf line).1 with
            | none => simp [usesValue, hVersion, hLimit, hBytes, hLabel] at hUses
            | some label => rfl

end Line

section Answer

variable {showPerfdata : Bool} {line : List UInt8} {s : Stats}

theorem says_nonempty {literal : List UInt8} (h : Says literal line) (hSome : literal ≠ []) :
    line ≠ [] := by
  rintro rfl
  exact hSome (List.prefix_nil.mp h)

theorem stat_not_end (h : Says (ascii "END") line) : ¬Says (ascii "STAT ") line := by
  intro hStat
  have hPrefix := List.prefix_of_prefix_length_le h hStat (by decide)
  revert hPrefix
  decide

theorem stats_end (h : Says (ascii "END") line) :
    stats showPerfdata s line = some (.stop (.stats s)) := by
  simp [stats, chomp_nonempty (says_nonempty h (by decide)), stat_not_end h, h]

theorem stats_refused (hSome : line ≠ []) (hStat : ¬Says (ascii "STAT ") line)
    (hEnd : ¬Says (ascii "END") line) : stats showPerfdata s line = some (.stop .refused) := by
  simp [stats, chomp_nonempty hSome, hStat, hEnd]

theorem stats_stat (h : Says (ascii "STAT ") line) :
    stats showPerfdata s line =
      (readStat showPerfdata (characters ((chomped line).drop 5)) s).map (.go · []) := by
  simp only [stats, chomp_nonempty (says_nonempty h (by decide)), Option.bind_eq_bind,
    Option.bind_some, if_pos h]
  cases readStat showPerfdata (characters ((chomped line).drop 5)) s <;> rfl

theorem stats_goesOn {lines : List (List UInt8)} (h : GoesOn showPerfdata line) :
    stats showPerfdata (gathered showPerfdata lines) line =
      some (.go (gathered showPerfdata (lines ++ [line])) []) := by
  rw [stats_stat h.1, readStat_gathered h, Option.map_some]

theorem goesOn_of_stats {next : Stats} {messages : List (List UInt8)}
    (h : stats showPerfdata s line = some (.go next messages)) : GoesOn showPerfdata line := by
  by_cases hEmpty : line = []
  · subst hEmpty
    cases h
  by_cases hStat : Says (ascii "STAT ") line
  · refine ⟨hStat, fun hUses => ?_⟩
    rw [Option.isSome_iff_ne_none]
    intro hValue
    rw [stats_stat hStat, readStat_fault hUses hValue] at h
    cases h
  · by_cases hEnd : Says (ascii "END") line
    · rw [stats_end hEnd] at h
      cases h
    · rw [stats_refused hEmpty hStat hEnd] at h
      cases h

theorem end_of_stats {ended : Stats}
    (h : stats showPerfdata s line = some (.stop (.stats ended))) :
    Says (ascii "END") line ∧ ended = s := by
  by_cases hEmpty : line = []
  · subst hEmpty
    cases h
  by_cases hEnd : Says (ascii "END") line
  · rw [stats_end hEnd] at h
    cases h
    exact ⟨hEnd, rfl⟩
  · by_cases hStat : Says (ascii "STAT ") line
    · rw [stats_stat hStat, Option.map_eq_some_iff] at h
      obtain ⟨next, -, hGo⟩ := h
      cases hGo
    · rw [stats_refused hEmpty hStat hEnd] at h
      cases h

/-- The loop, once it has read some lines. -/
theorem converse_stats (showPerfdata : Bool) (s : Stats) (told lines : List (List UInt8)) :
    (converse (stats showPerfdata) (gathered showPerfdata told) lines).outcome =
        .ended (.stats s) ↔
      ∃ more last rest, lines = more ++ last :: rest ∧
        (∀ line ∈ more, GoesOn showPerfdata line) ∧ Says (ascii "END") last ∧
        s = gathered showPerfdata (told ++ more) := by
  constructor
  · intro h
    induction lines generalizing told with
    | nil => cases h
    | cons line lines ih =>
        cases hReply : stats showPerfdata (gathered showPerfdata told) line with
        | none =>
            rw [converse_outside hReply] at h
            cases h
        | some reply =>
            cases reply with
            | stop result =>
                rw [converse_stop hReply] at h
                cases h
                obtain ⟨hEnd, rfl⟩ := end_of_stats hReply
                exact ⟨[], line, lines, rfl, by simp, hEnd, by rw [List.append_nil]⟩
            | go next messages =>
                have hGoesOn := goesOn_of_stats hReply
                rw [stats_goesOn hGoesOn] at hReply
                cases hReply
                rw [converse_go (stats_goesOn hGoesOn)] at h
                obtain ⟨more, last, rest, rfl, hMore, hLast, rfl⟩ := ih _ h
                refine ⟨line :: more, last, rest, rfl, ?_, hLast, by simp⟩
                exact List.forall_mem_cons.mpr ⟨hGoesOn, hMore⟩
  · rintro ⟨more, last, rest, rfl, hMore, hLast, rfl⟩
    induction more generalizing told with
    | nil =>
        rw [List.nil_append, converse_stop (stats_end hLast), List.append_nil]
    | cons line more ih =>
        obtain ⟨hLine, hRest⟩ := List.forall_mem_cons.mp hMore
        have hNext := ih (told ++ [line]) hRest
        rw [List.cons_append, converse_go (stats_goesOn hLine)]
        simpa using hNext

end Answer

/-- However the answer is cut into pieces, the loop ends with what its lines say: it
needs a line `END` behind lines `STAT `, and a value in each of them that it looks at. -/
theorem memcached_ends_iff (showPerfdata : Bool) (chunks : List Chunk) (s : Stats) :
    (∃ ending, CLoop.Returns (pass (stats showPerfdata) Connection.recvLine)
        ⟨Stats.start, .fresh chunks, []⟩ ending ∧ ending.outcome = .ended (.stats s)) ↔
      ∃ told last rest, (streamLines (Connection.fresh chunks).arriving).1 = told ++ last :: rest ∧
        (∀ line ∈ told, GoesOn showPerfdata line) ∧ Says (ascii "END") last ∧
        s = gathered showPerfdata told := by
  have hStart : gathered showPerfdata [] = Stats.start := by
    cases showPerfdata <;> rfl
  have hLoop := converse_stats showPerfdata s [] (streamLines (Connection.fresh chunks).arriving).1
  rw [hStart] at hLoop
  simp only [List.nil_append] at hLoop
  obtain ⟨shown, hReturns, hOutcome, -, -⟩ :=
    recvLine_shows.converses (stats showPerfdata) Stats.start (.fresh chunks)
  rw [← hLoop]
  constructor
  · rintro ⟨ending, hEnds, hEnded⟩
    rw [hEnds.unique hReturns, hOutcome] at hEnded
    exact hEnded
  · intro hEnded
    exact ⟨shown, hReturns, hOutcome.trans hEnded⟩

/-- The memory item that is reported behind the counters. -/
def bytesItem (lines : List (List UInt8)) : Item :=
  { label := bytesKey, value := lastInt bytesKey lines, unit := []
    warn := none, crit := none, min := some 0, max := some (lastInt limitKey lines) }

/-- The exit with performance data, for any answer whose counters have labels that the
notation can carry: the text names the last version and is no alert however slow the
server was, and in front of the time the performance data decodes to the counters in
their order and the memory. -/
theorem memcachedExit_decodes (lines : List (List UInt8))
    (hLabels : ∀ item ∈ lines.filterMap counterOf, item.label ≠ [] ∧ '\'' ∉ item.label)
    (timeDelta : ℚ) (thresholds : Option Thresholds) :
    ∃ perfdata time, reportBytes (gathered true lines) = some perfdata ∧
      decodePerfdata perfdata = some (lines.filterMap counterOf ++ [bytesItem lines]) ∧
      mpPerfdataFloat "time".toList timeDelta ['s'] thresholds true perfdata = some time ∧
      memcachedExit true (gathered true lines) timeDelta thresholds =
        some (memcachedText (lastValue versionKey lines)
          (getStatus timeDelta (mpPerfdataPercentResolv thresholds 0)), time.perfdata) := by
  have hReport := mpPerfdataInt2_showing bytesKey (lastInt bytesKey lines) ⟨[], by simp⟩ none true 0
    true (lastInt limitKey lines) (perfdataText (lines.filterMap counterOf))
  have hBytes : reportBytes (gathered true lines) =
      some (perfdataText (lines.filterMap counterOf ++ [bytesItem lines])) := by
    rw [perfdataText_append]
    exact congrArg (Option.map Reported.perfdata) hReport
  have hItems : ∀ item ∈ lines.filterMap counterOf ++ [bytesItem lines], item.WellFormed := by
    intro item hItem
    rcases List.mem_append.mp hItem with hCounter | hLast
    · obtain ⟨hSome, hQuotes⟩ := hLabels item hCounter
      obtain ⟨line, -, hLine⟩ := List.mem_filterMap.mp hCounter
      simp only [counterOf, Option.bind_eq_bind, Option.bind_eq_some_iff] at hLine
      obtain ⟨label, -, value, -, hItem⟩ := hLine
      cases hItem
      exact ⟨hSome, hQuotes, by simp [counterItem, isUnitChar], by simp [counterItem],
        by simp [counterItem]⟩
    · rw [List.mem_singleton.mp hLast]
      exact ⟨by simp [bytesItem, bytesKey], by simp [bytesItem, bytesKey], by simp [bytesItem],
        by simp [bytesItem], by simp [bytesItem]⟩
  obtain ⟨time, hTime, hThreshold⟩ := mpPerfdataFloat2_threshold "time".toList ['s'] thresholds
    false false true (perfdataText (lines.filterMap counterOf ++ [bytesItem lines])) timeDelta 0 0
  refine ⟨_, time, hBytes, decodePerfdata_text _ hItems, hTime, ?_⟩
  have hText : memcachedExit true (gathered true lines) timeDelta thresholds =
      some (memcachedText (gathered true lines).version (getStatus timeDelta time.threshold),
        time.perfdata) := by
    rw [memcachedExit, if_pos rfl, hBytes, Option.bind_eq_bind, Option.bind_some]
    exact congrArg (Option.bind · _) hTime
  rw [hText, hThreshold]
  rfl

def sampleStats : List (List UInt8) :=
  [ascii "STAT version 1.6\r", ascii "STAT cmd_get 3\r", ascii "STAT version 1.7\r"]

theorem memcachedExit_sample :
    ∃ perfdata time, reportBytes (gathered true sampleStats) = some perfdata ∧
      decodePerfdata perfdata =
        some (sampleStats.filterMap counterOf ++ [bytesItem sampleStats]) ∧
      mpPerfdataFloat "time".toList 1 ['s'] none true perfdata = some time ∧
      memcachedExit true (gathered true sampleStats) 1 none =
        some (memcachedText (lastValue versionKey sampleStats)
          (getStatus 1 (mpPerfdataPercentResolv none 0)), time.perfdata) :=
  memcachedExit_decodes sampleStats (by decide +kernel) 1 none

end MonitoringPlug.Base
