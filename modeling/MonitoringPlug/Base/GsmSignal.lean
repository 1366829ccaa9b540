import MonitoringPlug.Perfdata.Report
import MonitoringPlug.Sms.Session
import MonitoringPlug.Snmp.Ups

/-! `check_gsm_signal`: the operator, the network and the signal quality are asked from the
modem once the SIM is unlocked. -/
namespace MonitoringPlug.Base

open CMemory CText Dialogue Scanner
open MonitoringPlug.Args MonitoringPlug.Common MonitoringPlug.Perfdata MonitoringPlug.Sms
open MonitoringPlug.Snmp (toInt)

structure GsmSignal where
  pin : Option CString
  showPerfdata : Bool
  dbmThresholds : Option Thresholds

/-- What is known about where the modem is registered. -/
structure Registration where
  operator : List Char
  network : List Char
deriving DecidableEq

/-- The command whose reply is waited for: `+COPS`, `+COPN` or `+CSQ`. -/
inductive SignalPhase where
  | operator
  | names (r : Registration)
  | quality (r : Option Registration)
deriving DecidableEq

theorem question_nul : 0 ∉ ascii "?" := by decide

theorem csq_nul : 0 ∉ ascii "+CSQ" := by decide

def copsQuery : Command :=
  ⟨⟨ascii "+COPS", by decide⟩, some ⟨ascii "?", question_nul⟩, none, true⟩

def copnQuery : Command := ⟨⟨ascii "+COPN", by decide⟩, none, none, true⟩

def csqQuery : Command := ⟨⟨ascii "+CSQ", csq_nul⟩, none, none, true⟩

/-- The `switch` on what is behind the operator. -/
def networkOf : List Char → List Char
  | '0' :: _ => "GSM".toList
  | '1' :: _ => "GSM".toList
  | '2' :: _ => "UMTS".toList
  | '3' :: _ => "EDGE".toList
  | '4' :: _ => "HSDPA".toList
  | '5' :: _ => "HSUPA".toList
  | '6' :: _ => "HSPA".toList
  | '7' :: _ => "LTE".toList
  | _ => "5G or newer".toList

/-- The format and the registration in the answer to `+COPS`. NULL is read where a comma is
missing. -/
def readCops (answer : List Char) : Option (Int × Registration) := do
  let format ← (strsep ',' answer).2
  let operator ← (strsep ',' format).2
  let network ← (strsep ',' operator).2
  some (toInt (strtol 10 (strsep ',' format).1),
    { operator := (strsep ',' operator).1, network := networkOf network })

/-- The name in the first of the answers to `+COPN` that starts with the operator. -/
def readCopn (operator : List Char) (answers : List (List Char)) : Option (List Char) :=
  match answers.find? fun answer => operator.isPrefixOf answer with
  | none => some operator
  | some answer => (strsep ',' answer).2

/-- What is left of a text in quotes. -/
def unquoted : List Char → List Char
  | '"' :: rest => rest.dropLast
  | operator => operator

def Registration.unquoted (r : Registration) : Registration :=
  { r with operator := Base.unquoted r.operator }

def dbm (sq : Int) : Int := sq * 2 - 113

def signalText (r : Option Registration) (sq : Int) : List Char :=
  match r with
  | some r => r.operator ++ " [".toList ++ r.network ++ "] ".toList ++ formatLong sq ++ "dBm".toList
  | none => "Signal Quality ".toList ++ formatLong sq ++ "dBm".toList

def signalLabel : List Char := "signal".toList

/-- The three branches of `main` print the same. -/
def GsmSignal.report (g : GsmSignal) (r : Option Registration) (sq : Int) : Option Exit :=
  (mpPerfdataInt signalLabel sq "dBm".toList g.dbmThresholds g.showPerfdata none).map
    fun reported => ⟨getStatus sq reported.threshold, signalText r sq, reported.perfdata⟩

/-- `main` from the answer to `+COPS` on. -/
def hearCops (answer : List UInt8) : Option (SignalPhase ⊕ Exit) :=
  if answer.length = 1 then some (.inr (critical "Offline"))
  else
    (readCops (characters answer)).map fun (format, r) =>
      .inl (if format = 2 then .names r else .quality (some r.unquoted))

/-- And from the answer to `+CSQ` on. -/
def GsmSignal.hearCsq (g : GsmSignal) (r : Option Registration) (answer : List UInt8) :
    Option Exit :=
  let sq := toInt (strtol 10 (characters answer))
  if sq < 0 ∨ sq > 31 then
    some ⟨.unknown, "Illegal signal quality reading '".toList ++ characters answer ++ ['0'], none⟩
  else g.report r (dbm sq)

/-- `main` of `check_gsm_signal` behind the opening. `answer[0]` is NULL without answers. -/
def GsmSignal.hear (g : GsmSignal) : SignalPhase → Reply → Option (SignalPhase ⊕ Exit)
  | .operator, reply =>
      if reply.code = 0 then reply.answers.head?.bind hearCops
      else some (.inl (.quality none))
  | .names r, reply =>
      (readCopn r.operator (reply.answers.map characters)).map fun name =>
        .inl (.quality (some { r with operator := unquoted name }))
  | .quality r, reply =>
      if reply.code = 0 then (reply.answers.head?.bind (g.hearCsq r)).map .inr
      else some (.inr ⟨.unknown, "Can't read Signal quality".toList, none⟩)

def GsmSignal.asked (g : GsmSignal) (reply : Reply) : Option PinAnswer :=
  if reply.code ≠ 0 then some (.exit (critical "Checking pin failed."))
  -- Without an answer or with several of them the SIM is taken to be ready.
  else if reply.answers.length ≠ 1 then some .ready
  else comparePin g.pin reply.answers

def GsmSignal.program (g : GsmSignal) : Program SignalPhase where
  asked := g.asked
  first := .operator
  command
    | .operator => copsQuery
    | .names _ => copnQuery
    | .quality _ => csqQuery
  hear := g.hear

/-- An answer to `+COPS` from which a registration is read. -/
def Registered (reply : Reply) (format : Int) (r : Registration) : Prop :=
  reply.code = 0 ∧ ∃ answer, reply.answers.head? = some answer ∧ answer.length ≠ 1 ∧
    readCops (characters answer) = some (format, r)

/-- The events between the opening and the question for the quality, and what is then known
about the registration. -/
inductive Located : List SessionEvent → Option Registration → Prop where
  | unknown {reply} (code : reply.code ≠ 0) : Located (replied reply csqQuery) none
  | direct {reply format r} (registered : Registered reply format r) (named : format ≠ 2) :
      Located (replied reply csqQuery) (some r.unquoted)
  | numeric {reply names r name} (registered : Registered reply 2 r)
      (found : readCopn r.operator (names.answers.map characters) = some name) :
      Located (replied reply copnQuery ++ replied names csqQuery)
        (some { r with operator := unquoted name })

/-- The quality in an answer to `+CSQ`: 0 to 31, since 99 tells that it is not known. -/
def Measured (reply : Reply) (sq : Int) : Prop :=
  reply.code = 0 ∧ 0 ≤ sq ∧ sq ≤ 31 ∧ ∃ answer, reply.answers.head? = some answer ∧
    toInt (strtol 10 (characters answer)) = sq

section Hear

variable {g : GsmSignal} {phase next : SignalPhase} {reply : Reply} {e : Exit}

theorem hearCops_goes_iff {answer : List UInt8} :
    hearCops answer = some (.inl next) ↔
      answer.length ≠ 1 ∧ ∃ format r, readCops (characters answer) = some (format, r) ∧
        next = if format = 2 then .names r else .quality (some r.unquoted) := by
  rw [hearCops]
  split
  · simp [*]
  · simp [*, eq_comm]

theorem GsmSignal.hear_operator_iff :
    g.hear .operator reply = some (.inl next) ↔
      reply.code ≠ 0 ∧ next = .quality none ∨
        ∃ format r, Registered reply format r ∧
          next = if format = 2 then .names r else .quality (some r.unquoted) := by
  rw [hear]
  split
  · rename_i hCode
    simp only [Option.bind_eq_some_iff, hearCops_goes_iff, Registered, hCode]
    constructor
    · rintro ⟨answer, hFirst, hLength, format, r, hRead, rfl⟩
      exact .inr ⟨format, r, ⟨trivial, answer, hFirst, hLength, hRead⟩, rfl⟩
    · rintro (⟨hFailed, -⟩ | ⟨format, r, ⟨-, answer, hFirst, hLength, hRead⟩, rfl⟩)
      · exact absurd rfl hFailed
      · exact ⟨answer, hFirst, hLength, format, r, hRead, rfl⟩
  · rename_i hCode
    simp [Registered, hCode, eq_comm]

theorem GsmSignal.hear_names_iff {r : Registration} :
    g.hear (.names r) reply = some (.inl next) ↔
      ∃ name, readCopn r.operator (reply.answers.map characters) = some name ∧
        next = .quality (some { r with operator := unquoted name }) := by
  simp [hear, eq_comm]

theorem GsmSignal.hear_quality (g : GsmSignal) (r : Option Registration) (reply : Reply)
    (next : SignalPhase) : g.hear (.quality r) reply ≠ some (.inl next) := by
  rw [hear]
  split
  · intro h
    obtain ⟨_, _, hSame⟩ := Option.map_eq_some_iff.mp h
    cases hSame
  · simp

/-- What is said up to a phase. -/
def SignalPhase.Behind : SignalPhase → List SessionEvent → Prop
  | .operator, later => later = []
  | .names r, later => ∃ reply, Registered reply 2 r ∧ later = replied reply copnQuery
  | .quality r, later => Located later r

theorem GsmSignal.follows_iff {later : List SessionEvent} :
    Follows g.program.client (.inr .operator) later (.inr phase) ↔ phase.Behind later := by
  constructor
  · refine phase_induction (p := g.program) rfl fun front middle reply next hFront h => ?_
    have hHears : g.hear middle reply = some (.inl next) := h
    cases middle with
    | operator =>
        obtain rfl : front = [] := hFront
        obtain ⟨hCode, rfl⟩ | ⟨format, r, hRegistered, rfl⟩ := hear_operator_iff.mp hHears
        · exact .unknown hCode
        · split
          · rename_i hNumeric
            subst hNumeric
            exact ⟨reply, hRegistered, rfl⟩
          · rename_i hNamed
            exact .direct hRegistered hNamed
    | names r =>
        obtain ⟨cops, hRegistered, rfl⟩ := hFront
        obtain ⟨name, hName, rfl⟩ := hear_names_iff.mp hHears
        exact .numeric hRegistered hName
    | quality r => exact absurd hHears (g.hear_quality r reply next)
  · intro h
    have hAfter : ∀ {phase next : SignalPhase} {reply : Reply} {front : List SessionEvent},
        g.hear phase reply = some (.inl next) →
        Follows g.program.client (.inr .operator) front (.inr phase) →
        Follows g.program.client (.inr .operator)
          (front ++ replied reply (g.program.command next)) (.inr next) := fun hHears hFront =>
      Program.Goes.follows (p := g.program) (.later hHears) hFront
    have hNumeric : ∀ {r : Registration} {reply : Reply}, Registered reply 2 r →
        Follows g.program.client (.inr .operator) (replied reply copnQuery) (.inr (.names r)) :=
      fun hRegistered => hAfter (hear_operator_iff.mpr (.inr ⟨2, _, hRegistered, rfl⟩)) .start
    cases phase with
    | operator =>
        obtain rfl : later = [] := h
        exact .start
    | names r =>
        obtain ⟨reply, hRegistered, rfl⟩ := h
        exact hNumeric hRegistered
    | quality r =>
        have hLocated : Located later r := h
        cases hLocated with
        | unknown hCode => exact hAfter (hear_operator_iff.mpr (.inl ⟨hCode, rfl⟩)) .start
        | direct hRegistered hNamed =>
            exact hAfter (hear_operator_iff.mpr (.inr ⟨_, _, hRegistered, (if_neg hNamed).symm⟩))
              .start
        | numeric hRegistered hName =>
            exact hAfter (hear_names_iff.mpr ⟨_, hName, rfl⟩) (hNumeric hRegistered)

theorem GsmSignal.asked_unlock_iff {pin : CString} :
    g.asked reply = some (.unlock pin) ↔
      reply.code = 0 ∧ reply.answers = [ascii "SIM PIN"] ∧ g.pin = some pin := by
  rw [asked]
  split
  · simp [*]
  · rename_i hCode
    split
    · rename_i hLength
      have hOther : reply.answers ≠ [ascii "SIM PIN"] := by
        intro hAnswers
        rw [hAnswers] at hLength
        exact hLength rfl
      simp [hOther]
    · rename_i hLength
      obtain ⟨answer, hAnswers⟩ := List.length_eq_one_iff.mp (not_not.mp hLength)
      simp [comparePin_unlock_iff, hAnswers, not_not.mp hCode, and_comm]

theorem not_reports {text : List Char} (h : text.getLast? ≠ some 'm') :
    ¬ "dBm".toList <:+ text := by
  rintro ⟨front, rfl⟩
  exact h (by simp)

theorem GsmSignal.asked_exit (h : g.asked reply = some (.exit e)) : ¬ "dBm".toList <:+ e.text := by
  rw [asked] at h
  split at h
  · cases h
    exact not_reports (by decide)
  · split at h
    · cases h
    · obtain ⟨-, -, rfl⟩ := comparePin_exit_iff.mp h
      exact not_reports (by decide)

theorem signalText_reports (r : Option Registration) (sq : Int) :
    "dBm".toList <:+ signalText r sq := by
  cases r <;> exact List.suffix_append _ _

theorem GsmSignal.report_text {r : Option Registration} {sq : Int} (h : g.report r sq = some e) :
    "dBm".toList <:+ e.text := by
  obtain ⟨_, -, rfl⟩ := Option.map_eq_some_iff.mp h
  exact signalText_reports r sq

theorem GsmSignal.hearCsq_reports_iff {r : Option Registration} {answer : List UInt8} :
    (g.hearCsq r answer = some e ∧ "dBm".toList <:+ e.text) ↔
      0 ≤ toInt (strtol 10 (characters answer)) ∧ toInt (strtol 10 (characters answer)) ≤ 31 ∧
        g.report r (dbm (toInt (strtol 10 (characters answer)))) = some e := by
  rw [hearCsq]
  generalize toInt (strtol 10 (characters answer)) = sq
  by_cases hIllegal : sq < 0 ∨ sq > 31
  · simp only [if_pos hIllegal]
    constructor
    · rintro ⟨hExit, hText⟩
      cases hExit
      refine absurd hText (not_reports ?_)
      rw [List.getLast?_concat]
      decide
    · rintro ⟨hLeast, hMost, -⟩
      omega
  · simp only [if_neg hIllegal]
    rw [not_or, Int.not_lt, Int.not_lt] at hIllegal
    exact ⟨fun h => ⟨hIllegal.1, hIllegal.2, h.1⟩, fun h => ⟨h.2.2, report_text h.2.2⟩⟩

theorem GsmSignal.hear_reports_iff :
    (g.hear phase reply = some (.inr e) ∧ "dBm".toList <:+ e.text) ↔
      ∃ r sq, phase = .quality r ∧ Measured reply sq ∧ g.report r (dbm sq) = some e := by
  cases phase with
  | operator =>
      simp only [reduceCtorEq, false_and, exists_false, iff_false]
      rintro ⟨hHears, hText⟩
      rw [hear] at hHears
      split at hHears
      · obtain ⟨answer, -, hOffline⟩ := Option.bind_eq_some_iff.mp hHears
        rw [hearCops] at hOffline
        split at hOffline
        · cases hOffline
          exact not_reports (by decide) hText
        · obtain ⟨_, -, hSame⟩ := Option.map_eq_some_iff.mp hOffline
          cases hSame
      · cases hHears
  | names r => simp [hear]
  | quality r =>
      rw [hear]
      by_cases hCode : reply.code = 0
      · rw [if_pos hCode]
        constructor
        · rintro ⟨hHears, hText⟩
          obtain ⟨_, hBind, hSame⟩ := Option.map_eq_some_iff.mp hHears
          cases hSame
          obtain ⟨answer, hFirst, hCsq⟩ := Option.bind_eq_some_iff.mp hBind
          obtain ⟨hLeast, hMost, hReport⟩ := hearCsq_reports_iff.mp ⟨hCsq, hText⟩
          exact ⟨r, _, rfl, ⟨hCode, hLeast, hMost, answer, hFirst, rfl⟩, hReport⟩
        · rintro ⟨_, sq, hPhase, ⟨-, hLeast, hMost, answer, hFirst, rfl⟩, hReport⟩
          cases hPhase
          obtain ⟨hCsq, hText⟩ := hearCsq_reports_iff.mpr ⟨hLeast, hMost, hReport⟩
          rw [hFirst, Option.bind_some, hCsq]
          exact ⟨rfl, hText⟩
      · rw [if_neg hCode]
        constructor
        · rintro ⟨hHears, hText⟩
          cases hHears
          exact absurd hText (not_reports (by decide))
        · rintro ⟨_, _, -, hMeasured, -⟩
          exact absurd hMeasured.1 hCode

end Hear

section Runs

variable {World : Type} {g : GsmSignal} {device : Device World} {world : World}
  {ending : Ending World Called Command Exit}

/-- A signal quality is reported, as ok, warning or critical, exactly when it was read from
the modem in this run, behind an unlocked SIM and what is known of the registration, and it
is the one from 0 to 31 that was read, in dBm. This is for any modem. -/
theorem gsmSignal_reports_iff (g : GsmSignal) (device : Device World) (world world' : World)
    (events : List SessionEvent) (e : Exit) :
    (g.program.Runs device world ⟨.ended e, world', events⟩ ∧ "dBm".toList <:+ e.text) ↔
      Transcript device.Calls attention world events world' ∧
        ∃ (r : Readied g.program) (registration : Option Registration)
          (later : List SessionEvent) (csq : Reply) (sq : Int),
          Located later registration ∧ Measured csq sq ∧
            g.report registration (dbm sq) = some e ∧
              events = r.events ++ later ++ [.heard (.returned csq)] := by
  rw [Program.runs_ended_iff]
  constructor
  · rintro ⟨⟨hTranscript, front, last, s, hBefore, hStops, rfl⟩, hText⟩
    refine ⟨hTranscript, ?_⟩
    cases hStops with
    | failed => exact absurd hText (not_reports (by decide))
    | notReady _ _ => exact absurd hText (not_reports (by decide))
    | wrongPin _ _ => exact absurd hText (not_reports (by decide))
    | asked hAsked => exact absurd hText (GsmSignal.asked_exit hAsked)
    | later hHears =>
        obtain ⟨registration, sq, rfl, hMeasured, hReport⟩ :=
          GsmSignal.hear_reports_iff.mp ⟨hHears, hText⟩
        obtain ⟨r, later, rfl, hFollows⟩ := hBefore
        exact ⟨r, registration, later, _, sq, GsmSignal.follows_iff.mp hFollows, hMeasured,
          hReport, rfl⟩
  · rintro ⟨hTranscript, r, registration, later, csq, sq, hLocated, hMeasured, hReport, rfl⟩
    have hBefore : g.program.Before (.inr (.quality registration)) (r.events ++ later) :=
      ⟨r, later, rfl, GsmSignal.follows_iff.mpr hLocated⟩
    obtain ⟨hHears, hText⟩ :=
      GsmSignal.hear_reports_iff.mpr ⟨registration, sq, rfl, hMeasured, hReport⟩
    exact ⟨⟨hTranscript, _, _, _, hBefore, .later hHears, rfl⟩, hText⟩

theorem GsmSignal.command_ne_cpin (phase : SignalPhase) : (g.program.command phase).cmd ≠ cpin := by
  cases phase with
  | operator => exact (by decide : copsQuery.cmd ≠ cpin)
  | names r => exact (by decide : copnQuery.cmd ≠ cpin)
  | quality r => exact (by decide : csqQuery.cmd ≠ cpin)

/-- In every run, however it ends, at most one PIN is said: the one from the command line,
to a SIM that has just asked for it in its only answer. -/
theorem gsmSignal_pin {pin : CString} (hRuns : g.program.Runs device world ending)
    (hSaid : .said (pinUnlock pin) ∈ ending.events) :
    g.pin = some pin ∧ ∃ front asked later, asked.code = 0 ∧
      asked.answers = [ascii "SIM PIN"] ∧
      ending.events = front ++ replied asked (pinUnlock pin) ++ later ∧ PinFree front ∧
        PinFree later := by
  obtain ⟨front, asked, later, hAsked, hEvents, hFront, hLater⟩ :=
    Program.runs_pin_said GsmSignal.command_ne_cpin hRuns hSaid
  obtain ⟨hCode, hAnswers, hPin⟩ := GsmSignal.asked_unlock_iff.mp hAsked
  exact ⟨hPin, front, asked, later, hCode, hAnswers, hEvents, hFront, hLater⟩

/-- A SIM that is blocked by the PIN: it was said once. -/
theorem gsmSignal_pin_blocked :
    let g : GsmSignal := { pin := some samplePin, showPerfdata := true, dbmThresholds := none }
    ∃ ending, g.program.Runs scripted
        [readyModem, simModem "SIM PIN", readyModem, simModem "SIM PUK"] ending ∧
      ending.outcome = .ended (critical "SIM unlock failed. Wrong PIN.") ∧
      g.pin = some samplePin ∧
      ∃ front asked later, asked.code = 0 ∧ asked.answers = [ascii "SIM PIN"] ∧
        ending.events = front ++ replied asked (pinUnlock samplePin) ++ later ∧
          PinFree front ∧ PinFree later := by
  intro g
  have hRuns : g.program.Runs scripted
      [readyModem, simModem "SIM PIN", readyModem, simModem "SIM PUK"] _ :=
    .go (.returned attention_accepted) rfl <| .go (.returned pinQuery_asked) rfl <|
      .go (.returned pinUnlock_accepted) rfl <| .stop (.returned pinQuery_blocked) rfl
  exact ⟨_, hRuns, rfl, gsmSignal_pin hRuns (by decide)⟩

end Runs

end MonitoringPlug.Base
