import MonitoringPlug.Sms.Buffer
import MonitoringPlug.Sms.Notify
import MonitoringPlug.Sms.Session

/-! `notify_sms`: a message is handed to the modem once the SIM is unlocked. -/
namespace MonitoringPlug.Sms

open CMemory Dialogue Scanner
open MonitoringPlug.Common

/-- What `notify_sms` is called with: the file that cannot be opened, or the message that
was rendered. -/
structure NotifySms where
  pin : Option CString
  number : List Char
  message : List Char ⊕ List Char

inductive NotifyPhase where
  | mode
  | sending (msg : List Char)
deriving DecidableEq

def pduMode : Command :=
  ⟨⟨ascii "+CMGF", by decide⟩, some ⟨ascii "=0", by decide⟩, none, false⟩

def cmgs : CString := ⟨ascii "+CMGS", by decide⟩

/-- The PDU is the one with the digits of the text, also where `sms_encode_text` writes them
past their object. -/
def smsCommand (number msg : List Char) : Command :=
  let sent := sendCommand number msg
  ⟨cmgs, some (.ofBytes (stored sent.opt)), some (.ofBytes (stored sent.pdu)), false⟩

def smsSent : Exit := ⟨.ok, "SMS Sent.".toList, none⟩

/-- `main` of `notify_sms` behind the opening. -/
def NotifySms.hear (n : NotifySms) : NotifyPhase → Reply → Option (NotifyPhase ⊕ Exit)
  | .mode, reply =>
      if reply.code ≠ 0 then some (.inr (critical "Can not setup SMS Mode."))
      else
        match n.message with
        | .inl file =>
            some (.inr ⟨.critical, "Can't open '".toList ++ file ++ "'".toList, none⟩)
        | .inr msg => some (.inl (.sending msg))
  | .sending _, reply =>
      if reply.code = 0 then some (.inr smsSent)
      else some (.inr (critical "Sending failed!"))

def NotifySms.program (n : NotifySms) : Program NotifyPhase where
  -- What the call returns is not looked at.
  asked reply := comparePin n.pin reply.answers
  first := .mode
  command
    | .mode => pduMode
    | .sending msg => smsCommand n.number msg
  hear := n.hear

/-- What leads to a sent message. -/
structure Delivery (n : NotifySms) extends Readied n.program where
  mode : Reply
  inPdu : mode.code = 0
  msg : List Char
  rendered : n.message = .inr msg
  sent : Reply
  taken : sent.code = 0

def Delivery.events {n : NotifySms} (d : Delivery n) : List SessionEvent :=
  d.toReadied.events ++ replied d.mode (smsCommand n.number d.msg) ++ [.heard (.returned d.sent)]

section Hear

variable {n : NotifySms} {phase next : NotifyPhase} {reply : Reply} {e : Exit}

theorem NotifySms.hear_goes_iff :
    n.hear phase reply = some (.inl next) ↔
      phase = .mode ∧ reply.code = 0 ∧ ∃ msg, n.message = .inr msg ∧ next = .sending msg := by
  cases phase with
  | mode =>
      rw [hear]
      split
      · simp_all
      · cases n.message <;> simp_all [eq_comm]
  | sending msg =>
      rw [hear]
      split <;> simp

theorem NotifySms.hear_ok_iff :
    (n.hear phase reply = some (.inr e) ∧ e.status = .ok) ↔
      e = smsSent ∧ reply.code = 0 ∧ ∃ msg, phase = .sending msg := by
  constructor
  · rintro ⟨hHears, hStatus⟩
    cases phase with
    | mode =>
        rw [hear] at hHears
        split at hHears
        · cases hHears
          cases hStatus
        · split at hHears
          · cases hHears
            cases hStatus
          · cases hHears
    | sending msg =>
        rw [hear] at hHears
        split at hHears
        · rename_i hCode
          cases hHears
          exact ⟨rfl, hCode, msg, rfl⟩
        · cases hHears
          cases hStatus
  · rintro ⟨rfl, hCode, msg, rfl⟩
    exact ⟨if_pos hCode, rfl⟩

theorem NotifySms.hear_some (n : NotifySms) (phase : NotifyPhase) (reply : Reply) :
    n.hear phase reply ≠ none := by
  cases phase with
  | mode =>
      rw [hear]
      split
      · simp
      · cases n.message <;> simp
  | sending msg =>
      rw [hear]
      split <;> simp

/-- What is said up to a phase. -/
def NotifySms.Behind (n : NotifySms) : NotifyPhase → List SessionEvent → Prop
  | .mode, later => later = []
  | .sending msg, later => n.message = .inr msg ∧ ∃ mode : Reply, mode.code = 0 ∧
      later = replied mode (smsCommand n.number msg)

theorem NotifySms.follows_iff {later : List SessionEvent} :
    Follows n.program.client (.inr .mode) later (.inr phase) ↔ n.Behind phase later := by
  constructor
  · refine phase_induction (p := n.program) rfl fun front middle reply next hFront h => ?_
    have hHears : n.hear middle reply = some (.inl next) := h
    obtain ⟨rfl, hCode, msg, hMessage, rfl⟩ := hear_goes_iff.mp hHears
    obtain rfl : front = [] := hFront
    exact ⟨hMessage, reply, hCode, rfl⟩
  · intro h
    cases phase with
    | mode =>
        obtain rfl : later = [] := h
        exact .start
    | sending msg =>
        obtain ⟨hMessage, mode, hCode, rfl⟩ := h
        have hGoes : n.program.Goes (.inr .mode) mode (.inr (.sending msg)) :=
          .later (hear_goes_iff.mpr ⟨rfl, hCode, msg, hMessage, rfl⟩)
        exact hGoes.follows .start

end Hear

section Sample

def letteredSms : NotifySms := { pin := some samplePin, number := ['1'], message := .inr ['a'] }

theorem pduMode_accepted :
    mobileAtCommandInput readyModem pduMode.cmd pduMode.opt none false (some ⟨0, []⟩) :=
  ⟨_, rfl, 12, by decide⟩

theorem smsCommand_letter : smsCommand ['1'] ['a'] =
    ⟨cmgs, some ⟨ascii "=10", by decide⟩,
      some ⟨ascii "0005000281F100000161", by decide⟩, false⟩ := by
  decide +kernel

theorem smsCommand_accepted :
    scripted.Calls [readyModem] (smsCommand ['1'] ['a']) (.returned ⟨0, []⟩) [] := by
  rw [smsCommand_letter]
  exact .returned ⟨_, rfl, 12, by decide⟩

end Sample

section Runs

variable {n : NotifySms} {device : Device World} {world world' : World}
  {events : List SessionEvent} {ending : Ending World Called Command Exit} {e : Exit}

/-- `notify_sms` exits as ok exactly when the modem has taken the message: behind fewer than
five refused attempts, an unlocked SIM and the PDU mode, with nothing else said. This is for
any modem. -/
theorem notifySms_sent_iff (n : NotifySms) (device : Device World) (world world' : World)
    (events : List SessionEvent) (e : Exit) :
    (n.program.Runs device world ⟨.ended e, world', events⟩ ∧ e.status = .ok) ↔
      e = smsSent ∧ Transcript device.Calls attention world events world' ∧
        ∃ d : Delivery n, events = d.events := by
  rw [Program.runs_ended_iff]
  constructor
  · rintro ⟨⟨hTranscript, front, last, s, hBefore, hStops, rfl⟩, hStatus⟩
    cases hStops with
    | failed => cases hStatus
    | notReady _ _ => cases hStatus
    | wrongPin _ _ => cases hStatus
    | asked hAsked =>
        obtain ⟨-, -, rfl⟩ := comparePin_exit_iff.mp hAsked
        cases hStatus
    | later hHears =>
        obtain ⟨rfl, hCode, msg, rfl⟩ := NotifySms.hear_ok_iff.mp ⟨hHears, hStatus⟩
        obtain ⟨r, later, rfl, hFollows⟩ := hBefore
        obtain ⟨hMessage, mode, hPdu, rfl⟩ := NotifySms.follows_iff.mp hFollows
        exact ⟨rfl, hTranscript, ⟨r, mode, hPdu, msg, hMessage, _, hCode⟩, rfl⟩
  · rintro ⟨rfl, hTranscript, d, rfl⟩
    have hSending : n.Behind (.sending d.msg) (replied d.mode (smsCommand n.number d.msg)) :=
      ⟨d.rendered, d.mode, d.inPdu, rfl⟩
    have hBefore : n.program.Before (.inr (.sending d.msg))
        (d.toReadied.events ++ replied d.mode (smsCommand n.number d.msg)) :=
      ⟨d.toReadied, _, rfl, NotifySms.follows_iff.mpr hSending⟩
    have hStops : n.program.Stops (.inr (.sending d.msg)) (.returned d.sent)
        smsSent :=
      .later ((NotifySms.hear_ok_iff (n := n)).mpr ⟨rfl, d.taken, d.msg, rfl⟩).1
    exact ⟨⟨hTranscript, _, _, _, hBefore, hStops, rfl⟩, rfl⟩

theorem NotifySms.command_ne_cpin (phase : NotifyPhase) : (n.program.command phase).cmd ≠ cpin := by
  cases phase with
  | mode => exact (by decide : pduMode.cmd ≠ cpin)
  | sending msg => exact (by decide : cmgs ≠ cpin)

/-- In every run, however it ends, at most one PIN is said: the one from the command line,
to a SIM that was just heard asking for it. -/
theorem notifySms_pin {pin : CString} (hRuns : n.program.Runs device world ending)
    (hSaid : .said (pinUnlock pin) ∈ ending.events) :
    n.pin = some pin ∧ ∃ front asked later, asked.answers.head? = some (ascii "SIM PIN") ∧
      ending.events = front ++ replied asked (pinUnlock pin) ++ later ∧ PinFree front ∧
        PinFree later := by
  obtain ⟨front, asked, later, hAsked, hEvents, hFront, hLater⟩ :=
    Program.runs_pin_said NotifySms.command_ne_cpin hRuns hSaid
  obtain ⟨hPin, hFirst⟩ := comparePin_unlock_iff.mp hAsked
  exact ⟨hPin, front, asked, later, hFirst, hEvents, hFront, hLater⟩

/-- A SIM that is blocked by the PIN: it was said once. -/
theorem notifySms_pin_blocked :
    ∃ ending, letteredSms.program.Runs scripted
        [readyModem, simModem "SIM PIN", readyModem, simModem "SIM PUK"] ending ∧
      ending.outcome = .ended (critical "SIM unlock failed. Wrong PIN.") ∧
      letteredSms.pin = some samplePin ∧
      ∃ front asked later, asked.answers.head? = some (ascii "SIM PIN") ∧
        ending.events = front ++ replied asked (pinUnlock samplePin) ++ later ∧
          PinFree front ∧ PinFree later := by
  have hRuns : letteredSms.program.Runs scripted
      [readyModem, simModem "SIM PIN", readyModem, simModem "SIM PUK"] _ :=
    .go (.returned attention_accepted) rfl <| .go (.returned pinQuery_asked) rfl <|
      .go (.returned pinUnlock_accepted) rfl <| .stop (.returned pinQuery_blocked) rfl
  exact ⟨_, hRuns, rfl, notifySms_pin hRuns (by decide)⟩

/-- The message reaches the modem at most once, as the last thing that is said, behind an
opening that came to its end and the PDU mode. -/
theorem notifySms_sends {command : Command} (hRuns : n.program.Runs device world ending)
    (hSaid : .said command ∈ ending.events) (hSends : command.input ≠ none) :
    ∃ (r : Readied n.program) (mode : Reply) (msg : List Char) (last : Called),
      mode.code = 0 ∧ n.message = .inr msg ∧ command = smsCommand n.number msg ∧
        ending.events = r.events ++ replied mode (smsCommand n.number msg) ++ [.heard last] := by
  have hQuiet : ∀ o : Opening, command ≠ o.command := by
    rintro o rfl
    exact hSends (o.command_input)
  obtain ⟨front, last, s, hBefore, hEvents⟩ := Program.runs_before hRuns
  rw [hEvents] at hSaid ⊢
  have hFront : .said command ∈ front := by simpa using hSaid
  cases s with
  | inl o =>
      obtain ⟨o, hSame⟩ := said_opening (Program.follows_iff.mpr hBefore) hFront
      exact absurd hSame (hQuiet o)
  | inr phase =>
      obtain ⟨r, later, rfl, hFollows⟩ := hBefore
      have hLater : .said command ∈ later := by
        rcases List.mem_append.mp hFront with hOpening | hLater
        · rcases r.said hOpening with rfl | ⟨o, hSame⟩
          · exact absurd rfl hSends
          · exact absurd hSame (hQuiet o)
        · exact hLater
      cases phase with
      | mode =>
          obtain rfl : later = [] := NotifySms.follows_iff.mp hFollows
          cases hLater
      | sending msg =>
          obtain ⟨hMessage, mode, hPdu, rfl⟩ := NotifySms.follows_iff.mp hFollows
          have hSame : command = smsCommand n.number msg := by simpa [replied] using hLater
          exact ⟨r, mode, msg, last, hPdu, hMessage, hSame, rfl⟩

/-- A letter to the number 1. -/
theorem notifySms_sends_letter :
    ∃ ending, letteredSms.program.Runs scripted
        [readyModem, simModem "READY", readyModem, readyModem] ending ∧
      ending.outcome = .ended smsSent ∧
      ∃ (r : Readied letteredSms.program) (mode : Reply) (msg : List Char) (last : Called),
        mode.code = 0 ∧ letteredSms.message = .inr msg ∧
          smsCommand ['1'] ['a'] = smsCommand ['1'] msg ∧
          ending.events = r.events ++ replied mode (smsCommand ['1'] msg) ++ [.heard last] := by
  have hRuns : letteredSms.program.Runs scripted
      [readyModem, simModem "READY", readyModem, readyModem] _ :=
    .go (.returned attention_accepted) rfl <| .go (.returned pinQuery_ready) rfl <|
      .go (.returned pduMode_accepted) rfl <| .stop smsCommand_accepted rfl
  exact ⟨_, hRuns, rfl,
    notifySms_sends hRuns (by simp [letteredSms, NotifySms.program]) (by simp [smsCommand])⟩

/-- Where no call is a fault itself, `notify_sms` reads through NULL exactly when the SIM
tells no state or another one than the two it knows, as when it is blocked, or when neither
the unlocking nor the second question for a PIN brings an answer. The message that is meant
for the other states is never given. -/
theorem notifySms_outside_iff (n : NotifySms) (device : Device World) (world world' : World)
    {events : List SessionEvent} (hCalls : .heard .fault ∉ events) :
    n.program.Runs device world ⟨.outside, world', events⟩ ↔
      Transcript device.Calls attention world events world' ∧
        ((∃ (a : Attentive) (asked : Reply), asked.answers.head? ≠ some (ascii "SIM PIN") ∧
            asked.answers.head? ≠ some (ascii "READY") ∧
            events = a.events ++ [.heard (.returned asked)]) ∨
          ∃ (a : Attentive) (pin : CString) (asked unlocked rechecked : Reply),
            n.pin = some pin ∧ asked.answers.head? = some (ascii "SIM PIN") ∧
            unlocked.answers = [] ∧ rechecked.answers = [] ∧
            events = a.events ++ replied asked (pinUnlock pin) ++ replied unlocked pinQuery ++
              [.heard (.returned rechecked)]) := by
  rw [Program.runs_outside_iff]
  refine and_congr_right fun _ => ?_
  constructor
  · rintro ⟨front, last, s, hBefore, hFaults, rfl⟩
    cases hFaults with
    | fault => exact absurd (List.mem_append_right _ List.mem_cons_self) hCalls
    | asked hAsked =>
        obtain ⟨a, rfl⟩ := hBefore
        obtain ⟨hPin, hReady⟩ := comparePin_none_iff.mp hAsked
        exact .inl ⟨a, _, hPin, hReady, rfl⟩
    | recheck hNone =>
        obtain ⟨a, asked, unlocked, pin, hAsked, rfl, rfl⟩ := hBefore
        obtain ⟨hPin, hFirst⟩ := comparePin_unlock_iff.mp hAsked
        obtain ⟨hNow, hEarlier⟩ := firstAnswer_none_iff.mp hNone
        exact .inr ⟨a, pin, asked, unlocked, _, hPin, hFirst, hEarlier, hNow, rfl⟩
    | later hHears => exact absurd hHears (n.hear_some _ _)
  · rintro (⟨a, asked, hPin, hReady, rfl⟩ |
      ⟨a, pin, asked, unlocked, rechecked, hPin, hFirst, hEarlier, hNow, rfl⟩)
    · exact ⟨a.events, _, .inl .asking, ⟨a, rfl⟩, .asked (comparePin_none_iff.mpr ⟨hPin, hReady⟩),
        rfl⟩
    · exact ⟨_, _, .inl (.rechecking unlocked.answers),
        ⟨a, asked, unlocked, pin, comparePin_unlock_iff.mpr ⟨hPin, hFirst⟩, rfl, rfl⟩,
        .recheck (firstAnswer_none_iff.mpr ⟨hNow, hEarlier⟩), rfl⟩

/-- A SIM that asks for its PUK. -/
theorem notifySms_outside_blocked :
    letteredSms.program.Runs scripted [readyModem, simModem "SIM PUK"]
      ⟨.outside, [], replied ⟨0, []⟩ pinQuery ++ [.heard (.returned ⟨0, [ascii "SIM PUK"]⟩)]⟩ :=
  (notifySms_outside_iff _ _ _ _ (by decide)).mpr
    ⟨.more (.returned attention_accepted) (.last (.returned pinQuery_blocked)),
      .inl ⟨⟨⟨[], List.forall_mem_nil _, by decide⟩, ⟨0, []⟩, rfl⟩, _, by decide, by decide, rfl⟩⟩

end Runs

end MonitoringPlug.Sms
