import MonitoringPlug.Common
import MonitoringPlug.Lib.Interview
import MonitoringPlug.Sms.AtCommand

/-! What `notify_sms` and `check_gsm_signal` say to a modem, call by call. Both wait until it
is ready and unlock the SIM, each with its own look at the answer that tells whether a PIN
is needed. The modem is any machine. -/
namespace MonitoringPlug.Sms

open CMemory Dialogue Scanner
open MonitoringPlug.Common

/-- The arguments of a call. Answers are asked for where they are not NULL. -/
structure Command where
  cmd : CString
  opt : Option CString
  input : Option CString
  want : Bool
deriving DecidableEq

/-- How a call ends. `failed` when the command does not fit and `mp_snprintf` exits. -/
inductive Called where
  | returned (reply : Reply)
  | fault
  | failed
deriving DecidableEq

/-- The other end of the serial line: what it does at a command, and how it goes on. -/
abbrev Device (World : Type) := World → Command → Modem × World

inductive Device.Calls {World : Type} (device : Device World) :
    World → Command → Called → World → Prop where
  | returned {world c reply}
      (h : mobileAtCommandInput (device world c).1 c.cmd c.opt c.input c.want (some reply)) :
      Calls device world c (.returned reply) (device world c).2
  | fault {world c}
      (h : mobileAtCommandInput (device world c).1 c.cmd c.opt c.input c.want none) :
      Calls device world c .fault (device world c).2
  | failed {world c}
      (h : store (malloc bufferSize) 0 (commandText c.cmd c.opt ++ [0]) = none) :
      Calls device world c .failed world

/-- Without performance data. -/
def critical (text : String) : Exit := ⟨.critical, text.toList, none⟩

def cpin : CString := ⟨ascii "+CPIN", by decide⟩

/-- The attempt whether the modem is ready. -/
def attention : Command := ⟨⟨[], List.not_mem_nil⟩, none, none, false⟩

def pinQuery : Command := ⟨cpin, some ⟨ascii "?", by decide⟩, none, true⟩

def pinUnlock (pin : CString) : Command :=
  ⟨cpin, some (.ofBytes (ascii "=\"" ++ pin.bytes ++ ascii "\"")), none, true⟩

/-- What follows from the answer to the question for a PIN. -/
inductive PinAnswer where
  | ready
  | unlock (pin : CString)
  | exit (e : Exit)
deriving DecidableEq

/-- The comparisons of `answer[0]`, which is NULL without answers. -/
def comparePin (pin : Option CString) (answers : List (List UInt8)) : Option PinAnswer :=
  match answers with
  | [] => none
  | answer :: _ =>
      if answer = ascii "SIM PIN" then
        match pin with
        | some pin => some (.unlock pin)
        | none => some (.exit (critical "SIM ask for PIN."))
      -- The message reads `answer[0]` behind `mp_array_free`.
      else if answer ≠ ascii "READY" then none
      else some .ready

/-- The calls up to the unlocked SIM. The answers to the unlocking stay in the array. -/
inductive Opening where
  | waiting (i : Nat)
  | asking
  | unlocking (pin : CString)
  | rechecking (answers : List (List UInt8))
deriving DecidableEq

def Opening.command : Opening → Command
  | .waiting _ => attention
  | .asking => pinQuery
  | .unlocking pin => pinUnlock pin
  | .rechecking _ => pinQuery

theorem Opening.command_input (o : Opening) : o.command.input = none := by
  cases o <;> rfl

inductive Opened where
  | next (o : Opening)
  | ready
  | exit (e : Exit)

/-- `answer[0]` behind a call that stored its answers over the earlier ones. -/
def firstAnswer (earlier now : List (List UInt8)) : Option (List UInt8) :=
  now.head?.or earlier.head?

theorem firstAnswer_none_iff {earlier now : List (List UInt8)} :
    firstAnswer earlier now = none ↔ now = [] ∧ earlier = [] := by
  simp [firstAnswer, Option.or_eq_none_iff]

def hearOpening (asked : Reply → Option PinAnswer) : Opening → Reply → Option Opened
  | .waiting i, reply =>
      if reply.code = 0 then some (.next .asking)
      else if i + 1 < 5 then some (.next (.waiting (i + 1)))
      else some (.exit (critical "Modem not ready."))
  | .asking, reply =>
      (asked reply).map fun
        | .ready => .ready
        | .unlock pin => .next (.unlocking pin)
        | .exit e => .exit e
  | .unlocking _, reply => some (.next (.rechecking reply.answers))
  | .rechecking answers, reply =>
      (firstAnswer answers reply.answers).map fun answer =>
        if answer ≠ ascii "READY" then .exit (critical "SIM unlock failed. Wrong PIN.")
        else .ready

/-- A `main`: how it looks at the first answer, and what it does behind the opening. -/
structure Program (Phase : Type) where
  asked : Reply → Option PinAnswer
  first : Phase
  command : Phase → Command
  hear : Phase → Reply → Option (Phase ⊕ Exit)

variable {Phase World : Type}

def Program.client (p : Program Phase) : Client (Opening ⊕ Phase) Called Command Exit
  | _, .fault => none
  | _, .failed => some (.stop (critical "snprintf failed!"))
  | .inl o, .returned reply =>
      (hearOpening p.asked o reply).map fun
        | .next o => .go (.inl o) [o.command]
        | .ready => .go (.inr p.first) [p.command p.first]
        | .exit e => .stop e
  | .inr phase, .returned reply =>
      (p.hear phase reply).map fun
        | .inl next => .go (.inr next) [p.command next]
        | .inr e => .stop e

/-- `main` from the opened serial line on, behind the first `AT`. -/
def Program.Runs (p : Program Phase) (device : Device World) (world : World)
    (ending : Ending World Called Command Exit) : Prop :=
  Interviews p.client device.Calls (.inl (.waiting 0)) attention world ending

section Steps

variable (p : Program Phase)

/-- The call that is waited for in a state. -/
def Program.asks : Opening ⊕ Phase → Command := Sum.elim Opening.command p.command

@[simp] theorem Program.asks_inl (o : Opening) : p.asks (.inl o) = o.command := rfl

@[simp] theorem Program.asks_inr (phase : Phase) : p.asks (.inr phase) = p.command phase := rfl

/-- The replies that `main` goes on behind. -/
inductive Program.Goes : Opening ⊕ Phase → Reply → Opening ⊕ Phase → Prop where
  | again {i reply} (refused : reply.code ≠ 0) (few : i + 1 < 5) :
      Goes (.inl (.waiting i)) reply (.inl (.waiting (i + 1)))
  | attentive {i reply} (accepted : reply.code = 0) :
      Goes (.inl (.waiting i)) reply (.inl .asking)
  | unlock {reply pin} (asked : p.asked reply = some (.unlock pin)) :
      Goes (.inl .asking) reply (.inl (.unlocking pin))
  | unlocked {pin reply} :
      Goes (.inl (.unlocking pin)) reply (.inl (.rechecking reply.answers))
  | ready {reply} (asked : p.asked reply = some .ready) :
      Goes (.inl .asking) reply (.inr p.first)
  | rechecked {answers reply} (ready : firstAnswer answers reply.answers = some (ascii "READY")) :
      Goes (.inl (.rechecking answers)) reply (.inr p.first)
  | later {phase reply next} (hears : p.hear phase reply = some (.inl next)) :
      Goes (.inr phase) reply (.inr next)

/-- The exits. -/
inductive Program.Stops : Opening ⊕ Phase → Called → Exit → Prop where
  | failed {s} : Stops s .failed (critical "snprintf failed!")
  | notReady {i reply} (refused : reply.code ≠ 0) (last : 5 ≤ i + 1) :
      Stops (.inl (.waiting i)) (.returned reply) (critical "Modem not ready.")
  | asked {reply e} (asked : p.asked reply = some (.exit e)) :
      Stops (.inl .asking) (.returned reply) e
  | wrongPin {answers reply answer} (first : firstAnswer answers reply.answers = some answer)
      (wrong : answer ≠ ascii "READY") :
      Stops (.inl (.rechecking answers)) (.returned reply)
        (critical "SIM unlock failed. Wrong PIN.")
  | later {phase reply e} (hears : p.hear phase reply = some (.inr e)) :
      Stops (.inr phase) (.returned reply) e

/-- The accesses outside. -/
inductive Program.Faults : Opening ⊕ Phase → Called → Prop where
  | fault {s} : Faults s .fault
  | asked {reply} (asked : p.asked reply = none) : Faults (.inl .asking) (.returned reply)
  | recheck {answers reply} (none : firstAnswer answers reply.answers = none) :
      Faults (.inl (.rechecking answers)) (.returned reply)
  | later {phase reply} (hears : p.hear phase reply = none) :
      Faults (.inr phase) (.returned reply)

variable {p} {s next : Opening ⊕ Phase} {reply : Reply} {called : Called} {e : Exit}

theorem Program.client_goes (h : p.Goes s reply next) :
    p.client s (.returned reply) = some (.go next [p.asks next]) := by
  cases h with
  | again refused few => simp [client, hearOpening, refused, few, asks]
  | attentive accepted => simp [client, hearOpening, accepted, asks]
  | unlock asked => simp [client, hearOpening, asked, asks]
  | unlocked => rfl
  | ready asked => simp [client, hearOpening, asked, asks]
  | rechecked ready => simp [client, hearOpening, ready, asks]
  | later hears => simp [client, hears, asks]

theorem Program.client_stops (h : p.Stops s called e) : p.client s called = some (.stop e) := by
  cases h with
  | failed => cases s <;> rfl
  | notReady refused last => simp [client, hearOpening, refused, Nat.not_lt.mpr last]
  | asked asked => simp [client, hearOpening, asked]
  | wrongPin first wrong => simp [client, hearOpening, first, wrong]
  | later hears => simp [client, hears]

theorem Program.client_faults (h : p.Faults s called) : p.client s called = none := by
  cases h with
  | fault => cases s <;> rfl
  | asked asked => simp [client, hearOpening, asked]
  | recheck none => simp [client, hearOpening, none]
  | later hears => simp [client, hears]

/-- There is nothing else. -/
theorem Program.steps (p : Program Phase) (s : Opening ⊕ Phase) (called : Called) :
    (∃ reply next, called = .returned reply ∧ p.Goes s reply next) ∨
      (∃ e, p.Stops s called e) ∨ p.Faults s called := by
  cases called with
  | fault => exact .inr (.inr .fault)
  | failed => exact .inr (.inl ⟨_, .failed⟩)
  | returned reply =>
      cases s with
      | inr phase =>
          cases hHears : p.hear phase reply with
          | none => exact .inr (.inr (.later hHears))
          | some answer =>
              cases answer with
              | inl next => exact .inl ⟨reply, _, rfl, .later hHears⟩
              | inr e => exact .inr (.inl ⟨e, .later hHears⟩)
      | inl o =>
          cases o with
          | waiting i =>
              by_cases hCode : reply.code = 0
              · exact .inl ⟨reply, _, rfl, .attentive hCode⟩
              by_cases hFew : i + 1 < 5
              · exact .inl ⟨reply, _, rfl, .again hCode hFew⟩
              · exact .inr (.inl ⟨_, .notReady hCode (Nat.not_lt.mp hFew)⟩)
          | asking =>
              cases hAsked : p.asked reply with
              | none => exact .inr (.inr (.asked hAsked))
              | some answer =>
                  cases answer with
                  | ready => exact .inl ⟨reply, _, rfl, .ready hAsked⟩
                  | unlock pin => exact .inl ⟨reply, _, rfl, .unlock hAsked⟩
                  | exit e => exact .inr (.inl ⟨e, .asked hAsked⟩)
          | unlocking pin => exact .inl ⟨reply, _, rfl, .unlocked⟩
          | rechecking answers =>
              cases hFirst : firstAnswer answers reply.answers with
              | none => exact .inr (.inr (.recheck hFirst))
              | some answer =>
                  by_cases hReady : answer = ascii "READY"
                  · subst hReady
                    exact .inl ⟨reply, _, rfl, .rechecked hFirst⟩
                  · exact .inr (.inl ⟨_, .wrongPin hFirst hReady⟩)

theorem Program.client_go_iff {messages : List Command} :
    p.client s called = some (.go next messages) ↔
      ∃ reply, called = .returned reply ∧ p.Goes s reply next ∧ messages = [p.asks next] := by
  constructor
  · intro h
    obtain ⟨reply, next', rfl, hGoes⟩ | ⟨e, hStops⟩ | hFaults := p.steps s called
    · rw [client_goes hGoes] at h
      cases h
      exact ⟨reply, rfl, hGoes, rfl⟩
    · rw [client_stops hStops] at h
      cases h
    · rw [client_faults hFaults] at h
      cases h
  · rintro ⟨reply, rfl, hGoes, rfl⟩
    exact client_goes hGoes

theorem Program.client_stop_iff : p.client s called = some (.stop e) ↔ p.Stops s called e := by
  constructor
  · intro h
    obtain ⟨reply, next', rfl, hGoes⟩ | ⟨e, hStops⟩ | hFaults := p.steps s called
    · rw [client_goes hGoes] at h
      cases h
    · rw [client_stops hStops] at h
      cases h
      exact hStops
    · rw [client_faults hFaults] at h
      cases h
  · exact client_stops

theorem Program.client_none_iff : p.client s called = none ↔ p.Faults s called := by
  constructor
  · intro h
    obtain ⟨reply, next', rfl, hGoes⟩ | ⟨e, hStops⟩ | hFaults := p.steps s called
    · rw [client_goes hGoes] at h
      cases h
    · rw [client_stops hStops] at h
      cases h
    · exact hFaults
  · exact client_faults

theorem Program.asks_one (p : Program Phase) : Asks p.client := by
  intro s called next messages hHears
  obtain ⟨_, _, _, rfl⟩ := client_go_iff.mp hHears
  exact ⟨_, rfl⟩

end Steps

section ComparePin

variable {pin : Option CString} {answers : List (List UInt8)}

theorem comparePin_eq (pin : Option CString) (answers : List (List UInt8)) :
    comparePin pin answers =
      if answers.head? = some (ascii "SIM PIN") then
        some (match pin with
          | some pin => .unlock pin
          | none => .exit (critical "SIM ask for PIN."))
      else if answers.head? = some (ascii "READY") then some .ready
      else none := by
  cases answers with
  | nil => rfl
  | cons answer _ =>
      simp only [comparePin, List.head?_cons, Option.some.injEq, ite_not]
      split
      · cases pin <;> rfl
      · rfl

theorem simPin_ne_ready : ascii "SIM PIN" ≠ ascii "READY" := by decide

theorem comparePin_unlock_iff {code : CString} :
    comparePin pin answers = some (.unlock code) ↔
      pin = some code ∧ answers.head? = some (ascii "SIM PIN") := by
  rw [comparePin_eq]
  split
  · cases pin <;> simp [*]
  · split <;> simp [*, simPin_ne_ready.symm]

theorem comparePin_exit_iff {e : Exit} :
    comparePin pin answers = some (.exit e) ↔
      pin = none ∧ answers.head? = some (ascii "SIM PIN") ∧
        e = critical "SIM ask for PIN." := by
  rw [comparePin_eq]
  split
  · cases pin <;> simp [*, eq_comm]
  · split <;> simp [*, simPin_ne_ready.symm]

/-- No answer, or a state of the SIM other than the two that are known. -/
theorem comparePin_none_iff :
    comparePin pin answers = none ↔
      answers.head? ≠ some (ascii "SIM PIN") ∧ answers.head? ≠ some (ascii "READY") := by
  rw [comparePin_eq]
  split
  · simp [*]
  · split <;> simp [*]

end ComparePin

abbrev SessionEvent : Type := Event Called Command

/-- A reply, and what is called next. -/
def replied (reply : Reply) (command : Command) : List SessionEvent :=
  [.heard (.returned reply), .said command]

/-- Attempts that were refused. -/
structure Tried where
  refused : List Reply
  codes : ∀ reply ∈ refused, reply.code ≠ 0
  few : refused.length < 5

def Tried.events (t : Tried) : List SessionEvent :=
  t.refused.flatMap fun reply => replied reply attention

/-- And one that was not, up to the question for a PIN. -/
structure Attentive extends Tried where
  accepted : Reply
  code : accepted.code = 0

def Attentive.events (a : Attentive) : List SessionEvent :=
  a.toTried.events ++ replied a.accepted pinQuery

/-- The SIM asks for a PIN, and what was said to it then. -/
structure Unlocking where
  pin : CString
  unlocked : Reply
  rechecked : Reply
  ready : firstAnswer unlocked.answers rechecked.answers = some (ascii "READY")

/-- An opening that comes to its end. -/
structure Readied (p : Program Phase) extends Attentive where
  asked : Reply
  unlocking : Option Unlocking
  answer : p.asked asked =
    some (match unlocking with | none => .ready | some u => .unlock u.pin)

def Readied.events {p : Program Phase} (r : Readied p) : List SessionEvent :=
  r.toAttentive.events ++
    match r.unlocking with
    | none => replied r.asked (p.command p.first)
    | some u => replied r.asked (pinUnlock u.pin) ++ replied u.unlocked pinQuery ++
        replied u.rechecked (p.command p.first)

/-- The events that lead to a state. -/
def Program.Before (p : Program Phase) : Opening ⊕ Phase → List SessionEvent → Prop
  | .inl (.waiting i), events => ∃ t : Tried, t.refused.length = i ∧ events = t.events
  | .inl .asking, events => ∃ a : Attentive, events = a.events
  | .inl (.unlocking pin), events => ∃ (a : Attentive) (asked : Reply),
      p.asked asked = some (.unlock pin) ∧ events = a.events ++ replied asked (pinUnlock pin)
  | .inl (.rechecking answers), events => ∃ (a : Attentive) (asked unlocked : Reply)
      (pin : CString), p.asked asked = some (.unlock pin) ∧ unlocked.answers = answers ∧
        events = a.events ++ replied asked (pinUnlock pin) ++ replied unlocked pinQuery
  | .inr phase, events => ∃ (r : Readied p) (later : List SessionEvent),
      events = r.events ++ later ∧ Follows p.client (.inr p.first) later (.inr phase)

section Before

variable {p : Program Phase} {s next : Opening ⊕ Phase} {reply : Reply}
  {events : List SessionEvent}

theorem Program.Goes.follows {middle : Opening ⊕ Phase} (h : p.Goes middle reply next)
    (hFollows : Follows p.client s events middle) :
    Follows p.client s (events ++ replied reply (p.asks next)) next :=
  hFollows.go (client_goes h)

/-- One reply more. -/
theorem Program.Before.goes (h : p.Before s events) (hGoes : p.Goes s reply next) :
    p.Before next (events ++ replied reply (p.asks next)) := by
  cases hGoes with
  | again refused few =>
      obtain ⟨t, rfl, rfl⟩ := h
      refine ⟨⟨t.refused ++ [reply], ?_, by simpa using few⟩, by simp, ?_⟩
      · exact List.forall_mem_append.mpr ⟨t.codes, List.forall_mem_singleton.mpr refused⟩
      · simp [Tried.events, asks, Opening.command]
  | attentive accepted =>
      obtain ⟨t, rfl, rfl⟩ := h
      exact ⟨⟨t, reply, accepted⟩, rfl⟩
  | unlock asked =>
      obtain ⟨a, rfl⟩ := h
      exact ⟨a, reply, asked, rfl⟩
  | unlocked =>
      obtain ⟨a, asked, hAsked, rfl⟩ := h
      exact ⟨a, asked, reply, _, hAsked, rfl, rfl⟩
  | ready asked =>
      obtain ⟨a, rfl⟩ := h
      exact ⟨⟨a, reply, none, asked⟩, [], (List.append_nil _).symm, .start⟩
  | rechecked ready =>
      obtain ⟨a, asked, unlocked, pin, hAsked, rfl, rfl⟩ := h
      refine ⟨⟨a, asked, some ⟨pin, unlocked, reply, ready⟩, hAsked⟩, [], ?_, .start⟩
      simp [Readied.events, asks]
  | later hears =>
      obtain ⟨r, later, rfl, hFollows⟩ := h
      exact ⟨r, _, List.append_assoc _ _ _, Program.Goes.follows (.later hears) hFollows⟩

theorem Tried.follows (p : Program Phase) (t : Tried) :
    Follows p.client (.inl (.waiting 0)) t.events (.inl (.waiting t.refused.length)) := by
  obtain ⟨refused, hCodes, hFew⟩ := t
  induction refused using List.reverseRecOn with
  | nil => exact .start
  | append_singleton refused reply ih =>
      obtain ⟨hFront, hLast⟩ := List.forall_mem_append.mp hCodes
      rw [List.length_append, List.length_singleton] at hFew
      have hGoes : p.Goes (.inl (.waiting refused.length)) reply
          (.inl (.waiting (refused.length + 1))) :=
        .again (hLast reply List.mem_cons_self) hFew
      have hNext := hGoes.follows (ih hFront (Nat.lt_of_succ_lt hFew))
      simpa [events, Opening.command] using hNext

theorem Attentive.follows (p : Program Phase) (a : Attentive) :
    Follows p.client (.inl (.waiting 0)) a.events (.inl .asking) :=
  Program.Goes.follows (.attentive a.code) (a.toTried.follows p)

theorem Readied.follows (r : Readied p) :
    Follows p.client (.inl (.waiting 0)) r.events (.inr p.first) := by
  obtain ⟨a, asked, unlocking, hAnswer⟩ := r
  cases unlocking with
  | none => exact Program.Goes.follows (.ready hAnswer) (a.follows p)
  | some u =>
      have hUnlocking := Program.Goes.follows (.unlock hAnswer) (a.follows p)
      have hUnlocked : p.Goes (.inl (.unlocking u.pin)) u.unlocked
          (.inl (.rechecking u.unlocked.answers)) := .unlocked
      have hRechecking := hUnlocked.follows hUnlocking
      have hReady := Program.Goes.follows (.rechecked u.ready) hRechecking
      simpa [events, Opening.command] using hReady

/-- The opening ends with one reply, behind which the first phase is entered. -/
theorem Readied.last (r : Readied p) :
    ∃ front reply o, p.Before (.inl o) front ∧
      r.events = front ++ replied reply (p.command p.first) := by
  obtain ⟨a, asked, unlocking, hAnswer⟩ := r
  cases unlocking with
  | none => exact ⟨a.events, asked, .asking, ⟨a, rfl⟩, rfl⟩
  | some u =>
      refine ⟨_, u.rechecked, .rechecking u.unlocked.answers,
        ⟨a, asked, u.unlocked, u.pin, hAnswer, rfl, rfl⟩, ?_⟩
      simp [events]

/-- A state is reached over exactly these events. -/
theorem Program.follows_iff :
    Follows p.client (.inl (.waiting 0)) events s ↔ p.Before s events := by
  constructor
  · intro h
    generalize hStart : (.inl (.waiting 0) : Opening ⊕ Phase) = start at h
    induction h with
    | start =>
        subst hStart
        exact ⟨⟨[], List.forall_mem_nil _, by decide⟩, rfl, rfl⟩
    | go _ hears ih =>
        obtain ⟨reply, rfl, hGoes, rfl⟩ := client_go_iff.mp hears
        exact ih.goes hGoes
  · intro h
    cases s with
    | inr phase =>
        obtain ⟨r, later, rfl, hLater⟩ := h
        exact r.follows.trans hLater
    | inl o =>
        cases o with
        | waiting i =>
            obtain ⟨t, rfl, rfl⟩ := h
            exact t.follows p
        | asking =>
            obtain ⟨a, rfl⟩ := h
            exact a.follows p
        | unlocking pin =>
            obtain ⟨a, asked, hAsked, rfl⟩ := h
            exact Goes.follows (.unlock hAsked) (a.follows p)
        | rechecking answers =>
            obtain ⟨a, asked, unlocked, pin, hAsked, rfl, rfl⟩ := h
            exact Goes.follows .unlocked (Goes.follows (.unlock hAsked) (a.follows p))

end Before

section Runs

variable {p : Program Phase} {device : Device World} {world world' : World}
  {events : List SessionEvent} {ending : Ending World Called Command Exit}

theorem Program.runs_ended_iff {e : Exit} :
    p.Runs device world ⟨.ended e, world', events⟩ ↔
      Transcript device.Calls attention world events world' ∧
        ∃ front last s, p.Before s front ∧ p.Stops s last e ∧ events = front ++ [.heard last] := by
  simp only [Runs, interviews_ended_iff p.asks_one, follows_iff, client_stop_iff]

theorem Program.runs_outside_iff :
    p.Runs device world ⟨.outside, world', events⟩ ↔
      Transcript device.Calls attention world events world' ∧
        ∃ front last s, p.Before s front ∧ p.Faults s last ∧ events = front ++ [.heard last] := by
  simp only [Runs, interviews_outside_iff p.asks_one, follows_iff, client_none_iff]

/-- Whatever comes of it, a run ends with what a call brings in some state. -/
theorem Program.runs_before (h : p.Runs device world ending) :
    ∃ front last s, p.Before s front ∧ ending.events = front ++ [.heard last] := by
  obtain ⟨outcome, world', events⟩ := ending
  cases outcome with
  | ended e =>
      obtain ⟨-, front, last, s, hBefore, -, hEvents⟩ := runs_ended_iff.mp h
      exact ⟨front, last, s, hBefore, hEvents⟩
  | outside =>
      obtain ⟨-, front, last, s, hBefore, -, hEvents⟩ := runs_outside_iff.mp h
      exact ⟨front, last, s, hBefore, hEvents⟩
  | silent => exact absurd rfl h.not_silent

end Runs

section Said

variable {p : Program Phase} {events : List SessionEvent} {pin other : CString}

theorem pinUnlock_opt (pin : CString) :
    (pinUnlock pin).opt.map CString.bytes = some (ascii "=\"" ++ pin.bytes ++ ascii "\"") := by
  have hAll : ∀ c ∈ ascii "=\"" ++ pin.bytes ++ ascii "\"", (c != 0) = true := by
    intro c hMem
    rw [List.mem_append, List.mem_append] at hMem
    rcases hMem with (hFront | hPin) | hBack
    · exact (by decide +kernel : ∀ c ∈ ascii "=\"", (c != 0) = true) c hFront
    · exact bne_iff_ne.mpr fun hZero => pin.nulFree (hZero ▸ hPin)
    · exact (by decide +kernel : ∀ c ∈ ascii "\"", (c != 0) = true) c hBack
  simp only [pinUnlock, CString.ofBytes, Option.map_some, List.takeWhile_eq_self_iff.mpr hAll]

theorem pinUnlock_inj (h : pinUnlock pin = pinUnlock other) : pin = other := by
  have hOpt := congrArg (fun c => c.opt.map CString.bytes) h
  simp only [pinUnlock_opt, Option.some.injEq, List.append_assoc, List.append_cancel_left_eq,
    List.append_cancel_right_eq] at hOpt
  cases pin
  cases other
  simpa using hOpt

theorem pinUnlock_ne_pinQuery (pin : CString) : pinUnlock pin ≠ pinQuery := by
  intro h
  have hOpt := congrArg (fun c => c.opt.map CString.bytes) h
  rw [pinUnlock_opt] at hOpt
  have hFirst := congrArg List.head? (Option.some.inj hOpt)
  revert hFirst
  exact (by decide : some (61 : UInt8) ≠ some 63)

theorem pinUnlock_ne_attention (pin : CString) : pinUnlock pin ≠ attention := by
  intro h
  have hCmd := congrArg Command.cmd h
  revert hCmd
  exact (by decide : cpin ≠ attention.cmd)

/-- No PIN is said in these events. -/
def PinFree (events : List SessionEvent) : Prop := ∀ pin, .said (pinUnlock pin) ∉ events

theorem pinFree_append {front back : List SessionEvent} :
    PinFree (front ++ back) ↔ PinFree front ∧ PinFree back := by
  simp only [PinFree, List.mem_append, not_or, forall_and]

theorem pinFree_heard (called : Called) : PinFree [.heard called] := by
  intro pin
  simp

theorem pinFree_replied {reply : Reply} {command : Command} (h : ∀ pin, pinUnlock pin ≠ command) :
    PinFree (replied reply command) := by
  intro pin
  simpa [replied] using h pin

theorem Attentive.pinFree (a : Attentive) : PinFree a.events := by
  refine pinFree_append.mpr ⟨?_, pinFree_replied pinUnlock_ne_pinQuery⟩
  intro pin
  simp [Tried.events, replied, pinUnlock_ne_attention]

/-- Behind the opening it is over, and only the commands of the phases are said. -/
theorem follows_behind {s : Opening ⊕ Phase} {phase : Phase} {later : List SessionEvent}
    (h : Follows p.client (.inr phase) later s) :
    (∃ last, s = .inr last) ∧
      ∀ command, .said command ∈ later → ∃ phase, command = p.command phase := by
  generalize hStart : (.inr phase : Opening ⊕ Phase) = start at h
  induction h with
  | start => exact ⟨⟨phase, hStart.symm⟩, by simp⟩
  | go _ hears ih =>
      obtain ⟨⟨last, rfl⟩, hFront⟩ := ih
      obtain ⟨reply, rfl, hGoes, rfl⟩ := Program.client_go_iff.mp hears
      cases hGoes with
      | later hears =>
          refine ⟨⟨_, rfl⟩, fun command hMem => ?_⟩
          rcases List.mem_append.mp hMem with hOld | hNew
          · exact hFront command hOld
          · exact ⟨_, by simpa using hNew⟩

/-- What holds in the first phase and is preserved by a reply holds in every phase. -/
theorem phase_induction {motive : Phase → List SessionEvent → Prop} {phase last : Phase}
    {later : List SessionEvent} (start : motive phase [])
    (step : ∀ front middle reply next, motive middle front →
      p.hear middle reply = some (.inl next) →
        motive next (front ++ replied reply (p.command next)))
    (h : Follows p.client (.inr phase) later (.inr last)) : motive last later := by
  generalize hStart : (.inr phase : Opening ⊕ Phase) = first at h
  generalize hEnd : (.inr last : Opening ⊕ Phase) = final at h
  induction h generalizing last with
  | start =>
      subst hStart
      cases hEnd
      exact start
  | go prior hears ih =>
      obtain ⟨reply, rfl, hGoes, rfl⟩ := Program.client_go_iff.mp hears
      subst hStart
      subst hEnd
      obtain ⟨middle, rfl⟩ := (follows_behind prior).1
      cases hGoes with
      | later hHears => exact step _ middle reply last (ih rfl) hHears

/-- And in front of that only its own calls are made. -/
theorem said_opening {start o : Opening} {command : Command}
    (h : Follows p.client (.inl start) events (.inl o)) (hSaid : .said command ∈ events) :
    ∃ o : Opening, command = o.command := by
  generalize hEnd : (.inl o : Opening ⊕ Phase) = last at h
  induction h generalizing o with
  | start => simp at hSaid
  | @go front middle called next messages prior hears ih =>
      obtain ⟨reply, rfl, hGoes, rfl⟩ := Program.client_go_iff.mp hears
      subst hEnd
      obtain ⟨o', rfl⟩ : ∃ o', middle = .inl o' := by
        cases hGoes <;> exact ⟨_, rfl⟩
      rcases List.mem_append.mp hSaid with hOld | hNew
      · exact ih hOld rfl
      · exact ⟨o, by simpa using hNew⟩

theorem Readied.said {command : Command} (r : Readied p) (hSaid : .said command ∈ r.events) :
    command = p.command p.first ∨ ∃ o : Opening, command = o.command := by
  obtain ⟨front, reply, o, hBefore, hEvents⟩ := r.last
  rw [hEvents] at hSaid
  rcases List.mem_append.mp hSaid with hFront | hLast
  · exact .inr (said_opening (Program.follows_iff.mpr hBefore) hFront)
  · exact .inl (by simpa [replied] using hLast)

variable (hOther : ∀ phase, (p.command phase).cmd ≠ cpin)
include hOther

theorem command_ne_pinUnlock (phase : Phase) (pin : CString) : pinUnlock pin ≠ p.command phase :=
  fun h => hOther phase (congrArg Command.cmd h).symm

/-- At most one PIN is said, and to a SIM that was just heard asking for it. -/
theorem Program.Before.pin_said {s : Opening ⊕ Phase} (h : p.Before s events)
    (hSaid : .said (pinUnlock pin) ∈ events) :
    ∃ front asked later, p.asked asked = some (.unlock pin) ∧
      events = front ++ replied asked (pinUnlock pin) ++ later ∧ PinFree front ∧
        PinFree later := by
  have hFirst := command_ne_pinUnlock hOther
  cases s with
  | inr phase =>
      obtain ⟨r, later, rfl, hFollows⟩ := h
      have hLater : PinFree later := by
        intro pin hMem
        obtain ⟨phase, hSame⟩ := (follows_behind hFollows).2 _ hMem
        exact hFirst phase pin hSame
      obtain ⟨a, asked, unlocking, hAnswer⟩ := r
      cases unlocking with
      | none =>
          have hReadied : PinFree (a.events ++ replied asked (p.command p.first) ++ later) :=
            pinFree_append.mpr ⟨pinFree_append.mpr ⟨a.pinFree, pinFree_replied (hFirst p.first)⟩,
              hLater⟩
          exact absurd hSaid (hReadied pin)
      | some u =>
          have hBehind : PinFree (replied u.unlocked pinQuery ++
              replied u.rechecked (p.command p.first) ++ later) :=
            pinFree_append.mpr ⟨pinFree_append.mpr ⟨pinFree_replied pinUnlock_ne_pinQuery,
              pinFree_replied (hFirst p.first)⟩, hLater⟩
          have hSame : pin = u.pin := by
            by_contra hNe
            have hFree : .said (pinUnlock pin) ∉ replied asked (pinUnlock u.pin) := by
              simpa [replied] using fun h => hNe (pinUnlock_inj h)
            simp only [Readied.events, List.mem_append] at hSaid
            have hFront := a.pinFree pin
            have hBack := hBehind pin
            simp only [List.mem_append] at hBack
            tauto
          subst hSame
          refine ⟨a.events, asked, _, hAnswer, ?_, a.pinFree, hBehind⟩
          simp [Readied.events]
  | inl o =>
      cases o with
      | waiting i =>
          obtain ⟨t, rfl, rfl⟩ := h
          simp [Tried.events, replied, pinUnlock_ne_attention] at hSaid
      | asking =>
          obtain ⟨a, rfl⟩ := h
          exact absurd hSaid (a.pinFree pin)
      | unlocking pin' =>
          obtain ⟨a, asked, hAsked, rfl⟩ := h
          have hSame : pin = pin' := by
            rcases List.mem_append.mp hSaid with hFront | hLast
            · exact absurd hFront (a.pinFree pin)
            · exact pinUnlock_inj (by simpa [replied] using hLast)
          subst hSame
          exact ⟨a.events, asked, [], hAsked, (List.append_nil _).symm, a.pinFree,
            by simp [PinFree]⟩
      | rechecking answers =>
          obtain ⟨a, asked, unlocked, pin', hAsked, rfl, rfl⟩ := h
          have hQuery : PinFree (replied unlocked pinQuery) :=
            pinFree_replied pinUnlock_ne_pinQuery
          have hSame : pin = pin' := by
            rcases List.mem_append.mp hSaid with hFront | hLast
            · rcases List.mem_append.mp hFront with hFront | hMiddle
              · exact absurd hFront (a.pinFree pin)
              · exact pinUnlock_inj (by simpa [replied] using hMiddle)
            · exact absurd hLast (hQuery pin)
          subst hSame
          exact ⟨a.events, asked, _, hAsked, rfl, a.pinFree, hQuery⟩

theorem Program.runs_pin_said {device : Device World} {world : World}
    {ending : Ending World Called Command Exit} (h : p.Runs device world ending)
    (hSaid : .said (pinUnlock pin) ∈ ending.events) :
    ∃ front asked later, p.asked asked = some (.unlock pin) ∧
      ending.events = front ++ replied asked (pinUnlock pin) ++ later ∧ PinFree front ∧
        PinFree later := by
  obtain ⟨front, last, s, hBefore, hEvents⟩ := runs_before h
  rw [hEvents] at hSaid ⊢
  obtain ⟨early, asked, later, hAsked, rfl, hEarly, hLater⟩ :=
    hBefore.pin_said hOther (by simpa using hSaid)
  exact ⟨early, asked, later ++ [.heard last], hAsked, List.append_assoc _ _ _, hEarly,
    pinFree_append.mpr ⟨hLater, pinFree_heard last⟩⟩

end Said

section Sample

/-! A modem that has its answers ready, each of one read. -/

def answering (text : String) : Modem := ⟨fun _ => true, [ascii text]⟩

def scripted : Device (List Modem) := fun modems _ => (modems.headD (answering ""), modems.tail)

def readyModem : Modem := answering "\r\nOK\r\n"

def simModem (state : String) : Modem :=
  answering ("\r\n+CPIN: " ++ state ++ "\r\n\r\nOK\r\n")

def samplePin : CString := ⟨ascii "1234", by decide⟩

theorem attention_accepted :
    mobileAtCommandInput readyModem attention.cmd none none false (some ⟨0, []⟩) :=
  ⟨_, rfl, 12, by decide⟩

theorem pinQuery_asked :
    mobileAtCommandInput (simModem "SIM PIN") cpin pinQuery.opt none true
      (some ⟨0, [ascii "SIM PIN"]⟩) :=
  ⟨_, rfl, 12, by decide⟩

theorem pinQuery_blocked :
    mobileAtCommandInput (simModem "SIM PUK") cpin pinQuery.opt none true
      (some ⟨0, [ascii "SIM PUK"]⟩) :=
  ⟨_, rfl, 12, by decide⟩

theorem pinQuery_ready :
    mobileAtCommandInput (simModem "READY") cpin pinQuery.opt none true
      (some ⟨0, [ascii "READY"]⟩) :=
  ⟨_, rfl, 12, by decide⟩

theorem pinUnlock_accepted :
    mobileAtCommandInput readyModem cpin (pinUnlock samplePin).opt none true (some ⟨0, []⟩) :=
  ⟨_, rfl, 12, by decide +kernel⟩

end Sample

end MonitoringPlug.Sms
