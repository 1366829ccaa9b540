import MonitoringPlug.Lib.Loop
import Mathlib.Data.List.Basic

/-! Clients of a line protocol. A client waits for a line, answers and waits again,
or it is done. Where its lines come from is a parameter, so that a transport can be
exchanged for the lines it carries. -/
namespace Dialogue

variable {State Source Other Line Message Result : Type}

/-- What a client does with a line. -/
inductive Reply (State Message Result : Type) where
  | go (next : State) (messages : List Message)
  | stop (result : Result)
deriving DecidableEq

inductive Event (Line Message : Type) where
  | heard (line : Line)
  | said (message : Message)
deriving DecidableEq

/-- `silent` when no line comes any more, `outside` when the client reads behind a line. -/
inductive Outcome (Result : Type) where
  | ended (result : Result)
  | silent
  | outside
deriving DecidableEq

structure Conversation (State Source Line Message : Type) where
  state : State
  source : Source
  events : List (Event Line Message)
deriving DecidableEq

structure Ending (Source Line Message Result : Type) where
  outcome : Outcome Result
  source : Source
  events : List (Event Line Message)
deriving DecidableEq

/-- No reply is an access outside of the line. -/
abbrev Client (State Line Message Result : Type) :=
  State → Line → Option (Reply State Message Result)

/-- A line, and the lines behind it. -/
abbrev Feed (Source Line : Type) := Source → Option (Line × Source)

/-- A message is said once the line that it answers was heard. -/
def pass (client : Client State Line Message Result) (feed : Feed Source Line)
    (c : Conversation State Source Line Message) :
    CLoop.Pass (Conversation State Source Line Message) (Ending Source Line Message Result) :=
  match feed c.source with
  | none => .leave ⟨.silent, c.source, c.events⟩
  | some (line, source) =>
      match client c.state line with
      | none => .leave ⟨.outside, source, c.events ++ [.heard line]⟩
      | some (.stop result) => .leave ⟨.ended result, source, c.events ++ [.heard line]⟩
      | some (.go next messages) =>
          .again ⟨next, source, c.events ++ .heard line :: messages.map .said⟩

/-- The conversation over lines that are all there. -/
def converse (client : Client State Line Message Result) :
    State → List Line → Ending (List Line) Line Message Result
  | _, [] => ⟨.silent, [], []⟩
  | s, line :: lines =>
      match client s line with
      | none => ⟨.outside, lines, [.heard line]⟩
      | some (.stop result) => ⟨.ended result, lines, [.heard line]⟩
      | some (.go next messages) =>
          let rest := converse client next lines
          { rest with events := .heard line :: messages.map .said ++ rest.events }

section Converse

variable {client : Client State Line Message Result} {s next : State} {line : Line}
  {lines : List Line} {messages : List Message} {result : Result}

@[simp] theorem converse_nil : converse client s [] = ⟨.silent, [], []⟩ := rfl

theorem converse_outside (h : client s line = none) (lines : List Line) :
    converse client s (line :: lines) = ⟨.outside, lines, [.heard line]⟩ := by
  simp [converse, h]

theorem converse_stop (h : client s line = some (.stop result)) (lines : List Line) :
    converse client s (line :: lines) = ⟨.ended result, lines, [.heard line]⟩ := by
  simp [converse, h]

theorem converse_go (h : client s line = some (.go next messages)) (lines : List Line) :
    converse client s (line :: lines) =
      { converse client next lines with
        events := .heard line :: messages.map .said ++ (converse client next lines).events } := by
  simp [converse, h]

/-- What the first line adds is in front of the events of the rest. -/
theorem converse_go_iff (h : client s line = some (.go next messages))
    {outcome : Outcome Result} {rest : List Line} {events : List (Event Line Message)} :
    converse client s (line :: lines) = ⟨outcome, rest, events⟩ ↔
      ∃ later, converse client next lines = ⟨outcome, rest, later⟩ ∧
        events = .heard line :: messages.map .said ++ later := by
  rw [converse_go h]
  constructor
  · intro hEnding
    injection hEnding with hOutcome hRest hEvents
    refine ⟨(converse client next lines).events, ?_, hEvents.symm⟩
    rw [← hOutcome, ← hRest]
  · rintro ⟨later, hLater, rfl⟩
    rw [hLater]

end Converse

section Feeds

variable (client : Client State Line Message Result) {feed : Feed Source Line}
  {other : Feed Other Line} (view : Source → Other)

def Conversation.map (c : Conversation State Source Line Message) :
    Conversation State Other Line Message := ⟨c.state, view c.source, c.events⟩

def Ending.map (e : Ending Source Line Message Result) : Ending Other Line Message Result :=
  ⟨e.outcome, view e.source, e.events⟩

/-- What one source yields and becomes is what the other does, seen through `view`. -/
def Shows (view : Source → Other) (feed : Feed Source Line) (other : Feed Other Line) : Prop :=
  ∀ source, (feed source).map (Prod.map id view) = other (view source)

variable {view}

theorem pass_view (h : Shows view feed other) (c : Conversation State Source Line Message) :
    pass client other (c.map view) =
      match pass client feed c with
      | .again next => .again (next.map view)
      | .leave ending => .leave (ending.map view) := by
  simp only [pass, Conversation.map, ← h c.source]
  cases feed c.source with
  | none => rfl
  | some heard =>
      simp only [Option.map_some, Prod.map, id]
      cases client c.state heard.1 with
      | none => rfl
      | some reply => cases reply <;> rfl

/-- Then a client ends the same conversation with both. -/
theorem Shows.returns (h : Shows view feed other) {c : Conversation State Source Line Message}
    {ending : Ending Source Line Message Result}
    (hReturns : CLoop.Returns (pass client feed) c ending) :
    CLoop.Returns (pass client other) (c.map view) (ending.map view) := by
  obtain ⟨fuel, hFuel⟩ := hReturns
  induction fuel generalizing c with
  | zero => cases hFuel
  | succ fuel ih =>
      have hView := pass_view client h c
      cases hPass : pass client feed c with
      | again next =>
          rw [CLoop.runFor_again hPass] at hFuel
          rw [hPass] at hView
          exact (ih hFuel).again hView
      | leave result =>
          rw [CLoop.runFor_leave hPass] at hFuel
          cases hFuel
          rw [hPass] at hView
          exact CLoop.Returns.leave hView

theorem Shows.returns_from (h : Shows view feed other)
    {c : Conversation State Source Line Message} {ending : Ending Other Line Message Result}
    (hReturns : CLoop.Returns (pass client other) (c.map view) ending) :
    ∃ ending', CLoop.Returns (pass client feed) c ending' ∧ ending'.map view = ending := by
  obtain ⟨fuel, hFuel⟩ := hReturns
  induction fuel generalizing c with
  | zero => cases hFuel
  | succ fuel ih =>
      have hView := pass_view client h c
      cases hPass : pass client feed c with
      | again next =>
          rw [hPass] at hView
          rw [CLoop.runFor_again hView] at hFuel
          obtain ⟨ending', hEnding, hMap⟩ := ih hFuel
          exact ⟨ending', hEnding.again hPass, hMap⟩
      | leave result =>
          rw [hPass] at hView
          rw [CLoop.runFor_leave hView] at hFuel
          cases hFuel
          exact ⟨result, CLoop.Returns.leave hPass, rfl⟩

/-- Lines that are all there, in front of something that is never asked for. -/
def given {Rest : Type} : Feed (List Line × Rest) Line
  | ([], _) => none
  | (line :: lines, rest) => some (line, lines, rest)

theorem given_returns {Rest : Type} (rest : Rest) (s : State) (lines : List Line)
    (events : List (Event Line Message)) :
    CLoop.Returns (pass client given) ⟨s, (lines, rest), events⟩
      ⟨(converse client s lines).outcome, ((converse client s lines).source, rest),
        events ++ (converse client s lines).events⟩ := by
  induction lines generalizing s events with
  | nil =>
      apply CLoop.Returns.leave
      simp [pass, given]
  | cons line lines ih =>
      cases hReply : client s line with
      | none =>
          rw [converse_outside hReply]
          apply CLoop.Returns.leave
          simp [pass, given, hReply]
      | some reply =>
          cases reply with
          | stop result =>
              rw [converse_stop hReply]
              apply CLoop.Returns.leave
              simp [pass, given, hReply]
          | go next messages =>
              rw [converse_go hReply]
              have hNext := ih next (events ++ .heard line :: messages.map .said)
              rw [List.append_assoc] at hNext
              refine CLoop.Returns.again ?_ hNext
              simp [pass, given, hReply]

/-- Over a source that shows lines the client has the conversation over these lines, and
the source shows those that are left. -/
theorem Shows.converses {Rest : Type} {view : Source → List Line × Rest}
    (h : Shows view feed given) (s : State) (source : Source) :
    ∃ ending, CLoop.Returns (pass client feed) ⟨s, source, []⟩ ending ∧
      ending.outcome = (converse client s (view source).1).outcome ∧
      ending.events = (converse client s (view source).1).events ∧
      view ending.source = ((converse client s (view source).1).source, (view source).2) := by
  obtain ⟨ending, hReturns, hMap⟩ := h.returns_from client (c := ⟨s, source, []⟩)
    (given_returns client (view source).2 s (view source).1 [])
  have hOutcome := congrArg Ending.outcome hMap
  have hEvents := congrArg Ending.events hMap
  exact ⟨ending, hReturns, hOutcome, hEvents, congrArg Ending.source hMap⟩

end Feeds

end Dialogue
