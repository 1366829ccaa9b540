import MonitoringPlug.Lib.Dialogue

/-! Interviews: the other side replies to one message at a time, and the client says one
message for each reply it goes on behind. The other side is any machine, and need not be
deterministic. -/
namespace Dialogue

variable {State World Line Message Result : Type}

/-- A reply to a message, and how the other side goes on. -/
abbrev Replies (World Line Message : Type) := World → Message → Line → World → Prop

/-- What comes of an interview from a message on that was said in this state. -/
inductive Interviews (client : Client State Line Message Result)
    (replies : Replies World Line Message) :
    State → Message → World → Ending World Line Message Result → Prop where
  | outside {s message world line world'} (reply : replies world message line world')
      (hears : client s line = none) :
      Interviews client replies s message world ⟨.outside, world', [.heard line]⟩
  | stop {s message world line world' result} (reply : replies world message line world')
      (hears : client s line = some (.stop result)) :
      Interviews client replies s message world ⟨.ended result, world', [.heard line]⟩
  | go {s message world line world' next asked ending} (reply : replies world message line world')
      (hears : client s line = some (.go next [asked]))
      (rest : Interviews client replies next asked world' ending) :
      Interviews client replies s message world
        { ending with events := .heard line :: .said asked :: ending.events }

/-- Events in which the other side replies to every message. -/
inductive Transcript (replies : Replies World Line Message) :
    Message → World → List (Event Line Message) → World → Prop where
  | last {message world line world'} (reply : replies world message line world') :
      Transcript replies message world [.heard line] world'
  | more {message world line world' asked events world''}
      (reply : replies world message line world')
      (rest : Transcript replies asked world' events world'') :
      Transcript replies message world (.heard line :: .said asked :: events) world''

def heardLines (events : List (Event Line Message)) : List Line :=
  events.filterMap fun | .heard line => some line | .said _ => none

@[simp] theorem heardLines_nil : heardLines ([] : List (Event Line Message)) = [] := rfl

@[simp] theorem heardLines_heard (line : Line) (events : List (Event Line Message)) :
    heardLines (.heard line :: events) = line :: heardLines events := rfl

@[simp] theorem heardLines_said (message : Message) (events : List (Event Line Message)) :
    heardLines (.said message :: events) = heardLines events := rfl

/-- The client goes on over these events from one state to another. -/
inductive Follows (client : Client State Line Message Result) :
    State → List (Event Line Message) → State → Prop where
  | start {s} : Follows client s [] s
  | go {s front middle line next messages} (prior : Follows client s front middle)
      (hears : client middle line = some (.go next messages)) :
      Follows client s (front ++ .heard line :: messages.map .said) next

section Follows

variable {client : Client State Line Message Result} {s next middle : State} {line : Line}
  {messages : List Message} {front back events : List (Event Line Message)}

theorem heardLines_append :
    heardLines (front ++ back) = heardLines front ++ heardLines back := List.filterMap_append

@[simp] theorem heardLines_messages (messages : List Message) :
    heardLines (messages.map (.said : Message → Event Line Message)) = [] := by
  simp [heardLines]

theorem Follows.trans (h : Follows client s front middle)
    (hBack : Follows client middle back next) : Follows client s (front ++ back) next := by
  induction hBack with
  | start => rwa [List.append_nil]
  | go _ hears ih =>
      rw [← List.append_assoc]
      exact ih.go hears

theorem Follows.cons (hears : client s line = some (.go next messages))
    (h : Follows client next events middle) :
    Follows client s (.heard line :: messages.map .said ++ events) middle :=
  (Follows.go .start hears).trans h

/-- A conversation goes on from where the client is. -/
theorem Follows.converse (h : Follows client s front next) (lines : List Line) :
    Dialogue.converse client s (heardLines front ++ lines) =
      { Dialogue.converse client next lines with
        events := front ++ (Dialogue.converse client next lines).events } := by
  induction h generalizing lines with
  | start => rfl
  | go _ hears ih =>
      rw [heardLines_append, heardLines_heard, heardLines_messages, List.append_assoc,
        List.singleton_append, ih, converse_go hears]
      simp

/-- A conversation is followed up to the line that it ends with, or to its last one. -/
theorem exists_follows (client : Client State Line Message Result) (s : State)
    (lines : List Line) :
    ∃ front next rest, Follows client s front next ∧ lines = heardLines front ++ rest ∧
      (rest = [] ∨ ∃ last later, rest = last :: later ∧
        ∀ state messages, client next last ≠ some (.go state messages)) := by
  induction lines generalizing s with
  | nil => exact ⟨[], s, [], .start, rfl, .inl rfl⟩
  | cons line lines ih =>
      by_cases hGoes : ∃ state messages, client s line = some (.go state messages)
      · obtain ⟨state, messages, hears⟩ := hGoes
        obtain ⟨front, next, rest, hFollows, rfl, hRest⟩ := ih state
        refine ⟨_, next, rest, hFollows.cons hears, ?_, hRest⟩
        simp [heardLines_append]
      · refine ⟨[], s, line :: lines, .start, rfl, .inr ⟨line, lines, rfl, ?_⟩⟩
        exact fun state messages hears => hGoes ⟨state, messages, hears⟩

/-- A conversation ends with a result in the state where the client gives it. -/
theorem converse_ended_iff {lines rest : List Line} {result : Result} :
    converse client s lines = ⟨.ended result, rest, events⟩ ↔
      ∃ front last next, Follows client s front next ∧
        client next last = some (.stop result) ∧ lines = heardLines front ++ last :: rest ∧
        events = front ++ [.heard last] := by
  constructor
  · intro h
    obtain ⟨front, next, left, hFollows, rfl, hLeft⟩ := exists_follows client s lines
    rw [hFollows.converse] at h
    obtain rfl | ⟨last, later, rfl, hEnds⟩ := hLeft
    · simp at h
    · cases hHears : client next last with
      | none => simp [converse_outside hHears] at h
      | some answer =>
          cases answer with
          | go state messages => exact absurd hHears (hEnds state messages)
          | stop other =>
              rw [converse_stop hHears] at h
              cases h
              exact ⟨front, last, next, hFollows, hHears, rfl, rfl⟩
  · rintro ⟨front, last, next, hFollows, hHears, rfl, rfl⟩
    rw [hFollows.converse, converse_stop hHears]

/-- It leaves the line in the state where the client does. -/
theorem converse_outside_iff {lines rest : List Line} :
    converse client s lines = ⟨.outside, rest, events⟩ ↔
      ∃ front last next, Follows client s front next ∧ client next last = none ∧
        lines = heardLines front ++ last :: rest ∧ events = front ++ [.heard last] := by
  constructor
  · intro h
    obtain ⟨front, next, left, hFollows, rfl, hLeft⟩ := exists_follows client s lines
    rw [hFollows.converse] at h
    obtain rfl | ⟨last, later, rfl, hEnds⟩ := hLeft
    · simp at h
    · cases hHears : client next last with
      | none =>
          rw [converse_outside hHears] at h
          cases h
          exact ⟨front, last, next, hFollows, hHears, rfl, rfl⟩
      | some answer =>
          cases answer with
          | go state messages => exact absurd hHears (hEnds state messages)
          | stop other => simp [converse_stop hHears] at h
  · rintro ⟨front, last, next, hFollows, hHears, rfl, rfl⟩
    rw [hFollows.converse, converse_outside hHears]

end Follows

/-- The client says one message whenever it goes on. -/
def Asks (client : Client State Line Message Result) : Prop :=
  ∀ s line next messages, client s line = some (.go next messages) → ∃ asked, messages = [asked]

section Interviews

variable {client : Client State Line Message Result} {replies : Replies World Line Message}
  {s : State} {message : Message} {world world' : World} {outcome : Outcome Result}
  {events : List (Event Line Message)} {ending other : Ending World Line Message Result}

theorem Interviews.transcript (h : Interviews client replies s message world ending) :
    Transcript replies message world ending.events ending.source := by
  induction h with
  | outside reply _ => exact .last reply
  | stop reply _ => exact .last reply
  | go reply _ _ ih => exact .more reply ih

theorem Interviews.not_silent (h : Interviews client replies s message world ending) :
    ending.outcome ≠ .silent := by
  induction h with
  | outside _ _ => simp
  | stop _ _ => simp
  | go _ _ _ ih => exact ih

/-- The client's part is the conversation over the lines it heard. -/
theorem Interviews.converse (h : Interviews client replies s message world ending) :
    Dialogue.converse client s (heardLines ending.events) =
      ⟨ending.outcome, [], ending.events⟩ := by
  induction h with
  | outside _ hears => exact converse_outside hears []
  | stop _ hears => exact converse_stop hears []
  | go _ hears _ ih => exact (converse_go_iff hears).mpr ⟨_, ih, rfl⟩

theorem interviews_of_transcript (hAsks : Asks client)
    (h : Transcript replies message world events world')
    (hOutcome : outcome ≠ .silent)
    (hConverse : converse client s (heardLines events) = ⟨outcome, [], events⟩) :
    Interviews client replies s message world ⟨outcome, world', events⟩ := by
  induction h generalizing s with
  | @last message world line world' reply =>
      rw [heardLines_heard, heardLines_nil] at hConverse
      cases hHears : client s line with
      | none =>
          rw [converse_outside hHears] at hConverse
          cases hConverse
          exact .outside reply hHears
      | some answer =>
          cases answer with
          | stop result =>
              rw [converse_stop hHears] at hConverse
              cases hConverse
              exact .stop reply hHears
          | go next messages =>
              obtain ⟨asked, rfl⟩ := hAsks _ _ _ _ hHears
              obtain ⟨later, -, hEvents⟩ := (converse_go_iff hHears).mp hConverse
              cases hEvents
  | @more message world line world' asked events world'' reply rest ih =>
      rw [heardLines_heard, heardLines_said] at hConverse
      cases hHears : client s line with
      | none =>
          simp [converse_outside hHears] at hConverse
      | some answer =>
          cases answer with
          | stop result =>
              simp [converse_stop hHears] at hConverse
          | go next messages =>
              obtain ⟨asked', rfl⟩ := hAsks _ _ _ _ hHears
              obtain ⟨later, hLater, hEvents⟩ := (converse_go_iff hHears).mp hConverse
              cases hEvents
              exact .go reply hHears (ih hLater)

/-- An interview is a transcript that is the client's conversation. -/
theorem interviews_iff (hAsks : Asks client) (hOutcome : outcome ≠ .silent) :
    Interviews client replies s message world ⟨outcome, world', events⟩ ↔
      Transcript replies message world events world' ∧
        converse client s (heardLines events) = ⟨outcome, [], events⟩ :=
  ⟨fun h => ⟨h.transcript, h.converse⟩,
    fun h => interviews_of_transcript hAsks h.1 hOutcome h.2⟩

theorem heardLines_last {front : List (Event Line Message)} (line : Line) :
    heardLines (front ++ [.heard line]) = heardLines front ++ [line] := by
  rw [heardLines_append, heardLines_heard, heardLines_nil]

/-- It ends with a result in the state where the client gives it. -/
theorem interviews_ended_iff (hAsks : Asks client) {result : Result} :
    Interviews client replies s message world ⟨.ended result, world', events⟩ ↔
      Transcript replies message world events world' ∧
        ∃ front last next, Follows client s front next ∧
          client next last = some (.stop result) ∧ events = front ++ [.heard last] := by
  rw [interviews_iff hAsks (by simp), converse_ended_iff]
  refine and_congr_right fun _ => exists_congr fun front => exists_congr fun last =>
    exists_congr fun next => and_congr_right fun _ => and_congr_right fun _ => ?_
  constructor
  · exact And.right
  · rintro rfl
    exact ⟨heardLines_last last, rfl⟩

/-- It ends outside in the state where the client reads behind a line. -/
theorem interviews_outside_iff (hAsks : Asks client) :
    Interviews client replies s message world ⟨.outside, world', events⟩ ↔
      Transcript replies message world events world' ∧
        ∃ front last next, Follows client s front next ∧ client next last = none ∧
          events = front ++ [.heard last] := by
  rw [interviews_iff hAsks (by simp), converse_outside_iff]
  refine and_congr_right fun _ => exists_congr fun front => exists_congr fun last =>
    exists_congr fun next => and_congr_right fun _ => and_congr_right fun _ => ?_
  constructor
  · exact And.right
  · rintro rfl
    exact ⟨heardLines_last last, rfl⟩

end Interviews

end Dialogue
