import MonitoringPlug.Lib.Incremental
import MonitoringPlug.Lib.Loop
import MonitoringPlug.Rhcs.Clustat
import MonitoringPlug.Rhcs.Conf

/-! `parse_rhcs_clustat` and `parse_rhcs_conf`: the loop that reads the stream and feeds
expat. -/
namespace MonitoringPlug.Rhcs

open CLoop

/-- `XML_Parse` with a buffer and the final flag, and the elements it calls the handlers
for. -/
abbrev Expat := Incremental.Parser.{0, 0, 0} UInt8 Event

/-- `BUFFERSIZE`. -/
def bufferSize : Nat := 1024

/-- The parser, its user data, and what the stream still holds. -/
structure Feeding (expat : Expat) (Data : Type) where
  parser : expat.State
  data : Data
  stream : List UInt8

section Loop

variable (expat : Expat) {Data : Type} (handle : Data → Event → Option Data)

/-- One pass of the loop. It is left without a result when a handler follows a NULL
pointer, and with NULL when expat reports an error. `done` is never set. -/
def feedPass (s : Feeding expat Data) : Pass (Feeding expat Data) (Option (Option Data)) :=
  let done := false
  let buf := s.stream.take bufferSize
  let (parser, events, ok) := expat.parse s.parser buf done
  match events.foldlM handle s.data with
  | none => .leave none
  | some data =>
      if ok = false then .leave (some none)
      else if buf.length = bufferSize ∧ done = false then
        .again { parser := parser, data := data, stream := s.stream.drop bufferSize }
      else .leave (some (some data))

/-- What the handlers and expat make of the blocks together. -/
def outcome (parser : expat.State) (data : Data) (blocks : List (List UInt8)) :
    Option (Option Data) :=
  ((expat.handed parser blocks).foldlM handle data).map fun data =>
    if expat.accepts parser blocks = true then some data else none

/-- No handler follows a NULL pointer on an element that expat reports. -/
def Handled (start : Data) (input : List UInt8) : Prop :=
  ((expat.handed expat.create (Incremental.blocks bufferSize input)).foldlM handle start).isSome

end Loop

/-- What `parse_rhcs_clustat` returns for this stream. -/
def ClustatReturns (expat : Expat) (input : List UInt8)
    (result : Option (Option ClustatState)) : Prop :=
  Returns (feedPass expat clustatEvent)
    { parser := expat.create
      data := { nodes := 0, services := 0, clustat := emptyClustat }
      stream := input } result

/-- What `parse_rhcs_conf` returns for this stream, from any counters. -/
def ConfReturns (expat : Expat) (g : Counters) (input : List UInt8)
    (result : Option (Option ConfState)) : Prop :=
  Returns (feedPass expat confEvent)
    { parser := expat.create
      data := { counters := { g with nodes := 0, services := 0 }, conf := emptyConf }
      stream := input } result

section Loop

variable {expat : Expat} {Data : Type} (handle : Data → Event → Option Data)

theorem outcome_cons (parser : expat.State) (data : Data) (block : List UInt8)
    (blocks : List (List UInt8)) :
    outcome expat handle parser data (block :: blocks) =
      ((expat.parse parser block false).2.1.foldlM handle data).bind fun data =>
        if (expat.parse parser block false).2.2 = true then
          outcome expat handle (expat.parse parser block false).1 data blocks
        else some none := by
  rcases hCall : expat.parse parser block false with ⟨next, events, ok⟩
  simp only [outcome, Incremental.Parser.handed, Incremental.Parser.accepts, hCall,
    List.foldlM_append]
  cases events.foldlM handle data with
  | none => rfl
  | some data =>
      cases ok with
      | false => simp
      | true => simp

/-- The loop ends on every stream, with what the blocks lead to. -/
theorem feedPass_returns (parser : expat.State) (data : Data) (input : List UInt8) :
    Returns (feedPass expat handle) { parser := parser, data := data, stream := input }
      (outcome expat handle parser data (Incremental.blocks bufferSize input)) := by
  induction hLength : input.length using Nat.strongRecOn generalizing parser data input with
  | ind length ih =>
      rcases hCall : expat.parse parser (input.take bufferSize) false with ⟨next, events, ok⟩
      by_cases hShort : input.length < bufferSize
      · have hTake : input.take bufferSize = input :=
          List.take_of_length_le (Nat.le_of_lt hShort)
        rw [hTake] at hCall
        rw [Incremental.blocks_short hShort, outcome_cons, hCall]
        apply Returns.leave
        simp only [feedPass, hTake, hCall]
        cases events.foldlM handle data with
        | none => rfl
        | some data =>
            cases ok with
            | false => rfl
            | true => simp [Nat.ne_of_lt hShort, outcome, Incremental.Parser.handed,
                Incremental.Parser.accepts]
      · have hLong : bufferSize ≤ input.length := Nat.le_of_not_lt hShort
        have hTake : (input.take bufferSize).length = bufferSize :=
          List.length_take_of_le hLong
        rw [Incremental.blocks_long (by decide) hLong, outcome_cons, hCall]
        cases hEvents : events.foldlM handle data with
        | none =>
            apply Returns.leave
            simp [feedPass, hCall, hEvents]
        | some data' =>
            cases ok with
            | false =>
                apply Returns.leave
                simp [feedPass, hCall, hEvents]
            | true =>
                have hLess : (input.drop bufferSize).length < length := by
                  rw [List.length_drop, bufferSize]
                  rw [bufferSize] at hLong
                  omega
                have hPass : feedPass expat handle
                    { parser := parser, data := data, stream := input } =
                      .again
                        { parser := next, data := data', stream := input.drop bufferSize } := by
                  simp [feedPass, hCall, hEvents, hTake]
                exact Returns.again hPass (ih _ hLess next data' _ rfl)

/-- The loop returns, and non-NULL for well-formed documents only, exactly if no handler
faults and what is open is well-formed. -/
theorem feed_decides_iff {WellFormed Open : List UInt8 → Prop}
    (h : expat.Reports WellFormed Open) (start : Data) (input : List UInt8) :
    (∃ result, Returns (feedPass expat handle)
        { parser := expat.create, data := start, stream := input } (some result) ∧
        (result.isSome ↔ WellFormed input)) ↔
      Handled expat handle start input ∧ (Open input → WellFormed input) := by
  have hAccepts : expat.accepts expat.create (Incremental.blocks bufferSize input) = true ↔
      Open input := by
    have hBlocks := h.accepts_iff [] (Incremental.blocks bufferSize input) h.empty
    rwa [Incremental.blocks_flatten (by decide)] at hBlocks
  have hReturns := feedPass_returns handle expat.create start input
  rw [outcome] at hReturns
  rw [Handled]
  cases hData : (expat.handed expat.create (Incremental.blocks bufferSize input)).foldlM
      handle start with
  | none =>
      rw [hData, Option.map_none] at hReturns
      simp only [Option.isSome_none, Bool.false_eq_true, false_and, iff_false]
      rintro ⟨result, hResult, _⟩
      cases hReturns.unique hResult
  | some data =>
      rw [hData, Option.map_some] at hReturns
      have hSome : (if expat.accepts expat.create (Incremental.blocks bufferSize input) = true
          then some data else none).isSome ↔ Open input := by
        rw [← hAccepts]
        split_ifs with hAll
        · simp [hAll]
        · simp [hAll]
      simp only [Option.isSome_some, true_and]
      constructor
      · rintro ⟨result, hResult, hDecides⟩ hOpen
        cases hReturns.unique hResult
        exact hDecides.mp (hSome.mpr hOpen)
      · intro hComplete
        exact ⟨_, hReturns, hSome.trans ⟨hComplete, h.opened input⟩⟩

/-- Both parsers tell well-formed documents from all others exactly on the input that
has no error other than that it ends too early. -/
theorem parse_decides_iff {WellFormed Open : List UInt8 → Prop}
    (h : expat.Reports WellFormed Open) (g : Counters) (input : List UInt8) :
    ((∃ result, ClustatReturns expat input (some result) ∧
        (result.isSome ↔ WellFormed input)) ↔
      Handled expat clustatEvent { nodes := 0, services := 0, clustat := emptyClustat } input ∧
        (Open input → WellFormed input)) ∧
    ((∃ result, ConfReturns expat g input (some result) ∧
        (result.isSome ↔ WellFormed input)) ↔
      Handled expat confEvent
          { counters := { g with nodes := 0, services := 0 }, conf := emptyConf } input ∧
        (Open input → WellFormed input)) :=
  ⟨feed_decides_iff _ h _ input, feed_decides_iff _ h _ input⟩

end Loop

/-- An expat that knows one document, by its elements and the offsets they are complete
at. -/
def documentParser (document : List UInt8) (marks : List (Nat × Event)) : Expat where
  State := List UInt8
  create := []
  parse before block final :=
    let text := before ++ block
    let found := marks.filter fun mark => before.length < mark.1 ∧ mark.1 ≤ text.length
    (text, found.map Prod.snd, if final = true then text = document else text <+: document)

theorem documentParser_fed (document : List UInt8) (marks : List (Nat × Event))
    (blocks : List (List UInt8)) :
    (documentParser document marks).fed blocks = blocks.flatten := by
  induction blocks using List.reverseRecOn with
  | nil => rfl
  | append_singleton blocks block ih =>
      rw [Incremental.Parser.fed_append_singleton, ih, List.flatten_append,
        List.flatten_singleton]
      rfl

theorem documentParser_reports (document : List UInt8) (marks : List (Nat × Event)) :
    (documentParser document marks).Reports (fun text => text = document)
      (fun text => text <+: document) where
  empty := List.nil_prefix
  opened text hText := hText ▸ List.prefix_rfl
  front s t hWhole := (List.prefix_append s t).trans hWhole
  more blocks block _ := by
    rw [documentParser_fed]
    simp [documentParser]
  last blocks block _ := by
    rw [documentParser_fed]
    simp [documentParser]

/-- "<clustat>" -/
def clustatTag : List UInt8 :=
  ['<', 'c', 'l', 'u', 's', 't', 'a', 't', '>'].map Char.toUInt8

/-- "<clustat><group/></clustat>" -/
def clustatOutput : List UInt8 :=
  clustatTag ++ ['<', 'g', 'r', 'o', 'u', 'p', '/', '>', '<', '/', 'c', 'l', 'u', 's', 't', 'a',
    't', '>'].map Char.toUInt8

def clustatParser : Expat :=
  documentParser clustatOutput
    [(9, .start ['c', 'l', 'u', 's', 't', 'a', 't'] []), (17, .start ['g', 'r', 'o', 'u', 'p'] []),
      (17, .stop ['g', 'r', 'o', 'u', 'p']), (27, .stop ['c', 'l', 'u', 's', 't', 'a', 't'])]

theorem clustatParser_reports :
    clustatParser.Reports (fun text => text = clustatOutput) (fun text => text <+: clustatOutput) :=
  documentParser_reports _ _

theorem parse_decides_iff_complete :
    (∃ result, ClustatReturns clustatParser clustatOutput (some result) ∧
      (result.isSome ↔ clustatOutput = clustatOutput)) ∧
    (∃ result, ConfReturns clustatParser .zero clustatOutput (some result) ∧
      (result.isSome ↔ clustatOutput = clustatOutput)) := by
  have hDecides := parse_decides_iff clustatParser_reports .zero clustatOutput
  exact ⟨hDecides.1.mpr ⟨by rfl, fun _ => rfl⟩, hDecides.2.mpr ⟨by rfl, fun _ => rfl⟩⟩

/-- What is left of the output behind its first tag is accepted, and has no group. -/
theorem parse_accepts_truncated :
    clustatParser.Reports (fun text => text = clustatOutput) (fun text => text <+: clustatOutput) ∧
      clustatTag ≠ clustatOutput ∧
      (∃ s, ClustatReturns clustatParser clustatTag (some (some s)) ∧ s.clustat.group = []) ∧
      ∃ s, ConfReturns clustatParser .zero clustatTag (some (some s)) := by
  apply And.intro clustatParser_reports
  apply And.intro (by decide)
  exact ⟨⟨_, feedPass_returns _ _ _ _, rfl⟩, ⟨_, feedPass_returns _ _ _ _⟩⟩

end MonitoringPlug.Rhcs
