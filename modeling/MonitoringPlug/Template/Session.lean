import MonitoringPlug.Template.Parse

/-! Templates one after the other in one process. What a rendering leaves behind is
the start condition of the scanner and the globals of the engine. -/
namespace MonitoringPlug.Template

open CMemory ShiftReduce

/-- What the build and the machine supply: the tables generated from the grammar,
and `float`. -/
structure Platform where
  tables : Tables Terminal Nonterminal Rule
  Float : Type
  float : CFloat Float

instance (P : Platform) : CFloat P.Float := P.float

structure Process where
  start : StartCondition
  globals : State

/-- Before the first template. -/
def Process.first : Process where
  start := .initial
  globals := { outputDisable := false, output := [], outputLen := 0, outputPos := 0,
               conditionals := [] }

/-- The string at the pointer that `mp_template_str` returns. -/
def Process.text (p : Process) : Option (List UInt8) := loadString p.globals.output

namespace Platform

variable (P : Platform) (env : CString → Option CString)

/-- A parse that is accepted; after a syntax error the process exits. The call of
`yylex_destroy` is not compiled, so the scanner keeps its start condition. -/
def mpTemplateParseString (s : CString) (p p' : Process) : Prop :=
  let (tokens, start) := lex (F := P.Float) p.start s
  p'.start = start ∧ Parses (grammar env) P.tables tokens p.globals (.accepted p'.globals)

def mpTemplateStr (s : CString) (p p' : Process) : Prop :=
  P.mpTemplateParseString env s { p with globals := initOutput p.globals } p'

/-- The grammar accepts a string that is rendered first. -/
def Accepts (s : CString) : Prop := ∃ p', P.mpTemplateStr env s .first p'

/-- Rendered in this state of the process, a string gives this text. -/
def Renders (p : Process) (s : CString) (text : List UInt8) : Prop :=
  ∃ p', P.mpTemplateStr env s p p' ∧ p'.text = some text

/-- Every template gives what it would give first. -/
def Undisturbed (p : Process) : Prop :=
  ∀ s, P.Accepts env s → ∀ text, P.Renders env p s text ↔ P.Renders env .first s text

/-- Every tag and every comment is closed. -/
def Closed (s : CString) : Prop := (lex (F := P.Float) .initial s).2 = .initial

end Platform

section Renders

variable {P : Platform} {env : CString → Option CString} {s : CString} {p p' : Process}

/-- A rendering returns the text of a template tree and leaves the engine ready. -/
theorem mpTemplateStr_sound (h : P.mpTemplateStr env s p p')
    (hOn : p.globals.outputDisable = false) :
    ∃ template : Blocks, p'.text = some template.render ∧
      p'.globals.outputDisable = false ∧ p'.globals.conditionals = p.globals.conditionals := by
  obtain ⟨template, hRun⟩ := accepted_template h.2
  obtain ⟨st', hRun', hHolds, hOff, hStack⟩ := mpTemplateStr_rendered template p.globals hOn
  rw [mpTemplateStr, hRun] at hRun'
  cases hRun'
  exact ⟨template, hHolds.loadString, hOff, hStack⟩

theorem State.Rendered.text {st : State} {out : List UInt8} (h : st.Rendered out)
    (hFree : 0 ∉ out) : loadString st.output = some out := by
  have hHolds : Holds st.output (CString.mk out hFree).terminated := h.holds
  exact hHolds.loadString

/-- A string without tags gives the texts of its tokens. -/
theorem mpTemplateStr_plain (h : P.mpTemplateStr env s p p')
    (hOn : p.globals.outputDisable = false) (hPlain : Plain (lex (F := P.Float) p.start s).1) :
    p'.text = some (((lex (F := P.Float) p.start s).1.filterMap copied).flatMap
      CString.bytes) := by
  have hRun := accepted_plain h.2 hPlain
  have hStart : (initOutput p.globals).After p.globals.conditionals [] :=
    ⟨rfl, initOutput_rendered _⟩
  obtain ⟨st', hRun', _, hAfter⟩ := refines_copies _ _ _ _ hStart hOn
  rw [hRun] at hRun'
  cases hRun'
  apply hAfter.rendered.text
  intro hZero
  obtain ⟨text, _, hMem⟩ := List.mem_flatMap.mp hZero
  exact text.nulFree hMem

/-- What the next template finds as the first one did. -/
structure Process.Ready (p : Process) : Prop where
  start : p.start = .initial
  enabled : p.globals.outputDisable = false
  conditionals : p.globals.conditionals = []

theorem Process.first_ready : Process.first.Ready := ⟨rfl, rfl, rfl⟩

/-- A closed template leaves a process ready. -/
theorem Process.Ready.step (hReady : p.Ready) (h : P.mpTemplateStr env s p p')
    (hClosed : P.Closed s) : p'.Ready := by
  obtain ⟨_, _, hOn, hStack⟩ := mpTemplateStr_sound h hReady.enabled
  constructor
  · have hStart : p'.start = (lex (F := P.Float) p.start s).2 := h.1
    rw [hStart, hReady.start]
    exact hClosed
  · exact hOn
  · exact hStack.trans hReady.conditionals

theorem Process.Ready.undisturbed (hReady : p.Ready) : P.Undisturbed env p := by
  have hFresh : { p with globals := initOutput p.globals } =
      { Process.first with globals := initOutput Process.first.globals } := by
    simp only [initOutput, hReady.start, hReady.enabled, hReady.conditionals, Process.first]
  intro s _ text
  simp only [Platform.Renders, Platform.mpTemplateStr, hFresh]

/-- Templates rendered one after the other. -/
inductive Session (P : Platform) (env : CString → Option CString) :
    List CString → Process → Prop where
  | first : Session P env [] .first
  | next {templates : List CString} {p p' : Process} (prior : Session P env templates p)
      (s : CString) (last : P.mpTemplateStr env s p p') : Session P env (templates ++ [s]) p'

/-- After any number of closed templates every one gives what it would give first. -/
theorem session_undisturbed {templates : List CString} (h : Session P env templates p)
    (hClosed : ∀ s ∈ templates, P.Closed s) : P.Undisturbed env p := by
  have hReady : p.Ready := by
    induction h with
    | first => exact Process.first_ready
    | next prior s last ih =>
        have hPrior := ih fun t ht => hClosed t (List.mem_append_left _ ht)
        exact hPrior.step last (hClosed s (List.mem_append_right _ List.mem_cons_self))
  exact hReady.undisturbed

/-- A template of one blank. -/
def blank : CString := ⟨[32], by decide⟩

theorem lex_blank : lex (F := P.Float) .initial blank = ([⟨.text, blank⟩], .initial) := rfl

/-- In a tag a blank is skipped, and in a comment everything is. -/
theorem lex_blank_open {start : StartCondition} (h : start ≠ .initial) :
    lex (F := P.Float) start blank = ([], start) := by
  cases start with
  | initial => exact absurd rfl h
  | tt => rfl
  | comment => rfl

theorem closed_of_undisturbed (hBlank : P.Accepts env blank)
    (h : P.mpTemplateStr env s .first p) (hSame : P.Undisturbed env p) : P.Closed s := by
  by_contra hOpen
  have hStart : p.start ≠ .initial := fun hInitial => hOpen (h.1.symm.trans hInitial)
  obtain ⟨first, hFirst⟩ := hBlank
  have hText : first.text = some blank.bytes := by
    have hPlain := mpTemplateStr_plain hFirst rfl
    rw [show Process.first.start = .initial from rfl, lex_blank] at hPlain
    exact hPlain fun t ht => by rw [List.mem_singleton.mp ht]; rfl
  obtain ⟨later, hLater, hSameText⟩ :=
    (hSame blank ⟨first, hFirst⟩ blank.bytes).mpr ⟨first, hFirst, hText⟩
  obtain ⟨_, _, hOn, _⟩ := mpTemplateStr_sound h rfl
  have hNothing := mpTemplateStr_plain hLater hOn
  rw [lex_blank_open hStart, hSameText] at hNothing
  cases hNothing fun t ht => absurd ht List.not_mem_nil

/-- A template leaves every later one undisturbed exactly when its tags and comments
are closed. -/
theorem undisturbed_iff (hBlank : P.Accepts env blank) (h : P.mpTemplateStr env s .first p) :
    P.Undisturbed env p ↔ P.Closed s :=
  ⟨closed_of_undisturbed hBlank h, fun hClosed =>
    (Process.first_ready.step h hClosed).undisturbed⟩

/-- The entries of the tables for inputs without tags. Shifting a text is preferred
to the empty rule. -/
def plainTables : Tables Terminal Nonterminal Rule
  | [], none => .reduce .blocksEmpty
  | [], some .text | [], some .eol => .shift
  | .terminal .text :: _, _ => .reduce .blockText
  | .terminal .eol :: _, _ => .reduce .blockEol
  | [.nonterminal .block], _ => .reduce .blocksFirst
  | [.nonterminal .block, .nonterminal .blocks], _ => .reduce .blocksBlock
  | [.nonterminal .blocks], none => .reduce .template
  | [.nonterminal .blocks], some .text | [.nonterminal .blocks], some .eol => .shift
  | [.nonterminal .template], none => .accept
  | _, _ => .error

/-- A platform for inputs without tags, which have no `float` in them. -/
def plainPlatform : Platform where
  tables := plainTables
  Float := Unit
  float :=
    { ofInt := fun _ => (), strtof := fun _ => (), add := fun _ _ => (), sub := fun _ _ => (),
      mul := fun _ _ => (), div := fun _ _ => (), eq := fun _ _ => true, le := fun _ _ => true,
      lt := fun _ _ => false, format := fun _ => [] }

/-- The process after the first template was copied to this text. -/
def afterText (start : StartCondition) (s : CString) : Process :=
  ⟨start, (mpTemplateAppend (some s) (initOutput Process.first.globals)).getD
    Process.first.globals⟩

theorem plainPlatform_accepts_blank : plainPlatform.Accepts (fun _ => none) blank :=
  ⟨afterText .initial blank, rfl, 6, rfl⟩

def closedComment : CString := ⟨Scanner.ascii " [%#b%]", by decide⟩

theorem undisturbed_iff_closedComment :
    plainPlatform.Undisturbed (fun _ => none) (afterText .initial blank) := by
  have hFirst : plainPlatform.mpTemplateStr (fun _ => none) closedComment .first
      (afterText .initial blank) := ⟨rfl, 6, rfl⟩
  exact (undisturbed_iff plainPlatform_accepts_blank hFirst).mpr rfl

def openComment : CString := ⟨Scanner.ascii " [%#b", by decide⟩

/-- A comment that is not closed goes on in the next template. -/
theorem openComment_disturbs :
    ∃ p, plainPlatform.mpTemplateStr (fun _ => none) openComment .first p ∧
      ¬plainPlatform.Undisturbed (fun _ => none) p := by
  have hFirst : plainPlatform.mpTemplateStr (fun _ => none) openComment .first
      (afterText .comment blank) := ⟨rfl, 6, rfl⟩
  refine ⟨_, hFirst, fun hSame => ?_⟩
  cases hFirst.1.trans (closed_of_undisturbed plainPlatform_accepts_blank hFirst hSame)

end Renders

end MonitoringPlug.Template
