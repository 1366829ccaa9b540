import MonitoringPlug.Template.Segments
import MonitoringPlug.Template.Session

/-! A template of text, comments and string tags gives its text and its strings. The tables
of the parser are generated; what is used of them are the entries for text, newlines and
strings. -/
namespace MonitoringPlug.Template

open CMemory ShiftReduce Scanner

/-- A block is under way behind the blocks that were read so far, or none were. -/
def afterBlocks : List (Symbol Terminal Nonterminal) → Bool
  | [] | [.nonterminal .blocks] => true
  | _ => false

/-- The entries for text, newlines and strings outside of every condition. Shifting is
preferred to the empty rule. The reductions are the same whatever comes next: the text of a
token is copied before the scanner goes on and moves `yytext`. -/
def literalEntries : Entries Terminal Nonterminal Rule
  | [], none => some (.reduce .blocksEmpty)
  | [.nonterminal .blocks], none => some (.reduce .template)
  | [.nonterminal .template], none => some .accept
  | [.nonterminal .block], _ => some (.reduce .blocksFirst)
  | [.nonterminal .block, .nonterminal .blocks], _ => some (.reduce .blocksBlock)
  | .terminal .text :: below, _ => if afterBlocks below then some (.reduce .blockText) else none
  | .terminal .eol :: below, _ => if afterBlocks below then some (.reduce .blockEol) else none
  | .terminal .string :: below, _ =>
      if afterBlocks below then some (.reduce .sexprString) else none
  | .nonterminal .sexpr :: below, _ =>
      if afterBlocks below then some (.reduce .bareSexpr) else none
  | .nonterminal .get :: below, _ =>
      if afterBlocks below then some (.reduce .statementGet) else none
  | .nonterminal .statement :: below, _ =>
      if afterBlocks below then some (.reduce .blockStatement) else none
  | below, some .text | below, some .eol | below, some .string =>
      if afterBlocks below then some .shift else none
  | _, _ => none

section Parser

variable {F : Type} [CFloat F] {env : CString → Option CString}
  {tables : Tables Terminal Nonterminal Rule}

/-- The two stacks between blocks. -/
inductive Between : List (Entry (Value F)) → Prop where
  | first : Between []
  | later : Between [⟨.nonterminal .blocks, ()⟩]

/-- A block is put behind those before it. -/
theorem reduce_block (hTables : literalEntries.In tables) {stack : List (Entry (Value F))}
    (hStack : Between stack) (input : List (Token F)) (st : State) :
    pass (grammar env) tables ⟨⟨.nonterminal .block, ()⟩ :: stack, input, st⟩ =
      .again ⟨[⟨.nonterminal .blocks, ()⟩], input, st⟩ := by
  cases hStack with
  | first => exact pass_reduce (g := grammar env) (r := .blocksFirst) (hTables _ _ _ rfl) rfl rfl
  | later => exact pass_reduce (g := grammar env) (r := .blocksBlock) (hTables _ _ _ rfl) rfl rfl

/-- The value of a string goes up to the block that it is. -/
theorem reads_string (hTables : literalEntries.In tables) {stack : List (Entry (Value F))}
    (hStack : Between stack) (s : CString) (input : List (Token F)) {st st' : State}
    (hRun : mpTemplateAppend (some s) st = some st') {outcome : Outcome State}
    (h : CLoop.Returns (pass (grammar env) tables)
      ⟨⟨.nonterminal .block, ()⟩ :: stack, input, st'⟩ outcome) :
    CLoop.Returns (pass (grammar env) tables) ⟨⟨.terminal .string, s⟩ :: stack, input, st⟩
      outcome := by
  have hAction : (grammar (F := F) env).action .bareSexpr (some s, ()) st = some ((), st') := by
    simp [grammar, Rule.code, runActions, Action.step, hRun]
  have hSexpr : pass (grammar env) tables ⟨⟨.terminal .string, s⟩ :: stack, input, st⟩ =
      .again ⟨⟨.nonterminal .sexpr, some s⟩ :: stack, input, st⟩ := by
    cases hStack <;>
      exact pass_reduce (g := grammar env) (r := .sexprString) (hTables _ _ _ rfl) rfl rfl
  have hGet : pass (grammar env) tables ⟨⟨.nonterminal .sexpr, some s⟩ :: stack, input, st⟩ =
      .again ⟨⟨.nonterminal .get, ()⟩ :: stack, input, st'⟩ := by
    cases hStack <;>
      exact pass_reduce (g := grammar env) (r := .bareSexpr) (hTables _ _ _ rfl) rfl hAction
  have hStatement : pass (grammar env) tables ⟨⟨.nonterminal .get, ()⟩ :: stack, input, st'⟩ =
      .again ⟨⟨.nonterminal .statement, ()⟩ :: stack, input, st'⟩ := by
    cases hStack <;>
      exact pass_reduce (g := grammar env) (r := .statementGet) (hTables _ _ _ rfl) rfl rfl
  have hBlock : pass (grammar env) tables ⟨⟨.nonterminal .statement, ()⟩ :: stack, input, st'⟩ =
      .again ⟨⟨.nonterminal .block, ()⟩ :: stack, input, st'⟩ := by
    cases hStack <;>
      exact pass_reduce (g := grammar env) (r := .blockStatement) (hTables _ _ _ rfl) rfl rfl
  exact .again hSexpr (.again hGet (.again hStatement (.again hBlock h)))

/-- A token that is copied is read as a block. -/
theorem reads_literal (hTables : literalEntries.In tables) {stack : List (Entry (Value F))}
    (hStack : Between stack) {t : Token F} {s : CString} (hToken : literal t = some s)
    (input : List (Token F)) {st st' : State} (hRun : mpTemplateAppend (some s) st = some st')
    {outcome : Outcome State}
    (h : CLoop.Returns (pass (grammar env) tables)
      ⟨⟨.nonterminal .block, ()⟩ :: stack, input, st'⟩ outcome) :
    CLoop.Returns (pass (grammar env) tables) ⟨stack, t :: input, st⟩ outcome := by
  have hAppend : (runActions [.append (some s)] st).map (((), ·) : State → Unit × State) =
      some ((), st') := by
    simp [runActions, Action.step, hRun]
  match t, hToken with
  | ⟨.text, v⟩, rfl =>
      have hShift : pass (grammar env) tables ⟨stack, ⟨.text, v⟩ :: input, st⟩ =
          .again ⟨⟨.terminal .text, v⟩ :: stack, input, st⟩ := by
        cases hStack <;> exact pass_shift (hTables _ _ _ rfl)
      have hBlock : pass (grammar env) tables ⟨⟨.terminal .text, v⟩ :: stack, input, st⟩ =
          .again ⟨⟨.nonterminal .block, ()⟩ :: stack, input, st'⟩ := by
        cases hStack <;>
          exact pass_reduce (g := grammar env) (r := .blockText) (hTables _ _ _ rfl) rfl hAppend
      exact .again hShift (.again hBlock h)
  | ⟨.eol, v⟩, rfl =>
      have hShift : pass (grammar env) tables ⟨stack, ⟨.eol, v⟩ :: input, st⟩ =
          .again ⟨⟨.terminal .eol, v⟩ :: stack, input, st⟩ := by
        cases hStack <;> exact pass_shift (hTables _ _ _ rfl)
      have hBlock : pass (grammar env) tables ⟨⟨.terminal .eol, v⟩ :: stack, input, st⟩ =
          .again ⟨⟨.nonterminal .block, ()⟩ :: stack, input, st'⟩ := by
        cases hStack <;>
          exact pass_reduce (g := grammar env) (r := .blockEol) (hTables _ _ _ rfl) rfl hAppend
      exact .again hShift (.again hBlock h)
  | ⟨.string, v⟩, rfl =>
      have hShift : pass (grammar env) tables ⟨stack, ⟨.string, v⟩ :: input, st⟩ =
          .again ⟨⟨.terminal .string, v⟩ :: stack, input, st⟩ := by
        cases hStack <;> exact pass_shift (hTables _ _ _ rfl)
      exact .again hShift (reads_string hTables hStack v input hRun h)

/-- A string that only holds what is copied is read to its end. -/
theorem parses_literal (hTables : literalEntries.In tables) {stack : List (Entry (Value F))}
    (hStack : Between stack) {input : List (Token F)} (hLiteral : Literal input) {st st' : State}
    (hRun : runActions (appends input) st = some st') :
    CLoop.Returns (pass (grammar env) tables) ⟨stack, input, st⟩ (.accepted st') := by
  induction input generalizing stack st with
  | nil =>
      cases hRun
      have hEnd : CLoop.Returns (pass (grammar (F := F) env) tables)
          ⟨[⟨.nonterminal .blocks, ()⟩], [], st'⟩ (.accepted st') := by
        have hTemplate : pass (grammar (F := F) env) tables
            ⟨[⟨.nonterminal .blocks, ()⟩], [], st'⟩ =
            .again ⟨[⟨.nonterminal .template, ()⟩], [], st'⟩ :=
          pass_reduce (g := grammar env) (r := .template) (hTables _ _ _ rfl) rfl rfl
        have hAccept : pass (grammar (F := F) env) tables
            ⟨[⟨.nonterminal .template, ()⟩], [], st'⟩ = .leave (.accepted st') :=
          pass_accept (g := grammar env) (hTables _ _ _ rfl)
        exact .again hTemplate (.leave hAccept)
      cases hStack with
      | first =>
          have hEmpty : pass (grammar (F := F) env) tables ⟨[], [], st'⟩ =
              .again ⟨[⟨.nonterminal .blocks, ()⟩], [], st'⟩ :=
            pass_reduce (g := grammar env) (r := .blocksEmpty) (hTables _ _ _ rfl) rfl rfl
          exact .again hEmpty hEnd
      | later => exact hEnd
  | cons t input ih =>
      obtain ⟨s, hToken⟩ := Option.isSome_iff_exists.mp (hLiteral t List.mem_cons_self)
      have hFirst : appends (t :: input) = .append (some s) :: appends input := by
        simp [appends, hToken]
      rw [hFirst, runActions] at hRun
      obtain ⟨middle, hAppend, hRest⟩ := Option.bind_eq_some_iff.mp hRun
      have hInput : Literal input := fun t' ht' => hLiteral t' (List.mem_cons_of_mem _ ht')
      exact reads_literal hTables hStack hToken input hAppend
        (.again (reduce_block hTables hStack input middle) (ih .later hInput hRest))

end Parser

section Delimiters

variable {P : Platform} {env : CString → Option CString} {p : Process}

/-- A template of maximal text, newlines, comments and string tags gives its text and its
strings in order. Of the newlines only the one behind `-%]` and the one in front of `[%-`
are dropped. -/
theorem mpTemplateStr_segments (hTables : literalEntries.In P.tables) (hReady : p.Ready)
    {segments : List Segment} (hMaximal : Maximal segments) {s : CString}
    (hSource : s.bytes = sources segments) (text : List UInt8) :
    P.Renders env p s text ↔ text = expected false segments := by
  have hShows : Shows (lex (F := P.Float) p.start s) (expected false segments) := by
    have hFree : 0 ∉ sources segments := hSource ▸ s.nulFree
    rw [hReady.start, lex, hSource]
    exact scan_sources hMaximal hFree false
  obtain ⟨st, hRun, _, hAfter⟩ := refines_appends (lex (F := P.Float) p.start s).1
    (initOutput p.globals) p.globals.conditionals [] ⟨rfl, initOutput_rendered _⟩ hReady.enabled
  rw [hShows.text, List.nil_append] at hAfter
  have hText : loadString st.output = some (expected false segments) := by
    refine hAfter.rendered.text fun hZero => ?_
    rw [← hShows.text] at hZero
    obtain ⟨string, _, hMem⟩ := List.mem_flatMap.mp hZero
    exact string.nulFree hMem
  constructor
  · rintro ⟨p', ⟨_, hParses⟩, hOut⟩
    have hSame : runActions (appends (lex (F := P.Float) p.start s).1) (initOutput p.globals) =
        some p'.globals := accepted_literal hParses hShows.tokens
    rw [hRun] at hSame
    rw [Process.text, ← Option.some.inj hSame, hText] at hOut
    exact (Option.some.inj hOut).symm
  · rintro rfl
    exact ⟨⟨(lex (F := P.Float) p.start s).2, st⟩,
      ⟨rfl, parses_literal hTables .first hShows.tokens hRun⟩, hText⟩

/-- A platform whose tables are no more than these entries. -/
def literalPlatform : Platform :=
  { plainPlatform with tables := fun stack next => (literalEntries stack next).getD .error }

/-- `[%- 's' -%]`, with blanks. -/
def dashedTag : StringTag where
  dashBefore := true
  dashAfter := true
  lead := [32]
  quote := .single
  string := ⟨ascii "s", by decide⟩
  trail := [9, 32]
  blanks := by simp
  closed := by decide

/-- A dashed tag between newlines, a comment, and text with brackets and quotes. -/
def dashedSegments : List Segment :=
  [.text ⟨ascii "a-%]'", by decide⟩ (by decide) (by decide) (by decide), .newline,
    .string dashedTag, .newline, .newline, .comment ⟨ascii " [% ", by decide⟩ (by decide),
    .text ⟨ascii "]b[", by decide⟩ (by decide) (by decide) (by decide)]

theorem mpTemplateStr_segments_dashed :
    literalPlatform.Renders (fun _ => none) .first
      ⟨ascii "a-%]'\n[%- 's'\t -%]\n\n[%# [% %]]b[", by decide⟩ (ascii "a-%]'s\n]b[") := by
  have hTables : literalEntries.In literalPlatform.tables := fun stack next decision h => by
    change (literalEntries stack next).getD .error = decision
    rw [h]
    rfl
  have hMaximal : Maximal dashedSegments := by simp [dashedSegments, Maximal, Segment.isText]
  exact (mpTemplateStr_segments hTables Process.first_ready hMaximal rfl _).mpr rfl

end Delimiters

end MonitoringPlug.Template
