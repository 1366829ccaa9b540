import MonitoringPlug.Template.Session
import MonitoringPlug.Template.Syntax

/-! What the evaluation of a template runs into. Expressions are evaluated while the template
is read, in the parts that are shown and in those that are not. -/
namespace MonitoringPlug.Template

open CMemory ShiftReduce

variable {F : Type}

/-- `strcmp` gets a NULL string, or `/` a zero. Every `strlen` stands behind a test for
NULL. -/
def Rule.Crashes : (r : Rule) → Values (Value F) r.rhs → Prop
  | .bexprSexprEq, (a, _, b, _) => a = none ∨ b = none
  | .iexprArith .div, (_, _, b, _) => b = 0
  | _, _ => False

/-- An `int` out of range, or a write past the encoded string: C does not say how the run
goes on. -/
def Rule.Undefined : (r : Rule) → Values (Value F) r.rhs → Prop
  | .iexprArith op, (a, _, b, _) => checkedInt (op.exact a b) = none
  | .urlSexpr, (_, s, _) => mpTemplateUrlencode s = none
  | _, _ => False

/-- A variable that is not set. -/
def SExpr.Unset (env : CString → Option CString) : SExpr F → Prop
  | .label sval => env sval = none
  | _ => False

/-- A comparison with an unset variable, or a division by an expression of value zero. -/
def Read.Crashes (env : CString → Option CString) : Read F → Prop
  | ⟨.bexprSexprEq, (a, _, b, _)⟩ => a.Unset env ∨ b.Unset env
  | ⟨.iexprArith .div, (_, _, b, _)⟩ => b.value = 0
  | _ => False

section Code

variable [CFloat F] {env : CString → Option CString}

/-- An integer operation whose value is out of range, or an encoding that does not fit. -/
def Read.Undefined (env : CString → Option CString) : Read F → Prop
  | ⟨.iexprArith op, (a, _, b, _)⟩ => checkedInt (op.exact a.value b.value) = none
  | ⟨.urlSexpr, (_, s, _)⟩ => mpTemplateUrlencode (s.value env) = none
  | _ => False

theorem SExpr.value_eq_none {s : SExpr F} : s.value env = none ↔ s.Unset env := by
  cases s <;> simp [SExpr.value, SExpr.Unset]

theorem Read.crashes_iff {x : Read F} :
    x.1.Crashes (mapValues (treeValue env) x.1.rhs x.2) ↔ x.Crashes env := by
  obtain ⟨r, trees⟩ := x
  cases r with
  | bexprSexprEq =>
      obtain ⟨a, _, b, _⟩ := trees
      exact or_congr SExpr.value_eq_none SExpr.value_eq_none
  | iexprArith op => cases op <;> exact Iff.rfl
  | _ => exact Iff.rfl

theorem Read.undefined_iff {x : Read F} :
    x.1.Undefined (mapValues (treeValue env) x.1.rhs x.2) ↔ x.Undefined env := by
  obtain ⟨r, trees⟩ := x
  cases r <;> exact Iff.rfl

/-- The code has no result in these cases. -/
theorem Read.code_eq_none {x : Read F} :
    x.code env = none ↔ x.Crashes env ∨ x.Undefined env := by
  obtain ⟨r, trees⟩ := x
  cases r with
  | bexprSexprEq =>
      obtain ⟨a, _, b, _⟩ := trees
      have hNone : Read.code (F := F) env ⟨.bexprSexprEq, (a, (), b, ())⟩ = none ↔
          a.value env = none ∨ b.value env = none := by
        simp only [Read.code, mapValues, Rule.code, treeValue]
        cases a.value env <;> cases b.value env <;> simp
      refine hNone.trans ?_
      rw [SExpr.value_eq_none, SExpr.value_eq_none]
      exact (or_iff_left id).symm
  | iexprArith op =>
      obtain ⟨a, t, b, _⟩ := trees
      have hNone : Read.code (F := F) env ⟨.iexprArith op, (a, t, b, ())⟩ = none ↔
          (op = .div ∧ b.value = 0) ∨ checkedInt (op.exact a.value b.value) = none := by
        simp only [Read.code, mapValues, Rule.code, treeValue, Option.map_eq_none_iff,
          Arith.int_eq]
        split <;> simp_all
      refine hNone.trans (or_congr ?_ Iff.rfl)
      cases op <;> simp [Read.Crashes]
  | urlSexpr =>
      obtain ⟨_, s, _⟩ := trees
      exact Option.map_eq_none_iff.trans (or_iff_right id).symm
  | _ => exact iff_of_false (by rintro ⟨⟩) (by rintro (h | h) <;> exact h)

/-- The calls of a reduction, and where its code has no result those of one that has. -/
def Rule.idle : Rule → List Action
  | .urlSexpr => [.append none]
  | _ => []

def Read.calls (env : CString → Option CString) (x : Read F) : List Action :=
  match x.code env with
  | some (_, own) => own
  | none => x.1.idle

theorem Read.shape {x : Read F} {calls : List Action} (h : Shapes x.1.rhs calls) :
    x.1.lhs.Shape (calls ++ x.calls env) := by
  rw [Read.calls]
  split
  · rename_i v own hCode
    exact Rule.shape hCode h
  · rename_i hCode
    obtain ⟨r, trees⟩ := x
    have hOther : ∃ values v, r.code (F := F) env values = some (v, r.idle) := by
      cases r with
      | bexprSexprEq => exact ⟨(some newline, (), some newline, ()), _, rfl⟩
      | iexprArith op =>
          obtain ⟨_, t, _, _⟩ := trees
          refine ⟨((0 : Int), t, (1 : Int), ()), ?_⟩
          cases op <;> exact ⟨_, rfl⟩
      | urlSexpr => exact ⟨((), none, ()), (), rfl⟩
      | _ => cases hCode
    obtain ⟨values, v, hSome⟩ := hOther
    exact Rule.shape hSome h

/-- The calls of what a symbol reads are calls the symbol can stand for. -/
def ReadShape (env : CString → Option CString) : Spec (List (Read F)) (Tree F) :=
  fun s _ _ reads reads' => ∃ more, reads' = reads ++ more ∧
    SymbolShape s (more.flatMap (Read.calls env))

theorem chain_readShape {symbols : List (Symbol Terminal Nonterminal)}
    {trees : Values (Tree F) symbols} {tokens : List (Token F)} {reads reads' : List (Read F)}
    (h : Chain (ReadShape env) symbols trees tokens reads reads') :
    ∃ more, reads' = reads ++ more ∧ Shapes symbols (more.flatMap (Read.calls env)) := by
  induction symbols generalizing tokens reads with
  | nil =>
      obtain ⟨_, rfl⟩ := h
      exact ⟨[], (List.append_nil _).symm, rfl⟩
  | cons s symbols ih =>
      obtain ⟨v, trees⟩ := trees
      obtain ⟨_, _, middle, _, ⟨front, rfl, hFront⟩, hRest⟩ := h
      obtain ⟨back, rfl, hBack⟩ := ih hRest
      refine ⟨front ++ back, List.append_assoc _ _ _, ?_⟩
      rw [List.flatMap_append]
      exact ⟨_, _, rfl, hFront, hBack⟩

theorem syntaxGrammar_respects : Respects (syntaxGrammar F) (ReadShape env) where
  token t v reads := ⟨[], (List.append_nil _).symm, rfl⟩
  rule r trees tokens reads middle v reads' hChain hAction := by
    obtain ⟨more, rfl, hShapes⟩ := chain_readShape hChain
    cases hAction
    refine ⟨more ++ [⟨r, trees⟩], List.append_assoc _ _ _, ?_⟩
    rw [List.flatMap_append, List.flatMap_singleton]
    exact Read.shape (x := ⟨r, trees⟩) hShapes

/-- What is read of an accepted template calls what some template calls. -/
theorem accepted_calls {tables : Tables Terminal Nonterminal Rule} {input : List (Token F)}
    {reads : List (Read F)}
    (h : Parses (syntaxGrammar F) tables input [] (.accepted reads)) :
    ∃ template : Blocks, reads.flatMap (Read.calls env) = template.actions := by
  obtain ⟨_, more, hReads, template, hCalls⟩ := (@syntaxGrammar_respects F _ env).accepted h
  rw [List.nil_append] at hReads
  exact ⟨template, hReads ▸ hCalls⟩

/-- The code of what was read, on the globals. -/
def runReads (env : CString → Option CString) (reads : List (Read F)) (st : State) :
    Option State :=
  replay (grammar env) (treeValue env) reads st

theorem runReads_cons (x : Read F) (reads : List (Read F)) (st : State) :
    runReads env (x :: reads) st =
      (x.code env).bind fun result => (runActions result.2 st).bind (runReads env reads) := by
  have hCode : runReads env (x :: reads) st =
      ((x.code env).bind fun result => (runActions result.2 st).map (result.1, ·)).bind
        fun next => runReads env reads next.2 := rfl
  rw [hCode, Option.bind_assoc]
  refine Option.bind_congr fun result _ => ?_
  rw [Option.bind_map]
  rfl

/-- Code that has its results makes the calls and nothing else. -/
theorem runReads_eq {reads : List (Read F)} (h : ∀ x ∈ reads, (x.code env).isSome) (st : State) :
    runReads env reads st = runActions (reads.flatMap (Read.calls env)) st := by
  induction reads generalizing st with
  | nil => rfl
  | cons x reads ih =>
      obtain ⟨hFirst, hRest⟩ := List.forall_mem_cons.mp h
      obtain ⟨result, hCode⟩ := Option.isSome_iff_exists.mp hFirst
      have hCalls : x.calls env = result.2 := by
        rw [Read.calls, hCode]
      rw [runReads_cons, hCode, Option.bind_some, List.flatMap_cons, runActions_append, hCalls]
      exact Option.bind_congr fun next _ => ih hRest next

theorem code_of_runReads {reads : List (Read F)} {st : State}
    (h : (runReads env reads st).isSome) : ∀ x ∈ reads, (x.code env).isSome := by
  induction reads generalizing st with
  | nil => exact fun x hx => absurd hx List.not_mem_nil
  | cons x reads ih =>
      obtain ⟨last, hLast⟩ := Option.isSome_iff_exists.mp h
      rw [runReads_cons] at hLast
      obtain ⟨result, hCode, hRest⟩ := Option.bind_eq_some_iff.mp hLast
      obtain ⟨next, _, hTail⟩ := Option.bind_eq_some_iff.mp hRest
      refine List.forall_mem_cons.mpr ⟨by rw [hCode]; rfl, @ih next ?_⟩
      rw [hTail]
      rfl

/-- Where the engine takes the calls, only code without a result stops. -/
theorem runReads_isSome_iff {reads : List (Read F)} {st : State}
    (hRuns : (runActions (reads.flatMap (Read.calls env)) st).isSome) :
    (runReads env reads st).isSome ↔ ∀ x ∈ reads, (x.code env).isSome := by
  constructor
  · exact code_of_runReads
  · intro h
    rw [runReads_eq h]
    exact hRuns

end Code

section Safe

variable {P : Platform} {env : CString → Option CString} {templates : List CString}
  {p : Process} {s : CString} {reads : List (Read P.Float)}

/-- A template is accepted by the parser, which reads this. -/
def Platform.Reads (P : Platform) (p : Process) (s : CString) (reads : List (Read P.Float)) :
    Prop :=
  Parses (syntaxGrammar P.Float) P.tables (lex p.start s).1 [] (.accepted reads)

/-- A template is rendered when the parser accepts it and all its code has a result. -/
theorem Platform.renders_iff {text : List UInt8} :
    P.Renders env p s text ↔ ∃ reads st', P.Reads p s reads ∧
      runReads env reads (initOutput p.globals) = some st' ∧
      loadString st'.output = some text := by
  have hAccepts : ∀ st', Parses (grammar env) P.tables (lex (F := P.Float) p.start s).1
      (initOutput p.globals) (.accepted st') ↔
      ∃ reads, P.Reads p s reads ∧ runReads env reads (initOutput p.globals) = some st' := by
    intro st'
    have hParses : Parses (grammar env) P.tables
        ((lex (F := P.Float) p.start s).1.map (mapToken (treeValue env)))
        (initOutput p.globals) (.accepted st') ↔ _ := parses_accepted_iff grammar_evaluates
    rw [mapToken_treeValue] at hParses
    exact hParses
  constructor
  · rintro ⟨p', ⟨_, hParses⟩, hText⟩
    obtain ⟨reads, hReads, hRun⟩ := (hAccepts _).mp hParses
    exact ⟨reads, _, hReads, hRun, hText⟩
  · rintro ⟨reads, st', hReads, hRun, hText⟩
    exact ⟨⟨(lex (F := P.Float) p.start s).2, st'⟩,
      ⟨rfl, (hAccepts st').mpr ⟨reads, hReads, hRun⟩⟩, hText⟩

/-- A step of `mp_template_str` runs code of a rule on such values. -/
def Platform.RunsInto (P : Platform) (env : CString → Option CString)
    (Bad : (r : Rule) → Values (Value P.Float) r.rhs → Prop) (p : Process) (s : CString) : Prop :=
  ∃ c r values, CLoop.Reaches (pass (grammar env) P.tables)
      ⟨[], (lex (F := P.Float) p.start s).1, initOutput p.globals⟩ c ∧
    Reduces (grammar env) P.tables c r values ∧ Bad r values

/-- No step of `mp_template_str` hands NULL to `strcmp` or divides by zero, and every step is
one that C defines. -/
structure Platform.Safe (P : Platform) (env : CString → Option CString) (p : Process)
    (s : CString) : Prop where
  noCrash : ¬P.RunsInto env Rule.Crashes p s
  defined : ¬P.RunsInto env Rule.Undefined p s

theorem Session.enabled (h : Session P env templates p) : p.globals.outputDisable = false := by
  induction h with
  | first => rfl
  | next prior s last ih =>
      obtain ⟨_, _, hOn, _⟩ := mpTemplateStr_sound last ih
      exact hOn

/-- The engine takes every call of an accepted template, and so those up to any point. -/
theorem Platform.Reads.runs {front back : List (Read P.Float)} (h : P.Reads p s (front ++ back))
    (hOn : p.globals.outputDisable = false) :
    (runActions (front.flatMap (Read.calls env)) (initOutput p.globals)).isSome := by
  obtain ⟨template, hCalls⟩ : ∃ template : Blocks,
      (front ++ back).flatMap (Read.calls env) = template.actions := accepted_calls h
  obtain ⟨st', hRun, _⟩ :=
    template.refines (initOutput p.globals) _ [] ⟨rfl, initOutput_rendered _⟩ hOn
  rw [← hCalls, List.flatMap_append, runActions_append] at hRun
  obtain ⟨middle, hFront, _⟩ := Option.bind_eq_some_iff.mp hRun
  rw [hFront]
  rfl

/-- Code is run where it stands behind code that has its result. -/
theorem Platform.Reads.runsInto_iff (h : P.Reads p s reads)
    (hOn : p.globals.outputDisable = false)
    {Bad : (r : Rule) → Values (Value P.Float) r.rhs → Prop} :
    P.RunsInto env Bad p s ↔ ∃ front x back, reads = front ++ x :: back ∧
      (∀ y ∈ front, (y.code env).isSome) ∧
      Bad x.1 (mapValues (treeValue env) x.1.rhs x.2) := by
  have hRun : (∃ c r values, CLoop.Reaches (pass (grammar env) P.tables)
      ⟨[], (lex (F := P.Float) p.start s).1.map (mapToken (treeValue env)),
        initOutput p.globals⟩ c ∧
      Reduces (grammar env) P.tables c r values ∧ Bad r values) ↔ _ :=
    reaches_reduction_iff grammar_evaluates h Bad
  rw [mapToken_treeValue] at hRun
  refine hRun.trans ?_
  constructor
  · rintro ⟨front, r, trees, back, rfl, hSome, hBad⟩
    exact ⟨front, ⟨r, trees⟩, back, rfl, (runReads_isSome_iff (h.runs hOn)).mp hSome, hBad⟩
  · rintro ⟨front, ⟨r, trees⟩, back, rfl, hSome, hBad⟩
    exact ⟨front, r, trees, back, rfl, (runReads_isSome_iff (h.runs hOn)).mpr hSome, hBad⟩

/-- The first code without a result. -/
theorem exists_first_none [CFloat F] {reads : List (Read F)} {x : Read F} (hMem : x ∈ reads)
    (hNone : x.code env = none) : ∃ front y back, reads = front ++ y :: back ∧
      (∀ z ∈ front, (z.code env).isSome) ∧ y.code env = none := by
  obtain ⟨y, hFind⟩ : ∃ y, reads.find? (fun z => (z.code env).isNone) = some y := by
    rw [← Option.isSome_iff_exists, List.find?_isSome]
    exact ⟨x, hMem, Option.isNone_iff_eq_none.mpr hNone⟩
  obtain ⟨hFirst, front, back, hReads, hFront⟩ := List.find?_eq_some_iff_append.mp hFind
  refine ⟨front, y, back, hReads, fun z hz => ?_, Option.isNone_iff_eq_none.mp hFirst⟩
  simpa using hFront z hz

/-- The evaluation of an accepted template never hands NULL to `strcmp`, never divides by
zero and stays where C defines it just when it has no comparison with an unset variable, no
division by an expression of value zero, no `int` out of range and no encoding that overruns
its buffer, whether they are shown or not. -/
theorem safe_iff (hSession : Session P env templates p) (hReads : P.Reads p s reads) :
    P.Safe env p s ↔ ∀ x ∈ reads, ¬x.Crashes env ∧ ¬x.Undefined env := by
  have hOn := hSession.enabled
  constructor
  · intro hSafe x hMem
    by_contra hBad
    have hNone : x.code env = none := by
      rw [Read.code_eq_none]
      by_contra hNeither
      exact hBad (not_or.mp hNeither)
    obtain ⟨front, y, back, hSplit, hFront, hFirst⟩ := exists_first_none hMem hNone
    rcases Read.code_eq_none.mp hFirst with hCrashes | hUndefined
    · exact hSafe.noCrash ((hReads.runsInto_iff hOn).mpr
        ⟨front, y, back, hSplit, hFront, Read.crashes_iff.mpr hCrashes⟩)
    · exact hSafe.defined ((hReads.runsInto_iff hOn).mpr
        ⟨front, y, back, hSplit, hFront, Read.undefined_iff.mpr hUndefined⟩)
  · intro hNone
    constructor
    · intro hRuns
      obtain ⟨front, x, back, rfl, _, hBad⟩ := (hReads.runsInto_iff hOn).mp hRuns
      exact (hNone x (List.mem_append_right _ List.mem_cons_self)).1 (Read.crashes_iff.mp hBad)
    · intro hRuns
      obtain ⟨front, x, back, rfl, _, hBad⟩ := (hReads.runsInto_iff hOn).mp hRuns
      exact (hNone x (List.mem_append_right _ List.mem_cons_self)).2 (Read.undefined_iff.mp hBad)

/-- The entries of the tables for a condition that compares a variable with a string or is
a number, and for a division in its body. -/
def conditionTables : Tables Terminal Nonterminal Rule
  | [], some .ifWord => .shift
  | [.terminal .ifWord], some .label | [.terminal .ifWord], some .int => .shift
  | [.terminal .label, .terminal .ifWord], _ => .reduce .sexprLabel
  | [.nonterminal .sexpr, .terminal .ifWord], some .opEq => .shift
  | [.terminal .opEq, .nonterminal .sexpr, .terminal .ifWord], some .string => .shift
  | .terminal .string :: .terminal .opEq :: _, _ => .reduce .sexprString
  | .nonterminal .sexpr :: .terminal .opEq :: _, _ => .reduce .bexprSexprEq
  | [.terminal .int, .terminal .ifWord], some .int => .reduce .iexprInt
  | [.nonterminal .iexpr, .terminal .ifWord], some .int => .reduce .bexprIexpr
  | [.nonterminal .bexpr, .terminal .ifWord], _ => .reduce .startIf
  | [.nonterminal .conditionalsStart], some .int => .shift
  | [.nonterminal .conditionalsStart], some .endWord => .reduce .blocksEmpty
  | [.terminal .int, .nonterminal .conditionalsStart], some (.char 47) => .reduce .iexprInt
  | [.nonterminal .iexpr, .nonterminal .conditionalsStart], some (.char 47) => .shift
  | .terminal (.char 47) :: .nonterminal .iexpr :: _, some .int => .shift
  | .terminal .int :: .terminal (.char 47) :: .nonterminal .iexpr :: _, _ => .reduce .iexprInt
  | .nonterminal .iexpr :: .terminal (.char 47) :: _, some .endWord => .reduce (.iexprArith .div)
  | [.nonterminal .iexpr, .nonterminal .conditionalsStart], some .endWord => .reduce .sexprIexpr
  | [.nonterminal .sexpr, .nonterminal .conditionalsStart], _ => .reduce .bareSexpr
  | .nonterminal .get :: _, _ => .reduce .statementGet
  | .nonterminal .statement :: _, _ => .reduce .blockStatement
  | [.nonterminal .block, .nonterminal .conditionalsStart], _ | [.nonterminal .block], _ =>
      .reduce .blocksFirst
  | [.nonterminal .blocks, .nonterminal .conditionalsStart], some .endWord => .shift
  | .terminal .endWord :: .nonterminal .blocks :: _, _ => .reduce .endWord
  | .nonterminal .conditionalsEnd :: .nonterminal .blocks :: .nonterminal .conditionalsStart :: _,
      _ => .reduce .conditionals
  | [.nonterminal .conditionals], _ => .reduce .statementConditionals
  | [.nonterminal .blocks], none => .reduce .template
  | [.nonterminal .template], none => .accept
  | _, _ => .error

def conditionPlatform : Platform := { plainPlatform with tables := conditionTables }

def variableTemplate : CString := ⟨Scanner.ascii "[% IF A == 'b' %][% END %]", by decide⟩

def labelA : CString := ⟨[65], by decide⟩

theorem nulFree_b : (0 : UInt8) ∉ [98] := by decide

def textB : CString := ⟨[98], nulFree_b⟩

/-- What is read of a condition without a body. -/
def variableReads (F : Type) : List (Read F) :=
  [⟨.sexprLabel, (labelA, ())⟩, ⟨.sexprString, (textB, ())⟩,
    ⟨.bexprSexprEq, (.label labelA, (), .string textB, ())⟩,
    ⟨.startIf, ((), .sexprEq (.label labelA) (.string textB), ())⟩,
    ⟨.blocksEmpty, ()⟩, ⟨.endWord, ((), ())⟩, ⟨.conditionals, ((), (), (), ())⟩,
    ⟨.statementConditionals, ((), ())⟩, ⟨.blockStatement, ((), ())⟩, ⟨.blocksFirst, ((), ())⟩,
    ⟨.template, ((), ())⟩]

theorem reads_variableTemplate :
    conditionPlatform.Reads .first variableTemplate (variableReads Unit) := ⟨20, rfl⟩

theorem variableReads_safe (F : Type) [CFloat F] : ∀ x ∈ variableReads F,
    (¬x.Crashes fun _ => some blank) ∧ ¬x.Undefined fun _ => some blank := by
  simp [variableReads, Read.Crashes, Read.Undefined, SExpr.Unset]

/-- The comparison is safe where the variable is set. -/
theorem safe_iff_variableTemplate :
    conditionPlatform.Safe (fun _ => some blank) .first variableTemplate :=
  (safe_iff .first reads_variableTemplate).mpr (variableReads_safe conditionPlatform.Float)

def hiddenDivision : CString := ⟨Scanner.ascii "[% IF 0 %][% 1/0 %][% END %]", by decide⟩

/-- What is read of it up to the division, the division, and the rest. -/
def divisionReads (F : Type) : List (Read F) × Read F × List (Read F) :=
  ([⟨.iexprInt, ((0 : Int), ())⟩, ⟨.bexprIexpr, (.int 0, ())⟩,
      ⟨.startIf, ((), .iexpr (.int 0), ())⟩, ⟨.iexprInt, ((1 : Int), ())⟩,
      ⟨.iexprInt, ((0 : Int), ())⟩],
    ⟨.iexprArith .div, (.int 1, (), .int 0, ())⟩,
    [⟨.sexprIexpr, (.arith .div (.int 1) (.int 0), ())⟩,
      ⟨.bareSexpr, (.iexpr (.arith .div (.int 1) (.int 0)), ())⟩, ⟨.statementGet, ((), ())⟩,
      ⟨.blockStatement, ((), ())⟩, ⟨.blocksFirst, ((), ())⟩, ⟨.endWord, ((), ())⟩,
      ⟨.conditionals, ((), (), (), ())⟩, ⟨.statementConditionals, ((), ())⟩,
      ⟨.blockStatement, ((), ())⟩, ⟨.blocksFirst, ((), ())⟩, ⟨.template, ((), ())⟩])

/-- A division by zero in a part that is not shown, and a comparison with an unset
variable, are run. Both templates are accepted by the grammar. -/
theorem hiddenDivision_crashes :
    (∃ reads, conditionPlatform.Reads .first hiddenDivision reads) ∧
      conditionPlatform.RunsInto (fun _ => none) Rule.Crashes .first hiddenDivision ∧
      (∃ reads, conditionPlatform.Reads .first variableTemplate reads) ∧
      conditionPlatform.RunsInto (fun _ => none) Rule.Crashes .first variableTemplate := by
  have hDivision : conditionPlatform.Reads .first hiddenDivision
      ((divisionReads Unit).1 ++ (divisionReads Unit).2.1 :: (divisionReads Unit).2.2) := ⟨30, rfl⟩
  have hVariable : conditionPlatform.Reads .first variableTemplate
      ((variableReads Unit).take 2 ++ (⟨.bexprSexprEq, (.label labelA, (), .string textB, ())⟩ :
        Read Unit) :: (variableReads Unit).drop 3) := ⟨20, rfl⟩
  refine ⟨⟨_, hDivision⟩, ?_, ⟨_, hVariable⟩, ?_⟩
  · exact (hDivision.runsInto_iff rfl).mpr ⟨_, _, _, rfl, List.all_eq_true.mp rfl, rfl⟩
  · exact (hVariable.runsInto_iff rfl).mpr ⟨_, _, _, rfl, List.all_eq_true.mp rfl, .inl rfl⟩

end Safe

end MonitoringPlug.Template
