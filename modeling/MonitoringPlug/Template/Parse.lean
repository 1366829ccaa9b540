import MonitoringPlug.Template.Grammar

/-! Whatever tables drive the parser, the calls it makes on an accepted input are
those of a template tree. -/
namespace MonitoringPlug.Template

open CMemory ShiftReduce

/-- One more block at the end. -/
def Blocks.snoc : Blocks → Item → Blocks
  | .empty, item => .block item .empty
  | .block first rest, item => .block first (rest.snoc item)

theorem Blocks.actions_snoc : (blocks : Blocks) → (item : Item) →
    (blocks.snoc item).actions = blocks.actions ++ item.actions
  | .empty, item => by simp [Blocks.snoc, Blocks.actions]
  | .block first rest, item => by
      rw [Blocks.snoc, Blocks.actions, Blocks.actions, rest.actions_snoc, List.append_assoc]

/-- One more case at the end. -/
def SwitchCases.snoc : SwitchCases → Int → Blocks → SwitchCases
  | .empty, iexpr, body => .case iexpr body .empty
  | .case first part rest, iexpr, body => .case first part (rest.snoc iexpr body)

theorem SwitchCases.actions_snoc : (cases : SwitchCases) → (iexpr : Int) → (body : Blocks) →
    (cases.snoc iexpr body).actions = cases.actions ++ .caseInt iexpr :: body.actions
  | .empty, iexpr, body => by simp [SwitchCases.snoc, SwitchCases.actions]
  | .case first part rest, iexpr, body => by
      rw [SwitchCases.snoc, SwitchCases.actions, SwitchCases.actions, rest.actions_snoc]
      simp

/-- The calls a symbol can stand for. -/
def Nonterminal.Shape : Nonterminal → List Action → Prop
  | .template, calls | .blocks, calls => ∃ blocks : Blocks, calls = blocks.actions
  | .block, calls | .statement, calls | .conditionals, calls | .get, calls =>
      ∃ item : Item, calls = item.actions
  | .conditionalsStart, calls => ∃ start : CondStart, calls = [.ifInt start.expr]
  | .conditionalsElse, calls => calls = [.orElse]
  | .conditionalsEnd, calls | .switchEnd, calls => calls = [.endCond]
  | .switchStart, calls => ∃ iexpr, calls = [.switchInt iexpr]
  | .switchCases, calls => ∃ cases : SwitchCases, calls = cases.actions
  | .switchCase, calls => ∃ iexpr, calls = [.caseInt iexpr]
  | .bexpr, calls | .iexpr, calls | .fexpr, calls | .sexpr, calls => calls = []

def SymbolShape : Symbol Terminal Nonterminal → List Action → Prop
  | .terminal _, calls => calls = []
  | .nonterminal n, calls => n.Shape calls

/-- The calls of symbols one after the other. -/
def Shapes : List (Symbol Terminal Nonterminal) → List Action → Prop
  | [], calls => calls = []
  | s :: rest, calls => ∃ front back, calls = front ++ back ∧ SymbolShape s front ∧ Shapes rest back

theorem shapes_singleton {s : Symbol Terminal Nonterminal} {calls : List Action} :
    Shapes [s] calls ↔ SymbolShape s calls := by
  simp [Shapes]

/-- Tokens and expressions call nothing. -/
def Quiet : Symbol Terminal Nonterminal → Prop
  | .terminal _ => True
  | .nonterminal n => n = .bexpr ∨ n = .iexpr ∨ n = .fexpr ∨ n = .sexpr

theorem Quiet.shape {s : Symbol Terminal Nonterminal} (h : Quiet s) {calls : List Action} :
    SymbolShape s calls ↔ calls = [] := by
  cases s with
  | terminal t => rfl
  | nonterminal n => rcases h with rfl | rfl | rfl | rfl <;> rfl

theorem shapes_quiet {symbols : List (Symbol Terminal Nonterminal)} {calls : List Action}
    (hQuiet : ∀ s ∈ symbols, Quiet s) (h : Shapes symbols calls) : calls = [] := by
  induction symbols generalizing calls with
  | nil => exact h
  | cons s symbols ih =>
      obtain ⟨front, back, rfl, hFront, hBack⟩ := h
      rw [(hQuiet s List.mem_cons_self).shape.mp hFront,
        ih (fun s hs => hQuiet s (List.mem_cons_of_mem _ hs)) hBack, List.append_nil]

section Rules

variable {F : Type}

/-- What a symbol does to the globals: the calls of its shape, made in order. -/
def Calls : Spec State (Value F) := fun s _ _ st st' =>
  ∃ calls, SymbolShape s calls ∧ runActions calls st = some st'

theorem chain_calls {symbols : List (Symbol Terminal Nonterminal)}
    {values : Values (Value F) symbols} {tokens : List (Token F)} {st st' : State}
    (h : Chain Calls symbols values tokens st st') :
    ∃ calls, Shapes symbols calls ∧ runActions calls st = some st' := by
  induction symbols generalizing tokens st with
  | nil =>
      obtain ⟨_, rfl⟩ := h
      exact ⟨[], rfl, rfl⟩
  | cons s symbols ih =>
      obtain ⟨v, values⟩ := values
      obtain ⟨_, _, middle, _, ⟨front, hFront, hRunFront⟩, hRest⟩ := h
      obtain ⟨back, hBack, hRunBack⟩ := ih hRest
      refine ⟨front ++ back, ⟨front, back, rfl, hFront, hBack⟩, ?_⟩
      rw [runActions_append, hRunFront, Option.bind_some, hRunBack]

variable [CFloat F] {env : CString → Option CString}

/-- An expression is made of tokens and expressions. -/
theorem Rule.rhs_quiet {r : Rule} (h : Quiet (.nonterminal r.lhs)) : ∀ s ∈ r.rhs, Quiet s := by
  cases r <;> simp [Quiet] at h ⊢

theorem Rule.code_quiet {r : Rule} (h : Quiet (.nonterminal r.lhs))
    {values : Values (Value F) r.rhs} {v : r.lhs.Value F} {own : List Action}
    (hCode : r.code env values = some (v, own)) : own = [] := by
  cases r with
  | bexprSexprEq =>
      obtain ⟨a, _, b, _⟩ := values
      simp only [Rule.code] at hCode
      split at hCode
      · cases hCode
        rfl
      · cases hCode
  | iexprArith op =>
      obtain ⟨n, _, hPair⟩ := Option.map_eq_some_iff.mp hCode
      cases hPair
      rfl
  | _ => first | (cases hCode; rfl) | simp [Quiet] at h

/-- The calls of the right side and those of the code are calls of the left side. -/
theorem Rule.shape {r : Rule} {values : Values (Value F) r.rhs} {v : r.lhs.Value F}
    {calls own : List Action} (hCode : r.code env values = some (v, own))
    (h : Shapes r.rhs calls) : r.lhs.Shape (calls ++ own) := by
  by_cases hQuiet : Quiet (.nonterminal r.lhs)
  · rw [shapes_quiet (rhs_quiet hQuiet) h, code_quiet hQuiet hCode]
    exact hQuiet.shape.mpr rfl
  · cases r with
    | template | blockStatement | statementConditionals | statementGet =>
        cases hCode
        rw [List.append_nil]
        exact shapes_singleton.mp h
    | blocksBlock =>
        cases hCode
        obtain ⟨_, _, rfl, ⟨blocks, rfl⟩, _, _, rfl, ⟨item, rfl⟩, rfl⟩ := h
        exact ⟨blocks.snoc item, by simp [Blocks.actions_snoc]⟩
    | blocksFirst =>
        cases hCode
        obtain ⟨item, rfl⟩ := shapes_singleton.mp h
        exact ⟨.block item .empty, by simp [Blocks.actions]⟩
    | blocksEmpty =>
        cases hCode
        cases h
        exact ⟨.empty, rfl⟩
    | blockText =>
        obtain ⟨text, _⟩ := values
        cases hCode
        rw [shapes_singleton.mp h]
        exact ⟨.text text, rfl⟩
    | blockEol =>
        cases hCode
        rw [shapes_singleton.mp h]
        exact ⟨.eol, rfl⟩
    | conditionalsElse =>
        cases hCode
        obtain ⟨_, _, rfl, ⟨start, rfl⟩, _, _, rfl, ⟨body, rfl⟩, _, _, rfl, rfl, _, _, rfl,
          ⟨orElse, rfl⟩, _, _, rfl, rfl, rfl⟩ := h
        exact ⟨.condElse start body orElse, by simp [Item.actions]⟩
    | conditionals =>
        cases hCode
        obtain ⟨_, _, rfl, ⟨start, rfl⟩, _, _, rfl, ⟨body, rfl⟩, _, _, rfl, rfl, rfl⟩ := h
        exact ⟨.cond start body, by simp [Item.actions]⟩
    | conditionalsSwitch =>
        cases hCode
        obtain ⟨_, _, rfl, ⟨iexpr, rfl⟩, _, _, rfl, ⟨cases, rfl⟩, _, _, rfl, rfl, rfl⟩ := h
        exact ⟨.switch iexpr cases, by simp [Item.actions]⟩
    | startIf =>
        obtain ⟨_, bexpr, _⟩ := values
        cases hCode
        obtain ⟨_, _, rfl, rfl, _, _, rfl, rfl, rfl⟩ := h
        exact ⟨.ifExpr bexpr, rfl⟩
    | startUnless =>
        obtain ⟨_, bexpr, _⟩ := values
        cases hCode
        obtain ⟨_, _, rfl, rfl, _, _, rfl, rfl, rfl⟩ := h
        exact ⟨.unlessExpr bexpr, by simp [CondStart.expr, truth]⟩
    | elseWord | endWord | switchEnd =>
        cases hCode
        rw [shapes_singleton.mp h]
        rfl
    | switchStart =>
        obtain ⟨_, iexpr, _⟩ := values
        cases hCode
        obtain ⟨_, _, rfl, rfl, _, _, rfl, rfl, rfl⟩ := h
        exact ⟨iexpr, rfl⟩
    | casesCase =>
        cases hCode
        obtain ⟨_, _, rfl, ⟨cases, rfl⟩, _, _, rfl, ⟨iexpr, rfl⟩, _, _, rfl, ⟨body, rfl⟩,
          rfl⟩ := h
        exact ⟨cases.snoc iexpr body, by simp [SwitchCases.actions_snoc]⟩
    | casesFirst =>
        cases hCode
        obtain ⟨_, _, rfl, ⟨iexpr, rfl⟩, _, _, rfl, ⟨body, rfl⟩, rfl⟩ := h
        exact ⟨.case iexpr body .empty, by simp [SwitchCases.actions]⟩
    | casesEmpty =>
        cases hCode
        cases h
        exact ⟨.empty, rfl⟩
    | switchCase =>
        obtain ⟨_, iexpr, _⟩ := values
        cases hCode
        obtain ⟨_, _, rfl, rfl, _, _, rfl, rfl, rfl⟩ := h
        exact ⟨iexpr, rfl⟩
    | getSexpr =>
        obtain ⟨_, sexpr, _⟩ := values
        cases hCode
        obtain ⟨_, _, rfl, rfl, _, _, rfl, rfl, rfl⟩ := h
        exact ⟨.value sexpr, rfl⟩
    | urlSexpr =>
        obtain ⟨encoded, _, hPair⟩ := Option.map_eq_some_iff.mp hCode
        cases hPair
        obtain ⟨_, _, rfl, rfl, _, _, rfl, rfl, rfl⟩ := h
        exact ⟨.value encoded, rfl⟩
    | bareSexpr =>
        obtain ⟨sexpr, _⟩ := values
        cases hCode
        rw [shapes_singleton.mp h]
        exact ⟨.value sexpr, rfl⟩
    | _ => exact absurd hQuiet (by simp [Quiet])

/-- The action of a rule is its code and then the calls of it. -/
theorem grammar_action {r : Rule} {values : Values (Value F) r.rhs} {v : r.lhs.Value F}
    {st st' : State} (h : (grammar env).action r values st = some (v, st')) :
    ∃ own, r.code env values = some (v, own) ∧ runActions own st = some st' := by
  obtain ⟨⟨value, own⟩, hCode, hOwn⟩ := Option.bind_eq_some_iff.mp h
  obtain ⟨last, hRun, hPair⟩ := Option.map_eq_some_iff.mp hOwn
  cases hPair
  exact ⟨own, hCode, hRun⟩

theorem grammar_respects_calls : Respects (grammar (F := F) env) Calls where
  token _ _ _ := ⟨[], rfl, rfl⟩
  rule r values tokens st middle v st' hChain hAction := by
    obtain ⟨calls, hShapes, hRun⟩ := chain_calls hChain
    obtain ⟨own, hCode, hRunOwn⟩ := grammar_action hAction
    refine ⟨calls ++ own, r.shape hCode hShapes, ?_⟩
    rw [runActions_append, hRun, Option.bind_some, hRunOwn]

/-- The calls on an accepted input are those of a template. -/
theorem accepted_template {tables : Tables Terminal Nonterminal Rule} {input : List (Token F)}
    {st st' : State} (h : Parses (grammar env) tables input st (.accepted st')) :
    ∃ template : Blocks, runActions template.actions st = some st' := by
  obtain ⟨_, calls, ⟨template, rfl⟩, hRun⟩ := grammar_respects_calls.accepted h
  exact ⟨template, hRun⟩

end Rules

section Literal

/-! Text, newlines and the strings of tags are copied, in order. -/

variable {F : Type}

/-- What a token is copied to, if it is one that is. -/
def literal : Token F → Option CString
  | ⟨.text, s⟩ => some s
  | ⟨.eol, _⟩ => some newline
  | ⟨.string, s⟩ => some s
  | _ => none

def Literal (tokens : List (Token F)) : Prop := ∀ t ∈ tokens, (literal t).isSome

def appends (tokens : List (Token F)) : List Action :=
  (tokens.filterMap literal).map fun s => .append (some s)

theorem appends_append (front back : List (Token F)) :
    appends (front ++ back) = appends front ++ appends back := by
  rw [appends, List.filterMap_append, List.map_append, appends, appends]

theorem refines_strings (strings : List CString) :
    Refines (strings.map fun s => .append (some s)) (strings.flatMap CString.bytes) := by
  induction strings with
  | nil =>
      intro st conditionals out h hOn
      exact ⟨st, rfl, hOn, by simpa using h⟩
  | cons s strings ih => exact (refines_append_string (some s)).append ih

theorem refines_appends (tokens : List (Token F)) :
    Refines (appends tokens) ((tokens.filterMap literal).flatMap CString.bytes) :=
  refines_strings _

/-- Symbols that stand for a token of another kind in any case. -/
def Loud : Symbol Terminal Nonterminal → Prop
  | .terminal t => t ≠ .text ∧ t ≠ .eol ∧ t ≠ .string
  | .nonterminal n => n ≠ .template ∧ n ≠ .blocks ∧ n ≠ .block ∧ n ≠ .statement ∧ n ≠ .get ∧
      n ≠ .sexpr ∧ n ≠ .bexpr ∧ n ≠ .switchCases

/-- What a symbol does on tokens that are copied: a string expression is one token and
its value, which a statement copies. -/
def Nonterminal.Reads : (n : Nonterminal) → n.Value F → List (Token F) → State → State → Prop
  | .sexpr, v, tokens, st, st' => (∃ s : CString, v = some s ∧ tokens = [⟨.string, s⟩]) ∧ st' = st
  | .bexpr, _, _, st, st' => st' = st
  | _, _, tokens, st, st' => runActions (appends tokens) st = some st'

/-- On tokens that are copied a symbol reads them, and is not one that needs others. -/
def Copies : Spec State (Value F)
  | .terminal t, v, tokens, st, st' => tokens = [⟨t, v⟩] ∧ st' = st
  | .nonterminal n, v, tokens, st, st' => Literal tokens →
      ¬Loud (.nonterminal n) ∧ n.Reads v tokens st st'

theorem Literal.append {front back : List (Token F)} (h : Literal (front ++ back)) :
    Literal front ∧ Literal back :=
  ⟨fun t ht => h t (List.mem_append_left _ ht), fun t ht => h t (List.mem_append_right _ ht)⟩

/-- Tokens that are copied are not those of a loud symbol. -/
theorem Copies.not_loud {s : Symbol Terminal Nonterminal} {v : Value F s} {tokens : List (Token F)}
    {st st' : State} (h : Copies s v tokens st st') (hLiteral : Literal tokens) : ¬Loud s := by
  cases s with
  | terminal t =>
      obtain ⟨rfl, _⟩ := h
      have hCopied := hLiteral _ List.mem_cons_self
      intro hLoud
      cases t <;> simp_all [literal, Loud]
  | nonterminal n => exact (h hLiteral).1

theorem chain_not_loud {symbols : List (Symbol Terminal Nonterminal)}
    {values : Values (Value F) symbols} {tokens : List (Token F)} {st st' : State}
    (h : Chain Copies symbols values tokens st st') (hLiteral : Literal tokens) :
    ∀ s ∈ symbols, ¬Loud s := by
  induction symbols generalizing tokens st with
  | nil => exact fun s hs => absurd hs List.not_mem_nil
  | cons first symbols ih =>
      obtain ⟨v, values⟩ := values
      obtain ⟨_, _, middle, rfl, hFirst, hRest⟩ := h
      intro s hs
      rcases List.mem_cons.mp hs with rfl | hs
      · exact hFirst.not_loud hLiteral.append.1
      · exact ih hRest hLiteral.append.2 s hs

/-- Without a loud symbol on the right there is none on the left. -/
theorem Rule.lhs_not_loud {r : Rule} (h : ∀ s ∈ r.rhs, ¬Loud s) :
    ¬Loud (.nonterminal r.lhs) := by
  cases r <;> simp [Loud] at h ⊢

variable [CFloat F] {env : CString → Option CString}

theorem grammar_respects_copies : Respects (grammar (F := F) env) Copies where
  token _ _ _ := ⟨rfl, rfl⟩
  rule r values tokens st middle v st' hChain hAction := by
    intro hLiteral
    have hQuiet : ∀ s ∈ r.rhs, ¬Loud s := chain_not_loud hChain hLiteral
    obtain ⟨own, hCode, hRunOwn⟩ := grammar_action hAction
    refine ⟨Rule.lhs_not_loud hQuiet, ?_⟩
    cases r with
    | template | blocksFirst | blockStatement | statementGet =>
        cases hCode
        cases hRunOwn
        obtain ⟨front, _, _, rfl, hFront, rfl, rfl⟩ := hChain
        rw [List.append_nil] at hLiteral ⊢
        exact (hFront hLiteral).2
    | blocksBlock =>
        cases hCode
        cases hRunOwn
        obtain ⟨front, _, first, rfl, hBlocks, back, _, _, rfl, hBlock, rfl, rfl⟩ := hChain
        rw [List.append_nil] at hLiteral ⊢
        have hRunBlocks : runActions (appends front) st = some first :=
          (hBlocks hLiteral.append.1).2
        have hRun : runActions (appends (front ++ back)) st = some middle := by
          rw [appends_append, runActions_append, hRunBlocks]
          exact (hBlock hLiteral.append.2).2
        exact hRun
    | blocksEmpty | casesEmpty =>
        cases hCode
        cases hRunOwn
        obtain ⟨rfl, rfl⟩ := hChain
        rfl
    | blockText =>
        obtain ⟨text, _⟩ := values
        cases hCode
        obtain ⟨_, _, _, rfl, ⟨rfl, rfl⟩, rfl, rfl⟩ := hChain
        exact hRunOwn
    | blockEol =>
        cases hCode
        obtain ⟨_, _, _, rfl, ⟨rfl, rfl⟩, rfl, rfl⟩ := hChain
        exact hRunOwn
    | bareSexpr =>
        obtain ⟨sexpr, _⟩ := values
        cases hCode
        obtain ⟨front, _, _, rfl, hSexpr, rfl, rfl⟩ := hChain
        rw [List.append_nil] at hLiteral ⊢
        obtain ⟨⟨s, rfl, rfl⟩, rfl⟩ := (hSexpr hLiteral).2
        exact hRunOwn
    | sexprString =>
        obtain ⟨sval, _⟩ := values
        cases hCode
        cases hRunOwn
        obtain ⟨_, _, _, rfl, ⟨rfl, rfl⟩, rfl, rfl⟩ := hChain
        exact ⟨⟨sval, rfl, rfl⟩, rfl⟩
    | bexprSexpr =>
        cases hCode
        cases hRunOwn
        obtain ⟨front, _, _, rfl, hSexpr, rfl, rfl⟩ := hChain
        rw [List.append_nil] at hLiteral
        exact (hSexpr hLiteral).2.2
    | _ => simp [Loud] at hQuiet

/-- An accepted input of tokens that are copied is copied. -/
theorem accepted_literal {tables : Tables Terminal Nonterminal Rule} {input : List (Token F)}
    {st st' : State} (h : Parses (grammar env) tables input st (.accepted st'))
    (hLiteral : Literal input) : runActions (appends input) st = some st' := by
  obtain ⟨_, hCopies⟩ := grammar_respects_copies.accepted h
  exact (hCopies hLiteral).2

end Literal

section Plain

/-! Outside of the tags there are only text and newlines. -/

variable {F : Type}

/-- What a token outside of every tag is copied to. -/
def copied : Token F → Option CString
  | ⟨.text, s⟩ => some s
  | ⟨.eol, _⟩ => some newline
  | _ => none

def Plain (tokens : List (Token F)) : Prop := ∀ t ∈ tokens, (copied t).isSome

def copies (tokens : List (Token F)) : List Action :=
  (tokens.filterMap copied).map fun s => .append (some s)

theorem refines_copies (tokens : List (Token F)) :
    Refines (copies tokens) ((tokens.filterMap copied).flatMap CString.bytes) :=
  refines_strings _

theorem literal_of_copied {t : Token F} (h : (copied t).isSome) : literal t = copied t := by
  obtain ⟨t, v⟩ := t
  cases t <;> first | rfl | cases h

theorem Plain.literal {tokens : List (Token F)} (h : Plain tokens) :
    Literal tokens ∧ appends tokens = copies tokens := by
  constructor
  · intro t ht
    rw [literal_of_copied (h t ht)]
    exact h t ht
  · rw [appends, copies, List.filterMap_congr fun t ht => literal_of_copied (h t ht)]

variable [CFloat F] {env : CString → Option CString}

/-- An accepted input without tags is copied. -/
theorem accepted_plain {tables : Tables Terminal Nonterminal Rule} {input : List (Token F)}
    {st st' : State} (h : Parses (grammar env) tables input st (.accepted st'))
    (hPlain : Plain input) : runActions (copies input) st = some st' := by
  obtain ⟨hLiteral, hSame⟩ := hPlain.literal
  rw [← hSame]
  exact accepted_literal h hLiteral

end Plain

end MonitoringPlug.Template
