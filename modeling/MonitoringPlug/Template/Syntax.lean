import MonitoringPlug.Lib.Reductions
import MonitoringPlug.Template.Grammar

/-! The expressions of a template as they are written, and their values. The parser builds
these trees without running any code. -/
namespace MonitoringPlug.Template

open CMemory ShiftReduce

inductive IExpr where
  | arith (op : Arith) (a b : IExpr)
  | paren (a : IExpr)
  | int (ival : Int)

inductive FExpr (F : Type) where
  | arith (op : Arith) (a b : FExpr F)
  | paren (a : FExpr F)
  | float (fval : F)
  | int (ival : Int)

inductive SExpr (F : Type) where
  | string (sval : CString)
  | label (sval : CString)
  | iexpr (a : IExpr)
  | fexpr (a : FExpr F)

inductive BExpr (F : Type) where
  | relation (op : Relation) (a b : FExpr F)
  | not (a : BExpr F)
  | paren (a : BExpr F)
  | sexprEq (a b : SExpr F)
  | sexpr (a : SExpr F)
  | iexpr (a : IExpr)
  | fexpr (a : FExpr F)

abbrev Nonterminal.Tree (F : Type) : Nonterminal → Type
  | .bexpr => BExpr F
  | .iexpr => IExpr
  | .fexpr => FExpr F
  | .sexpr => SExpr F
  | _ => Unit

abbrev Tree (F : Type) : Symbol Terminal Nonterminal → Type
  | .terminal t => t.Value F
  | .nonterminal n => n.Tree F

/-- The tree of the left side of a rule. -/
def Rule.build {F : Type} : (r : Rule) → Values (Tree F) r.rhs → r.lhs.Tree F
  | .template, _ | .blocksBlock, _ | .blocksFirst, _ | .blocksEmpty, _ | .blockText, _
  | .blockEol, _ | .blockStatement, _ | .statementConditionals, _ | .statementGet, _
  | .conditionalsElse, _ | .conditionals, _ | .conditionalsSwitch, _ | .startIf, _
  | .startUnless, _ | .elseWord, _ | .endWord, _ | .switchStart, _ | .casesCase, _
  | .casesFirst, _ | .casesEmpty, _ | .switchCase, _ | .switchEnd, _ | .getSexpr, _
  | .urlSexpr, _ | .bareSexpr, _ => ()
  | .bexprRelation op, (a, _, b, _) => .relation op a b
  | .bexprNot, (_, a, _) => .not a
  | .bexprParen, (_, a, _) => .paren a
  | .bexprSexprEq, (a, _, b, _) => .sexprEq a b
  | .bexprSexpr, (a, _) => .sexpr a
  | .bexprIexpr, (a, _) => .iexpr a
  | .bexprFexpr, (a, _) => .fexpr a
  | .iexprArith op, (a, _, b, _) => .arith op a b
  | .iexprParen, (_, a, _) => .paren a
  | .iexprInt, (ival, _) => .int ival
  | .fexprArith op, (a, _, b, _) => .arith op a b
  | .fexprParen, (_, a, _) => .paren a
  | .fexprFloat, (fval, _) => .float fval
  | .fexprInt, (ival, _) => .int ival
  | .sexprString, (sval, _) => .string sval
  | .sexprLabel, (sval, _) => .label sval
  | .sexprIexpr, (a, _) => .iexpr a
  | .sexprFexpr, (a, _) => .fexpr a

/-- A reduction by the parser, with what it reads. -/
abbrev Read (F : Type) : Type := (r : Rule) × Values (Tree F) r.rhs

/-- The grammar without its code. -/
def syntaxGrammar (F : Type) : Grammar Terminal Nonterminal Rule (List (Read F)) (Tree F) where
  start := .template
  lhs := Rule.lhs
  rhs := Rule.rhs
  action r trees reads := some (r.build trees, reads ++ [⟨r, trees⟩])

/-- The operation on whole numbers of any size. -/
def Arith.exact : Arith → Int → Int → Int
  | .add, a, b => a + b
  | .sub, a, b => a - b
  | .mul, a, b => a * b
  | .div, a, b => a.tdiv b

theorem Arith.int_eq (op : Arith) (a b : Int) :
    op.int a b = if op = .div ∧ b = 0 then none else checkedInt (op.exact a b) := by
  cases op <;> simp [Arith.int, Arith.exact]

def IExpr.value : IExpr → Int
  | .arith op a b => op.exact a.value b.value
  | .paren a => a.value
  | .int ival => ival

section Values

variable {F : Type} [CFloat F]

def FExpr.value : FExpr F → F
  | .arith op a b => op.float a.value b.value
  | .paren a => a.value
  | .float fval => fval
  | .int ival => CFloat.ofInt ival

def SExpr.value (env : CString → Option CString) : SExpr F → Option CString
  | .string sval => some sval
  | .label sval => env sval
  | .iexpr a => some (.ofBytes (bytesOf (CText.formatLong a.value)))
  | .fexpr a => some (.ofBytes (CFloat.format a.value))

/-- `strcmp` of two strings. -/
def equalStrings : Option CString → Option CString → Bool
  | some a, some b => a == b
  | _, _ => false

def BExpr.value (env : CString → Option CString) : BExpr F → Int
  | .relation op a b => truth (op.holds a.value b.value)
  | .not a => truth (a.value env == 0)
  | .paren a => a.value env
  | .sexprEq a b => truth (equalStrings (a.value env) (b.value env))
  | .sexpr a => truth ((a.value env).any fun s => decide (0 < s.strlen))
  | .iexpr a => truth (a.value != 0)
  | .fexpr a => truth (!CFloat.eq a.value (CFloat.ofInt 0))

/-- The value of what was read. -/
def treeValue (env : CString → Option CString) : (s : Symbol Terminal Nonterminal) →
    Tree F s → Value F s
  | .terminal _, v => v
  | .nonterminal .bexpr, a => BExpr.value env a
  | .nonterminal .iexpr, a => IExpr.value a
  | .nonterminal .fexpr, a => FExpr.value a
  | .nonterminal .sexpr, a => SExpr.value env a
  | .nonterminal .template, _ | .nonterminal .blocks, _ | .nonterminal .block, _
  | .nonterminal .statement, _ | .nonterminal .conditionals, _
  | .nonterminal .conditionalsStart, _ | .nonterminal .conditionalsElse, _
  | .nonterminal .conditionalsEnd, _ | .nonterminal .switchStart, _
  | .nonterminal .switchCases, _ | .nonterminal .switchCase, _ | .nonterminal .switchEnd, _
  | .nonterminal .get, _ => ()

variable {env : CString → Option CString}

/-- The code of a rule on what was read. -/
def Read.code (env : CString → Option CString) (x : Read F) :
    Option (x.1.lhs.Value F × List Action) :=
  x.1.code env (mapValues (treeValue env) x.1.rhs x.2)

/-- Where the code of a rule has a result it is the value of the tree. -/
theorem Read.code_value {x : Read F} {v : x.1.lhs.Value F} {own : List Action}
    (h : x.code env = some (v, own)) :
    v = treeValue env (.nonterminal x.1.lhs) (x.1.build x.2) := by
  obtain ⟨r, trees⟩ := x
  cases r with
  | urlSexpr => rfl
  | bexprSexprEq =>
      obtain ⟨a, _, b, _⟩ := trees
      simp only [Read.code, mapValues, Rule.code] at h
      split at h
      · rename_i s t hA hB
        cases h
        have hLeft : a.value env = some s := hA
        have hRight : b.value env = some t := hB
        simp [treeValue, Rule.build, BExpr.value, hLeft, hRight, equalStrings]
      · cases h
  | iexprArith op =>
      obtain ⟨a, _, b, _⟩ := trees
      obtain ⟨n, hInt, hPair⟩ := Option.map_eq_some_iff.mp h
      cases hPair
      have hOp : op.int a.value b.value = some v := hInt
      rw [Arith.int_eq, checkedInt] at hOp
      split at hOp
      · cases hOp
      · split at hOp
        · exact (Option.some.inj hOp).symm
        · cases hOp
  | _ =>
      cases h
      rfl

theorem grammar_evaluates : Evaluates (grammar (F := F) env) (treeValue env) Rule.build := by
  intro r trees st v st' h
  obtain ⟨⟨value, own⟩, hCode, hRun⟩ := Option.bind_eq_some_iff.mp h
  obtain ⟨last, _, hPair⟩ := Option.map_eq_some_iff.mp hRun
  cases hPair
  exact Read.code_value (x := ⟨r, trees⟩) hCode

theorem mapToken_treeValue (input : List (Token F)) :
    input.map (mapToken (treeValue env)) = input := List.map_id input

end Values

end MonitoringPlug.Template
