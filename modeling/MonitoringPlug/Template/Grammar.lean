import MonitoringPlug.Lib.ShiftReduce
import MonitoringPlug.Template.Lexer
import MonitoringPlug.Template.Tree
import MonitoringPlug.Template.Urlencode

/-! The grammar of the template engine with the code of its rules. The code of a
rule computes a value and calls the engine; a `none` result is a fault: `strcmp`
of a NULL string, a division by zero, an `int` out of range, or a write past the
encoded string. -/
namespace MonitoringPlug.Template

open CMemory ShiftReduce

inductive Nonterminal where
  | template | blocks | block | statement
  | conditionals | conditionalsStart | conditionalsElse | conditionalsEnd
  | switchStart | switchCases | switchCase | switchEnd
  | get | bexpr | iexpr | fexpr | sexpr
deriving DecidableEq, Repr

/-- The `%type` of a symbol. -/
abbrev Nonterminal.Value (F : Type) : Nonterminal → Type
  | .bexpr | .iexpr => Int
  | .fexpr => F
  | .sexpr => Option CString
  | _ => Unit

abbrev Value (F : Type) : Symbol Terminal Nonterminal → Type
  | .terminal t => t.Value F
  | .nonterminal n => n.Value F

inductive Arith where
  | add | sub | div | mul
deriving DecidableEq, Repr

inductive Relation where
  | eq | ge | le | gt | lt
deriving DecidableEq, Repr

/-- The rules, in the order of the source. Those of a symbol that only differ in
their operator are one rule here. -/
inductive Rule where
  | template
  | blocksBlock | blocksFirst | blocksEmpty
  | blockText | blockEol | blockStatement
  | statementConditionals | statementGet
  | conditionalsElse | conditionals | conditionalsSwitch
  | startIf | startUnless
  | elseWord | endWord
  | switchStart
  | casesCase | casesFirst | casesEmpty
  | switchCase | switchEnd
  | getSexpr | urlSexpr | bareSexpr
  | bexprRelation (op : Relation) | bexprNot | bexprParen | bexprSexprEq
  | bexprSexpr | bexprIexpr | bexprFexpr
  | iexprArith (op : Arith) | iexprParen | iexprInt
  | fexprArith (op : Arith) | fexprParen | fexprFloat | fexprInt
  | sexprString | sexprLabel | sexprIexpr | sexprFexpr
deriving DecidableEq, Repr

/-- A character as a token. -/
def Arith.token : Arith → Terminal
  | .add => .char 43
  | .sub => .char 45
  | .div => .char 47
  | .mul => .char 42

def Relation.token : Relation → Terminal
  | .eq => .opEq
  | .ge => .opGe
  | .le => .opLe
  | .gt => .char 62
  | .lt => .char 60

namespace Rule

abbrev lhs : Rule → Nonterminal
  | .template => .template
  | .blocksBlock | .blocksFirst | .blocksEmpty => .blocks
  | .blockText | .blockEol | .blockStatement => .block
  | .statementConditionals | .statementGet => .statement
  | .conditionalsElse | .conditionals | .conditionalsSwitch => .conditionals
  | .startIf | .startUnless => .conditionalsStart
  | .elseWord => .conditionalsElse
  | .endWord => .conditionalsEnd
  | .switchStart => .switchStart
  | .casesCase | .casesFirst | .casesEmpty => .switchCases
  | .switchCase => .switchCase
  | .switchEnd => .switchEnd
  | .getSexpr | .urlSexpr | .bareSexpr => .get
  | .bexprRelation _ | .bexprNot | .bexprParen | .bexprSexprEq
  | .bexprSexpr | .bexprIexpr | .bexprFexpr => .bexpr
  | .iexprArith _ | .iexprParen | .iexprInt => .iexpr
  | .fexprArith _ | .fexprParen | .fexprFloat | .fexprInt => .fexpr
  | .sexprString | .sexprLabel | .sexprIexpr | .sexprFexpr => .sexpr

abbrev rhs : Rule → List (Symbol Terminal Nonterminal)
  | .template => [.nonterminal .blocks]
  | .blocksBlock => [.nonterminal .blocks, .nonterminal .block]
  | .blocksFirst => [.nonterminal .block]
  | .blocksEmpty => []
  | .blockText => [.terminal .text]
  | .blockEol => [.terminal .eol]
  | .blockStatement => [.nonterminal .statement]
  | .statementConditionals => [.nonterminal .conditionals]
  | .statementGet => [.nonterminal .get]
  | .conditionalsElse =>
      [.nonterminal .conditionalsStart, .nonterminal .blocks, .nonterminal .conditionalsElse,
        .nonterminal .blocks, .nonterminal .conditionalsEnd]
  | .conditionals =>
      [.nonterminal .conditionalsStart, .nonterminal .blocks, .nonterminal .conditionalsEnd]
  | .conditionalsSwitch =>
      [.nonterminal .switchStart, .nonterminal .switchCases, .nonterminal .switchEnd]
  | .startIf => [.terminal .ifWord, .nonterminal .bexpr]
  | .startUnless => [.terminal .unlessWord, .nonterminal .bexpr]
  | .elseWord => [.terminal .elseWord]
  | .endWord => [.terminal .endWord]
  | .switchStart => [.terminal .switchWord, .nonterminal .iexpr]
  | .casesCase => [.nonterminal .switchCases, .nonterminal .switchCase, .nonterminal .blocks]
  | .casesFirst => [.nonterminal .switchCase, .nonterminal .blocks]
  | .casesEmpty => []
  | .switchCase => [.terminal .caseWord, .nonterminal .iexpr]
  | .switchEnd => [.terminal .endWord]
  | .getSexpr => [.terminal .get, .nonterminal .sexpr]
  | .urlSexpr => [.terminal .url, .nonterminal .sexpr]
  | .bareSexpr => [.nonterminal .sexpr]
  | .bexprRelation op => [.nonterminal .fexpr, .terminal op.token, .nonterminal .fexpr]
  | .bexprNot => [.terminal (.char 33), .nonterminal .bexpr]
  | .bexprParen => [.terminal (.char 40), .nonterminal .bexpr, .terminal (.char 41)]
  | .bexprSexprEq => [.nonterminal .sexpr, .terminal .opEq, .nonterminal .sexpr]
  | .bexprSexpr => [.nonterminal .sexpr]
  | .bexprIexpr => [.nonterminal .iexpr]
  | .bexprFexpr => [.nonterminal .fexpr]
  | .iexprArith op => [.nonterminal .iexpr, .terminal op.token, .nonterminal .iexpr]
  | .iexprParen => [.terminal (.char 40), .nonterminal .iexpr, .terminal (.char 41)]
  | .iexprInt => [.terminal .int]
  | .fexprArith op => [.nonterminal .fexpr, .terminal op.token, .nonterminal .fexpr]
  | .fexprParen => [.terminal (.char 40), .nonterminal .fexpr, .terminal (.char 41)]
  | .fexprFloat => [.terminal .float]
  | .fexprInt => [.terminal .int]
  | .sexprString => [.terminal .string]
  | .sexprLabel => [.terminal .label]
  | .sexprIexpr => [.nonterminal .iexpr]
  | .sexprFexpr => [.nonterminal .fexpr]

end Rule

def truth (b : Bool) : Int := if b then 1 else 0

/-- An `int`, if the value is in its range. -/
def checkedInt (n : Int) : Option Int := if -2 ^ 31 ≤ n ∧ n < 2 ^ 31 then some n else none

def Arith.int : Arith → Int → Int → Option Int
  | .add, a, b => checkedInt (a + b)
  | .sub, a, b => checkedInt (a - b)
  | .mul, a, b => checkedInt (a * b)
  | .div, a, b => if b = 0 then none else checkedInt (a.tdiv b)

section Code

variable {F : Type} [CFloat F]

def Arith.float : Arith → F → F → F
  | .add => CFloat.add
  | .sub => CFloat.sub
  | .mul => CFloat.mul
  | .div => CFloat.div

def Relation.holds : Relation → F → F → Bool
  | .eq, a, b => CFloat.eq a b
  | .ge, a, b => CFloat.le b a
  | .le, a, b => CFloat.le a b
  | .gt, a, b => CFloat.lt b a
  | .lt, a, b => CFloat.lt a b

def bytesOf (s : List Char) : List UInt8 := s.map fun c => c.toNat.toUInt8

/-- The code of a rule over the environment: the value of its left side and the
calls it makes. -/
def Rule.code (env : CString → Option CString) :
    (r : Rule) → Values (Value F) r.rhs → Option (r.lhs.Value F × List Action)
  | .template, _ => some ((), [])
  | .blocksBlock, _ => some ((), [])
  | .blocksFirst, _ => some ((), [])
  | .blocksEmpty, _ => some ((), [])
  | .blockText, (text, _) => some ((), [.append (some text)])
  | .blockEol, _ => some ((), [.append (some newline)])
  | .blockStatement, _ => some ((), [])
  | .statementConditionals, _ => some ((), [])
  | .statementGet, _ => some ((), [])
  | .conditionalsElse, _ => some ((), [])
  | .conditionals, _ => some ((), [])
  | .conditionalsSwitch, _ => some ((), [])
  | .startIf, (_, bexpr, _) => some ((), [.ifInt bexpr])
  | .startUnless, (_, bexpr, _) => some ((), [.ifInt (truth (bexpr == 0))])
  | .elseWord, _ => some ((), [.orElse])
  | .endWord, _ => some ((), [.endCond])
  | .switchStart, (_, iexpr, _) => some ((), [.switchInt iexpr])
  | .casesCase, _ => some ((), [])
  | .casesFirst, _ => some ((), [])
  | .casesEmpty, _ => some ((), [])
  | .switchCase, (_, iexpr, _) => some ((), [.caseInt iexpr])
  | .switchEnd, _ => some ((), [.endCond])
  | .getSexpr, (_, sexpr, _) => some ((), [.append sexpr])
  | .urlSexpr, (_, sexpr, _) =>
      (mpTemplateUrlencode sexpr).map fun encoded => ((), [.append encoded])
  | .bareSexpr, (sexpr, _) => some ((), [.append sexpr])
  | .bexprRelation op, (a, _, b, _) => some (truth (op.holds a b), [])
  | .bexprNot, (_, bexpr, _) => some (truth (bexpr == 0), [])
  | .bexprParen, (_, bexpr, _) => some (bexpr, [])
  | .bexprSexprEq, (a, _, b, _) =>
      match a, b with
      | some a, some b => some (truth (a == b), [])
      | _, _ => none
  | .bexprSexpr, (sexpr, _) => some (truth (sexpr.any fun s => decide (0 < s.strlen)), [])
  | .bexprIexpr, (iexpr, _) => some (truth (iexpr != 0), [])
  | .bexprFexpr, (fexpr, _) => some (truth (!CFloat.eq fexpr (CFloat.ofInt 0)), [])
  | .iexprArith op, (a, _, b, _) => (op.int a b).map fun n => (n, [])
  | .iexprParen, (_, iexpr, _) => some (iexpr, [])
  | .iexprInt, (ival, _) => some (ival, [])
  | .fexprArith op, (a, _, b, _) => some (op.float a b, [])
  | .fexprParen, (_, fexpr, _) => some (fexpr, [])
  | .fexprFloat, (fval, _) => some (fval, [])
  | .fexprInt, (ival, _) => some (CFloat.ofInt ival, [])
  | .sexprString, (sval, _) => some (some sval, [])
  | .sexprLabel, (sval, _) => some (env sval, [])
  | .sexprIexpr, (iexpr, _) => some (some (.ofBytes (bytesOf (CText.formatLong iexpr))), [])
  | .sexprFexpr, (fexpr, _) => some (some (.ofBytes (CFloat.format fexpr)), [])

/-- The grammar with its code running on the globals of the engine. -/
def grammar (env : CString → Option CString) :
    Grammar Terminal Nonterminal Rule State (Value F) where
  start := .template
  lhs := Rule.lhs
  rhs := Rule.rhs
  action r values st :=
    (r.code env values).bind fun (v, calls) => (runActions calls st).map (v, ·)

end Code

end MonitoringPlug.Template
