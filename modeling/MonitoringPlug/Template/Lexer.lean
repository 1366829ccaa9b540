import MonitoringPlug.Lib.Block
import MonitoringPlug.Lib.Format
import MonitoringPlug.Lib.Scanner

/-! The scanner of the template engine: start conditions, tokens and rules, in
the order of the rules in the source. `char` is signed, so a byte from 128 on in
a tag is returned as a negative token, which ends the input for the parser. -/
namespace MonitoringPlug.Template

open CMemory Scanner

/-- The operations on `float` and its printing as `%f`. -/
class CFloat (F : Type) where
  ofInt : Int → F
  strtof : List UInt8 → F
  add : F → F → F
  sub : F → F → F
  mul : F → F → F
  div : F → F → F
  eq : F → F → Bool
  le : F → F → Bool
  lt : F → F → Bool
  format : F → List UInt8

/-- `INITIAL` and the two exclusive start conditions. -/
inductive StartCondition where
  | initial
  | tt
  | comment
deriving DecidableEq, Repr

/-- The tokens that are used; a character stands for itself. -/
inductive Terminal where
  | get | set | url
  | ifWord | unlessWord | elseWord | switchWord | caseWord | endWord
  | opEq | opGe | opLe
  | eol
  | label | text | float | int | string
  | char (c : UInt8)
deriving DecidableEq, Repr

/-- The member of `yylval` that goes with a token. -/
abbrev Terminal.Value (F : Type) : Terminal → Type
  | .label | .text | .string => CString
  | .float => F
  | .int => Int
  | _ => Unit

abbrev Token (F : Type) : Type := (t : Terminal) × t.Value F

section Rules

variable {F : Type} [CFloat F]

def chars (yytext : List UInt8) : List Char := yytext.map fun c => Char.ofNat c.toNat

/-- `yytext` between its two quotes. -/
def unquote (yytext : List UInt8) : CString := .ofBytes (yytext.drop 1).dropLast

/-- `(int)strtol(yytext, NULL, 10)`. -/
def intOf (yytext : List UInt8) : Int := (CText.strtol 10 (chars yytext)).bmod (2 ^ 32)

def isIdentStart (c : UInt8) : Bool :=
  let c := Char.ofNat c.toNat
  c.isAlpha || c == '_'

def isIdent (c : UInt8) : Bool :=
  let c := Char.ofNat c.toNat
  c.isAlphanum || c == '_'

def isDigit (c : UInt8) : Bool := (Char.ofNat c.toNat).isDigit

/-- `.`, every byte but a newline. -/
def dot : Pattern := .byte (· != 10)

def newlineByte : Pattern := .byte (· == 10)

def ttStart : Pattern := .literal (ascii "[%")

def ttEnd : Pattern := .literal (ascii "%]")

def ident : Pattern := .seq (.byte isIdentStart) (.many isIdent)

/-- A quoted string with this quote. -/
def quoted (quote : UInt8) : Pattern :=
  .seq (.byte (· == quote)) (.seq (.many (· != quote)) (.byte (· == quote)))

/-- A word of the language in a tag. -/
def word (bytes : String) (t : Terminal) (v : t.Value F) :
    Rule StartCondition (Token F) :=
  ⟨.tt, .literal (ascii bytes), fun _ => .token ⟨t, v⟩⟩

/-- `return yytext[0]`. -/
def returnChar (yytext : List UInt8) : Act StartCondition (Token F) :=
  match yytext with
  | c :: _ => if c < 128 then .token ⟨.char c, ()⟩ else .finish
  | [] => .finish

def rules : List (Rule StartCondition (Token F)) :=
  [ ⟨.initial, .seq ttStart (.literal (ascii "#")), fun _ => .begin .comment⟩,
    ⟨.initial, .seq newlineByte (.seq ttStart (.literal (ascii "-"))), fun _ => .begin .tt⟩,
    ⟨.initial, .seq ttStart (.optional (.literal (ascii "-"))), fun _ => .begin .tt⟩,
    ⟨.initial, .many1 fun c => c != 10 && c != 91, fun yytext => .token ⟨.text, .ofBytes yytext⟩⟩,
    ⟨.initial, newlineByte, fun _ => .token ⟨.eol, ()⟩⟩,
    ⟨.initial, dot, fun yytext => .token ⟨.text, .ofBytes yytext⟩⟩,
    ⟨.tt, .seq (.literal (ascii "-")) (.seq ttEnd newlineByte), fun _ => .begin .initial⟩,
    ⟨.tt, .seq (.optional (.literal (ascii "-"))) ttEnd, fun _ => .begin .initial⟩,
    ⟨.tt, .many1 fun c => c == 32 || c == 9, fun _ => .skip⟩,
    word "GET" .get (),
    word "SET" .set (),
    word "URL" .url (),
    word "IF" .ifWord (),
    word "UNLESS" .unlessWord (),
    word "ELSE" .elseWord (),
    word "SWITCH" .switchWord (),
    word "CASE" .caseWord (),
    word "END" .endWord (),
    word "==" .opEq (),
    word ">=" .opGe (),
    word "<=" .opLe (),
    ⟨.tt, quoted 34, fun yytext => .token ⟨.string, unquote yytext⟩⟩,
    ⟨.tt, quoted 39, fun yytext => .token ⟨.string, unquote yytext⟩⟩,
    ⟨.tt, .seq (.literal (ascii "#")) (.many (· != 10)), fun _ => .skip⟩,
    ⟨.tt, .many1 isDigit, fun yytext => .token ⟨.int, intOf yytext⟩⟩,
    ⟨.tt, .seq (.many1 isDigit) (.seq (.literal (ascii ".")) (.many1 isDigit)),
      fun yytext => .token ⟨.float, CFloat.strtof yytext⟩⟩,
    ⟨.tt, ident, fun yytext => .token ⟨.label, .ofBytes yytext⟩⟩,
    ⟨.tt, dot, returnChar⟩,
    ⟨.tt, newlineByte, fun _ => .skip⟩,
    ⟨.comment, .seq (.literal (ascii "-")) (.seq ttEnd newlineByte), fun _ => .begin .initial⟩,
    ⟨.comment, .seq (.optional (.literal (ascii "-"))) ttEnd, fun _ => .begin .initial⟩,
    ⟨.comment, .many1 fun c => c != 10 && c != 37 && c != 45, fun _ => .skip⟩,
    ⟨.comment, newlineByte, fun _ => .skip⟩,
    ⟨.comment, dot, fun _ => .skip⟩ ]

/-- The tokens the parser gets for a string when the scanner starts in this
condition, and the one it is left in. -/
def lex (start : StartCondition) (s : CString) : List (Token F) × StartCondition :=
  scan rules start 0 s.bytes

end Rules

end MonitoringPlug.Template
