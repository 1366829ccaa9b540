import MonitoringPlug.Lib.Encoded
import MonitoringPlug.Lib.Search

/-! `loadAnchorfile`: the loop over the characters of a trust-anchor file, and the fields
it takes from a line. -/
namespace MonitoringPlug.Dns

open CText

/-- `LDNS_MAX_PACKETLEN`, the size of `linebuffer`. -/
def maxPacketLen : Nat := 65535

/-- What the five conversions of an RR are called with. -/
structure DnsKey where
  owner : List Char
  flags : List Char
  protocol : List Char
  algorithm : List Char
  publicKey : List Char
deriving DecidableEq

/-- The variables of the loop. `linebuffer` is as long as `col` says. -/
structure Reading where
  linebuffer : List Char
  grouped : Bool
  tkSection : Bool
  trustedKeys : List DnsKey
deriving DecidableEq

def trustedKeysWord : List Char := "trusted-keys".toList

/-- The delimiters of `strsep`. -/
def blanks : List Char := [' ', '\t']

/-- The characters that `strspn` passes over. -/
def isLeading (c : Char) : Bool := c == ' ' || c == '\t' || c == '\n'

/-- The conversions. Behind the last field `strsep` leaves NULL, which it then returns,
and which the next conversion or `strlen` reads. -/
def convert (cur : List Char) : Option DnsKey := do
  let (owner, cur) := strsepAny blanks cur
  let (flags, cur) := strsepAny blanks (← cur)
  let (protocol, cur) := strsepAny blanks (← cur)
  let (algorithm, cur) := strsepAny blanks (← cur)
  let cur ← cur
  some
    { owner := owner
      flags := flags
      protocol := protocol
      algorithm := algorithm
      publicKey := if cur.getLast? = some ';' then cur.dropLast else cur }

/-- A line that is passed over: a comment, an empty one, or one outside of a section. -/
def isSkipped (linebuffer : List Char) (tkSection : Bool) : Bool :=
  let cur := linebuffer.dropWhile isLeading
  cur.head? == some ';' || ['/', '/'].isPrefixOf cur || linebuffer.isEmpty || !tkSection

/-- What is done with the buffer at the end of a line. -/
def endLine (s : Reading) : Option Reading :=
  if maxPacketLen ≤ s.linebuffer.length then none
  else if (strstr trustedKeysWord s.linebuffer).isSome then
    some { s with linebuffer := [], tkSection := true }
  else if isSkipped s.linebuffer s.tkSection = true then some { s with linebuffer := [] }
  else
    (convert (s.linebuffer.dropWhile isLeading)).map fun key =>
      { s with linebuffer := [], trustedKeys := s.trustedKeys ++ [key] }

/-- The body of the loop for a character of the file. There is no result when the buffer
is left. -/
def readChar (s : Reading) (c : Char) : Option Reading :=
  if c = '\n' ∧ s.grouped = false then endLine s
  else if c = '}' then some { s with tkSection := false }
  else if c = '"' then some { s with grouped := !s.grouped }
  else if s.linebuffer.length < maxPacketLen then
    some { s with linebuffer := s.linebuffer ++ [c] }
  else none

/-- The content of the file, if it can be opened. -/
def loadAnchorfile (input : Option (List Char)) : Option (Option (List DnsKey)) :=
  match input with
  | none => some none
  | some input => do
      let start := { linebuffer := [], grouped := false, tkSection := false, trustedKeys := [] }
      let s ← input.foldlM readChar start
      let s ← endLine s
      some (some s.trustedKeys)

section Format

/-- A field without quotes, and a name or key in them. -/
structure Word where
  text : List Char
  ne_nil : text ≠ []
  plain : ∀ c ∈ text, c ∉ [' ', '\t', '\n', '"', ';', '{', '}']

/-- What separates two fields. -/
structure Gap where
  text : List Char
  ne_nil : text ≠ []
  blank : ∀ c ∈ text, c ∈ blanks

/-- A key in quotes may have blanks in it and go over several lines. -/
inductive KeyText where
  | bare (word : Word)
  | quoted (text : List Char) (ne_nil : text ≠ []) (clean : ∀ c ∈ text, c ∉ ['"', ';', '{', '}'])

def KeyText.text : KeyText → List Char
  | .bare word => word.text
  | .quoted text _ _ => text

/-- `name flags protocol algorithm key ;`, with what else may stand on its line. The
section may be closed behind it. -/
structure Statement where
  indent : List Char
  name : Word
  nameQuoted : Bool
  behindName : Gap
  flags : Word
  behindFlags : Gap
  protocol : Word
  behindProtocol : Gap
  algorithm : Word
  behindAlgorithm : Gap
  key : KeyText
  beforeEnd : List Char
  behindEnd : List Char
  indent_blank : ∀ c ∈ indent, c ∈ blanks
  beforeEnd_blank : ∀ c ∈ beforeEnd, c ∈ blanks
  behindEnd_closing : ∀ c ∈ behindEnd, c ∈ [' ', '\t', '}', ';']

def quote (quoted : Bool) (text : List Char) : List Char :=
  if quoted then '"' :: (text ++ ['"']) else text

/-- The fields in front of the key. -/
def Statement.front (statement : Statement) : List Char :=
  statement.indent ++ quote statement.nameQuoted statement.name.text ++
    statement.behindName.text ++ statement.flags.text ++ statement.behindFlags.text ++
    statement.protocol.text ++ statement.behindProtocol.text ++ statement.algorithm.text ++
    statement.behindAlgorithm.text

def KeyText.isQuoted : KeyText → Bool
  | .bare _ => false
  | .quoted _ _ _ => true

def Statement.back (statement : Statement) : List Char :=
  statement.beforeEnd ++ ';' :: statement.behindEnd

def Statement.text (statement : Statement) : List Char :=
  statement.front ++ (quote statement.key.isQuoted statement.key.text ++ statement.back)

/-- What the statement is to be converted to. -/
def Statement.dnskey (statement : Statement) : DnsKey where
  owner := statement.name.text
  flags := statement.flags.text
  protocol := statement.protocol.text
  algorithm := statement.algorithm.text
  publicKey := statement.key.text

/-- The lines without a statement: blank ones, also indented, comments, the line that opens
the section, and the one that closes it. -/
inductive OtherLine : List Char → Prop where
  | blank {indent : List Char} (hIndent : ∀ c ∈ indent, c ∈ blanks) : OtherLine indent
  | comment {indent text : List Char} (hIndent : ∀ c ∈ indent, c ∈ blanks)
      (hStart : text.head? = some ';' ∨ ['/', '/'] <+: text) (hLine : '\n' ∉ text) :
      OtherLine (indent ++ text)
  | heading {indent gap behind : List Char} (hIndent : ∀ c ∈ indent, c ∈ blanks)
      (hGap : ∀ c ∈ gap, c ∈ blanks) (hBehind : ∀ c ∈ behind, c ∈ blanks) :
      OtherLine (indent ++ trustedKeysWord ++ gap ++ '{' :: behind)
  | closing {indent behind : List Char} (hIndent : ∀ c ∈ indent, c ∈ blanks)
      (hBehind : ∀ c ∈ behind, c ∈ [' ', '\t', ';']) : OtherLine (indent ++ '}' :: behind)

inductive AnchorLine where
  | other (text : List Char) (line : OtherLine text)
  | key (statement : Statement)

def AnchorLine.text : AnchorLine → List Char
  | .other text _ => text
  | .key statement => statement.text

/-- Lines in any order, so also a section with its statements and what is around it. The
last one need not be ended. -/
structure AnchorFile where
  lines : List AnchorLine
  ne_nil : lines ≠ []

def fileText (lines : List AnchorLine) : List Char :=
  ['\n'].intercalate (lines.map AnchorLine.text)

def AnchorLine.dnskey? : AnchorLine → Option DnsKey
  | .other _ _ => none
  | .key statement => some statement.dnskey

/-- The conversions that the statements of the file ask for, in order. -/
def dnskeys (lines : List AnchorLine) : List DnsKey := lines.filterMap AnchorLine.dnskey?

end Format

end MonitoringPlug.Dns
