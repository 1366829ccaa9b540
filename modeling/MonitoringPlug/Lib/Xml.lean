import Mathlib.Algebra.BigOperators.Group.List.Basic
import Mathlib.Algebra.GroupWithZero.Nat
import MonitoringPlug.Lib.Search

/-! XML 1.0 without a document type declaration: which texts are documents, and what is
in them. A document is read as its tags and its characters, in order; comments and
processing instructions are passed over. The texts are those behind the normalisation of
line ends. -/
namespace Xml

open CText

def isXmlChar (c : Char) : Bool :=
  c.toNat = 0x9 || c.toNat = 0xA || c.toNat = 0xD || (0x20 ≤ c.toNat && c.toNat ≤ 0xD7FF) ||
    (0xE000 ≤ c.toNat && c.toNat ≤ 0xFFFD) || 0x10000 ≤ c.toNat

def isSpace (c : Char) : Bool := c = ' ' || c = '\t' || c = '\n' || c = '\r'

/-- The ranges of the characters a name can start with. -/
def nameStartRanges : List (Nat × Nat) :=
  [(0x3A, 0x3A), (0x41, 0x5A), (0x5F, 0x5F), (0x61, 0x7A), (0xC0, 0xD6), (0xD8, 0xF6),
    (0xF8, 0x2FF), (0x370, 0x37D), (0x37F, 0x1FFF), (0x200C, 0x200D), (0x2070, 0x218F),
    (0x2C00, 0x2FEF), (0x3001, 0xD7FF), (0xF900, 0xFDCF), (0xFDF0, 0xFFFD), (0x10000, 0xEFFFF)]

/-- Those that can only follow. -/
def nameRanges : List (Nat × Nat) :=
  [(0x2D, 0x2E), (0x30, 0x39), (0xB7, 0xB7), (0x300, 0x36F), (0x203F, 0x2040)]

def inRanges (ranges : List (Nat × Nat)) (c : Char) : Bool :=
  ranges.any fun range => range.1 ≤ c.toNat && c.toNat ≤ range.2

def isNameStart (c : Char) : Bool := inRanges nameStartRanges c

def isNameChar (c : Char) : Bool := inRanges nameStartRanges c || inRanges nameRanges c

def isName : List Char → Bool
  | [] => false
  | c :: rest => isNameStart c && rest.all isNameChar

def Blank (s : List Char) : Prop := ∀ c ∈ s, isSpace c = true

def quotes : List Char := "\"'".toList

/-- The end of a CDATA section, which character data cannot hold either. -/
def sectionEnd : List Char := "]]>".toList

def CharData (run : List Char) : Prop :=
  (∀ c ∈ run, isXmlChar c = true ∧ c ≠ '<' ∧ c ≠ '&') ∧ ¬sectionEnd <:+: run

/-- The entities every processor knows, and the characters they stand for. -/
def predefined : List (List Char × Nat) :=
  [("lt".toList, 60), ("gt".toList, 62), ("amp".toList, 38), ("apos".toList, 39),
    ("quot".toList, 34)]

/-- The value of the digits in a character reference. -/
def digitValue (base : Nat) (digits : List Char) : Option Nat :=
  digits.foldlM (fun n c =>
    let d := if c.isDigit then c.toNat - 48 else c.toLower.toNat - 87
    if c.isAlphanum ∧ d < base then some (base * n + d) else none) 0

inductive Reference : List Char → Char → Prop where
  | entity {name : List Char} {c : Char} (known : (name, c.toNat) ∈ predefined) :
      Reference ('&' :: (name ++ [';'])) c
  | decimal {digits : List Char} {c : Char} (nonempty : digits ≠ [])
      (value : digitValue 10 digits = some c.toNat) (valid : isXmlChar c = true) :
      Reference ('&' :: '#' :: (digits ++ [';'])) c
  | hexadecimal {digits : List Char} {c : Char} (nonempty : digits ≠ [])
      (value : digitValue 16 digits = some c.toNat) (valid : isXmlChar c = true) :
      Reference ('&' :: '#' :: 'x' :: (digits ++ [';'])) c

/-- What is between the quotes of an attribute. -/
inductive AttText (quote : Char) : List Char → Prop where
  | nil : AttText quote []
  | literal {c : Char} {rest : List Char} (valid : isXmlChar c = true)
      (plain : c ≠ '<' ∧ c ≠ '&' ∧ c ≠ quote) (behind : AttText quote rest) :
      AttText quote (c :: rest)
  | reference {r : List Char} {c : Char} {rest : List Char} (here : Reference r c)
      (behind : AttText quote rest) : AttText quote (r ++ rest)

/-- Attributes with their names, none of which is there twice. -/
inductive Attributes : List Char → List (List Char) → Prop where
  | nil : Attributes [] []
  | cons {space name before behind value rest : List Char} {quote : Char}
      {names : List (List Char)} (nonempty : space ≠ []) (blank : Blank (space ++ before ++ behind))
      (named : isName name = true) (new : name ∉ names) (quoted : quote ∈ quotes)
      (text : AttText quote value) (others : Attributes rest names) :
      Attributes (space ++ name ++ before ++ '=' :: behind ++ quote :: value ++ quote :: rest)
        (name :: names)

def StartTag (t name : List Char) : Prop :=
  ∃ attributes names space, isName name = true ∧ Attributes attributes names ∧ Blank space ∧
    t = '<' :: (name ++ attributes ++ space ++ ['>'])

def EmptyTag (t name : List Char) : Prop :=
  ∃ attributes names space, isName name = true ∧ Attributes attributes names ∧ Blank space ∧
    t = '<' :: (name ++ attributes ++ space ++ ['/', '>'])

def EndTag (t name : List Char) : Prop :=
  ∃ space, Blank space ∧ t = '<' :: '/' :: (name ++ space ++ ['>'])

def Comment (t : List Char) : Prop :=
  ∃ body, (∀ c ∈ body, isXmlChar c = true) ∧ ¬['-', '-'] <:+: body ++ ['-'] ∧
    t = '<' :: '!' :: ('-' :: '-' :: body ++ ['-', '-', '>'])

/-- A processing instruction. The target is not `xml` in any spelling. -/
def Instruction (t : List Char) : Prop :=
  ∃ target body, isName target = true ∧ target.map Char.toLower ≠ "xml".toList ∧
    (∀ c ∈ body, isXmlChar c = true) ∧ (∀ c ∈ body.head?, isSpace c = true) ∧
    ¬['?', '>'] <:+: body ∧ t = '<' :: '?' :: (target ++ body ++ ['?', '>'])

/-- A CDATA section, with what is in it. -/
def Section (t data : List Char) : Prop :=
  (∀ c ∈ data, isXmlChar c = true) ∧ ¬sectionEnd <:+: data ∧
    t = '<' :: '!' :: '[' :: ("CDATA[".toList ++ data ++ sectionEnd)

inductive Event where
  | start (name : List Char)
  | stop (name : List Char)
  | char (c : Char)
deriving DecidableEq

/-- The content of an element. In front of each item and behind the last one there is
one run of character data, which may be empty. -/
inductive Content : List Char → List Event → Prop where
  | text {run : List Char} (data : CharData run) : Content run (run.map .char)
  | element {run opening inner closing rest name : List Char} {events behind : List Event}
      (data : CharData run) (opens : StartTag opening name) (content : Content inner events)
      (closes : EndTag closing name) (more : Content rest behind) :
      Content (run ++ opening ++ inner ++ closing ++ rest)
        (run.map .char ++ .start name :: events ++ .stop name :: behind)
  | empty {run tag rest name : List Char} {behind : List Event} (data : CharData run)
      (tags : EmptyTag tag name) (more : Content rest behind) :
      Content (run ++ tag ++ rest) (run.map .char ++ .start name :: .stop name :: behind)
  | reference {run r rest : List Char} {c : Char} {behind : List Event} (data : CharData run)
      (refers : Reference r c) (more : Content rest behind) :
      Content (run ++ r ++ rest) (run.map .char ++ .char c :: behind)
  | cdata {run t inside rest : List Char} {behind : List Event} (data : CharData run)
      (holds : Section t inside) (more : Content rest behind) :
      Content (run ++ t ++ rest) (run.map .char ++ inside.map .char ++ behind)
  | comment {run t rest : List Char} {behind : List Event} (data : CharData run)
      (comments : Comment t) (more : Content rest behind) :
      Content (run ++ t ++ rest) (run.map .char ++ behind)
  | instruction {run t rest : List Char} {behind : List Event} (data : CharData run)
      (instructs : Instruction t) (more : Content rest behind) :
      Content (run ++ t ++ rest) (run.map .char ++ behind)

/-- The element a document consists of. -/
def Root (t : List Char) (events : List Event) : Prop :=
  (∃ opening inner closing name inside, StartTag opening name ∧ Content inner inside ∧
    EndTag closing name ∧ t = opening ++ inner ++ closing ∧
    events = .start name :: inside ++ [.stop name]) ∨
  ∃ name, EmptyTag t name ∧ events = [.start name, .stop name]

/-- What may stand around the root. -/
inductive Misc : List Char → Prop where
  | nil : Misc []
  | space {c : Char} {rest : List Char} (blank : isSpace c = true) (more : Misc rest) :
      Misc (c :: rest)
  | comment {t rest : List Char} (comments : Comment t) (more : Misc rest) : Misc (t ++ rest)
  | instruction {t rest : List Char} (instructs : Instruction t) (more : Misc rest) :
      Misc (t ++ rest)

/-- A part of the declaration in front of a document. -/
def DeclPart (key : List Char) (valid : List Char → Prop) (t : List Char) : Prop :=
  ∃ space before behind quote value, space ≠ [] ∧ Blank (space ++ before ++ behind) ∧
    quote ∈ quotes ∧ valid value ∧
    t = space ++ key ++ before ++ '=' :: behind ++ quote :: value ++ [quote]

def IsVersion (value : List Char) : Prop :=
  ∃ digits, digits ≠ [] ∧ (∀ c ∈ digits, c.isDigit = true) ∧ value = '1' :: '.' :: digits

def IsEncoding (value : List Char) : Prop :=
  ∃ first rest, first.isAlpha = true ∧
    (∀ c ∈ rest, (c.isAlphanum || c = '.' || c = '_' || c = '-') = true) ∧ value = first :: rest

def Declaration (t : List Char) : Prop :=
  ∃ version encoding standalone space, DeclPart "version".toList IsVersion version ∧
    (encoding = [] ∨ DeclPart "encoding".toList IsEncoding encoding) ∧
    (standalone = [] ∨ DeclPart "standalone".toList
      (fun value => value = "yes".toList ∨ value = "no".toList) standalone) ∧
    Blank space ∧
    t = "<?xml".toList ++ version ++ encoding ++ standalone ++ space ++ ['?', '>']

/-- The text is a well-formed document, and this is what is in it. -/
def Document (t : List Char) (events : List Event) : Prop :=
  ∃ declaration before root behind, (declaration = [] ∨ Declaration declaration) ∧
    Misc before ∧ Root root events ∧ Misc behind ∧ t = declaration ++ before ++ root ++ behind

/-! Slashes, ampersands, opening brackets and semicolons are counted. Every element needs a
slash, and what stands for data instead of being it needs more of them than it yields. -/

def mark (c : Char) : Nat := if c ∈ ['/', '&', '[', ';'] then 1 else 0

def marks (t : List Char) : Nat := (t.map mark).sum

def Event.marks : Event → Nat
  | .start _ => 1
  | .stop _ => 0
  | .char c => mark c

/-- The elements, and the marks in their data. -/
def eventMarks (events : List Event) : Nat := (events.map Event.marks).sum

@[simp] theorem marks_nil : marks [] = 0 := rfl

@[simp] theorem marks_cons (c : Char) (t : List Char) : marks (c :: t) = mark c + marks t := rfl

@[simp] theorem marks_append (t t' : List Char) : marks (t ++ t') = marks t + marks t' := by
  rw [marks, List.map_append, List.sum_append, marks, marks]

@[simp] theorem eventMarks_nil : eventMarks [] = 0 := rfl

@[simp] theorem eventMarks_cons (event : Event) (events : List Event) :
    eventMarks (event :: events) = event.marks + eventMarks events := rfl

@[simp] theorem eventMarks_append (events events' : List Event) :
    eventMarks (events ++ events') = eventMarks events + eventMarks events' := by
  rw [eventMarks, List.map_append, List.sum_append, eventMarks, eventMarks]

@[simp] theorem eventMarks_chars (t : List Char) : eventMarks (t.map .char) = marks t := by
  rw [eventMarks, List.map_map]
  rfl

theorem mark_le_one (c : Char) : mark c ≤ 1 := by
  rw [mark]
  split <;> omega

theorem Reference.two_le_marks {r : List Char} {c : Char} (h : Reference r c) : 2 ≤ marks r := by
  have hAmp : mark '&' = 1 := rfl
  have hSemi : mark ';' = 1 := rfl
  cases h with
  | entity known =>
      simp only [marks_cons, marks_append, marks_nil, hAmp, hSemi]
      omega
  | decimal nonempty value valid =>
      simp only [marks_cons, marks_append, marks_nil, hAmp, hSemi]
      omega
  | hexadecimal nonempty value valid =>
      simp only [marks_cons, marks_append, marks_nil, hAmp, hSemi]
      omega

theorem EndTag.one_le_marks {t name : List Char} (h : EndTag t name) : 1 ≤ marks t := by
  obtain ⟨space, -, rfl⟩ := h
  have hSlash : mark '/' = 1 := rfl
  simp only [marks_cons, hSlash]
  omega

theorem EmptyTag.one_le_marks {t name : List Char} (h : EmptyTag t name) : 1 ≤ marks t := by
  obtain ⟨attributes, names, space, -, -, -, rfl⟩ := h
  have hSlash : mark '/' = 1 := rfl
  simp only [marks_cons, marks_append, marks_nil, hSlash]
  omega

theorem Section.marks {t data : List Char} (h : Section t data) : marks data + 2 ≤ Xml.marks t := by
  obtain ⟨-, -, rfl⟩ := h
  have hBracket : mark '[' = 1 := rfl
  have hCdata : Xml.marks "CDATA[".toList = 1 := rfl
  simp only [marks_cons, marks_append, hBracket, hCdata]
  omega

theorem Content.marks_le {t : List Char} {events : List Event} (h : Content t events) :
    eventMarks events ≤ marks t := by
  induction h with
  | text data => exact Nat.le_of_eq (eventMarks_chars _)
  | element data opens content closes more ihInner ihRest =>
      have hCloses := closes.one_le_marks
      simp only [marks_append, eventMarks_append, eventMarks_chars, eventMarks_cons, Event.marks]
      omega
  | empty data tags more ih =>
      have hTags := tags.one_le_marks
      simp only [marks_append, eventMarks_append, eventMarks_chars, eventMarks_cons, Event.marks]
      omega
  | @reference _ _ _ c _ data refers more ih =>
      have hRefers := refers.two_le_marks
      have hOne := mark_le_one c
      simp only [marks_append, eventMarks_append, eventMarks_chars, eventMarks_cons, Event.marks]
      omega
  | cdata data holds more ih =>
      have hHolds := holds.marks
      simp only [marks_append, eventMarks_append, eventMarks_chars]
      omega
  | comment data comments more ih =>
      simp only [marks_append, eventMarks_append, eventMarks_chars]
      omega
  | instruction data instructs more ih =>
      simp only [marks_append, eventMarks_append, eventMarks_chars]
      omega

/-- Content in which all data stands for itself. -/
inductive Plain : List Char → List Event → Prop where
  | text {run : List Char} (data : CharData run) : Plain run (run.map .char)
  | element {run opening inner closing rest name : List Char} {events behind : List Event}
      (data : CharData run) (content : Plain inner events) (more : Plain rest behind) :
      Plain (run ++ opening ++ inner ++ closing ++ rest)
        (run.map .char ++ .start name :: events ++ .stop name :: behind)
  | empty {run tag rest name : List Char} {behind : List Event} (data : CharData run)
      (more : Plain rest behind) :
      Plain (run ++ tag ++ rest) (run.map .char ++ .start name :: .stop name :: behind)
  | passed {run t rest : List Char} {behind : List Event} (data : CharData run)
      (passes : ['<', '!'] <+: t ∨ ['<', '?'] <+: t) (more : Plain rest behind) :
      Plain (run ++ t ++ rest) (run.map .char ++ behind)

/-- Without a mark to spare, all data stands for itself. -/
theorem Content.plain {t : List Char} {events : List Event} (h : Content t events)
    (hMarks : marks t ≤ eventMarks events) : Plain t events := by
  induction h with
  | text data => exact Plain.text data
  | element data opens content closes more ihInner ihRest =>
      have hCloses := closes.one_le_marks
      have hInner := content.marks_le
      have hRest := more.marks_le
      simp only [marks_append, eventMarks_append, eventMarks_chars, eventMarks_cons,
        Event.marks] at hMarks
      exact Plain.element data (ihInner (by omega)) (ihRest (by omega))
  | empty data tags more ih =>
      have hTags := tags.one_le_marks
      simp only [marks_append, eventMarks_append, eventMarks_chars, eventMarks_cons,
        Event.marks] at hMarks
      exact Plain.empty data (ih (by omega))
  | @reference _ _ _ c _ data refers more ih =>
      have hRefers := refers.two_le_marks
      have hOne := mark_le_one c
      have hRest := more.marks_le
      simp only [marks_append, eventMarks_append, eventMarks_chars, eventMarks_cons,
        Event.marks] at hMarks
      omega
  | cdata data holds more ih =>
      have hHolds := holds.marks
      have hRest := more.marks_le
      simp only [marks_append, eventMarks_append, eventMarks_chars] at hMarks
      omega
  | comment data comments more ih =>
      obtain ⟨body, -, -, rfl⟩ := comments
      simp only [marks_append, eventMarks_append, eventMarks_chars] at hMarks
      exact Plain.passed data (Or.inl ⟨_, rfl⟩) (ih (by omega))
  | instruction data instructs more ih =>
      obtain ⟨target, body, -, -, -, -, -, rfl⟩ := instructs
      simp only [marks_append, eventMarks_append, eventMarks_chars] at hMarks
      exact Plain.passed data (Or.inr ⟨_, rfl⟩) (ih (by omega))

theorem Plain.literal {t : List Char} {events : List Event} (h : Plain t events) {c : Char}
    (hMem : .char c ∈ events) : c ≠ '<' ∧ c ≠ '&' := by
  have hRun {run : List Char} (data : CharData run) (hChar : .char c ∈ run.map Event.char) :
      c ≠ '<' ∧ c ≠ '&' := by
    obtain ⟨d, hD, hSame⟩ := List.mem_map.mp hChar
    obtain rfl := Event.char.inj hSame
    exact (data.1 d hD).2
  induction h with
  | text data => exact hRun data hMem
  | element data content more ihInner ihRest =>
      simp only [List.mem_append, List.mem_cons, reduceCtorEq, false_or, List.append_assoc,
        List.cons_append] at hMem
      rcases hMem with hHere | hInner | hRest
      · exact hRun data hHere
      · exact ihInner hInner
      · exact ihRest hRest
  | empty data more ih =>
      simp only [List.mem_append, List.mem_cons, reduceCtorEq, false_or] at hMem
      rcases hMem with hHere | hRest
      · exact hRun data hHere
      · exact ih hRest
  | passed data passes more ih =>
      rcases List.mem_append.mp hMem with hHere | hRest
      · exact hRun data hHere
      · exact ih hRest

/-- Characters that stand together in the events do so in the text. -/
theorem infix_chars {t run : List Char} (h : t.map Event.char <:+: run.map Event.char) :
    t <:+: run := by
  have hBack (s : List Char) : (s.map Event.char).filterMap (fun
      | .char c => some c
      | _ => none) = s := by
    rw [List.filterMap_map]
    exact List.filterMap_some
  rw [← hBack t, ← hBack run]
  exact h.filterMap _

theorem start_notMem_chars (name t : List Char) : Event.start name ∉ t.map Event.char := by
  simp

theorem stop_notMem_chars (name t : List Char) : Event.stop name ∉ t.map Event.char := by
  simp

/-- Without comments and processing instructions the end of a section is nowhere in the
data: it would be in one run of characters. -/
theorem Plain.no_sectionEnd {t : List Char} {events : List Event} (h : Plain t events)
    (hComment : ¬['<', '!'] <:+: t) (hInstruction : ¬['<', '?'] <:+: t) :
    ¬sectionEnd.map Event.char <:+: events := by
  have hSome : sectionEnd.map Event.char ≠ [] := List.cons_ne_nil _ _
  intro hInfix
  induction h with
  | text data => exact data.2 (infix_chars hInfix)
  | @element run opening inner closing rest name events behind data content more ihInner ihRest =>
      have hInner : inner <:+: run ++ opening ++ inner ++ closing ++ rest :=
        ⟨run ++ opening, closing ++ rest, by simp only [List.append_assoc]⟩
      have hRest : rest <:+: run ++ opening ++ inner ++ closing ++ rest :=
        (List.suffix_append _ rest).isInfix
      rw [List.append_assoc, List.cons_append] at hInfix
      rcases infix_of_notMem hSome (start_notMem_chars name _) hInfix with hHere | hInfix
      · exact data.2 (infix_chars hHere)
      · rcases infix_of_notMem hSome (stop_notMem_chars name _) hInfix with hHere | hBehind
        · exact ihInner (fun h => hComment (h.trans hInner))
            (fun h => hInstruction (h.trans hInner)) hHere
        · exact ihRest (fun h => hComment (h.trans hRest))
            (fun h => hInstruction (h.trans hRest)) hBehind
  | @empty run tag rest name behind data more ih =>
      have hRest : rest <:+: run ++ tag ++ rest := (List.suffix_append _ rest).isInfix
      rcases infix_of_notMem hSome (start_notMem_chars name _) hInfix with hHere | hInfix
      · exact data.2 (infix_chars hHere)
      · rw [infix_cons_of_notMem hSome (stop_notMem_chars name _)] at hInfix
        exact ih (fun h => hComment (h.trans hRest)) (fun h => hInstruction (h.trans hRest)) hInfix
  | @passed run t rest behind data passes more ih =>
      have hHere : t <:+: run ++ t ++ rest := List.infix_append run t rest
      rcases passes with hStart | hStart
      · exact hComment (hStart.isInfix.trans hHere)
      · exact hInstruction (hStart.isInfix.trans hHere)

/-- In a document with data and without a mark to spare, the content of the root is plain. -/
theorem Document.plain {t : List Char} {events : List Event} (h : Document t events)
    (hMarks : marks t ≤ eventMarks events) {c : Char} (hMem : .char c ∈ events) :
    ∃ front inner behind name inside, t = front ++ (inner ++ behind) ∧ front ≠ [] ∧
      Plain inner inside ∧ events = .start name :: (inside ++ [.stop name]) := by
  obtain ⟨declaration, before, root, after, -, -, hRoot, -, rfl⟩ := h
  rcases hRoot with ⟨opening, inner, closing, name, inside, hOpens, hInner, hCloses, rfl, rfl⟩ |
    ⟨name, -, rfl⟩
  · have hSlash := hCloses.one_le_marks
    simp only [marks_append, eventMarks_append, List.cons_append, eventMarks_cons, eventMarks_nil,
      Event.marks] at hMarks
    have hPlain := hInner.plain (by omega)
    obtain ⟨attributes, names, space, -, -, -, rfl⟩ := hOpens
    refine ⟨declaration ++ before ++ '<' :: (name ++ attributes ++ space ++ ['>']), inner,
      closing ++ after, name, inside, ?_, ?_, hPlain, rfl⟩
    · simp only [List.append_assoc, List.cons_append]
    · exact List.append_ne_nil_of_right_ne_nil _ (List.cons_ne_nil _ _)
  · simp at hMem

theorem Document.literal {t : List Char} {events : List Event} (h : Document t events)
    (hMarks : marks t ≤ eventMarks events) {c : Char} (hMem : .char c ∈ events) :
    c ≠ '<' ∧ c ≠ '&' := by
  obtain ⟨front, inner, behind, name, inside, -, -, hPlain, rfl⟩ := h.plain hMarks hMem
  apply hPlain.literal
  simpa using hMem

theorem Document.no_sectionEnd {t : List Char} {events : List Event} (h : Document t events)
    (hMarks : marks t ≤ eventMarks events) (hComment : ¬['<', '!'] <:+: t.tail)
    (hInstruction : ¬['<', '?'] <:+: t.tail) : ¬sectionEnd.map Event.char <:+: events := by
  intro hInfix
  have hMem : .char ']' ∈ events := hInfix.subset List.mem_cons_self
  obtain ⟨front, inner, behind, name, inside, rfl, hFront, hPlain, rfl⟩ := h.plain hMarks hMem
  have hInner : inner <:+: (front ++ (inner ++ behind)).tail := by
    rw [List.tail_append_of_ne_nil hFront, ← List.append_assoc]
    exact List.infix_append _ _ _
  have hNoEnd := hPlain.no_sectionEnd (fun h => hComment (h.trans hInner))
    (fun h => hInstruction (h.trans hInner))
  have hSome : sectionEnd.map Event.char ≠ [] := List.cons_ne_nil _ _
  rw [infix_cons_of_notMem hSome (start_notMem_chars name _)] at hInfix
  rcases infix_of_notMem hSome (stop_notMem_chars name _) hInfix with hInside | hNil
  · exact hNoEnd hInside
  · exact hSome (List.eq_nil_of_infix_nil hNil)

/-! Elements one behind the other, as they are written on lines of their own. -/

/-- What an element with this content is read as. -/
def node (name : List Char) (inside : List Event) : List Event :=
  .start name :: (inside ++ [.stop name])

/-- These elements, with nothing but white space around them. -/
inductive Children : List (List Event) → List Event → Prop where
  | last {space : List Char} (blank : Blank space) : Children [] (space.map .char)
  | next {space : List Char} {element rest : List Event} {elements : List (List Event)}
      (blank : Blank space) (more : Children elements rest) :
      Children (element :: elements) (space.map .char ++ (element ++ rest))

/-- An element without attributes and the end of its line. -/
def lineOf (name inner : List Char) : List Char :=
  '<' :: (name ++ '>' :: (inner ++ '<' :: '/' :: (name ++ ['>', '\n'])))

theorem marks_space {space : List Char} (h : Blank space) : marks space = 0 := by
  apply List.sum_eq_zero
  intro n hMem
  obtain ⟨c, hC, rfl⟩ := List.mem_map.mp hMem
  have hSpace := h c hC
  simp only [isSpace, Bool.or_eq_true, decide_eq_true_eq] at hSpace
  rcases hSpace with ((rfl | rfl) | rfl) | rfl <;> rfl

theorem Children.eventMarks {elements : List (List Event)} {events : List Event}
    (h : Children elements events) :
    eventMarks events = (elements.map Xml.eventMarks).sum := by
  induction h with
  | last blank => rw [eventMarks_chars, marks_space blank, List.map_nil, List.sum_nil]
  | next blank more ih =>
      rw [eventMarks_append, eventMarks_chars, marks_space blank, eventMarks_append, ih,
        Nat.zero_add, List.map_cons, List.sum_cons]

theorem Children.isInfix {elements : List (List Event)} {events element : List Event}
    (h : Children elements events) (hMem : element ∈ elements) : element <:+: events := by
  induction h with
  | last blank => cases hMem
  | @next space here rest elements blank more ih =>
      rcases List.mem_cons.mp hMem with rfl | hRest
      · rw [← List.append_assoc]
        exact List.infix_append _ _ _
      · rw [← List.append_assoc]
        exact (ih hRest).trans (List.suffix_append _ rest).isInfix

theorem eventMarks_node (name : List Char) (inside : List Event) :
    eventMarks (node name inside) = 1 + eventMarks inside := by
  rw [node, eventMarks_cons, eventMarks_append, eventMarks_cons, eventMarks_nil]
  rfl

theorem marks_lineOf {name : List Char} (hName : marks name = 0) (inner : List Char) :
    marks (lineOf name inner) = 1 + marks inner := by
  simp only [lineOf, marks_cons, marks_append, marks_nil, hName]
  have hOpen : mark '<' = 0 := rfl
  have hClose : mark '>' = 0 := rfl
  have hSlash : mark '/' = 1 := rfl
  have hBreak : mark '\n' = 0 := rfl
  omega

/-- Lines of elements are content, and are read as these elements. -/
theorem content_children {α : Type*} (items : List α) (name inner : α → List Char)
    (inside : α → List Event) (hName : ∀ item ∈ items, isName (name item) = true)
    (hInner : ∀ item ∈ items, Content (inner item) (inside item)) :
    ∃ events,
      Content ('\n' :: items.flatMap fun item => lineOf (name item) (inner item)) events ∧
      Children (items.map fun item => node (name item) (inside item)) events := by
  have hBreak : CharData ['\n'] := by
    refine ⟨?_, by decide⟩
    intro c hC
    rw [List.mem_singleton.mp hC]
    decide
  have hBlank : Blank ['\n'] := by
    intro c hC
    rw [List.mem_singleton.mp hC]
    rfl
  induction items with
  | nil => exact ⟨_, Content.text hBreak, Children.last hBlank⟩
  | cons item items ih =>
      rw [List.forall_mem_cons] at hName hInner
      obtain ⟨events, hContent, hChildren⟩ := ih hName.2 hInner.2
      refine ⟨_, ?_, Children.next hBlank hChildren⟩
      have hOpens : StartTag ('<' :: (name item ++ ['>'])) (name item) :=
        ⟨[], [], [], hName.1, Attributes.nil, fun c hC => (by cases hC), by simp⟩
      have hCloses : EndTag ('<' :: '/' :: (name item ++ ['>'])) (name item) :=
        ⟨[], fun c hC => (by cases hC), by simp⟩
      have hElement := Content.element hBreak hOpens hInner.1 hCloses hContent
      simpa [lineOf, node] using hElement

/-- Lines of elements have the marks of what they are read as. -/
theorem Children.marks_lines {α : Type*} {items : List α} {name inner : α → List Char}
    {inside : α → List Event} {events : List Event}
    (h : Children (items.map fun item => node (name item) (inside item)) events)
    (hName : ∀ item ∈ items, marks (name item) = 0)
    (hInside : ∀ item ∈ items, Xml.eventMarks (inside item) = marks (inner item)) :
    Xml.eventMarks events =
      marks ('\n' :: items.flatMap fun item => lineOf (name item) (inner item)) := by
  rw [h.eventMarks, List.map_map]
  have hLines : marks ('\n' :: items.flatMap fun item => lineOf (name item) (inner item)) =
      marks (items.flatMap fun item => lineOf (name item) (inner item)) := Nat.zero_add _
  rw [hLines]
  clear h hLines
  induction items with
  | nil => rfl
  | cons item items ih =>
      rw [List.forall_mem_cons] at hName hInside
      rw [List.map_cons, List.sum_cons, ih hName.2 hInside.2, List.flatMap_cons, marks_append,
        marks_lineOf hName.1, Function.comp_apply, eventMarks_node, hInside.1]

/-- Behind each opening bracket the text goes on, and not with a mark of exclamation or a
question mark. -/
def opensTags : List Char → Bool
  | [] => true
  | c :: rest => (c ≠ '<' || rest.head?.any fun d => d ≠ '!' && d ≠ '?') && opensTags rest

theorem opensTags_append {t t' : List Char} (h : opensTags t = true) (h' : opensTags t' = true) :
    opensTags (t ++ t') = true := by
  induction t with
  | nil => exact h'
  | cons c t ih =>
      rw [opensTags, Bool.and_eq_true] at h
      rw [List.cons_append, opensTags, Bool.and_eq_true]
      refine ⟨?_, ih h.2⟩
      cases t with
      | nil =>
          have hC := h.1
          rw [List.head?_nil, Option.any_none, Bool.or_false] at hC
          rw [hC]
          exact Bool.true_or _
      | cons d t => exact h.1

theorem opensTags_of_notMem {t : List Char} (h : '<' ∉ t) : opensTags t = true := by
  induction t with
  | nil => rfl
  | cons c t ih =>
      rw [List.mem_cons, not_or] at h
      rw [opensTags, ih h.2]
      simp [Ne.symm h.1]

theorem opensTags_flatMap {α : Type*} {items : List α} {f : α → List Char}
    (h : ∀ item ∈ items, opensTags (f item) = true) : opensTags (items.flatMap f) = true := by
  induction items with
  | nil => rfl
  | cons item items ih =>
      rw [List.forall_mem_cons] at h
      exact opensTags_append h.1 (ih h.2)

theorem opensTags_lineOf {name inner : List Char}
    (hOpens : opensTags ('<' :: (name ++ ['>'])) = true)
    (hCloses : opensTags ('<' :: '/' :: (name ++ ['>', '\n'])) = true)
    (hInner : opensTags inner = true) : opensTags (lineOf name inner) = true := by
  have hLine : lineOf name inner =
      '<' :: (name ++ ['>']) ++ (inner ++ '<' :: '/' :: (name ++ ['>', '\n'])) := by
    simp [lineOf]
  rw [hLine]
  exact opensTags_append hOpens (opensTags_append hInner hCloses)

/-- So there are no comments, sections and instructions. -/
theorem not_infix_of_opensTags {t : List Char} (h : opensTags t = true) {c : Char}
    (hC : c = '!' ∨ c = '?') : ¬['<', c] <:+: t := by
  induction t with
  | nil => exact fun hInfix => absurd (List.eq_nil_of_infix_nil hInfix) (List.cons_ne_nil _ _)
  | cons d t ih =>
      intro hInfix
      rw [opensTags, Bool.and_eq_true] at h
      rcases List.infix_cons_iff.mp hInfix with hPrefix | hRest
      · rw [List.cons_prefix_cons] at hPrefix
        obtain ⟨rfl, tail, rfl⟩ := hPrefix
        rcases hC with rfl | rfl
        · exact absurd h.1 (by simp)
        · exact absurd h.1 (by simp)
      · exact ih h.2 hRest

end Xml
