import MonitoringPlug.Curl.Body
import MonitoringPlug.Lib.Scanner
import MonitoringPlug.Lib.Xml

/-! `notify_aspsms`: the request that is put together for the gateway, as the XML document
the gateway reads it as. -/
namespace MonitoringPlug.Notify

open CMemory Scanner Xml MonitoringPlug.Curl.Body

/-- The arguments, and the rendered message. -/
structure Request where
  userkey : List UInt8
  password : List UInt8
  originator : Option (List UInt8)
  number : List (List UInt8)
  out : List UInt8

/-- `contents` points to an object, of which so many bytes are taken. There have to be
as many. -/
def chunkOf (contents : List UInt8) (nmemb : UInt64) : Option Chunk :=
  if h : nmemb.toNat ≤ contents.length then
    some { size := 1, nmemb := nmemb, contents := contents.take nmemb.toNat
           whole := by rw [List.length_take_of_le h, UInt64.one_mul] }
  else none

/-- `mp_curl_recv_data` with a literal and the number of its bytes. -/
def recvLiteral (literal : List UInt8) (nmemb : UInt64) (query : MpCurlData) :
    Option MpCurlData := do
  let chunk ← chunkOf (literal ++ [0]) nmemb
  let (_, query) ← mpCurlRecvData chunk query
  some query

/-- `mp_curl_recv_data` with what was printed into `buf`, and `strlen(buf)`. -/
def recvText (buf : List UInt8) (query : MpCurlData) : Option MpCurlData :=
  recvLiteral buf (UInt64.ofNat buf.length) query

def startText : List UInt8 :=
  ascii "<?xml version=\"1.0\" encoding=\"ISO-8859-1\"?>\n<aspsms>\n"

def userText (userkey password : List UInt8) : List UInt8 :=
  ascii "<Userkey>" ++ userkey ++ ascii "</Userkey>\n<Password>" ++ password ++
    ascii "</Password>\n"

def originatorText (originator : List UInt8) : List UInt8 :=
  ascii "<Originator>" ++ originator ++ ascii "</Originator>\n"

def recipientText : List UInt8 := ascii "<Recipient>\n"

def numberText (number : List UInt8) : List UInt8 :=
  ascii "<PhoneNumber>" ++ number ++ ascii "</PhoneNumber>\n"

def recipientEnd : List UInt8 := ascii "</Recipient>\n"

def messageText (out : List UInt8) : List UInt8 :=
  ascii "<MessageData>" ++ out ++
    ascii "</MessageData>\n<Action>SendTextSMS</Action>\n</aspsms>\n"

/-- The block under `if (from)`. -/
def recvOriginator (originator : Option (List UInt8)) (query : MpCurlData) : Option MpCurlData :=
  match originator with
  | none => some query
  | some originator => recvText (originatorText originator) query

/-- `main` from the rendered message to the request that is sent. -/
def buildQuery (r : Request) : Option MpCurlData := do
  let query ← recvLiteral startText 53 { data := [], start := 0, size := 0 }
  let query ← recvText (userText r.userkey r.password) query
  let query ← recvOriginator r.originator query
  let query ← recvLiteral recipientText 12 query
  let query ← r.number.foldlM (fun query number => recvText (numberText number) query) query
  let query ← recvLiteral recipientEnd 13 query
  recvText (messageText r.out) query

/-- The request as it should come out of this. -/
def requestBytes (r : Request) : List UInt8 :=
  startText ++ userText r.userkey r.password ++
    r.originator.toList.flatMap originatorText ++ recipientText ++
    r.number.flatMap numberText ++ recipientEnd ++ messageText r.out

def Request.values (r : Request) : List (List UInt8) :=
  r.userkey :: r.password :: r.originator.toList ++ r.number ++ [r.out]

/-- Strings without control characters, which fit into memory together. -/
structure Sendable where
  request : Request
  printable : ∀ value ∈ request.values, ∀ b ∈ value, 32 ≤ b ∧ b ≠ 127
  fits : (requestBytes request).length + 1 < UInt64.size

/-- A byte in the encoding the request declares. -/
def latin1 (b : UInt8) : Char := Char.ofNat b.toNat

def text (bytes : List UInt8) : List Char := bytes.map latin1

/-- An element with nothing but these characters in it. -/
def leaf (name : String) (value : List UInt8) : List Event :=
  node name.toList ((text value).map .char)

/-- The request is read as its elements with these values, white space around them apart. -/
def ReadsAs (r : Request) (events : List Event) : Prop :=
  ∃ numbers children, Children (r.number.map (leaf "PhoneNumber")) numbers ∧
    Children ([leaf "Userkey" r.userkey, leaf "Password" r.password] ++
      r.originator.toList.map (leaf "Originator") ++
      [node "Recipient".toList numbers, leaf "MessageData" r.out,
        leaf "Action" (ascii "SendTextSMS")]) children ∧
    events = node "aspsms".toList children

/-- The request is a document, and it is read as what was to be sent. -/
def CarriesRequest (r : Request) : Prop :=
  ∃ query bytes events, buildQuery r = some query ∧
    loadBytes query.data 0 query.size.toNat = some bytes ∧ Document (text bytes) events ∧
    ReadsAs r events

/-- The bytes that are in the body so far. -/
def Gathered (query : MpCurlData) (bytes : List UInt8) : Prop :=
  ∃ calls sent, Tracks calls query sent ∧ received calls = bytes

theorem recvLiteral_gathers {query : MpCurlData} {bytes : List UInt8} (literal : List UInt8)
    (nmemb : UInt64) (h : Gathered query bytes) (hLength : nmemb.toNat = literal.length)
    (hFits : bytes.length + literal.length + 1 < UInt64.size) :
    ∃ query', recvLiteral literal nmemb query = some query' ∧
      Gathered query' (bytes ++ literal) := by
  obtain ⟨calls, sent, hTracks, rfl⟩ := h
  have hInside : nmemb.toNat ≤ (literal ++ [0]).length := by
    rw [hLength, List.length_append]
    exact Nat.le_add_right _ _
  have hTake : (literal ++ [0]).take nmemb.toNat = literal := by
    rw [hLength]
    exact List.take_left
  have hChunk : ∃ chunk, chunkOf (literal ++ [0]) nmemb = some chunk ∧
      chunk.contents = literal := by
    rw [chunkOf, dif_pos hInside]
    exact ⟨_, rfl, hTake⟩
  obtain ⟨chunk, hChunk, rfl⟩ := hChunk
  obtain ⟨query', hRecv, hNext⟩ := hTracks.recv chunk hFits
  refine ⟨query', ?_, _, sent, hNext, received_snoc calls _⟩
  rw [recvLiteral, hChunk]
  simp only [Option.bind_eq_bind, Option.bind_some, hRecv]

theorem recvText_gathers {query : MpCurlData} {bytes : List UInt8} (buf : List UInt8)
    (h : Gathered query bytes)
    (hFits : bytes.length + buf.length + 1 < UInt64.size) :
    ∃ query', recvText buf query = some query' ∧ Gathered query' (bytes ++ buf) := by
  apply recvLiteral_gathers buf _ h _ hFits
  exact UInt64.toNat_ofNat_of_lt (by omega)

theorem recvOriginator_gathers {query : MpCurlData} {bytes : List UInt8}
    (h : Gathered query bytes) (originator : Option (List UInt8))
    (hFits : bytes.length + (originator.toList.flatMap originatorText).length + 1 <
      UInt64.size) :
    ∃ query', recvOriginator originator query = some query' ∧
      Gathered query' (bytes ++ originator.toList.flatMap originatorText) := by
  cases originator with
  | none => exact ⟨query, rfl, (List.append_nil bytes).symm ▸ h⟩
  | some originator =>
      rw [Option.toList_some, List.flatMap_singleton] at hFits ⊢
      exact recvText_gathers _ h hFits

theorem recvNumbers_gathers {query : MpCurlData} {bytes : List UInt8} (h : Gathered query bytes)
    (number : List (List UInt8))
    (hFits : bytes.length + (number.flatMap numberText).length + 1 < UInt64.size) :
    ∃ query', number.foldlM (fun query number => recvText (numberText number) query) query =
        some query' ∧
      Gathered query' (bytes ++ number.flatMap numberText) := by
  induction number generalizing query bytes with
  | nil => exact ⟨query, rfl, (List.append_nil bytes).symm ▸ h⟩
  | cons first number ih =>
      rw [List.flatMap_cons, List.length_append] at hFits
      obtain ⟨middle, hFirst, hMiddle⟩ := recvText_gathers (numberText first) h
        (by omega)
      obtain ⟨query', hRest, hNext⟩ := ih hMiddle (by rw [List.length_append]; omega)
      rw [List.append_assoc, ← List.flatMap_cons] at hNext
      refine ⟨query', ?_, hNext⟩
      rw [List.foldlM_cons, hFirst]
      exact hRest

/-- All parts are taken whole: the counts of the literals are their lengths. -/
theorem buildQuery_gathers (r : Request) (hFits : (requestBytes r).length + 1 < UInt64.size) :
    ∃ query, buildQuery r = some query ∧ Gathered query (requestBytes r) := by
  have hStart : Gathered { data := [], start := 0, size := 0 } [] := by
    obtain ⟨data, sent, hRun, hTracks⟩ := tracks_runCalls [] (by decide)
    obtain ⟨rfl, rfl⟩ := Prod.mk.inj (Option.some.inj hRun)
    exact ⟨[], _, hTracks, rfl⟩
  simp only [requestBytes, List.length_append] at hFits
  obtain ⟨q₁, h₁, hGathered₁⟩ := recvLiteral_gathers startText 53 hStart rfl
    (by simp only [List.length_nil]; omega)
  obtain ⟨q₂, h₂, hGathered₂⟩ := recvText_gathers (userText r.userkey r.password) hGathered₁
    (by simp only [List.nil_append]; omega)
  obtain ⟨q₃, h₃, hGathered₃⟩ := recvOriginator_gathers hGathered₂ r.originator
    (by simp only [List.nil_append, List.length_append]; omega)
  obtain ⟨q₄, h₄, hGathered₄⟩ := recvLiteral_gathers recipientText 12 hGathered₃ rfl
    (by simp only [List.nil_append, List.length_append]; omega)
  obtain ⟨q₅, h₅, hGathered₅⟩ := recvNumbers_gathers hGathered₄ r.number
    (by simp only [List.nil_append, List.length_append]; omega)
  obtain ⟨q₆, h₆, hGathered₆⟩ := recvLiteral_gathers recipientEnd 13 hGathered₅ rfl
    (by simp only [List.nil_append, List.length_append]; omega)
  obtain ⟨q₇, h₇, hGathered₇⟩ := recvText_gathers (messageText r.out) hGathered₆
    (by simp only [List.nil_append, List.length_append]; omega)
  refine ⟨q₇, ?_, hGathered₇⟩
  simp only [buildQuery, h₁, h₂, h₃, h₄, h₅, h₆, h₇, Option.bind_eq_bind, Option.bind_some]

theorem Gathered.load {query : MpCurlData} {bytes : List UInt8} (h : Gathered query bytes) :
    loadBytes query.data 0 query.size.toNat = some bytes := by
  obtain ⟨calls, sent, hTracks, rfl⟩ := h
  rw [hTracks.size]
  have hHolds : Holds query.data ([] ++ (received calls ++ [])) := by
    rw [List.nil_append, List.append_nil]
    exact hTracks.holds
  exact hHolds.loadBytes

/-! The request line by line. -/

/-- An element on a line of its own, and what is in it. -/
structure Line where
  name : List Char
  inner : List Char
  inside : List Event

def leafLine (name : String) (value : List UInt8) : Line :=
  { name := name.toList, inner := text value, inside := (text value).map .char }

def textOf (lines : List Line) : List Char :=
  '\n' :: lines.flatMap fun line => lineOf line.name line.inner

def numberLines (r : Request) : List Line := r.number.map (leafLine "PhoneNumber")

/-- The lines inside of `aspsms`, where the numbers are read as these events. -/
def requestLines (r : Request) (numbers : List Event) : List Line :=
  [leafLine "Userkey" r.userkey, leafLine "Password" r.password] ++
    r.originator.toList.map (leafLine "Originator") ++
    [{ name := "Recipient".toList, inner := textOf (numberLines r), inside := numbers },
      leafLine "MessageData" r.out, leafLine "Action" (ascii "SendTextSMS")]

def declarationText : List Char := "<?xml version=\"1.0\" encoding=\"ISO-8859-1\"?>".toList

theorem text_append (bytes bytes' : List UInt8) :
    text (bytes ++ bytes') = text bytes ++ text bytes' :=
  List.map_append

theorem text_userText (userkey password : List UInt8) :
    text (userText userkey password) =
      lineOf "Userkey".toList (text userkey) ++ lineOf "Password".toList (text password) := by
  have hFirst : text (ascii "<Userkey>") = '<' :: ("Userkey".toList ++ ['>']) := rfl
  have hMiddle : text (ascii "</Userkey>\n<Password>") =
      '<' :: '/' :: ("Userkey".toList ++ ['>', '\n']) ++ '<' :: ("Password".toList ++ ['>']) := rfl
  have hLast : text (ascii "</Password>\n") =
      '<' :: '/' :: ("Password".toList ++ ['>', '\n']) := rfl
  simp only [userText, text_append, hFirst, hMiddle, hLast, lineOf, List.append_assoc,
    List.cons_append, List.nil_append]

theorem text_originatorText (originator : List UInt8) :
    text (originatorText originator) = lineOf "Originator".toList (text originator) := by
  have hFirst : text (ascii "<Originator>") = '<' :: ("Originator".toList ++ ['>']) := rfl
  have hLast : text (ascii "</Originator>\n") =
      '<' :: '/' :: ("Originator".toList ++ ['>', '\n']) := rfl
  simp only [originatorText, text_append, hFirst, hLast, lineOf, List.append_assoc,
    List.cons_append, List.nil_append]

theorem text_numberText (number : List UInt8) :
    text (numberText number) = lineOf "PhoneNumber".toList (text number) := by
  have hFirst : text (ascii "<PhoneNumber>") = '<' :: ("PhoneNumber".toList ++ ['>']) := rfl
  have hLast : text (ascii "</PhoneNumber>\n") =
      '<' :: '/' :: ("PhoneNumber".toList ++ ['>', '\n']) := rfl
  simp only [numberText, text_append, hFirst, hLast, lineOf, List.append_assoc,
    List.cons_append, List.nil_append]

theorem text_messageText (out : List UInt8) :
    text (messageText out) =
      lineOf "MessageData".toList (text out) ++
        (lineOf "Action".toList (text (ascii "SendTextSMS")) ++
          '<' :: '/' :: ("aspsms".toList ++ ['>', '\n'])) := by
  have hFirst : text (ascii "<MessageData>") = '<' :: ("MessageData".toList ++ ['>']) := rfl
  have hLast : text (ascii "</MessageData>\n<Action>SendTextSMS</Action>\n</aspsms>\n") =
      '<' :: '/' :: ("MessageData".toList ++ ['>', '\n']) ++
        (lineOf "Action".toList (text (ascii "SendTextSMS")) ++
          '<' :: '/' :: ("aspsms".toList ++ ['>', '\n'])) := rfl
  simp only [messageText, text_append, hFirst, hLast, lineOf, List.append_assoc, List.cons_append,
    List.nil_append]

theorem text_flatMap {α : Type} (items : List α) (f : α → List UInt8) :
    text (items.flatMap f) = items.flatMap fun item => text (f item) :=
  List.map_flatMap ..

/-- The request is the declaration, and one element on lines of their own. -/
theorem text_requestBytes (r : Request) (numbers : List Event) :
    text (requestBytes r) =
      declarationText ++ '\n' :: lineOf "aspsms".toList (textOf (requestLines r numbers)) := by
  have hStart : text startText =
      declarationText ++ '\n' :: '<' :: ("aspsms".toList ++ ['>', '\n']) := rfl
  have hRecipient : text recipientText = '<' :: ("Recipient".toList ++ ['>', '\n']) := rfl
  have hEnd : text recipientEnd = '<' :: '/' :: ("Recipient".toList ++ ['>', '\n']) := rfl
  simp only [requestBytes, text_append, hStart, hRecipient, hEnd, text_userText, text_messageText,
    text_flatMap, text_originatorText, text_numberText, textOf, requestLines, numberLines, leafLine,
    List.flatMap_append, List.flatMap_cons, List.flatMap_nil, List.flatMap_map, List.append_nil]
  simp only [lineOf, List.append_assoc, List.cons_append, List.nil_append]

/-- The names of the elements. -/
def lineNames : List (List Char) :=
  ["Userkey".toList, "Password".toList, "Originator".toList, "Recipient".toList,
    "PhoneNumber".toList, "MessageData".toList, "Action".toList]

theorem lineNames_valid : ∀ name ∈ lineNames, isName name = true ∧ marks name = 0 ∧
    opensTags ('<' :: (name ++ ['>'])) = true ∧
    opensTags ('<' :: '/' :: (name ++ ['>', '\n'])) = true := by
  decide

theorem requestLines_named (r : Request) (numbers : List Event) :
    ∀ line ∈ requestLines r numbers, line.name ∈ lineNames := by
  intro line hMem
  simp only [requestLines, List.mem_append, List.mem_cons, List.not_mem_nil, or_false,
    List.mem_map] at hMem
  rcases hMem with ((rfl | rfl) | ⟨originator, -, rfl⟩) | rfl | rfl | rfl
  all_goals simp [leafLine, lineNames]

/-- What is true of every value on a line of its own, and of the recipients, is true of all
lines. -/
theorem forall_requestLines {r : Request} {numbers : List Event} {P : Line → Prop}
    (hLeaf : ∀ name, ∀ value ∈ ascii "SendTextSMS" :: r.values, P (leafLine name value))
    (hRecipient : P
      { name := "Recipient".toList, inner := textOf (numberLines r), inside := numbers }) :
    ∀ line ∈ requestLines r numbers, P line := by
  intro line hMem
  simp only [requestLines, List.mem_append, List.mem_cons, List.not_mem_nil, or_false,
    List.mem_map] at hMem
  rcases hMem with ((rfl | rfl) | ⟨originator, hFrom, rfl⟩) | rfl | rfl | rfl
  · exact hLeaf _ _ (by simp [Request.values])
  · exact hLeaf _ _ (by simp [Request.values])
  · exact hLeaf _ _ (by simp [Request.values, Option.mem_toList.mp hFrom])
  · exact hRecipient
  · exact hLeaf _ _ (by simp [Request.values])
  · exact hLeaf _ _ List.mem_cons_self

theorem numberLines_named (r : Request) : ∀ line ∈ numberLines r, line.name ∈ lineNames := by
  intro line hMem
  obtain ⟨number, -, rfl⟩ := List.mem_map.mp hMem
  simp [leafLine, lineNames]

theorem readsAs_iff (r : Request) (events : List Event) :
    ReadsAs r events ↔ ∃ numbers children,
      Children ((numberLines r).map fun line => node line.name line.inside) numbers ∧
      Children ((requestLines r numbers).map fun line => node line.name line.inside) children ∧
      events = node "aspsms".toList children := by
  have hNumbers : (numberLines r).map (fun line => node line.name line.inside) =
      r.number.map (leaf "PhoneNumber") := by
    rw [numberLines, List.map_map]
    rfl
  have hLines (numbers : List Event) :
      (requestLines r numbers).map (fun line => node line.name line.inside) =
        [leaf "Userkey" r.userkey, leaf "Password" r.password] ++
          r.originator.toList.map (leaf "Originator") ++
          [node "Recipient".toList numbers, leaf "MessageData" r.out,
            leaf "Action" (ascii "SendTextSMS")] := by
    rw [requestLines, List.map_append, List.map_append, List.map_map]
    rfl
  simp only [ReadsAs, hNumbers, hLines]

section Reading

variable {r : Request} {events : List Event}

/-- Read as it should be, the request has no mark to spare. -/
theorem marks_request (h : ReadsAs r events) :
    marks (text (requestBytes r)) = eventMarks events := by
  obtain ⟨numbers, children, hNumbers, hChildren, rfl⟩ := (readsAs_iff r events).mp h
  have hInner : eventMarks numbers = marks (textOf (numberLines r)) := by
    apply hNumbers.marks_lines fun line hMem =>
      (lineNames_valid _ (numberLines_named r line hMem)).2.1
    intro line hMem
    obtain ⟨number, -, rfl⟩ := List.mem_map.mp hMem
    exact eventMarks_chars _
  have hLines : eventMarks children = marks (textOf (requestLines r numbers)) := by
    apply hChildren.marks_lines fun line hMem =>
      (lineNames_valid _ (requestLines_named r numbers line hMem)).2.1
    exact forall_requestLines (fun name value hValue => eventMarks_chars _) hInner
  have hDeclaration : marks declarationText = 0 := rfl
  have hBreak : mark '\n' = 0 := rfl
  have hName : marks "aspsms".toList = 0 := rfl
  rw [text_requestBytes r numbers, marks_append, hDeclaration, marks_cons, hBreak,
    marks_lineOf hName, eventMarks_node, hLines, Nat.zero_add, Nat.zero_add]

theorem leaf_isInfix (name : String) (value : List UInt8) :
    (text value).map Event.char <:+: leaf name value :=
  ⟨[.start name.toList], [.stop name.toList], rfl⟩

/-- All values stand in what is read. -/
theorem value_isInfix (h : ReadsAs r events) {value : List UInt8} (hValue : value ∈ r.values) :
    (text value).map Event.char <:+: events := by
  obtain ⟨numbers, children, hNumbers, hChildren, rfl⟩ := h
  have hNode (name : List Char) (inside : List Event) : inside <:+: node name inside :=
    ⟨[.start name], [.stop name], rfl⟩
  have hAll : (text value).map Event.char <:+: children := by
    simp only [Request.values, List.mem_append, List.mem_cons, List.not_mem_nil, or_false,
      Option.mem_toList] at hValue
    rcases hValue with ((rfl | rfl | hFrom) | hNumber) | rfl
    · exact (leaf_isInfix "Userkey" _).trans (hChildren.isInfix (by simp))
    · exact (leaf_isInfix "Password" _).trans (hChildren.isInfix (by simp))
    · refine (leaf_isInfix "Originator" _).trans (hChildren.isInfix ?_)
      rw [hFrom]
      simp
    · refine ((leaf_isInfix "PhoneNumber" _).trans (hNumbers.isInfix ?_)).trans
        ((hNode "Recipient".toList numbers).trans (hChildren.isInfix (by simp)))
      exact List.mem_map_of_mem hNumber
    · exact (leaf_isInfix "MessageData" _).trans (hChildren.isInfix (by simp))
  exact hAll.trans (hNode _ _)

/-- Behind the declaration nothing but tags is opened, if no value opens anything. -/
theorem opensTags_request (h : ∀ value ∈ r.values, '<' ∉ text value) :
    opensTags (text (requestBytes r)).tail = true := by
  have hLeaf (line : Line) (hNamed : line.name ∈ lineNames) (hInner : opensTags line.inner = true) :
      opensTags (lineOf line.name line.inner) = true := by
    obtain ⟨-, -, hOpens, hCloses⟩ := lineNames_valid _ hNamed
    exact opensTags_lineOf hOpens hCloses hInner
  have hText (lines : List Line) (hLines : ∀ line ∈ lines, line.name ∈ lineNames)
      (hInner : ∀ line ∈ lines, opensTags line.inner = true) : opensTags (textOf lines) = true := by
    apply opensTags_append (t := ['\n']) rfl
    apply opensTags_flatMap
    intro line hMem
    exact hLeaf line (hLines line hMem) (hInner line hMem)
  have hValues : ∀ value ∈ ascii "SendTextSMS" :: r.values, opensTags (text value) = true := by
    rw [List.forall_mem_cons]
    exact ⟨rfl, fun value hValue => opensTags_of_notMem (h value hValue)⟩
  have hNumbers : opensTags (textOf (numberLines r)) = true := by
    apply hText _ (numberLines_named r)
    intro line hMem
    obtain ⟨number, hNumber, rfl⟩ := List.mem_map.mp hMem
    exact hValues number (by simp [Request.values, hNumber])
  rw [text_requestBytes r []]
  apply opensTags_append (t := declarationText.tail) rfl
  apply opensTags_append (t := ['\n']) rfl
  apply opensTags_lineOf rfl rfl
  apply hText _ (requestLines_named r [])
  exact forall_requestLines (fun name value hValue => hValues value hValue) hNumbers

/-- The value holds nothing that XML takes for something else. -/
def IsLiteral (value : List UInt8) : Prop :=
  '<' ∉ text value ∧ '&' ∉ text value ∧ ¬sectionEnd <:+: text value

theorem literal_of_document (hDocument : Document (text (requestBytes r)) events)
    (hReads : ReadsAs r events) {value : List UInt8} (hValue : value ∈ r.values) :
    IsLiteral value := by
  have hMarks := (marks_request hReads).le
  have hLiteral {value : List UInt8} (hValue : value ∈ r.values) {c : Char} (hC : c ∈ text value) :
      c ≠ '<' ∧ c ≠ '&' :=
    hDocument.literal hMarks ((value_isInfix hReads hValue).subset (List.mem_map_of_mem hC))
  have hOpens := opensTags_request fun value hValue hC => (hLiteral hValue hC).1 rfl
  refine ⟨fun hC => (hLiteral hValue hC).1 rfl, fun hC => (hLiteral hValue hC).2 rfl, ?_⟩
  intro hEnd
  apply hDocument.no_sectionEnd hMarks (not_infix_of_opensTags hOpens (Or.inl rfl))
    (not_infix_of_opensTags hOpens (Or.inr rfl))
  exact (hEnd.map Event.char).trans (value_isInfix hReads hValue)

end Reading

/-! The request of values that hold nothing of that kind is a document. -/

theorem latin1_toNat (b : UInt8) : (latin1 b).toNat = b.toNat := by
  have hValid : b.toNat.isValidChar := by
    have hByte := b.toNat_lt
    exact Or.inl (by omega)
  rw [latin1, Char.ofNat, dif_pos hValid]
  rfl

theorem latin1_valid {b : UInt8} (h : 32 ≤ b) : isXmlChar (latin1 b) = true := by
  have hLower : 32 ≤ b.toNat := UInt8.le_iff_toNat_le.mp h
  have hUpper := b.toNat_lt
  have hRange : (decide (0x20 ≤ b.toNat) && decide (b.toNat ≤ 0xD7FF)) = true := by
    rw [Bool.and_eq_true, decide_eq_true_eq, decide_eq_true_eq]
    omega
  rw [isXmlChar, latin1_toNat, hRange]
  simp

theorem IsLiteral.charData {value : List UInt8} (h : IsLiteral value)
    (hPrintable : ∀ b ∈ value, 32 ≤ b ∧ b ≠ 127) : CharData (text value) := by
  refine ⟨?_, h.2.2⟩
  intro c hC
  obtain ⟨b, hB, rfl⟩ := List.mem_map.mp hC
  refine ⟨latin1_valid (hPrintable b hB).1, ?_, ?_⟩
  · intro hSame
    exact h.1 (hSame ▸ hC)
  · intro hSame
    exact h.2.1 (hSame ▸ hC)

theorem action_literal : IsLiteral (ascii "SendTextSMS") := by
  have hText : text (ascii "SendTextSMS") = "SendTextSMS".toList := rfl
  have hNoBracket : ']' ∉ "SendTextSMS".toList := by decide
  rw [IsLiteral, hText]
  refine ⟨by decide, by decide, ?_⟩
  intro hEnd
  exact hNoBracket (hEnd.subset List.mem_cons_self)

theorem action_printable : ∀ b ∈ ascii "SendTextSMS", 32 ≤ b ∧ b ≠ 127 := by
  decide +kernel

theorem declaration_valid : Declaration declarationText := by
  have hBlank : Blank [' '] := by
    intro c hC
    rw [List.mem_singleton.mp hC]
    rfl
  have hVersion : DeclPart "version".toList IsVersion " version=\"1.0\"".toList :=
    ⟨[' '], [], [], '"', "1.0".toList, List.cons_ne_nil _ _, hBlank, by decide,
      ⟨['0'], List.cons_ne_nil _ _, List.all_eq_true.mp rfl, rfl⟩, rfl⟩
  have hEncoding : DeclPart "encoding".toList IsEncoding " encoding=\"ISO-8859-1\"".toList :=
    ⟨[' '], [], [], '"', "ISO-8859-1".toList, List.cons_ne_nil _ _, hBlank, by decide,
      ⟨'I', "SO-8859-1".toList, rfl, List.all_eq_true.mp rfl, rfl⟩, rfl⟩
  exact ⟨_, _, [], [], hVersion, Or.inr hEncoding, Or.inl rfl, fun c hC => (by cases hC), rfl⟩

theorem document_of_literal {r : Request}
    (hPrintable : ∀ value ∈ r.values, ∀ b ∈ value, 32 ≤ b ∧ b ≠ 127)
    (h : ∀ value ∈ r.values, IsLiteral value) :
    ∃ events, Document (text (requestBytes r)) events ∧ ReadsAs r events := by
  have hValues : ∀ value ∈ ascii "SendTextSMS" :: r.values,
      Content (text value) ((text value).map .char) := by
    rw [List.forall_mem_cons]
    exact ⟨Content.text (action_literal.charData action_printable), fun value hValue =>
      Content.text ((h value hValue).charData (hPrintable value hValue))⟩
  obtain ⟨numbers, hNumbersText, hNumbers⟩ := content_children (numberLines r) Line.name Line.inner
    Line.inside (fun line hMem => (lineNames_valid _ (numberLines_named r line hMem)).1) (by
      intro line hMem
      obtain ⟨number, hNumber, rfl⟩ := List.mem_map.mp hMem
      exact hValues number (by simp [Request.values, hNumber]))
  obtain ⟨children, hText, hChildren⟩ := content_children (requestLines r numbers) Line.name
    Line.inner Line.inside
    (fun line hMem => (lineNames_valid _ (requestLines_named r numbers line hMem)).1)
    (forall_requestLines (fun name value hValue => hValues value hValue) hNumbersText)
  refine ⟨node "aspsms".toList children, ?_,
    (readsAs_iff r _).mpr ⟨numbers, children, hNumbers, hChildren, rfl⟩⟩
  have hOpens : StartTag ('<' :: ("aspsms".toList ++ ['>'])) "aspsms".toList :=
    ⟨[], [], [], rfl, Attributes.nil, fun c hC => (by cases hC), rfl⟩
  have hCloses : EndTag ('<' :: '/' :: ("aspsms".toList ++ ['>'])) "aspsms".toList :=
    ⟨[], fun c hC => (by cases hC), rfl⟩
  have hBreak : Misc ['\n'] := Misc.space rfl Misc.nil
  refine ⟨declarationText, ['\n'], _, ['\n'], Or.inr declaration_valid, hBreak,
    Or.inl ⟨_, _, _, _, _, hOpens, hText, hCloses, rfl, rfl⟩, hBreak, ?_⟩
  rw [text_requestBytes r numbers]
  simp [lineOf, textOf]

theorem literal_of_carries {r : Request} (hFits : (requestBytes r).length + 1 < UInt64.size)
    (h : CarriesRequest r) : ∀ value ∈ r.values, IsLiteral value := by
  obtain ⟨query, hBuild, hGathered⟩ := buildQuery_gathers r hFits
  obtain ⟨query', bytes, events, hBuild', hLoad, hDocument, hReads⟩ := h
  obtain rfl := Option.some.inj (hBuild.symm.trans hBuild')
  obtain rfl := Option.some.inj (hGathered.load.symm.trans hLoad)
  intro value hValue
  exact literal_of_document hDocument hReads hValue

/-- The request carries what was to be sent exactly if no value has one of `<`, `&` and
`]]>` in it: nothing of what is printed into the document is escaped. -/
theorem buildQuery_carries_iff (s : Sendable) :
    CarriesRequest s.request ↔ ∀ value ∈ s.request.values, IsLiteral value := by
  constructor
  · exact literal_of_carries s.fits
  · intro h
    obtain ⟨query, hBuild, hGathered⟩ := buildQuery_gathers s.request s.fits
    obtain ⟨events, hDocument, hReads⟩ := document_of_literal s.printable h
    exact ⟨query, _, events, hBuild, hGathered.load, hDocument, hReads⟩

/-- A message for two numbers, with an originator. -/
def fullFilesystem : Sendable where
  request :=
    { userkey := ascii "KEY", password := ascii "secret", originator := some (ascii "Monitor"),
      number := [ascii "0791234567", ascii "0797654321"], out := ascii "CRITICAL - / > 95% \"full\"" }
  printable := by decide +kernel
  fits := by decide +kernel

theorem buildQuery_carries_iff_full : CarriesRequest fullFilesystem.request := by
  have hMarks : ∀ value ∈ fullFilesystem.request.values,
      '<' ∉ text value ∧ '&' ∉ text value ∧ ']' ∉ text value := by decide +kernel
  refine (buildQuery_carries_iff fullFilesystem).mpr fun value hValue => ?_
  obtain ⟨hOpen, hReference, hBracket⟩ := hMarks value hValue
  exact ⟨hOpen, hReference, fun hSection => hBracket (hSection.subset (by decide))⟩

/-- A message with an ampersand. -/
def twoFilesystems : Request :=
  { userkey := ascii "KEY", password := ascii "secret", originator := none,
    number := [ascii "0791234567"], out := ascii "CRITICAL - / & /var" }

theorem buildQuery_ampersand : ¬CarriesRequest twoFilesystems := by
  intro h
  have hFits : (requestBytes twoFilesystems).length + 1 < UInt64.size := by decide +kernel
  have hLiteral := literal_of_carries hFits h twoFilesystems.out (by simp [Request.values])
  exact hLiteral.2.1 (by decide)

end MonitoringPlug.Notify
