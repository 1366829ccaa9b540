import Mathlib.Data.List.Forall2
import MonitoringPlug.Lib.Block

/-! Response headers: the callback that picks the requested ones out of the header
lines, and the lines as HTTP writes them. -/
namespace MonitoringPlug.Curl

open CMemory

/-- `struct mp_curl_header`: `value` is the object the caller's pointer points to. -/
structure MpCurlHeader where
  key : CString
  value : Option Block

/-- Does `contents` start with the bytes? Compared until they differ; no result when
`contents` ends before. -/
def strncmp : List UInt8 → List UInt8 → Option Bool
  | [], _ => some true
  | _ :: _, [] => none
  | k :: key, c :: contents => if k = c then strncmp key contents else some false

def colon : UInt8 := 58
def lineFeed : UInt8 := 10
def carriageReturn : UInt8 := 13

/-- What is done for one requested header. A read or a write outside of the line or of
the new object has no result, nor has a negative size. -/
def recvKey (contents : List UInt8) (header : MpCurlHeader) : Option MpCurlHeader := do
  let keySize := header.key.strlen
  if header.value.isSome then some header
  else
    let same ← strncmp header.key.bytes contents
    if same = false then some header
    else
      let next ← contents[keySize]?
      if next ≠ colon then some header
      else if contents.length < keySize + 2 then none
      else
        let value ← store (malloc (contents.length - keySize - 2)) 0 (contents.drop (keySize + 2))
        let cut ← strcspn [lineFeed, carriageReturn] value
        let value ← store value cut [0]
        some { header with value := some value }

/-- One call, for one header line. -/
def mpCurlRecvHeader (contents : List UInt8) (headers : List MpCurlHeader) :
    Option (List MpCurlHeader) :=
  headers.mapM (recvKey contents)

/-- libcurl calls it once for each line. -/
def recvLines (lines : List (List UInt8)) (headers : List MpCurlHeader) :
    Option (List MpCurlHeader) :=
  lines.foldlM (fun headers contents => mpCurlRecvHeader contents headers) headers

def isBlank (c : UInt8) : Bool := c == 32 || c == 9

/-- A character of a token: letters, digits and some marks. -/
def isTchar (c : UInt8) : Bool :=
  48 ≤ c && c ≤ 57 || 65 ≤ c && c ≤ 90 || 97 ≤ c && c ≤ 122 ||
    [33, 35, 36, 37, 38, 39, 42, 43, 45, 46, 94, 95, 96, 124, 126].contains c

/-- The name of a header field. -/
structure FieldName where
  bytes : List UInt8
  nonempty : bytes ≠ []
  token : ∀ c ∈ bytes, isTchar c = true

/-- A header line `name:` OWS value OWS CRLF. -/
structure FieldLine where
  name : FieldName
  leading : List UInt8
  value : List UInt8
  trailing : List UInt8
  leading_blank : ∀ c ∈ leading, isBlank c = true
  trailing_blank : ∀ c ∈ trailing, isBlank c = true
  value_text : ∀ c ∈ value, c ≠ 0 ∧ c ≠ lineFeed ∧ c ≠ carriageReturn
  value_front : ∀ c ∈ value.head?, isBlank c = false
  value_back : ∀ c ∈ value.getLast?, isBlank c = false

namespace FieldLine

/-- What stands between the colon and the end of the line. -/
def text (line : FieldLine) : List UInt8 := line.leading ++ line.value ++ line.trailing

def bytes (line : FieldLine) : List UInt8 :=
  line.name.bytes ++ colon :: (line.text ++ [carriageReturn, lineFeed])

end FieldLine

def toLower (c : UInt8) : UInt8 := if 65 ≤ c && c ≤ 90 then c + 32 else c

/-- Field names are the same in any case of their letters. -/
def SameName (name other : FieldName) : Prop :=
  name.bytes.map toLower = other.bytes.map toLower

instance (name other : FieldName) : Decidable (SameName name other) :=
  inferInstanceAs (Decidable (_ = _))

theorem isTchar_ne {c : UInt8} (h : isTchar c = true) : c ≠ 0 ∧ c ≠ colon := by
  constructor
  · rintro rfl
    revert h
    decide
  · rintro rfl
    revert h
    decide

theorem isBlank_ne {c : UInt8} (h : isBlank c = true) :
    c ≠ 0 ∧ c ≠ lineFeed ∧ c ≠ carriageReturn := by
  simp only [isBlank, Bool.or_eq_true, beq_iff_eq] at h
  rcases h with rfl | rfl
  · decide
  · decide

/-- The header as it is requested, before any line came. -/
def requested (name : FieldName) : MpCurlHeader :=
  { key := ⟨name.bytes, fun hNul => (isTchar_ne (name.token 0 hNul)).1 rfl⟩, value := none }

theorem FieldLine.text_ne (line : FieldLine) :
    ∀ c ∈ line.text, c ≠ 0 ∧ c ≠ lineFeed ∧ c ≠ carriageReturn := by
  intro c hc
  simp only [FieldLine.text, List.mem_append] at hc
  rcases hc with (hLeading | hValue) | hTrailing
  · exact isBlank_ne (line.leading_blank c hLeading)
  · exact line.value_text c hValue
  · exact isBlank_ne (line.trailing_blank c hTrailing)

/-- A name is compared within the line: at the colon at the latest they differ. -/
theorem strncmp_line (key name : List UInt8) (rest : List UInt8)
    (hKey : ∀ c ∈ key, c ≠ colon) :
    strncmp key (name ++ colon :: rest) = some (key.isPrefixOf name) := by
  induction key generalizing name with
  | nil => simp [strncmp]
  | cons k key ih =>
      have hFirst : k ≠ colon := hKey k (List.mem_cons_self ..)
      cases name with
      | nil => simp [strncmp, hFirst]
      | cons c name =>
          have hRest := ih name fun d hd => hKey d (List.mem_cons_of_mem _ hd)
          simp only [List.cons_append, strncmp, hRest, List.isPrefixOf_cons_cons]
          by_cases hSame : k = c
          · simp [hSame]
          · simp [hSame]

/-- A line with another name leaves the header as it is. -/
theorem recvKey_other (line : FieldLine) (header : MpCurlHeader)
    (hKey : ∀ c ∈ header.key.bytes, isTchar c = true)
    (hOther : header.value.isSome ∨ line.name.bytes ≠ header.key.bytes) :
    recvKey line.bytes header = some header := by
  simp only [recvKey]
  by_cases hHeld : header.value.isSome
  · rw [if_pos hHeld]
  · have hName := hOther.resolve_left hHeld
    rw [if_neg hHeld, FieldLine.bytes, strncmp_line _ _ _ fun c hc => (isTchar_ne (hKey c hc)).2]
    cases hPrefix : header.key.bytes.isPrefixOf line.name.bytes with
    | false => simp
    | true =>
        obtain ⟨more, hMore⟩ := List.isPrefixOf_iff_prefix.mp hPrefix
        cases more with
        | nil => exact absurd (by simpa using hMore.symm) hName
        | cons c more =>
            have hTchar : isTchar c = true := line.name.token c (by simp [← hMore])
            have hNext : (line.name.bytes ++ colon ::
                (line.text ++ [carriageReturn, lineFeed]))[header.key.strlen]? = some c := by
              simp [← hMore, CString.strlen]
            simp [hNext, (isTchar_ne hTchar).2]

/-- A line with this name: the header holds what stands behind one byte after the colon. -/
theorem recvKey_same (line : FieldLine) (header : MpCurlHeader) (hNull : header.value = none)
    (hName : line.name.bytes = header.key.bytes) :
    ∃ value, recvKey line.bytes header = some { header with value := some value } ∧
      loadString value = some (line.text.drop 1) := by
  have hCompare : strncmp header.key.bytes line.bytes = some true := by
    rw [FieldLine.bytes, ← hName, strncmp_line _ _ _ fun c hc =>
      (isTchar_ne (line.name.token c hc)).2]
    simp
  have hNext : line.bytes[header.key.strlen]? = some colon := by
    simp [FieldLine.bytes, hName, CString.strlen]
  have hLength : line.bytes.length = header.key.strlen + line.text.length + 3 := by
    simp [FieldLine.bytes, hName, CString.strlen]
    omega
  -- one byte behind the colon is skipped, so an empty text loses its carriage return
  obtain ⟨stop, more, hStop, hRest⟩ : ∃ stop more, stop ∈ [lineFeed, carriageReturn] ∧
      line.bytes.drop (header.key.strlen + 2) = line.text.drop 1 ++ stop :: more := by
    have hBehind : line.bytes.drop (header.key.strlen + 2) =
        (line.text ++ [carriageReturn, lineFeed]).drop 1 := by
      rw [FieldLine.bytes, hName, CString.strlen, List.drop_append,
        List.drop_eq_nil_of_le (by omega)]
      simp [show header.key.bytes.length + 2 - header.key.bytes.length = 2 by omega]
    rw [hBehind]
    cases line.text with
    | nil => exact ⟨lineFeed, [], by simp, rfl⟩
    | cons c text => exact ⟨carriageReturn, [lineFeed], by simp, rfl⟩
  have hSize : (line.bytes.drop (header.key.strlen + 2)).length =
      line.bytes.length - header.key.strlen - 2 := by
    rw [List.length_drop]
    omega
  obtain ⟨copied, hCopy, hCopied, -⟩ :=
    (Holds.nil (malloc (line.bytes.length - header.key.strlen - 2))).store
      (line.bytes.drop (header.key.strlen + 2)) (by simp [hSize])
  rw [List.nil_append, hRest, ← List.singleton_append, ← List.append_assoc] at hCopied
  have hFree : ∀ d ∈ line.text.drop 1, d ≠ 0 ∧ d ∉ [lineFeed, carriageReturn] := by
    intro d hd
    obtain ⟨hNul, hFeed, hReturn⟩ := line.text_ne d (List.mem_of_mem_drop hd)
    exact ⟨hNul, by simp [hFeed, hReturn]⟩
  have hCut := hCopied.of_append.strcspn hFree hStop
  obtain ⟨ended, hEnd, hEnded, -⟩ := hCopied.of_append.of_append.store [0] (by
    have := hCopied.of_append.length_le
    simpa using this)
  refine ⟨ended, ?_, ?_⟩
  · simp only [List.length_nil] at hCopy
    have hNotShort : ¬line.bytes.length < header.key.strlen + 2 := by omega
    simp only [recvKey, hNull, Option.isSome_none, Bool.false_eq_true, if_false, hCompare, hNext,
      Option.bind_eq_bind, Option.bind_some, ne_eq, not_true_eq_false, hNotShort, hCopy, hCut, hEnd,
      Bool.true_eq_false]
  · rw [hEnded.loadString_ofBytes, CString.ofBytes, Option.some_inj, List.takeWhile_eq_self_iff]
    intro d hd
    simpa using (hFree d hd).1

/-- The first line spelt like the key. -/
def exactLine (lines : List FieldLine) (key : List UInt8) : Option FieldLine :=
  lines.find? fun line => line.name.bytes = key

/-- What the lines make of a header: a value that is there stays, else it comes from
the first line spelt like the key. -/
def Received (lines : List FieldLine) (header header' : MpCurlHeader) : Prop :=
  header'.key = header.key ∧
    if header.value.isSome then header'.value = header.value
    else
      match exactLine lines header.key.bytes with
      | none => header'.value = none
      | some line =>
          ∃ value, header'.value = some value ∧ loadString value = some (line.text.drop 1)

theorem received_nil (header : MpCurlHeader) : Received [] header header := by
  refine ⟨rfl, ?_⟩
  split
  · rfl
  · next hNull => simpa [exactLine] using hNull

theorem recvKey_received (line : FieldLine) (header : MpCurlHeader)
    (hKey : ∀ c ∈ header.key.bytes, isTchar c = true) :
    ∃ header', recvKey line.bytes header = some header' ∧ Received [line] header header' := by
  by_cases hHeld : header.value.isSome
  · refine ⟨header, recvKey_other line header hKey (Or.inl hHeld), rfl, ?_⟩
    rw [if_pos hHeld]
  · by_cases hName : line.name.bytes = header.key.bytes
    · obtain ⟨value, hRecv, hValue⟩ :=
        recvKey_same line header (by simpa using hHeld) hName
      refine ⟨_, hRecv, rfl, ?_⟩
      rw [if_neg hHeld, exactLine, List.find?_cons_of_pos (by simpa using hName)]
      exact ⟨value, rfl, hValue⟩
    · refine ⟨header, recvKey_other line header hKey (Or.inr hName), rfl, ?_⟩
      rw [if_neg hHeld, exactLine, List.find?_cons_of_neg (by simpa using hName)]
      simpa using hHeld

theorem Received.trans {line : FieldLine} {lines : List FieldLine}
    {header middle header' : MpCurlHeader} (h : Received [line] header middle)
    (h' : Received lines middle header') : Received (line :: lines) header header' := by
  obtain ⟨hKey, hValue⟩ := h
  obtain ⟨hKey', hValue'⟩ := h'
  refine ⟨hKey'.trans hKey, ?_⟩
  rw [hKey] at hValue'
  by_cases hHeld : header.value.isSome
  · rw [if_pos hHeld] at hValue ⊢
    rw [if_pos (by rwa [hValue])] at hValue'
    rw [hValue', hValue]
  · rw [if_neg hHeld] at hValue ⊢
    by_cases hName : line.name.bytes = header.key.bytes
    · rw [exactLine, List.find?_cons_of_pos (by simpa using hName)] at hValue ⊢
      obtain ⟨value, hSome, hText⟩ := hValue
      rw [if_pos (by simp [hSome])] at hValue'
      exact ⟨value, hValue'.trans hSome, hText⟩
    · rw [exactLine, List.find?_cons_of_neg (by simpa using hName)] at hValue ⊢
      have hNull : middle.value = none := by simpa using hValue
      rwa [if_neg (by simp [hNull])] at hValue'

/-- One header through all lines. -/
theorem recvKey_lines (lines : List FieldLine) (header : MpCurlHeader)
    (hKey : ∀ c ∈ header.key.bytes, isTchar c = true) :
    ∃ header', (lines.map FieldLine.bytes).foldlM (fun header contents =>
        recvKey contents header) header = some header' ∧ Received lines header header' := by
  induction lines generalizing header with
  | nil => exact ⟨header, rfl, received_nil header⟩
  | cons line lines ih =>
      obtain ⟨middle, hLine, hFirst⟩ := recvKey_received line header hKey
      obtain ⟨header', hLines, hRest⟩ := ih middle (by rwa [hFirst.1])
      refine ⟨header', ?_, hFirst.trans hRest⟩
      rw [List.map_cons, List.foldlM_cons, hLine]
      exact hLines

/-- The headers do not depend on one another. -/
theorem recvLines_cons {lines : List (List UInt8)} {header header' : MpCurlHeader}
    {headers headers' : List MpCurlHeader}
    (hFirst : lines.foldlM (fun header contents => recvKey contents header) header = some header')
    (hRest : recvLines lines headers = some headers') :
    recvLines lines (header :: headers) = some (header' :: headers') := by
  induction lines generalizing header headers with
  | nil =>
      obtain rfl := Option.some.inj hFirst
      obtain rfl := Option.some.inj hRest
      rfl
  | cons contents lines ih =>
      simp only [recvLines, List.foldlM_cons, Option.bind_eq_bind, Option.bind_eq_some_iff]
        at hFirst hRest
      obtain ⟨middle, hLine, hLines⟩ := hFirst
      obtain ⟨middles, hLine', hLines'⟩ := hRest
      have hCall : mpCurlRecvHeader contents (header :: headers) = some (middle :: middles) := by
        rw [mpCurlRecvHeader] at hLine'
        rw [mpCurlRecvHeader, List.mapM_cons, hLine, hLine']
        rfl
      rw [recvLines, List.foldlM_cons, hCall]
      exact ih hLines hLines'

/-- All lines are received without a fault, each header from its own line. -/
theorem recvLines_received (lines : List FieldLine) (headers : List MpCurlHeader)
    (hKeys : ∀ header ∈ headers, ∀ c ∈ header.key.bytes, isTchar c = true) :
    ∃ headers', recvLines (lines.map FieldLine.bytes) headers = some headers' ∧
      List.Forall₂ (Received lines) headers headers' := by
  induction headers with
  | nil =>
      refine ⟨[], ?_, List.Forall₂.nil⟩
      induction lines with
      | nil => rfl
      | cons line lines ih => exact ih
  | cons header headers ih =>
      obtain ⟨header', hHeader, hReceived⟩ :=
        recvKey_lines lines header (hKeys header (List.mem_cons_self ..))
      obtain ⟨headers', hHeaders, hAll⟩ :=
        ih fun h hMem => hKeys h (List.mem_cons_of_mem _ hMem)
      exact ⟨header' :: headers', recvLines_cons hHeader hHeaders,
        List.Forall₂.cons hReceived hAll⟩

/-- The first line with the name, in any case of its letters. -/
def namedLine (lines : List FieldLine) (name : FieldName) : Option FieldLine :=
  lines.find? fun line => SameName name line.name

/-- The header holds this value, or NULL. -/
def HoldsValue (header : MpCurlHeader) : Option (List UInt8) → Prop
  | none => header.value = none
  | some text => ∃ value, header.value = some value ∧ loadString value = some text

/-- One blank in front of the value and none behind; in front of an empty value it
may be missing. -/
def FieldLine.Plain (line : FieldLine) : Prop :=
  line.leading.length + line.trailing.length ≤ 1 ∧ (line.value ≠ [] → line.leading.length = 1)

/-- What the code needs of the lines to find the header of this name: the first one is
spelt like it and plain. Where it is spelt otherwise, there must be a line spelt like
it whose text, less one byte, happens to be the value of the first. -/
def Captured (lines : List FieldLine) (name : FieldName) : Prop :=
  ∀ first ∈ namedLine lines name,
    if first.name.bytes = name.bytes then first.Plain
    else ∃ exact ∈ exactLine lines name.bytes, exact.text.drop 1 = first.value

/-- Less one byte the text is the value exactly on a plain line. -/
theorem FieldLine.drop_text_iff (line : FieldLine) :
    line.text.drop 1 = line.value ↔ line.Plain := by
  rw [FieldLine.text, FieldLine.Plain]
  cases hLeading : line.leading with
  | cons b leading =>
      rw [List.cons_append, List.cons_append, List.drop_one, List.tail_cons]
      constructor
      · intro hSame
        have hLength := congrArg List.length hSame
        simp only [List.length_append] at hLength
        simp only [List.length_cons]
        omega
      · intro h
        simp only [List.length_cons] at h
        have hNone : leading = [] := List.length_eq_zero_iff.mp (by omega)
        have hNone' : line.trailing = [] := List.length_eq_zero_iff.mp (by omega)
        simp [hNone, hNone']
  | nil =>
      cases hValue : line.value with
      | nil =>
          rw [List.nil_append, List.nil_append, List.drop_eq_nil_iff]
          simp
      | cons c value =>
          rw [List.nil_append, List.cons_append, List.drop_one, List.tail_cons]
          apply iff_of_false _ (by simp)
          intro hSame
          cases hTrailing : line.trailing.getLast? with
          | none =>
              rw [List.getLast?_eq_none_iff.mp hTrailing, List.append_nil] at hSame
              have := congrArg List.length hSame
              simp at this
          | some blank =>
              have hLast : line.value.getLast? = some blank := by
                rw [hValue, ← hSame, List.getLast?_append, hTrailing]
                rfl
              have hBlank := line.trailing_blank blank (List.mem_of_getLast? hTrailing)
              rw [line.value_back blank hLast] at hBlank
              cases hBlank

/-- A line spelt like the name has that name. -/
theorem sameName_of_bytes {name other : FieldName} (h : other.bytes = name.bytes) :
    SameName name other := by
  rw [SameName, h]

theorem exactLine_eq_none {lines : List FieldLine} {name : FieldName}
    (h : namedLine lines name = none) : exactLine lines name.bytes = none := by
  rw [namedLine, List.find?_eq_none] at h
  rw [exactLine, List.find?_eq_none]
  intro line hLine hName
  have := h line hLine
  exact this (by simpa using sameName_of_bytes (by simpa using hName))

/-- When the first line with the name is spelt like it, it is the first one spelt so. -/
theorem exactLine_eq_first {lines : List FieldLine} {name : FieldName} {first : FieldLine}
    (h : namedLine lines name = some first) (hExact : first.name.bytes = name.bytes) :
    exactLine lines name.bytes = some first := by
  rw [namedLine, List.find?_eq_some_iff_append] at h
  obtain ⟨-, before, after, rfl, hBefore⟩ := h
  rw [exactLine, List.find?_eq_some_iff_append]
  refine ⟨by simpa using hExact, before, after, rfl, ?_⟩
  intro line hLine
  have hOther := hBefore line hLine
  simp only [Bool.not_eq_true', decide_eq_false_iff_not] at hOther ⊢
  exact fun hName => hOther (sameName_of_bytes hName)

theorem Received.holdsValue_iff {lines : List FieldLine} {name : FieldName}
    {header : MpCurlHeader} (h : Received lines (requested name) header) :
    HoldsValue header ((namedLine lines name).map FieldLine.value) ↔ Captured lines name := by
  obtain ⟨-, hValue⟩ := h
  rw [if_neg (by simp [requested])] at hValue
  replace hValue : match exactLine lines name.bytes with
      | none => header.value = none
      | some line => ∃ value, header.value = some value ∧
          loadString value = some (line.text.drop 1) := hValue
  rw [Captured]
  cases hFirst : namedLine lines name with
  | none =>
      rw [exactLine_eq_none hFirst] at hValue
      simp [HoldsValue, hValue]
  | some first =>
      have hText {line : FieldLine} (hLine : exactLine lines name.bytes = some line) :
          HoldsValue header (some first.value) ↔ line.text.drop 1 = first.value := by
        rw [hLine] at hValue
        obtain ⟨value, hSome, hLoad⟩ := hValue
        constructor
        · intro hHolds
          obtain ⟨value', hSome', hLoad'⟩ := hHolds
          obtain rfl := Option.some.inj (hSome.symm.trans hSome')
          exact Option.some.inj (hLoad.symm.trans hLoad')
        · intro hSame
          exact ⟨value, hSome, by rw [hLoad, hSame]⟩
      simp only [Option.map_some, Option.mem_def, Option.some.injEq, forall_eq']
      by_cases hExact : first.name.bytes = name.bytes
      · rw [if_pos hExact, hText (exactLine_eq_first hFirst hExact), first.drop_text_iff]
      · rw [if_neg hExact]
        cases hLine : exactLine lines name.bytes with
        | none =>
            rw [hLine] at hValue
            simp [HoldsValue, hValue]
        | some line => simpa using hText hLine

/-- Whatever header lines arrive for whatever names, nothing outside the lines or the
new objects is touched; and each name gets its value exactly when it is captured. -/
theorem recvLines_holds_iff (names : List FieldName) (lines : List FieldLine) :
    ∃ headers, recvLines (lines.map FieldLine.bytes) (names.map requested) = some headers ∧
      headers.length = names.length ∧
      ∀ i (hName : i < names.length) (hHeader : i < headers.length),
        headers[i].key = (requested names[i]).key ∧
        (HoldsValue headers[i] ((namedLine lines names[i]).map FieldLine.value) ↔
          Captured lines names[i]) := by
  have hKeys : ∀ header ∈ names.map requested, ∀ c ∈ header.key.bytes, isTchar c = true := by
    intro header hMem
    obtain ⟨name, -, rfl⟩ := List.mem_map.mp hMem
    exact name.token
  obtain ⟨headers, hRecv, hAll⟩ := recvLines_received lines (names.map requested) hKeys
  rw [List.forall₂_map_left_iff] at hAll
  refine ⟨headers, hRecv, hAll.length_eq.symm, fun i hName hHeader => ?_⟩
  have hReceived := (List.forall₂_iff_get.mp hAll).2 i hName hHeader
  exact ⟨hReceived.1, hReceived.holdsValue_iff⟩

/-- "Allow". -/
def allowBytes : List UInt8 := [65, 108, 108, 111, 119]

/-- "allow", as HTTP/2 spells it. -/
def lowerAllowBytes : List UInt8 := [97, 108, 108, 111, 119]

theorem allowBytes_token : ∀ c ∈ allowBytes, isTchar c = true :=
  List.all_eq_true.mp rfl

theorem lowerAllowBytes_token : ∀ c ∈ lowerAllowBytes, isTchar c = true :=
  List.all_eq_true.mp rfl

/-- "GET" is written without blanks at its ends. -/
theorem get_value : (∀ c ∈ [71, 69, 84], c ≠ 0 ∧ c ≠ lineFeed ∧ c ≠ carriageReturn) ∧
    (∀ c ∈ [71, 69, 84].head?, isBlank c = false) ∧
    ∀ c ∈ [71, 69, 84].getLast?, isBlank c = false := by
  refine ⟨?_, ?_, ?_⟩
  · intro c hc
    simp only [List.mem_cons, List.not_mem_nil, or_false] at hc
    rcases hc with rfl | rfl | rfl <;> decide
  · intro c hc
    obtain rfl := Option.some.inj hc
    rfl
  · intro c hc
    obtain rfl := Option.some.inj hc
    rfl

/-- The line "allow: GET". -/
def lowerAllowLine : FieldLine :=
  { name := ⟨lowerAllowBytes, List.cons_ne_nil _ _, lowerAllowBytes_token⟩
    leading := [32], value := [71, 69, 84], trailing := []
    leading_blank := fun _ hc => List.mem_singleton.mp hc ▸ rfl
    trailing_blank := fun _ hc => nomatch hc
    value_text := get_value.1, value_front := get_value.2.1, value_back := get_value.2.2 }

/-- "Allow" as it is requested. -/
def allowName : FieldName := ⟨allowBytes, List.cons_ne_nil _ _, allowBytes_token⟩

/-- The header "Allow" stays NULL although the line "allow: GET" came. -/
theorem recvLines_misses_lower_case :
    ∃ header, recvLines [lowerAllowLine.bytes] [requested allowName] = some [header] ∧
      (namedLine [lowerAllowLine] allowName).map FieldLine.value = some [71, 69, 84] ∧
      header.value = none ∧ ¬HoldsValue header (some [71, 69, 84]) := by
  refine ⟨requested allowName, rfl, rfl, rfl, ?_⟩
  intro hHolds
  obtain ⟨value, hSome, -⟩ := hHolds
  cases hSome

end MonitoringPlug.Curl
