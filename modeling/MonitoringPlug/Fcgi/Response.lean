import MonitoringPlug.Fcgi.Record
import MonitoringPlug.Lib.Loop
import MonitoringPlug.Lib.Text

/-! The answer of a FastCGI server, and what `check_fcgi_phpfpm` makes of it. -/
namespace MonitoringPlug.Fcgi

open CMemory CLoop

structure Fetching where
  stream : List UInt8
  data : Option Block

/-- One pass of the loop that waits for the answer. It ends with the pointer
`data`; without one the plugin exits in a read. -/
def fetchPass (osRead : OsRead) (s : Fetching) : Pass Fetching (Option (Option Block)) :=
  match mpFcgiRead osRead none s.stream with
  | none => .leave none
  | some read =>
      let data := if read.type = fcgiStdout then read.content else s.data
      if read.type ≠ fcgiEndRequest then .again { stream := read.rest, data := data }
      else .leave (some data)

/-- The string a pointer hands on; none for NULL, or when it does not end. -/
def handedOn (data : Option Block) : Option (List UInt8) := data.bind loadString

/-- The two streams of output a response interleaves. -/
inductive Output where
  | stdout
  | stderr
deriving DecidableEq

def Output.type : Output → UInt8
  | .stdout => fcgiStdout
  | .stderr => fcgiStderr

/-- Records of output, and the one that ends the request. -/
structure Response where
  output : List (Output × Record)
  endRequest : Record

def encodeOutput (output : List (Output × Record)) : List UInt8 :=
  output.flatMap fun (kind, record) => record.encode kind.type

def stdouts (output : List (Output × Record)) : List Record :=
  (output.filter (·.1 = .stdout)).map Prod.snd

namespace Response

def stream (r : Response) : List UInt8 :=
  encodeOutput r.output ++ r.endRequest.encode fcgiEndRequest

def start (r : Response) : Fetching := { stream := r.stream, data := none }

/-- The response body. -/
def body (r : Response) : List UInt8 := (stdouts r.output).flatMap Record.content

/-- Every read takes its header, content and padding off the stream. -/
def ReadsExactly (osRead : OsRead) (r : Response) : Prop :=
  ∀ s read, Reaches (fetchPass osRead) r.start s → mpFcgiRead osRead none s.stream = some read →
    s.stream.length = read.rest.length + (8 + read.contentLength + read.paddingLength)

/-- What is handed on is the body. -/
def HandsOnBody (osRead : OsRead) (r : Response) : Prop :=
  ∃ data, Returns (fetchPass osRead) r.start (some data) ∧ handedOn data = some r.body

/-- An empty record carries no padding. -/
def Aligned (record : Record) : Prop := record.content = [] → record.padding = []

/-- Every record arrives in time: each read of it delivers what it asks for. -/
def OutputArrives (osRead : OsRead) (endRequest : Record) : List (Output × Record) → Prop
  | [] => endRequest.Arrives osRead fcgiEndRequest []
  | (kind, record) :: output =>
      record.Arrives osRead kind.type (encodeOutput output ++ endRequest.encode fcgiEndRequest) ∧
        OutputArrives osRead endRequest output

def ArrivesWhole (osRead : OsRead) (r : Response) : Prop :=
  OutputArrives osRead r.endRequest r.output

/-- No record is empty but for its padding; there is a last record of the body
without NUL whose padding ends it; and the body is what is in that record up to
there. -/
structure InOneRecord (r : Response) : Prop where
  aligned : ∀ record ∈ r.endRequest :: r.output.map Prod.snd, Aligned record
  last : ∃ earlier record, stdouts r.output = earlier ++ [record] ∧ 0 ∉ record.content ∧
    0 ∈ record.padding ∧
    record.content ++ record.padding.takeWhile (· != 0) =
      earlier.flatMap Record.content ++ record.content

end Response

section Run

variable {osRead : OsRead} {kind : Output} {record : Record} {rest : List UInt8}
  {data : Option Block}

/-- The pointer after some more records. -/
def dataAfter (data : Option Block) (output : List (Output × Record)) : Option Block :=
  output.foldl (fun data (kind, record) => if kind = .stdout then record.pointer else data) data

theorem encodeOutput_cons (output : List (Output × Record)) :
    encodeOutput ((kind, record) :: output) ++ rest =
      record.encode kind.type ++ (encodeOutput output ++ rest) := by
  simp [encodeOutput]

theorem Record.unread_aligned (record : Record) (rest : List UInt8)
    (hAligned : Response.Aligned record) : record.unread rest = rest := by
  rw [Record.unread]
  split
  · rename_i hEmpty
    rw [hAligned hEmpty, List.nil_append]
  · rfl

theorem fetchPass_output {kind : Output} (h : record.Arrives osRead kind.type rest)
    (data : Option Block) :
    fetchPass osRead { stream := record.encode kind.type ++ rest, data := data } =
      .again { stream := record.unread rest,
               data := if kind = .stdout then record.pointer else data } := by
  rw [fetchPass, Record.mpFcgiRead_record record h]
  cases kind with
  | stdout => rfl
  | stderr => rfl

theorem fetchPass_endRequest (h : record.Arrives osRead fcgiEndRequest rest)
    (data : Option Block) :
    fetchPass osRead { stream := record.encode fcgiEndRequest ++ rest, data := data } =
      .leave (some data) := by
  rw [fetchPass, Record.mpFcgiRead_record record h]
  rfl

/-- Aligned records that arrive are read one after the other. -/
theorem returns_output (output : List (Output × Record)) {endRequest : Record}
    (hArrives : Response.OutputArrives osRead endRequest output)
    (hAligned : ∀ record ∈ output.map Prod.snd, Response.Aligned record) (data : Option Block) :
    Returns (fetchPass osRead)
      { stream := encodeOutput output ++ endRequest.encode fcgiEndRequest, data := data }
      (some (dataAfter data output)) := by
  induction output generalizing data with
  | nil =>
      have hEnd := fetchPass_endRequest hArrives data
      rw [List.append_nil] at hEnd
      exact Returns.leave hEnd
  | cons first output ih =>
      obtain ⟨kind, record⟩ := first
      have hPass := fetchPass_output hArrives.1 data
      rw [record.unread_aligned _ (hAligned record (by simp))] at hPass
      rw [encodeOutput_cons]
      exact (ih hArrives.2 (fun other hOther => hAligned other (List.mem_cons_of_mem _ hOther))
        _).again hPass

/-- A read takes its whole record exactly when it is not an empty one with
padding. -/
theorem read_exact_iff {type : UInt8} (h : record.Arrives osRead type rest) :
    (∀ read, mpFcgiRead osRead none (record.encode type ++ rest) = some read →
      (record.encode type ++ rest).length =
        read.rest.length + (8 + read.contentLength + read.paddingLength)) ↔
    Response.Aligned record := by
  have hRecord := Record.mpFcgiRead_record record h
  have hLength : (record.encode type ++ rest).length =
      8 + record.content.length + record.padding.length + rest.length := by
    rw [List.length_append, Record.encode_length]
  constructor
  · intro hExact hEmpty
    have hWhole := hExact _ hRecord
    rw [hLength, Record.unread, if_pos hEmpty, List.length_append] at hWhole
    simp only at hWhole
    exact List.length_eq_zero_iff.mp (by omega)
  · intro hAligned read hSome
    rw [hRecord] at hSome
    cases hSome
    simp only
    rw [hLength, record.unread_aligned rest hAligned]
    omega

/-- A loop that is left with a pointer has read its first record. -/
theorem arrives_of_returns (hReads : ReadsFront osRead) {type : UInt8} {result : Option Block}
    (h : Returns (fetchPass osRead) { stream := record.encode type ++ rest, data := data }
      (some result)) : record.Arrives osRead type rest := by
  cases hRead : mpFcgiRead osRead none (record.encode type ++ rest) with
  | none =>
      have hExit : Returns (fetchPass osRead)
          { stream := record.encode type ++ rest, data := data } none := by
        apply Returns.leave
        rw [fetchPass, hRead]
      cases h.unique hExit
  | some read => exact record.arrives_of_read type rest hReads hRead

/-- In a run to the end, with reads that take whole records, the records have arrived and are
aligned. -/
theorem arrives_of_exact (hReads : ReadsFront osRead) {start : Fetching} {endRequest : Record}
    (hExact : ∀ s read, Reaches (fetchPass osRead) start s →
      mpFcgiRead osRead none s.stream = some read →
      s.stream.length = read.rest.length + (8 + read.contentLength + read.paddingLength))
    (output : List (Output × Record)) (data : Option Block) {result : Option Block}
    (hReaches : Reaches (fetchPass osRead) start
      { stream := encodeOutput output ++ endRequest.encode fcgiEndRequest, data := data })
    (hReturns : Returns (fetchPass osRead)
      { stream := encodeOutput output ++ endRequest.encode fcgiEndRequest, data := data }
      (some result)) :
    Response.OutputArrives osRead endRequest output ∧
      ∀ record ∈ endRequest :: output.map Prod.snd, Response.Aligned record := by
  induction output generalizing data with
  | nil =>
      have hStream : encodeOutput [] ++ endRequest.encode fcgiEndRequest =
          endRequest.encode fcgiEndRequest ++ [] := (List.append_nil _).symm
      rw [hStream] at hReaches hReturns
      have hArrives := arrives_of_returns hReads hReturns
      refine ⟨hArrives, fun record hRecord => ?_⟩
      rw [List.mem_singleton.mp hRecord]
      exact (read_exact_iff hArrives).mp fun read hSome => hExact _ read hReaches hSome
  | cons first output ih =>
      obtain ⟨kind, record⟩ := first
      rw [encodeOutput_cons] at hReaches hReturns
      have hArrives := arrives_of_returns hReads hReturns
      have hAligned : Response.Aligned record :=
        (read_exact_iff hArrives).mp fun read hSome => hExact _ read hReaches hSome
      have hPass := fetchPass_output hArrives data
      rw [record.unread_aligned _ hAligned] at hPass
      have hNext := hReaches.pass hPass
      obtain ⟨hBehind, hRest⟩ := ih _ hNext ((Reaches.start.pass hPass).returns hReturns)
      refine ⟨⟨hArrives, hBehind⟩, fun other hOther => ?_⟩
      rcases List.mem_cons.mp hOther with rfl | hMem
      · exact hRest _ List.mem_cons_self
      · rcases List.mem_cons.mp hMem with rfl | hMore
        · exact hAligned
        · exact hRest _ (List.mem_cons_of_mem _ hMore)

theorem exact_of_aligned {r : Response} (hArrives : r.ArrivesWhole osRead)
    (hAligned : ∀ record ∈ r.endRequest :: r.output.map Prod.snd, Response.Aligned record) :
    r.ReadsExactly osRead := by
  intro s read hReaches hSome
  -- The stream always starts at the front of a record.
  have hFront : ∃ back, back <:+ r.output ∧ Response.OutputArrives osRead r.endRequest back ∧
      s.stream = encodeOutput back ++ r.endRequest.encode fcgiEndRequest := by
    apply hReaches.invariant (fun s => ∃ back, back <:+ r.output ∧
      Response.OutputArrives osRead r.endRequest back ∧
      s.stream = encodeOutput back ++ r.endRequest.encode fcgiEndRequest)
    · exact ⟨r.output, List.suffix_rfl, hArrives, rfl⟩
    · rintro ⟨stream, data⟩ next _ ⟨back, hBack, hBehind, hStream⟩ hPass
      subst hStream
      cases back with
      | nil =>
          have hEnd := fetchPass_endRequest hBehind data
          rw [List.append_nil] at hEnd
          rw [encodeOutput, List.flatMap_nil, List.nil_append, hEnd] at hPass
          cases hPass
      | cons first back =>
          obtain ⟨kind, record⟩ := first
          have hMem : record ∈ r.endRequest :: r.output.map Prod.snd :=
            List.mem_cons_of_mem _ (List.mem_map.mpr ⟨_, hBack.subset List.mem_cons_self, rfl⟩)
          have hFirst := fetchPass_output hBehind.1 data
          rw [record.unread_aligned _ (hAligned record hMem)] at hFirst
          rw [encodeOutput_cons, hFirst] at hPass
          cases hPass
          exact ⟨back, (List.suffix_cons _ back).trans hBack, hBehind.2, rfl⟩
  obtain ⟨back, hBack, hBehind, hStream⟩ := hFront
  cases back with
  | nil =>
      have hEnd := (read_exact_iff hBehind).mpr (hAligned _ List.mem_cons_self) read
      rw [List.append_nil] at hEnd
      rw [encodeOutput, List.flatMap_nil, List.nil_append] at hStream
      rw [hStream] at hSome ⊢
      exact hEnd hSome
  | cons first back =>
      obtain ⟨kind, record⟩ := first
      have hMem : record ∈ r.endRequest :: r.output.map Prod.snd :=
        List.mem_cons_of_mem _ (List.mem_map.mpr ⟨_, hBack.subset List.mem_cons_self, rfl⟩)
      rw [encodeOutput_cons] at hStream
      rw [hStream] at hSome ⊢
      exact (read_exact_iff hBehind.1).mpr (hAligned record hMem) read hSome

end Run

section Data

/-- Only the last record of the body counts. -/
theorem dataAfter_eq (data : Option Block) (output : List (Output × Record)) :
    dataAfter data output =
      match (stdouts output).getLast? with
      | none => data
      | some record => record.pointer := by
  induction output generalizing data with
  | nil => rfl
  | cons first output ih =>
      obtain ⟨kind, record⟩ := first
      cases kind with
      | stderr => exact ih data
      | stdout =>
          have hRest := ih record.pointer
          have hStdouts : stdouts ((.stdout, record) :: output) = record :: stdouts output := rfl
          rw [hStdouts, List.getLast?_cons]
          cases hLast : (stdouts output).getLast? with
          | none =>
              rw [hLast] at hRest
              exact hRest
          | some last =>
              rw [hLast] at hRest
              exact hRest

/-- What the pointer to a record hands on: its content and padding up to the
first NUL. -/
theorem handedOn_pointer (record : Record) (text : List UInt8) :
    handedOn record.pointer = some text ↔
      record.content ≠ [] ∧ 0 ∈ record.content ++ record.padding ∧
        (record.content ++ record.padding).takeWhile (· != 0) = text := by
  rw [handedOn, Record.pointer]
  by_cases hEmpty : record.content = []
  · simp [hEmpty]
  · rw [if_neg hEmpty, Option.bind_some, Record.block, loadString_written]
    split
    · rename_i hZero
      simp [hEmpty, hZero]
    · rename_i hZero
      simp [hZero]

/-- A record hands on a text that ends with its content just when the content has
no NUL, its padding has one, and the padding up to there makes up for the rest. -/
theorem handedOn_body {record : Record} (hAligned : Response.Aligned record)
    (earlier : List UInt8) :
    handedOn record.pointer = some (earlier ++ record.content) ↔
      0 ∉ record.content ∧ 0 ∈ record.padding ∧
        record.content ++ record.padding.takeWhile (· != 0) = earlier ++ record.content := by
  rw [handedOn_pointer]
  by_cases hZero : 0 ∈ record.content
  · -- Then the text ends within the content.
    have hShorter : (record.content ++ record.padding).takeWhile (· != 0) ≠
        earlier ++ record.content := by
      obtain ⟨back, hSplit⟩ := CText.eq_takeWhile_append_cons hZero
      have hClean : ∀ c ∈ record.content.takeWhile (· != 0), (c != 0) = true :=
        fun c hc => List.mem_takeWhile_imp (p := (· != 0)) hc
      have hText : (record.content ++ record.padding).takeWhile (· != 0) =
          record.content.takeWhile (· != 0) := by
        conv => lhs; rw [hSplit, List.append_assoc]
        exact CText.takeWhile_append_stop hClean (by simp)
      intro hEq
      have hLength := congrArg List.length (hText.symm.trans hEq)
      have hWhole := congrArg List.length hSplit
      simp only [List.length_append, List.length_cons] at hLength hWhole
      omega
    exact ⟨fun hText => absurd hText.2.2 hShorter, fun hNone => absurd hZero hNone.1⟩
  · have hClean : ∀ c ∈ record.content, (c != 0) = true := by
      intro c hc
      simpa using fun he : c = 0 => hZero (he ▸ hc)
    rw [List.takeWhile_append_of_pos hClean]
    constructor
    · rintro ⟨_, hMem, hText⟩
      exact ⟨hZero, (List.mem_append.mp hMem).resolve_left hZero, hText⟩
    · rintro ⟨_, hMem, hText⟩
      have hSome : record.content ≠ [] := fun hEmpty => by
        rw [hAligned hEmpty] at hMem
        cases hMem
      exact ⟨hSome, List.mem_append_right _ hMem, hText⟩

theorem handedOn_last {r : Response}
    (hAligned : ∀ record ∈ r.endRequest :: r.output.map Prod.snd, Response.Aligned record) :
    handedOn (dataAfter none r.output) = some r.body ↔
      ∃ earlier record, stdouts r.output = earlier ++ [record] ∧ 0 ∉ record.content ∧
        0 ∈ record.padding ∧
        record.content ++ record.padding.takeWhile (· != 0) =
          earlier.flatMap Record.content ++ record.content := by
  rw [dataAfter_eq]
  cases hLast : (stdouts r.output).getLast? with
  | none =>
      have hNone : stdouts r.output = [] := List.getLast?_eq_none_iff.mp hLast
      simp [hNone, handedOn]
  | some record =>
      obtain ⟨earlier, hSplit⟩ := List.getLast?_eq_some_iff.mp hLast
      have hMem : record ∈ r.endRequest :: r.output.map Prod.snd := by
        have hStdout : record ∈ stdouts r.output := by simp [hSplit]
        obtain ⟨pair, hPair, rfl⟩ := List.mem_map.mp hStdout
        exact List.mem_cons_of_mem _ (List.mem_map_of_mem (List.mem_of_mem_filter hPair))
      have hBody : r.body = earlier.flatMap Record.content ++ record.content := by
        simp [Response.body, hSplit]
      simp only
      rw [hBody, handedOn_body (hAligned record hMem)]
      constructor
      · intro hEnds
        exact ⟨earlier, record, hSplit, hEnds⟩
      · rintro ⟨earlier', record', hSplit', hEnds⟩
        obtain ⟨rfl, hRecord⟩ := List.append_inj' (hSplit.symm.trans hSplit') rfl
        cases hRecord
        exact hEnds

theorem handsOnBody_iff {osRead : OsRead} {r : Response} (hArrives : r.ArrivesWhole osRead)
    (hAligned : ∀ record ∈ r.endRequest :: r.output.map Prod.snd, Response.Aligned record) :
    r.HandsOnBody osRead ↔ handedOn (dataAfter none r.output) = some r.body := by
  have hReturns := returns_output r.output hArrives
    (fun record hRecord => hAligned record (List.mem_cons_of_mem _ hRecord)) none
  constructor
  · rintro ⟨data, hOther, hText⟩
    have hSame := Option.some.inj (hOther.unique hReturns)
    rwa [← hSame]
  · exact fun hText => ⟨_, hReturns, hText⟩

end Data

/-- A response is read record by record and its body handed on if and only if every read
delivers what it asks for, no empty record carries padding, and the body lies in its last
record, which a NUL in the padding ends. -/
theorem response_reassembled_iff {osRead : OsRead} (hReads : ReadsFront osRead) (r : Response) :
    (r.ReadsExactly osRead ∧ r.HandsOnBody osRead) ↔ r.ArrivesWhole osRead ∧ r.InOneRecord := by
  constructor
  · rintro ⟨hExact, hBody⟩
    have ⟨data, hReturns, _⟩ := hBody
    obtain ⟨hArrives, hAligned⟩ :=
      arrives_of_exact hReads hExact r.output none Reaches.start hReturns
    have hHanded := (handsOnBody_iff hArrives hAligned).mp hBody
    exact ⟨hArrives, hAligned, (handedOn_last hAligned).mp hHanded⟩
  · rintro ⟨hArrives, hOne⟩
    have hHanded := (handedOn_last hOne.aligned).mpr hOne.last
    exact ⟨exact_of_aligned hArrives hOne.aligned,
      (handsOnBody_iff hArrives hOne.aligned).mpr hHanded⟩

/-- A body of one byte, padded. -/
def sampleRecord : Record where
  version := 1
  requestIdB1 := 0
  requestIdB0 := 42
  reserved := 0
  content := [98]
  padding := [0]
  contentFits := by decide
  paddingFits := by decide

def emptyRecord : Record where
  version := 1
  requestIdB1 := 0
  requestIdB0 := 42
  reserved := 0
  content := []
  padding := []
  contentFits := by decide
  paddingFits := by decide

def sampleResponse : Response where
  output := [(.stderr, sampleRecord), (.stdout, sampleRecord)]
  endRequest := sampleRecord

/-- All that is asked for has arrived. -/
def readAll : OsRead := fun count stream => (stream.take count, stream.drop count)

theorem readAll_front : ReadsFront readAll := ⟨fun count _ => ⟨count, Nat.le_refl _, rfl⟩⟩

theorem readAll_arrives (r : Response) : r.ArrivesWhole readAll := by
  rw [Response.ArrivesWhole]
  induction r.output with
  | nil => exact ⟨rfl, fun _ => rfl⟩
  | cons first output ih => exact ⟨⟨rfl, fun _ => rfl⟩, ih⟩

theorem response_reassembled_sample :
    sampleResponse.ReadsExactly readAll ∧ sampleResponse.HandsOnBody readAll := by
  have hOne : sampleResponse.InOneRecord :=
    ⟨by simp [sampleResponse, Response.Aligned, sampleRecord],
      [], sampleRecord, rfl, by decide, by decide, by decide⟩
  exact (response_reassembled_iff readAll_front sampleResponse).mpr
    ⟨readAll_arrives sampleResponse, hOne⟩

/-- The same body with the empty record that closes the stream of output. -/
def closedResponse : Response where
  output := [(.stdout, sampleRecord), (.stdout, emptyRecord)]
  endRequest := sampleRecord

/-- Of a body that is closed as the protocol wants it nothing is handed on. -/
theorem closedResponse_lost :
    ¬(closedResponse.ReadsExactly readAll ∧ closedResponse.HandsOnBody readAll) := by
  intro hWhole
  obtain ⟨data, hReturns, hText⟩ := hWhole.2
  have hLost : Returns (fetchPass readAll) closedResponse.start (some none) := by
    apply returns_output closedResponse.output (readAll_arrives closedResponse)
    simp [closedResponse, Response.Aligned, sampleRecord, emptyRecord]
  have hSame := Option.some.inj (hReturns.unique hLost)
  rw [hSame] at hText
  cases hText

end MonitoringPlug.Fcgi
