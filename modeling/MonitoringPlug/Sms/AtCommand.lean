import MonitoringPlug.Lib.Lines
import MonitoringPlug.Lib.Loop
import MonitoringPlug.Lib.Scanner
import MonitoringPlug.Lib.Text

/-! AT commands over a serial line: a command is written, and lines are read until one
that is a status. Every read goes to the front of the buffer, and no NUL is put behind what
it brings, so only the first read is sure to be understood. -/
namespace MonitoringPlug.Sms

open CMemory Scanner

/-- The size of `buf`. -/
def bufferSize : Nat := 64

def isLineEnd (c : UInt8) : Bool := c == 13 || c == 10

/-- The line that is sent. -/
def commandText (cmd : CString) (opt : Option CString) : List UInt8 :=
  ascii "AT" ++ cmd.bytes ++ (opt.map CString.bytes).getD [] ++ [13]

/-- The result for a line that is a status. -/
def status (line : List UInt8) : Option Int :=
  if line = ascii "OK" then some 0
  else if line = ascii "ERROR" then some 1
  else if (ascii "+CME ERROR: ").isPrefixOf line then some 1
  else none

/-- A line that starts with the command, when answers are asked for. -/
def isAnswer (cmd : CString) (want : Bool) (line : List UInt8) : Bool :=
  cmd.bytes.isPrefixOf line && want

/-- What is returned, and the answers that were stored. -/
structure Reply where
  code : Int
  answers : List (List UInt8)
deriving DecidableEq

/-- The variables of the loops, and what is still to arrive. Without a `ptr` the next thing
is to read. -/
structure Reader where
  buf : Block
  ptr : Option Nat
  len : Nat
  answers : List (List UInt8)
  pending : List (List UInt8)

/-- A pass ends with a reply, or with a fault: a byte was read that was never written, or
one outside of the buffer. -/
abbrev ReaderPass : Type := CLoop.Pass Reader (Option Reply)

/-- What a `read` leaves of a chunk is there for the next one. -/
def unread (chunk : List UInt8) (later : List (List UInt8)) : List (List UInt8) :=
  if chunk.isEmpty then later else chunk :: later

/-- `select` and `read`. When nothing arrives any more the time is up. -/
def receive (r : Reader) : ReaderPass :=
  match r.pending with
  | [] => .leave (some ⟨-1, r.answers⟩)
  | chunk :: later =>
      let size := bufferSize - r.len
      if (chunk.take size).isEmpty then .leave (some ⟨-1, r.answers⟩)
      else
        match store r.buf 0 (chunk.take size) with
        | none => .leave none
        | some buf =>
            .again { r with buf := buf, ptr := some 0, pending := unread (chunk.drop size) later }

/-- The line that `strsep` ended. -/
def takeLine (cmd : CString) (want : Bool) (r : Reader) (line : Nat) : ReaderPass :=
  match loadString (r.buf.drop line) with
  | none => .leave none
  | some text =>
      if text.isEmpty then .again r
      else
        match status text with
        | some code => .leave (some ⟨code, r.answers⟩)
        | none =>
            if isAnswer cmd want text then
              match loadString (r.buf.drop (line + (cmd.strlen + 2))) with
              | none => .leave none
              | some answer => .again { r with answers := r.answers ++ [answer] }
            else .again r

/-- The unfinished line is moved to the front. -/
def moveBuffer (r : Reader) (line : Nat) : ReaderPass :=
  match loadString (r.buf.drop line) with
  | none => .leave none
  | some text =>
      match store r.buf 0 (text ++ [0]) with
      | none => .leave none
      | some buf => .again { r with buf := buf, ptr := none, len := text.length }

/-- One pass of the two loops: a read, or a line. -/
def pass (cmd : CString) (want : Bool) (r : Reader) : ReaderPass :=
  match r.ptr with
  | none => receive r
  | some line =>
      match strsep isLineEnd r.buf line with
      | none => .leave none
      | some (buf, none) => moveBuffer { r with buf := buf } line
      | some (buf, some ptr) => takeLine cmd want { r with buf := buf, ptr := some ptr } line

/-- The device: whether it takes all of what is written, and what it sends, in the chunks
that arrive before the time is up. -/
structure Modem where
  takes : List UInt8 → Bool
  sends : List (List UInt8)

/-- Everything is written: the command, the input and the `^Z` behind it. -/
def Modem.Takes (modem : Modem) (text : List UInt8) (input : Option CString) : Prop :=
  modem.takes text = true ∧
    ∀ s ∈ input, modem.takes s.bytes = true ∧ modem.takes [13, 26] = true

instance (modem : Modem) (text : List UInt8) (input : Option CString) :
    Decidable (modem.Takes text input) :=
  inferInstanceAs (Decidable (_ ∧ _))

/-- Where the command does not fit into the buffer `mp_snprintf` exits. -/
def mobileAtCommandInput (modem : Modem) (cmd : CString) (opt input : Option CString)
    (want : Bool) (reply : Option Reply) : Prop :=
  ∃ buf, store (malloc bufferSize) 0 (commandText cmd opt ++ [0]) = some buf ∧
    if modem.Takes (commandText cmd opt) input then
      CLoop.Returns (pass cmd want)
        { buf := buf, ptr := none, len := 0, answers := [], pending := modem.sends } reply
    else reply = some ⟨-1, []⟩

/-- The lines of a stream in front of its final one. -/
def beforeFinal (stream : List UInt8) : List (List UInt8) :=
  (completeLines isLineEnd stream).takeWhile fun line => (status line).isNone

/-- The reply to a stream, however it arrives: the result of its first status line, and
from the lines in front of that one the text behind the command. -/
def expectedReply (cmd : CString) (want : Bool) (stream : List UInt8) : Option Reply :=
  ((completeLines isLineEnd stream).findSome? status).map fun code =>
    ⟨code, ((beforeFinal stream).filter (isAnswer cmd want)).map fun line =>
      line.drop (cmd.strlen + 2)⟩

section Expected

variable (cmd : CString) (want : Bool) {line : List UInt8} {c : UInt8} (rest : List UInt8)

theorem expectedReply_unfinished (h : ∀ c ∈ line, isLineEnd c = false) :
    expectedReply cmd want line = none := by
  rw [expectedReply, completeLines_unfinished h]
  rfl

theorem expectedReply_empty (hEnd : isLineEnd c = true) :
    expectedReply cmd want (c :: rest) = expectedReply cmd want rest ∧
      beforeFinal (c :: rest) = beforeFinal rest := by
  simp only [expectedReply, beforeFinal, completeLines_empty hEnd rest, and_self]

theorem expectedReply_status (hLine : ∀ c ∈ line, isLineEnd c = false) (hEnd : isLineEnd c = true)
    (hSome : line ≠ []) {code : Int} (hStatus : status line = some code) :
    expectedReply cmd want (line ++ c :: rest) = some ⟨code, []⟩ ∧
      beforeFinal (line ++ c :: rest) = [] := by
  have hLines := completeLines_line hLine hEnd rest
  rw [if_neg (by simpa using hSome)] at hLines
  simp [expectedReply, beforeFinal, hLines, hStatus]

theorem expectedReply_line (hLine : ∀ c ∈ line, isLineEnd c = false) (hEnd : isLineEnd c = true)
    (hSome : line ≠ []) (hStatus : status line = none) :
    expectedReply cmd want (line ++ c :: rest) =
        (expectedReply cmd want rest).map (fun reply =>
          if isAnswer cmd want line then
            { reply with answers := line.drop (cmd.strlen + 2) :: reply.answers }
          else reply) ∧
      beforeFinal (line ++ c :: rest) = line :: beforeFinal rest := by
  have hLines := completeLines_line hLine hEnd rest
  rw [if_neg (by simpa using hSome)] at hLines
  constructor
  · cases hAnswer : isAnswer cmd want line with
    | true => simp [expectedReply, beforeFinal, hLines, hStatus, hAnswer, Function.comp_def]
    | false => simp [expectedReply, beforeFinal, hLines, hStatus, hAnswer]
  · simp [beforeFinal, hLines, hStatus]

/-- A stream starts with an empty line, a status line or another line, if with any. -/
theorem stream_induction {motive : List UInt8 → Prop}
    (unfinished : ∀ line, (∀ c ∈ line, isLineEnd c = false) → motive line)
    (empty : ∀ c rest, isLineEnd c = true → motive rest → motive (c :: rest))
    (final : ∀ line c rest code, (∀ c ∈ line, isLineEnd c = false) → isLineEnd c = true →
      line ≠ [] → status line = some code → motive (line ++ c :: rest))
    (line : ∀ line c rest, (∀ c ∈ line, isLineEnd c = false) → isLineEnd c = true → line ≠ [] →
      status line = none → motive rest → motive (line ++ c :: rest))
    (stream : List UInt8) : motive stream := by
  induction stream using lines_induction (p := isLineEnd) with
  | unfinished text hText => exact unfinished text hText
  | line text c rest hText hEnd ih =>
      by_cases hSome : text = []
      · subst hSome
        exact empty c rest hEnd ih
      · cases hStatus : status text with
        | some code => exact final text c rest code hText hEnd hSome hStatus
        | none => exact line text c rest hText hEnd hSome hStatus ih

end Expected

section Scan

variable {cmd : CString} {want : Bool} {front line rest text : List UInt8} {c : UInt8}
  {back : Block} {len : Nat} {answers pending : List (List UInt8)}

/-- The reader in front of a text in its buffer. -/
def atText (front text : List UInt8) (back : Block) (len : Nat)
    (answers pending : List (List UInt8)) : Reader where
  buf := front.map some ++ (text.map some ++ back)
  ptr := some front.length
  len := len
  answers := answers
  pending := pending

theorem zero_not_lineEnd (h : isLineEnd c = true) : c ≠ 0 := by
  rintro rfl
  cases h

/-- The line behind `front` is taken, and the NUL is where its delimiter was. -/
theorem pass_line (hLine : ∀ c ∈ line, isLineEnd c = false) (hFree : 0 ∉ line)
    (hEnd : isLineEnd c = true) :
    pass cmd want (atText front (line ++ c :: rest) back len answers pending) =
      takeLine cmd want (atText (front ++ line ++ [0]) rest back len answers pending)
        front.length := by
  have hBuf : (line ++ c :: rest).map some ++ back =
      line.map some ++ some c :: (rest.map some ++ back) := by simp
  simp only [pass, atText, hBuf, strsep_line front hLine hFree hEnd (zero_not_lineEnd hEnd)]

/-- What is read from inside of a line that was taken. -/
theorem loadString_line (hFree : 0 ∉ line) {skip : Nat} (hSkip : skip ≤ line.length) :
    loadString ((atText (front ++ line ++ [0]) rest back len answers pending).buf.drop
      (front.length + skip)) = some (line.drop skip) := by
  have hTail : 0 ∉ line.drop skip := fun hMem => hFree (List.mem_of_mem_drop hMem)
  have hHolds : Holds ((atText (front ++ line ++ [0]) rest back len answers pending).buf.drop
      (front.length + skip)) (CString.mk (line.drop skip) hTail).terminated := by
    refine ⟨rest.map some ++ back, ?_⟩
    simp [atText, CString.terminated, List.drop_append, Nat.sub_eq_zero_of_le hSkip]
  exact hHolds.loadString

/-- What is done with a line, by its text. -/
theorem takeLine_text (hFree : 0 ∉ line) :
    let r := atText (front ++ line ++ [0]) rest back len answers pending
    takeLine cmd want r front.length =
      if line.isEmpty then .again r
      else
        match status line with
        | some code => .leave (some ⟨code, answers⟩)
        | none =>
            if isAnswer cmd want line then
              match loadString (r.buf.drop (front.length + (cmd.strlen + 2))) with
              | none => .leave none
              | some answer => .again { r with answers := answers ++ [answer] }
            else .again r := by
  intro r
  have hLoad : loadString (r.buf.drop front.length) = some line :=
    loadString_line hFree (Nat.zero_le _)
  rw [takeLine, hLoad]
  rfl

/-- A line that is not a status is a fault or it is left behind. -/
theorem pass_noStatus (hLine : ∀ c ∈ line, isLineEnd c = false) (hFree : 0 ∉ line)
    (hEnd : isLineEnd c = true) (hStatus : line ≠ [] → status line = none) :
    pass cmd want (atText front (line ++ c :: rest) back len answers pending) = .leave none ∨
      ∃ answers', pass cmd want (atText front (line ++ c :: rest) back len answers pending) =
        .again (atText (front ++ line ++ [0]) rest back len answers' pending) := by
  rw [pass_line hLine hFree hEnd, takeLine_text hFree]
  by_cases hSome : line = []
  · subst hSome
    exact .inr ⟨answers, rfl⟩
  · simp only [List.isEmpty_iff, hSome, if_false, hStatus hSome]
    split
    · split
      · exact .inl rfl
      · exact .inr ⟨_, rfl⟩
    · exact .inr ⟨answers, rfl⟩

/-- A final line in the buffer is found, with the answers in front of it. -/
theorem scan_returns (hFree : 0 ∉ text) {reply : Reply}
    (hReply : expectedReply cmd want text = some reply)
    (hLong : ∀ line ∈ beforeFinal text, isAnswer cmd want line = true →
      cmd.strlen + 2 ≤ line.length) :
    CLoop.Returns (pass cmd want) (atText front text back len answers pending)
      (some ⟨reply.code, answers ++ reply.answers⟩) := by
  induction text using stream_induction generalizing front answers reply with
  | unfinished line hLine => rw [expectedReply_unfinished cmd want hLine] at hReply; cases hReply
  | empty c rest hEnd ih =>
      have hRestFree : 0 ∉ rest := fun hMem => hFree (List.mem_cons_of_mem _ hMem)
      have hPass : pass cmd want (atText front (c :: rest) back len answers pending) = _ :=
        (pass_line (List.forall_mem_nil _) List.not_mem_nil hEnd).trans
          (takeLine_text List.not_mem_nil)
      rw [(expectedReply_empty cmd want rest hEnd).1] at hReply
      rw [(expectedReply_empty cmd want rest hEnd).2] at hLong
      exact .again hPass (ih hRestFree hReply hLong)
  | final line c rest code hLine hEnd hSome hStatus =>
      have hLineFree : 0 ∉ line := fun hMem => hFree (List.mem_append_left _ hMem)
      have hPass : pass cmd want (atText front (line ++ c :: rest) back len answers pending) = _ :=
        (pass_line hLine hLineFree hEnd).trans (takeLine_text hLineFree)
      simp only [List.isEmpty_iff, hSome, if_false, hStatus] at hPass
      rw [(expectedReply_status cmd want rest hLine hEnd hSome hStatus).1] at hReply
      cases hReply
      rw [List.append_nil]
      exact .leave hPass
  | line line c rest hLine hEnd hSome hStatus ih =>
      have hLineFree : 0 ∉ line := fun hMem => hFree (List.mem_append_left _ hMem)
      have hRestFree : 0 ∉ rest := fun hMem =>
        hFree (List.mem_append_right _ (List.mem_cons_of_mem _ hMem))
      have hPass : pass cmd want (atText front (line ++ c :: rest) back len answers pending) = _ :=
        (pass_line hLine hLineFree hEnd).trans (takeLine_text hLineFree)
      simp only [List.isEmpty_iff, hSome, if_false, hStatus] at hPass
      obtain ⟨hNext, hBefore⟩ := expectedReply_line cmd want rest hLine hEnd hSome hStatus
      rw [hNext] at hReply
      rw [hBefore] at hLong
      obtain ⟨later, hLater, rfl⟩ := Option.map_eq_some_iff.mp hReply
      have hRest : ∀ answers, CLoop.Returns (pass cmd want)
          (atText (front ++ line ++ [0]) rest back len answers pending)
          (some ⟨later.code, answers ++ later.answers⟩) := fun answers =>
        ih hRestFree hLater fun line' hLine' => hLong line' (List.mem_cons_of_mem _ hLine')
      cases hAnswer : isAnswer cmd want line with
      | true =>
          have hSkip := hLong line List.mem_cons_self hAnswer
          rw [if_pos hAnswer, loadString_line hLineFree hSkip] at hPass
          have hGoes := CLoop.Returns.again hPass (hRest _)
          simpa [hAnswer, List.append_assoc] using hGoes
      | false =>
          rw [if_neg (by simp [hAnswer])] at hPass
          have hGoes := CLoop.Returns.again hPass (hRest answers)
          simpa [hAnswer] using hGoes

/-- The unfinished line behind `front` is moved there. -/
theorem pass_unfinished (hLine : ∀ c ∈ line, isLineEnd c = false) (hFree : 0 ∉ line) :
    pass cmd want (atText front line (some 0 :: back) len answers pending) =
      .again {
        buf := (line ++ [0]).map some ++
          (front.map some ++ (line.map some ++ some 0 :: back)).drop (line.length + 1)
        ptr := none
        len := line.length
        answers := answers
        pending := pending } := by
  have hLoad : loadString ((front.map some ++ (line.map some ++ some 0 :: back)).drop
      front.length) = some line := by
    have hHolds : Holds ((front.map some ++ (line.map some ++ some 0 :: back)).drop front.length)
        (CString.mk line hFree).terminated := ⟨back, by simp [CString.terminated]⟩
    exact hHolds.loadString
  have hStore : store (front.map some ++ (line.map some ++ some 0 :: back)) 0 (line ++ [0]) =
      some ((line ++ [0]).map some ++
        (front.map some ++ (line.map some ++ some 0 :: back)).drop (line.length + 1)) := by
    rw [store, if_pos (by simp; omega)]
    simp
  simp only [pass, atText, strsep_unfinished front hLine hFree back, moveBuffer, hLoad, hStore]

end Scan

section Fails

variable {cmd : CString} {want : Bool} {r next : Reader} {front text : List UInt8}
  {back : Block} {len : Nat} {answers pending : List (List UInt8)}

/-- The reader ends without the result of a status line: with a fault, or when the time
is up. -/
def Fails (cmd : CString) (want : Bool) (r : Reader) : Prop :=
  ∃ result, CLoop.Returns (pass cmd want) r result ∧ ∀ reply ∈ result, reply.code = -1

theorem Fails.again (h : pass cmd want r = .again next) (hNext : Fails cmd want next) :
    Fails cmd want r := by
  obtain ⟨result, hReturns, hCode⟩ := hNext
  exact ⟨result, hReturns.again h, hCode⟩

theorem Fails.fault (h : pass cmd want r = .leave none) : Fails cmd want r :=
  ⟨none, .leave h, fun _ hReply => by cases hReply⟩

/-- Without a status line the scan fails where the unfinished line behind the others does. -/
theorem scan_fails (hFree : 0 ∉ text)
    (hNone : ∀ line ∈ completeLines isLineEnd text, status line = none)
    (hFront : ∀ c ∈ front, isLineEnd c = false)
    (hEnd : ∀ front' last answers', front'.length + last.length = front.length + text.length →
      (∀ c ∈ front', isLineEnd c = false) → (∀ c ∈ last, isLineEnd c = false) → 0 ∉ last →
      Fails cmd want (atText front' last back len answers' pending)) :
    Fails cmd want (atText front text back len answers pending) := by
  induction text using lines_induction (p := isLineEnd) generalizing front answers with
  | unfinished line hLine => exact hEnd front line answers rfl hFront hLine hFree
  | line line c rest hLine hDelimiter ih =>
      have hLines := completeLines_line hLine hDelimiter rest
      have hStatus : line ≠ [] → status line = none := by
        intro hSome
        rw [if_neg (by simpa using hSome)] at hLines
        exact hNone line (hLines ▸ List.mem_cons_self)
      have hRest : ∀ line' ∈ completeLines isLineEnd rest, status line' = none := by
        intro line' hLine'
        refine hNone line' ?_
        rw [hLines]
        split
        · exact hLine'
        · exact List.mem_cons_of_mem _ hLine'
      have hLineFree : 0 ∉ line := fun hMem => hFree (List.mem_append_left _ hMem)
      have hPass : pass cmd want (atText front (line ++ c :: rest) back len answers pending) =
          .leave none ∨ ∃ answers', pass cmd want
            (atText front (line ++ c :: rest) back len answers pending) =
              .again (atText (front ++ line ++ [0]) rest back len answers' pending) :=
        pass_noStatus hLine hLineFree hDelimiter hStatus
      rcases hPass with hFault | ⟨answers', hAgain⟩
      · exact .fault hFault
      · refine .again hAgain (ih ?_ hRest ?_ ?_)
        · exact fun hMem => hFree (List.mem_append_right _ (List.mem_cons_of_mem _ hMem))
        · intro d hd
          rcases List.mem_append.mp hd with hFirst | hNul
          · rcases List.mem_append.mp hFirst with hOld | hNew
            · exact hFront d hOld
            · exact hLine d hNew
          · rw [List.mem_singleton.mp hNul]
            rfl
        · intro front' last answers'' hLength
          refine hEnd front' last answers'' (hLength.trans ?_)
          simp only [List.length_append, List.length_cons, List.length_nil]
          omega

/-- Between two reads: what was written is without delimiters, and ends with the NUL of the
command. -/
structure Swept (r : Reader) (cells : List UInt8) : Prop where
  ptr : r.ptr = none
  buf : ∃ behind, r.buf = cells.map some ++ behind ∧ cells.length + behind.length = bufferSize
  len : r.len < bufferSize
  room : 2 ≤ cells.length
  last : cells.getLast? = some 0
  clean : ∀ c ∈ cells, isLineEnd c = false

/-- A byte is read over the first one. -/
theorem Swept.receive {cells : List UInt8} (h : Swept r cells) {c : UInt8}
    (hPending : r.pending = [c] :: pending) :
    ∃ string tail behind, pass cmd want r =
        .again (atText [] (c :: string) (some 0 :: (tail.map some ++ behind)) r.len r.answers
          pending) ∧
      (string ++ 0 :: tail).length + 1 + behind.length = bufferSize ∧ 0 ∉ string ∧
      (0 :: tail).getLast? = some 0 ∧ ∀ d ∈ string ++ tail, isLineEnd d = false := by
  obtain ⟨behind, hBuf, hSize⟩ := h.buf
  have hRoom := h.room
  have hLast := h.last
  have hLen := h.len
  match cells with
  | [] => simp at hRoom
  | [_] => simp at hRoom
  | old :: d :: rest =>
      rw [List.getLast?_cons_cons] at hLast
      obtain ⟨tail, hTail⟩ := CText.eq_takeWhile_append_cons (List.mem_of_getLast? hLast)
      refine ⟨(d :: rest).takeWhile (· != 0), tail, behind, ?_, ?_, ?_, ?_, ?_⟩
      · have hTake : [c].take (bufferSize - r.len) = [c] :=
          List.take_of_length_le (by simp only [List.length_singleton]; omega)
        have hDrop : [c].drop (bufferSize - r.len) = [] :=
          List.drop_eq_nil_of_le (by simp only [List.length_singleton]; omega)
        have hStore : store r.buf 0 [c] = some ((c :: d :: rest).map some ++ behind) := by
          rw [hBuf]
          exact store_cell [] (some old) c _
        have hCells : (c :: d :: rest).map some ++ behind =
            (c :: (d :: rest).takeWhile (· != 0)).map some ++
              some 0 :: (tail.map some ++ behind) := by
          have hSame := congrArg (fun cells => (c :: cells).map some ++ behind) hTail
          simpa using hSame
        rw [hCells] at hStore
        simp [pass, h.ptr, MonitoringPlug.Sms.receive, hPending, hTake, hDrop, hStore, unread,
          atText]
      · rw [← hTail]
        simp only [List.length_cons] at hSize ⊢
        omega
      · intro hZero
        simpa using List.mem_takeWhile_imp hZero
      · rw [hTail] at hLast
        rwa [List.getLast?_append_cons] at hLast
      · intro e he
        refine h.clean e (List.mem_cons_of_mem _ ?_)
        rw [hTail]
        rcases List.mem_append.mp he with hFront | hBack
        · exact List.mem_append_left _ hFront
        · exact List.mem_append_right _ (List.mem_cons_of_mem _ hBack)

/-- What is moved to the front leaves no delimiter either. -/
theorem swept_moved (front last tail : List UInt8) (behind : Block)
    (answers pending : List (List UInt8))
    (hSize : front.length + last.length + (0 :: tail).length + behind.length = bufferSize)
    (hRoom : 2 ≤ front.length + last.length + (0 :: tail).length)
    (hClean : ∀ d ∈ front ++ last ++ tail, isLineEnd d = false)
    (hLast : (0 :: tail).getLast? = some 0) :
    Swept {
      buf := (last ++ [0]).map some ++
        (front.map some ++ (last.map some ++ some 0 :: (tail.map some ++ behind))).drop
          (last.length + 1)
      ptr := none
      len := last.length
      answers := answers
      pending := pending }
      (last ++ [0] ++ (front ++ (last ++ 0 :: tail)).drop (last.length + 1)) := by
  have hBuf : front.map some ++ (last.map some ++ some 0 :: (tail.map some ++ behind)) =
      (front ++ (last ++ 0 :: tail)).map some ++ behind := by simp
  have hInside : last.length + 1 ≤ (front ++ (last ++ 0 :: tail)).length := by
    simp only [List.length_append, List.length_cons]
    omega
  have hLength : (last ++ [0] ++ (front ++ (last ++ 0 :: tail)).drop (last.length + 1)).length =
      front.length + last.length + (0 :: tail).length := by
    simp only [List.length_append, List.length_cons, List.length_drop, List.length_nil]
      at hInside ⊢
    omega
  constructor
  · rfl
  · refine ⟨behind, ?_, by rw [hLength, hSize]⟩
    have hMapped : last.length + 1 ≤ ((front ++ (last ++ 0 :: tail)).map some).length := by
      rw [List.length_map]
      exact hInside
    have hDrop : ((front ++ (last ++ 0 :: tail)).map some ++ behind).drop (last.length + 1) =
        ((front ++ (last ++ 0 :: tail)).map some).drop (last.length + 1) ++ behind :=
      List.drop_append_of_le_length hMapped
    show (last ++ [0]).map some ++ List.drop _ _ = _
    rw [hBuf, hDrop, ← List.map_drop, ← List.append_assoc, ← List.map_append]
  · simp only [List.length_cons] at hSize
    show last.length < bufferSize
    omega
  · omega
  · rw [List.getLast?_append, List.getLast?_drop]
    split
    · simp
    · rw [List.getLast?_append, List.getLast?_append, hLast]
      rfl
  · intro d hd
    rcases List.mem_append.mp hd with hMoved | hKept
    · rcases List.mem_append.mp hMoved with hText | hNul
      · exact hClean d (by simp [hText])
      · rw [List.mem_singleton.mp hNul]
        rfl
    · have hOld := List.mem_of_mem_drop hKept
      by_cases hZero : d = 0
      · rw [hZero]
        rfl
      · exact hClean d (by simpa [hZero] using hOld)

/-- Where every read is of one byte, no status line is found any more. -/
theorem swept_fails {cells : List UInt8} (h : Swept r cells)
    (hPending : ∀ chunk ∈ r.pending, ∃ c, c ≠ 0 ∧ chunk = [c]) : Fails cmd want r := by
  induction hRest : r.pending generalizing r cells with
  | nil =>
      refine ⟨some ⟨-1, r.answers⟩, .leave ?_, fun reply hReply => by cases hReply; rfl⟩
      simp only [pass, h.ptr, MonitoringPlug.Sms.receive, hRest]
  | cons chunk later ih =>
      obtain ⟨c, hSome, rfl⟩ := hPending chunk (hRest ▸ List.mem_cons_self)
      obtain ⟨string, tail, behind, hReceive, hSize, hFree, hLast, hClean⟩ := h.receive hRest
      have hString : ∀ d ∈ string, isLineEnd d = false := fun d hd =>
        hClean d (List.mem_append_left _ hd)
      -- Only the byte itself may be a delimiter, and then the line in front of it is empty.
      have hNone : completeLines isLineEnd (c :: string) = [] := by
        cases hEnd : isLineEnd c with
        | true => rw [completeLines_empty hEnd string, completeLines_unfinished hString]
        | false =>
            refine completeLines_unfinished fun d hd => ?_
            rcases List.mem_cons.mp hd with rfl | hd
            · exact hEnd
            · exact hString d hd
      refine .again hReceive (scan_fails ?_ ?_ (List.forall_mem_nil _) ?_)
      · intro hZero
        rcases List.mem_cons.mp hZero with hFirst | hRestZero
        · exact hSome hFirst.symm
        · exact hFree hRestZero
      · rw [hNone]
        exact List.forall_mem_nil _
      · intro front last answers' hLength hFront hUnfinished hLastFree
        simp only [List.length_append, List.length_cons, List.length_nil] at hLength hSize
        refine .again (pass_unfinished hUnfinished hLastFree)
          (ih (swept_moved _ _ _ _ _ _ ?_ ?_ ?_ hLast) ?_ rfl)
        · simp only [List.length_cons]
          omega
        · simp only [List.length_cons]
          omega
        · intro d hd
          rcases List.mem_append.mp hd with hText | hTail
          · rcases List.mem_append.mp hText with hOld | hNew
            · exact hFront d hOld
            · exact hUnfinished d hNew
          · exact hClean d (List.mem_append_right _ hTail)
        · exact fun chunk hChunk => hPending chunk (hRest ▸ List.mem_cons_of_mem _ hChunk)

end Fails

/-- A command of one line, which fits into the buffer. -/
structure AtCommand where
  cmd : CString
  opt : Option CString
  oneLine : ∀ c ∈ cmd.bytes ++ (opt.map CString.bytes).getD [], isLineEnd c = false
  fits : (commandText cmd opt).length < bufferSize

/-- What a modem sends: lines without NUL, one of them final. The ones in front of it that
are asked for have a colon and a blank behind the command. -/
structure ModemStream (cmd : CString) (want : Bool) where
  bytes : List UInt8
  nulFree : 0 ∉ bytes
  final : ∃ line ∈ completeLines isLineEnd bytes, (status line).isSome
  answers : ∀ line ∈ beforeFinal bytes, isAnswer cmd want line = true →
    cmd.bytes ++ ascii ": " <+: line

/-- What is in the buffer after the first read: this, and behind it the end of the command
if the read was shorter. -/
def firstText (cmd : CString) (opt : Option CString) (first : List UInt8) : List UInt8 :=
  let read := first.take bufferSize
  read ++ (commandText cmd opt).drop read.length

/-- And behind that. -/
def behindFirst (cmd : CString) (opt : Option CString) (first : List UInt8) : Block :=
  let sent := (commandText cmd opt).length
  let read := (first.take bufferSize).length
  if read ≤ sent then some 0 :: List.replicate (bufferSize - (sent + 1)) none
  else List.replicate (bufferSize - read) none

section First

variable {command : AtCommand} {want : Bool} {first : List UInt8}

theorem AtCommand.text_eq (command : AtCommand) : ∃ body,
    commandText command.cmd command.opt = body ++ [13] ∧ 3 ≤ (body ++ [13]).length ∧
      0 ∉ body ∧ ∀ c ∈ body, isLineEnd c = false := by
  refine ⟨ascii "AT" ++ command.cmd.bytes ++ (command.opt.map CString.bytes).getD [], rfl, ?_,
    ?_, ?_⟩
  · simp [ascii]
    omega
  · cases hOpt : command.opt with
    | none => simp [ascii, command.cmd.nulFree]
    | some opt => simp [ascii, command.cmd.nulFree, opt.nulFree]
  · intro c hc
    rw [List.append_assoc] at hc
    rcases List.mem_append.mp hc with hAt | hOwn
    · have hBytes : c = 65 ∨ c = 84 := by simpa [ascii] using hAt
      rcases hBytes with rfl | rfl
      · rfl
      · rfl
    · exact command.oneLine c hOwn

theorem commandText_inside (command : AtCommand) :
    0 + (commandText command.cmd command.opt ++ [0]).length ≤ (malloc bufferSize).length := by
  have hFits := command.fits
  simp only [malloc_length, List.length_append, List.length_singleton]
  omega

/-- The first read goes over the command that was sent. -/
theorem store_first {buf : Block}
    (hBuf : store (malloc bufferSize) 0 (commandText command.cmd command.opt ++ [0]) = some buf) :
    store buf 0 (first.take bufferSize) =
      some ((firstText command.cmd command.opt first).map some ++
        behindFirst command.cmd command.opt first) := by
  have hFits := command.fits
  have hSent : buf = (commandText command.cmd command.opt ++ [0]).map some ++
      List.replicate (bufferSize - ((commandText command.cmd command.opt).length + 1)) none := by
    rw [store, if_pos (commandText_inside command)] at hBuf
    rw [← Option.some.inj hBuf]
    simp [malloc]
  have hRead : (first.take bufferSize).length ≤ bufferSize := by
    rw [List.length_take]
    exact Nat.min_le_left _ _
  have hLength : buf.length = bufferSize := by
    rw [hSent]
    simp only [List.length_append, List.length_map, List.length_singleton, List.length_replicate]
    omega
  have hDrop : buf.drop (first.take bufferSize).length =
      ((commandText command.cmd command.opt).drop (first.take bufferSize).length).map some ++
        behindFirst command.cmd command.opt first := by
    rw [hSent, behindFirst]
    split
    · rename_i hShort
      rw [List.map_append, List.append_assoc, List.drop_append_of_le_length (by simpa using hShort),
        List.map_drop]
      rfl
    · rename_i hLong
      have hNothing : (commandText command.cmd command.opt).drop (first.take bufferSize).length =
          [] := List.drop_eq_nil_of_le (by omega)
      rw [hNothing, List.drop_append, List.drop_eq_nil_of_le
        (by simp only [List.length_map, List.length_append, List.length_singleton]; omega),
        List.drop_replicate, List.map_nil]
      congr 2
      simp only [List.length_map, List.length_append, List.length_singleton]
      omega
  rw [store, if_pos (by omega), Nat.zero_add, hDrop, firstText]
  simp

theorem pass_first (h : first ≠ []) {later : List (List UInt8)} {buf : Block}
    (hBuf : store (malloc bufferSize) 0 (commandText command.cmd command.opt ++ [0]) = some buf) :
    pass command.cmd want ⟨buf, none, 0, [], first :: later⟩ =
      .again (atText [] (firstText command.cmd command.opt first)
        (behindFirst command.cmd command.opt first) 0 []
        (unread (first.drop bufferSize) later)) := by
  have hSome : (first.take bufferSize).isEmpty = false := by
    cases first with
    | nil => exact absurd rfl h
    | cons c first => rfl
  simp only [pass, receive, Nat.sub_zero, hSome, Bool.false_eq_true, if_false, store_first hBuf]
  rfl

theorem firstText_nulFree (hFree : 0 ∉ first) :
    0 ∉ firstText command.cmd command.opt first := by
  obtain ⟨body, hText, _, hBody, _⟩ := command.text_eq
  intro hZero
  rcases List.mem_append.mp hZero with hRead | hLeft
  · exact hFree (List.mem_of_mem_take hRead)
  · have hSent := List.mem_of_mem_drop hLeft
    rw [hText] at hSent
    rcases List.mem_append.mp hSent with hMem | hReturn
    · exact hBody hMem
    · cases List.mem_singleton.mp hReturn

/-- What is left of the command ends at most one line. -/
theorem beforeFinal_left {cmd : CString} {line : List UInt8}
    (hLine : ∀ c ∈ line, isLineEnd c = false) (skip : Nat)
    (hFinal : (expectedReply cmd want
      (line ++ (commandText command.cmd command.opt).drop skip)).isSome) :
    beforeFinal (line ++ (commandText command.cmd command.opt).drop skip) = [] := by
  obtain ⟨body, hText, _, _, hBody⟩ := command.text_eq
  rw [hText, List.drop_append] at hFinal ⊢
  by_cases hAll : skip ≤ body.length
  · have hEnd : ([13] : List UInt8).drop (skip - body.length) = [13] := by
      rw [Nat.sub_eq_zero_of_le hAll]
      rfl
    rw [hEnd, ← List.append_assoc] at hFinal ⊢
    have hWhole : ∀ c ∈ line ++ body.drop skip, isLineEnd c = false := by
      intro c hc
      rcases List.mem_append.mp hc with hRead | hLeft
      · exact hLine c hRead
      · exact hBody c (List.mem_of_mem_drop hLeft)
    have hNothing : expectedReply cmd want [] = none := rfl
    by_cases hSome : line ++ body.drop skip = []
    · rw [hSome, List.nil_append, (expectedReply_empty cmd want [] rfl).1] at hFinal
      cases hFinal
    · cases hStatus : status (line ++ body.drop skip) with
      | some code => exact (expectedReply_status cmd want [] hWhole rfl hSome hStatus).2
      | none =>
          rw [(expectedReply_line cmd want [] hWhole rfl hSome hStatus).1, hNothing] at hFinal
          cases hFinal
  · have hEnd : ([13] : List UInt8).drop (skip - body.length) = [] :=
      List.drop_eq_nil_of_le (by simp only [List.length_singleton]; omega)
    rw [hEnd, List.drop_eq_nil_of_le (by omega), List.append_nil, List.append_nil] at hFinal ⊢
    rw [expectedReply_unfinished cmd want hLine] at hFinal
    cases hFinal

/-- The lines in front of a status line that the first read ends are those of the stream. -/
theorem beforeFinal_first {cmd : CString} {front : List UInt8} (skip : Nat) (rest : List UInt8)
    (hFinal : (expectedReply cmd want
      (front ++ (commandText command.cmd command.opt).drop skip)).isSome) :
    ∀ line ∈ beforeFinal (front ++ (commandText command.cmd command.opt).drop skip),
      line ∈ beforeFinal (front ++ rest) := by
  induction front using stream_induction with
  | unfinished line hLine =>
      rw [beforeFinal_left hLine skip hFinal]
      exact List.forall_mem_nil _
  | empty c front hEnd ih =>
      rw [List.cons_append] at hFinal ⊢
      rw [List.cons_append]
      rw [(expectedReply_empty cmd want _ hEnd).1] at hFinal
      rw [(expectedReply_empty cmd want _ hEnd).2, (expectedReply_empty cmd want _ hEnd).2]
      exact ih hFinal
  | final line c front code hLine hEnd hSome hStatus =>
      rw [List.append_assoc, List.cons_append,
        (expectedReply_status cmd want _ hLine hEnd hSome hStatus).2]
      exact List.forall_mem_nil _
  | line line c front hLine hEnd hSome hStatus ih =>
      rw [List.append_assoc, List.cons_append] at hFinal ⊢
      rw [List.append_assoc, List.cons_append]
      rw [(expectedReply_line cmd want _ hLine hEnd hSome hStatus).1, Option.isSome_map] at hFinal
      rw [(expectedReply_line cmd want _ hLine hEnd hSome hStatus).2,
        (expectedReply_line cmd want _ hLine hEnd hSome hStatus).2]
      intro line' hLine'
      rcases List.mem_cons.mp hLine' with rfl | hMem
      · exact List.mem_cons_self
      · exact List.mem_cons_of_mem _ (ih hFinal line' hMem)

/-- With a status line in the buffer after the first read, the reply is that of the buffer,
whatever comes later. -/
theorem first_returns (stream : ModemStream command.cmd want) {rest : List UInt8}
    (hSplit : first ++ rest = stream.bytes) {reply : Reply}
    (hReply : expectedReply command.cmd want (firstText command.cmd command.opt first) =
      some reply) (pending : List (List UInt8)) :
    CLoop.Returns (pass command.cmd want)
      (atText [] (firstText command.cmd command.opt first)
        (behindFirst command.cmd command.opt first) 0 [] pending) (some reply) := by
  have hFree : 0 ∉ first := fun hMem =>
    stream.nulFree (hSplit ▸ List.mem_append_left _ hMem)
  have hStream : first.take bufferSize ++ (first.drop bufferSize ++ rest) = stream.bytes := by
    rw [← List.append_assoc, List.take_append_drop, hSplit]
  refine scan_returns (firstText_nulFree hFree) hReply fun line hLine hAnswer => ?_
  have hBefore : line ∈ beforeFinal stream.bytes := by
    rw [← hStream]
    exact beforeFinal_first _ _ (by rw [← firstText, hReply]; rfl) line hLine
  have hLength := (stream.answers line hBefore hAnswer).length_le
  simpa [ascii, CString.strlen] using hLength

/-- Without one it fails when every later read is of one byte. -/
theorem first_fails (hFree : 0 ∉ first)
    (hNone : expectedReply command.cmd want (firstText command.cmd command.opt first) = none)
    {later : List (List UInt8)} (hLater : ∀ chunk ∈ later, ∃ c, c ≠ 0 ∧ chunk = [c]) :
    Fails command.cmd want
      (atText [] (firstText command.cmd command.opt first)
        (behindFirst command.cmd command.opt first) 0 []
        (unread (first.drop bufferSize) later)) := by
  have hStatus : ∀ line ∈ completeLines isLineEnd (firstText command.cmd command.opt first),
      status line = none := List.findSome?_eq_none_iff.mp (Option.map_eq_none_iff.mp hNone)
  refine scan_fails (firstText_nulFree hFree) hStatus (List.forall_mem_nil _) ?_
  intro front last answers hLength hFront hLast hLastFree
  have hFits := command.fits
  by_cases hShort : (first.take bufferSize).length ≤
      (commandText command.cmd command.opt).length
  · -- The NUL behind the command is still there.
    have hBehind : behindFirst command.cmd command.opt first = some 0 :: List.replicate
        (bufferSize - ((commandText command.cmd command.opt).length + 1)) none := if_pos hShort
    obtain ⟨_, hText, hRoom, _⟩ := command.text_eq
    rw [← hText] at hRoom
    have hWhole : front.length + last.length =
        (commandText command.cmd command.opt).length := by
      rw [hLength, firstText, List.length_append, List.length_drop]
      simp only [List.length_nil]
      omega
    have hTaken : first.length ≤ bufferSize := by
      rw [List.length_take] at hShort
      omega
    have hRest : unread (first.drop bufferSize) later = later := by
      rw [List.drop_eq_nil_of_le hTaken]
      rfl
    rw [hBehind, hRest]
    refine .again (pass_unfinished hLast hLastFree)
      (swept_fails (swept_moved _ _ [] _ _ _ ?_ ?_ ?_ rfl) hLater)
    · simp only [List.length_singleton, List.length_replicate]
      omega
    · simp only [List.length_singleton]
      omega
    · intro c hc
      rw [List.append_nil] at hc
      rcases List.mem_append.mp hc with hOld | hNew
      · exact hFront c hOld
      · exact hLast c hNew
  · have hBehind : behindFirst command.cmd command.opt first = List.replicate
        (bufferSize - (first.take bufferSize).length) none := if_neg hShort
    refine .fault ?_
    simp only [pass, atText, hBehind, strsep_fault front hLast hLastFree]

theorem mobileAtCommandInput_unique {modem : Modem} {cmd : CString} {opt input : Option CString}
    {reply other : Option Reply} (h : mobileAtCommandInput modem cmd opt input want reply)
    (h' : mobileAtCommandInput modem cmd opt input want other) : reply = other := by
  obtain ⟨buf, hBuf, hRun⟩ := h
  obtain ⟨buf', hBuf', hRun'⟩ := h'
  rw [hBuf] at hBuf'
  cases hBuf'
  split at hRun
  · rename_i hTakes
    rw [if_pos hTakes] at hRun'
    exact hRun.unique hRun'
  · rename_i hTakes
    rw [if_neg hTakes] at hRun'
    rw [hRun, hRun']

/-- What is returned is decided in the buffer after the first read. -/
theorem mobileAtCommandInput_first {modem : Modem} {input : Option CString}
    (hTakes : modem.Takes (commandText command.cmd command.opt) input) (h : first ≠ [])
    {later : List (List UInt8)} {reply : Option Reply}
    (hReturns : CLoop.Returns (pass command.cmd want)
      (atText [] (firstText command.cmd command.opt first)
        (behindFirst command.cmd command.opt first) 0 []
        (unread (first.drop bufferSize) later)) reply) :
    mobileAtCommandInput { modem with sends := first :: later } command.cmd command.opt input want
      reply := by
  have hSize := commandText_inside command
  have hSent : { modem with sends := first :: later }.Takes
      (commandText command.cmd command.opt) input := hTakes
  refine ⟨_, if_pos hSize, ?_⟩
  rw [if_pos hSent]
  exact .again (pass_first h (if_pos hSize)) hReturns

/-- What comes behind a final line does not matter. -/
theorem expectedReply_append {cmd : CString} {front : List UInt8} {reply : Reply}
    (h : expectedReply cmd want front = some reply) (rest : List UInt8) :
    expectedReply cmd want (front ++ rest) = some reply := by
  induction front using stream_induction generalizing reply with
  | unfinished line hLine => rw [expectedReply_unfinished cmd want hLine] at h; cases h
  | empty c front hEnd ih =>
      rw [List.cons_append]
      rw [(expectedReply_empty cmd want _ hEnd).1] at h ⊢
      exact ih h
  | final line c front code hLine hEnd hSome hStatus =>
      rw [List.append_assoc, List.cons_append]
      rw [(expectedReply_status cmd want _ hLine hEnd hSome hStatus).1] at h ⊢
      exact h
  | line line c front hLine hEnd hSome hStatus ih =>
      rw [List.append_assoc, List.cons_append]
      rw [(expectedReply_line cmd want _ hLine hEnd hSome hStatus).1] at h ⊢
      obtain ⟨later, hLater, hReply⟩ := Option.map_eq_some_iff.mp h
      rw [ih hLater, Option.map_some, hReply]

/-- A first read that ends the final line leaves the whole reply in the buffer. -/
theorem expectedReply_firstText {cmd : CString} (opt : Option CString) {rest : List UInt8}
    (h : (expectedReply cmd want (first.take bufferSize)).isSome) :
    expectedReply cmd want (firstText cmd opt first) =
      expectedReply cmd want (first ++ rest) := by
  obtain ⟨reply, hReply⟩ := Option.isSome_iff_exists.mp h
  have hStream := expectedReply_append hReply (first.drop bufferSize ++ rest)
  rw [← List.append_assoc, List.take_append_drop] at hStream
  rw [firstText, expectedReply_append hReply, hStream]

theorem status_ne {line : List UInt8} {code : Int} (h : status line = some code) : code ≠ -1 := by
  rw [status] at h
  split at h
  · cases h
    decide
  · split at h
    · cases h
      decide
    · split at h
      · cases h
        decide
      · cases h

/-- A stream with a final line has a reply, and it is a result of the modem. -/
theorem ModemStream.reply {cmd : CString} (stream : ModemStream cmd want) :
    ∃ reply, expectedReply cmd want stream.bytes = some reply ∧ reply.code ≠ -1 := by
  obtain ⟨line, hLine, hStatus⟩ := stream.final
  have hSome : ((completeLines isLineEnd stream.bytes).findSome? status).isSome :=
    List.findSome?_isSome_iff.mpr ⟨line, hLine, hStatus⟩
  obtain ⟨code, hCode⟩ := Option.isSome_iff_exists.mp hSome
  obtain ⟨_, _, hFound⟩ := List.exists_of_findSome?_eq_some hCode
  exact ⟨_, by rw [expectedReply, hCode, Option.map_some], status_ne hFound⟩

/-- However a stream goes on behind its first read the reply is the expected one, exactly
when it is the reply to what the first read leaves in the buffer. The condition is on the
first read alone, and the property on all ways to split what is behind it. -/
theorem mobileAtCommandInput_expected_iff (command : AtCommand) {modem : Modem}
    {input : Option CString} (hTakes : modem.Takes (commandText command.cmd command.opt) input)
    (stream : ModemStream command.cmd want) {first rest : List UInt8} (hFirst : first ≠ [])
    (hSplit : first ++ rest = stream.bytes) :
    (∀ later : List (List UInt8), (∀ chunk ∈ later, chunk ≠ []) → later.flatten = rest →
      mobileAtCommandInput { modem with sends := first :: later } command.cmd command.opt input
        want (expectedReply command.cmd want stream.bytes)) ↔
      expectedReply command.cmd want (firstText command.cmd command.opt first) =
        expectedReply command.cmd want stream.bytes := by
  obtain ⟨reply, hReply, hCode⟩ := stream.reply
  constructor
  · intro hAll
    -- The rest comes byte by byte.
    have hSingle := hAll (rest.map fun c => [c]) (by simp) (by simp [← List.flatMap_def])
    cases hText : expectedReply command.cmd want (firstText command.cmd command.opt first) with
    | some found =>
        exact mobileAtCommandInput_unique
          (mobileAtCommandInput_first hTakes hFirst (first_returns stream hSplit hText _)) hSingle
    | none =>
        have hFree : 0 ∉ first ++ rest := hSplit ▸ stream.nulFree
        have hBytes : ∀ chunk ∈ rest.map fun c => [c], ∃ c, c ≠ 0 ∧ chunk = [c] := by
          intro chunk hChunk
          obtain ⟨c, hMem, rfl⟩ := List.mem_map.mp hChunk
          exact ⟨c, fun hZero => hFree (List.mem_append_right _ (hZero ▸ hMem)), rfl⟩
        obtain ⟨result, hReturns, hFails⟩ := first_fails
          (fun hMem => hFree (List.mem_append_left _ hMem)) hText hBytes
        have hSame := mobileAtCommandInput_unique
          (mobileAtCommandInput_first hTakes hFirst hReturns) hSingle
        exact (hCode (hFails reply (hSame.trans hReply))).elim
  · intro hSettled later _ _
    rw [← hSettled]
    rw [hReply] at hSettled
    rw [hSettled]
    exact mobileAtCommandInput_first hTakes hFirst (first_returns stream hSplit hSettled _)

def signalQuality : AtCommand where
  cmd := ⟨ascii "+CSQ", by decide⟩
  opt := none
  oneLine := by simp [ascii, isLineEnd]
  fits := by decide

/-- An answer and the status line. -/
def signalStream : ModemStream signalQuality.cmd true where
  bytes := ascii "\r\n+CSQ: 20,99\r\n\r\nOK\r\n"
  nulFree := by decide
  final := ⟨ascii "OK", by decide, by decide⟩
  answers := by decide

theorem mobileAtCommandInput_expected_iff_signal :
    mobileAtCommandInput
      { takes := fun _ => true
        sends := [ascii "\r\n+CSQ: 20,99\r\n\r\nOK\r", ascii "\n"] }
      signalQuality.cmd none none true (some ⟨0, [ascii "20,99"]⟩) := by
  have hReply : expectedReply signalQuality.cmd true signalStream.bytes =
      some ⟨0, [ascii "20,99"]⟩ := by decide
  rw [← hReply]
  have hTakes : (Modem.mk (fun _ => true) []).Takes (commandText signalQuality.cmd none) none := by
    decide
  have hSplit : ascii "\r\n+CSQ: 20,99\r\n\r\nOK\r" ++ ascii "\n" = signalStream.bytes := rfl
  exact (mobileAtCommandInput_expected_iff signalQuality hTakes signalStream (by decide)
    hSplit).mpr (expectedReply_firstText none (by decide)) [ascii "\n"] (by decide) rfl

/-- A status line that comes in two reads is lost. -/
theorem mobileAtCommandInput_expected_split :
    let modem : Modem :=
      { takes := fun _ => true, sends := [ascii "\r\nO", ascii "K\r\n"] }
    expectedReply signalQuality.cmd false modem.sends.flatten = some ⟨0, []⟩ ∧
      mobileAtCommandInput modem signalQuality.cmd none none false (some ⟨-1, []⟩) ∧
      ¬mobileAtCommandInput modem signalQuality.cmd none none false (some ⟨0, []⟩) := by
  intro modem
  have hLost : mobileAtCommandInput modem signalQuality.cmd none none false (some ⟨-1, []⟩) :=
    ⟨_, rfl, 12, by decide⟩
  refine ⟨by decide, hLost, fun hFound => ?_⟩
  cases mobileAtCommandInput_unique hLost hFound

end First

end MonitoringPlug.Sms
