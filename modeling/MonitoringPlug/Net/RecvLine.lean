import MonitoringPlug.Lib.Text
import MonitoringPlug.Utils

/-! `mp_recv_line`: lines out of a socket, with what was received behind a line
kept in a static buffer for the next call. -/
namespace MonitoringPlug.Net

open CText Utils

/-- `RLB_LEN`. -/
def rlbLen : Nat := 128

def newline : UInt8 := 10
def carriageReturn : UInt8 := 13

/-- The object behind `mp_recv_line_buffer`. It always holds a string. -/
structure LineBuffer where
  bytes : List UInt8
  size : bytes.length = rlbLen
  terminated : 0 ∈ bytes

/-- What one `recv` delivers. -/
structure Chunk where
  bytes : List UInt8
  nonempty : bytes ≠ []
  fits : bytes.length ≤ rlbLen - 1

def delivered (chunks : List Chunk) : List UInt8 := chunks.flatMap Chunk.bytes

namespace LineBuffer

/-- The string in the buffer. -/
def text (b : LineBuffer) : List UInt8 := b.bytes.takeWhile (· != 0)

def zeroed : LineBuffer where
  bytes := List.replicate rlbLen 0
  size := List.length_replicate
  terminated := List.mem_replicate.mpr ⟨by decide, rfl⟩

/-- `recv` over the front of the buffer, and the NUL behind what came. -/
def receive (b : LineBuffer) (chunk : Chunk) : LineBuffer where
  bytes := chunk.bytes ++ 0 :: b.bytes.drop (chunk.bytes.length + 1)
  size := by
    have hFits := chunk.fits
    have hSize := b.size
    simp only [List.length_append, List.length_cons, List.length_drop]
    simp only [rlbLen] at hFits hSize ⊢
    omega
  terminated := by simp

/-- The string in front of the first newline, as `strsep` cuts it. -/
def front (b : LineBuffer) : List UInt8 := b.text.takeWhile (· != newline)

/-- The buffer is its string, a NUL, and what was left there before. -/
theorem bytes_eq (b : LineBuffer) : ∃ old, b.bytes = b.text ++ 0 :: old :=
  eq_takeWhile_append_cons b.terminated

theorem zero_not_mem_text (b : LineBuffer) : 0 ∉ b.text := by
  intro hZero
  simpa using List.mem_takeWhile_imp hZero

theorem text_receive (b : LineBuffer) {chunk : Chunk} (h : 0 ∉ chunk.bytes) :
    (b.receive chunk).text = chunk.bytes := by
  apply takeWhile_append_stop
  · intro c hc
    simpa using fun he : c = 0 => h (he ▸ hc)
  · simp

/-- A buffer with a newline is its line, the string behind the newline, and what
was left there before. -/
theorem bytes_newline (b : LineBuffer) (h : newline ∈ b.text) :
    ∃ back old, b.text = b.front ++ newline :: back ∧
      b.bytes = b.front ++ newline :: (back ++ 0 :: old) := by
  obtain ⟨old, hBytes⟩ := b.bytes_eq
  obtain ⟨back, hText⟩ := eq_takeWhile_append_cons h
  refine ⟨back, old, hText, ?_⟩
  rw [hBytes, front, ← List.cons_append, ← List.append_assoc, ← hText]

end LineBuffer

/-- A buffer in which `strchr` finds a newline. -/
structure Found extends LineBuffer where
  found : newline ∈ toLineBuffer.text

/-- The bytes after `strsep` and `memmove`: what is behind the newline at the
front, and the rest of the buffer as it was. -/
def rotated (b : LineBuffer) : List UInt8 :=
  let cut := b.bytes.set b.front.length 0
  let len := rlbLen - b.front.length - 1
  (cut.drop (b.front.length + 1)).take len ++ cut.drop len

theorem rotated_eq (b : LineBuffer) {back old : List UInt8}
    (h : b.bytes = b.front ++ newline :: (back ++ 0 :: old)) :
    ∃ old', rotated b = back ++ 0 :: old' := by
  have hCut : b.bytes.set b.front.length 0 = b.front ++ 0 :: (back ++ 0 :: old) := by
    rw [h]
    simp
  have hBehind : (b.front ++ 0 :: (back ++ 0 :: old)).drop (b.front.length + 1) =
      back ++ 0 :: old := by
    rw [List.drop_length_add_append]
    rfl
  have hWhole : (back ++ 0 :: old).length ≤ rlbLen - b.front.length - 1 := by
    have hSize := b.size
    rw [h, List.length_append, List.length_cons] at hSize
    omega
  refine ⟨old ++ (b.bytes.set b.front.length 0).drop (rlbLen - b.front.length - 1), ?_⟩
  rw [rotated, hCut, hBehind, List.take_of_length_le hWhole]
  simp

def Found.rotate (b : Found) : LineBuffer where
  bytes := rotated b.toLineBuffer
  size := by
    have hSize := b.size
    have hFront : b.front.length < rlbLen := by
      obtain ⟨back, old, _, hBytes⟩ := b.bytes_newline b.found
      rw [hBytes, List.length_append, List.length_cons] at hSize
      omega
    simp only [rotated, List.length_append, List.length_take, List.length_drop, List.length_set,
      hSize]
    omega
  terminated := by
    obtain ⟨back, old, _, hBytes⟩ := b.bytes_newline b.found
    obtain ⟨old', hRotated⟩ := rotated_eq b.toLineBuffer hBytes
    rw [hRotated]
    simp

/-- The loop around `recv`. Without a result it waits for a newline that never
comes. -/
def fetch (line : Option (List UInt8)) (b : LineBuffer) (chunks : List Chunk) :
    Option (Option (List UInt8) × Found × List Chunk) :=
  if h : newline ∈ b.text then some (line, ⟨b, h⟩, chunks)
  else
    match chunks with
    | [] => none
    | chunk :: chunks =>
        fetch (if 0 < b.text.length then mpStrcat line (some b.text) else line)
          (b.receive chunk) chunks

/-- `none` for an empty line, where the byte in front of the object is read. -/
def chomp (line : List UInt8) : Option (List UInt8) :=
  match line.getLast? with
  | none => none
  | some c => if c = carriageReturn then some line.dropLast else some line

/-- One call: the line, the static buffer afterwards, and what is still to be
received. -/
def mpRecvLine (buffer : Option LineBuffer) (chunks : List Chunk) :
    Option (List UInt8 × Option LineBuffer × List Chunk) := do
  let (line, found, chunks) ← fetch none (buffer.getD LineBuffer.zeroed) chunks
  let line ← mpStrcat line (some found.front)
  let line ← chomp line
  some (line, some found.rotate, chunks)

/-- Calls one after the other. -/
def mpRecvLines : Nat → Option LineBuffer → List Chunk →
    Option (List (List UInt8) × Option LineBuffer × List Chunk)
  | 0, buffer, chunks => some ([], buffer, chunks)
  | calls + 1, buffer, chunks => do
      let (line, buffer, chunks) ← mpRecvLine buffer chunks
      let (lines, buffer, chunks) ← mpRecvLines calls buffer chunks
      some (line :: lines, buffer, chunks)

section Fetch

variable {line : Option (List UInt8)} {front back : List UInt8}

/-- Behind the newline nothing is lost. -/
theorem rotate_text (b : Found) : b.text = b.front ++ newline :: b.rotate.text := by
  obtain ⟨back, old, hText, hBytes⟩ := b.bytes_newline b.found
  obtain ⟨old', hRotated⟩ := rotated_eq b.toLineBuffer hBytes
  have hNulFree : 0 ∉ back := by
    intro hZero
    apply b.zero_not_mem_text
    rw [hText]
    simp [hZero]
  have hRotate : b.rotate.text = back := by
    show (rotated b.toLineBuffer).takeWhile (· != 0) = back
    rw [hRotated]
    apply takeWhile_append_stop
    · intro c hc
      simpa using fun he : c = 0 => hNulFree (he ▸ hc)
    · simp
  rw [hRotate]
  exact hText

/-- A stream has one first newline. -/
theorem front_unique {front' back' : List UInt8} (h : newline ∉ front) (h' : newline ∉ front')
    (hEq : front ++ newline :: back = front' ++ newline :: back') :
    front = front' ∧ back = back' := by
  have hTake : ∀ {l r : List UInt8}, newline ∉ l →
      (l ++ newline :: r).takeWhile (· != newline) = l := by
    intro l r hl
    apply takeWhile_append_stop
    · intro c hc
      simpa using fun he : c = newline => hl (he ▸ hc)
    · simp
  have hFront : front = front' := by rw [← hTake h, hEq, hTake h']
  subst hFront
  exact ⟨rfl, by simpa using List.append_cancel_left hEq⟩

/-- With a newline in the buffer the line ends there. -/
theorem fetch_newline (line : Option (List UInt8)) {b : LineBuffer} {chunks : List Chunk}
    (hNewline : newline ∈ b.text)
    (hFront : newline ∉ front) (h : b.text ++ delivered chunks = front ++ newline :: back) :
    ∃ found : Found, fetch line b chunks = some (line, found, chunks) ∧ found.front = front ∧
      found.rotate.text ++ delivered chunks = back := by
  let found : Found := ⟨b, hNewline⟩
  have hText := rotate_text found
  have hSplit : found.front ++ newline :: (found.rotate.text ++ delivered chunks) =
      front ++ newline :: back := by
    rw [← h, show b.text = found.text from rfl, hText, List.append_assoc]
    rfl
  have hClean : newline ∉ found.front := by
    intro hMem
    simpa using List.mem_takeWhile_imp hMem
  obtain ⟨hSame, hBehind⟩ := front_unique hClean hFront hSplit
  exact ⟨found, by rw [fetch.eq_def, dif_pos hNewline], hSame, hBehind⟩

/-- What the loop keeps: the line so far, the buffer and what is to come make up
the stream. So it ends with the bytes up to the first newline, and the rest of
the stream is still there. -/
theorem fetch_spec (line : Option (List UInt8)) (b : LineBuffer) {chunks : List Chunk}
    (hNulFree : ∀ chunk ∈ chunks, 0 ∉ chunk.bytes) (hFront : newline ∉ front)
    (h : b.text ++ delivered chunks = front ++ newline :: back) :
    ∃ line' found rest, fetch line b chunks = some (line', found, rest) ∧
      mpStrcat line' (some found.front) = some (line.getD [] ++ front) ∧
      found.rotate.text ++ delivered rest = back ∧ rest <:+ chunks := by
  induction chunks generalizing line b front with
  | nil =>
      have hNewline : newline ∈ b.text := by
        have hText : b.text = front ++ newline :: back := by simpa [delivered] using h
        rw [hText]
        simp
      obtain ⟨found, hFetch, hSame, hBehind⟩ := fetch_newline line hNewline hFront h
      exact ⟨line, found, [], hFetch, by rw [mpStrcat_getD, hSame], hBehind, List.suffix_rfl⟩
  | cons chunk chunks ih =>
      by_cases hNewline : newline ∈ b.text
      · obtain ⟨found, hFetch, hSame, hBehind⟩ := fetch_newline line hNewline hFront h
        exact ⟨line, found, _, hFetch, by rw [mpStrcat_getD, hSame], hBehind, List.suffix_rfl⟩
      · -- The whole buffer belongs to the line, and `recv` goes on behind it.
        obtain ⟨front', hPrefix⟩ : b.text <+: front := by
          rcases List.append_eq_append_iff.mp h with ⟨more, hMore, _⟩ | ⟨more, hMore, hRest⟩
          · exact ⟨more, hMore.symm⟩
          · cases more with
            | nil => exact ⟨[], by simpa using hMore⟩
            | cons c more =>
                cases hRest
                exact absurd (by rw [hMore]; simp) hNewline
        subst hPrefix
        have hReceived := b.text_receive (hNulFree chunk List.mem_cons_self)
        have hRest : (b.receive chunk).text ++ delivered chunks = front' ++ newline :: back := by
          rw [hReceived]
          rw [List.append_assoc] at h
          exact List.append_cancel_left h
        have hClean : newline ∉ front' := fun hMem => hFront (List.mem_append_right _ hMem)
        obtain ⟨line', found, rest, hFetch, hLine, hBehind, hSuffix⟩ :=
          ih (if 0 < b.text.length then mpStrcat line (some b.text) else line) (b.receive chunk)
            (fun other hOther => hNulFree other (List.mem_cons_of_mem _ hOther)) hClean hRest
        refine ⟨line', found, rest, ?_, ?_, hBehind, hSuffix.trans (List.suffix_cons _ _)⟩
        · rw [fetch, dif_neg hNewline]
          exact hFetch
        · have hSoFar : (if 0 < b.text.length then mpStrcat line (some b.text) else line).getD [] =
              line.getD [] ++ b.text := by
            split
            · rw [mpStrcat_getD]
              rfl
            · rename_i hEmpty
              rw [List.eq_nil_of_length_eq_zero (by omega : b.text.length = 0), List.append_nil]
          rw [hLine, hSoFar, List.append_assoc]

end Fetch

/-- A line of the stream, with at least one byte in front of its newline. -/
structure Line where
  bytes : List UInt8
  nonempty : bytes ≠ []
  noNewline : newline ∉ bytes
  nulFree : 0 ∉ bytes

/-- The bytes without one trailing carriage return. -/
def Line.chomped (l : Line) : List UInt8 :=
  if l.bytes.getLast? = some carriageReturn then l.bytes.dropLast else l.bytes

def stream (lines : List Line) : List UInt8 := lines.flatMap fun l => l.bytes ++ [newline]

/-- The string that is kept between two calls. -/
def held (buffer : Option LineBuffer) : List UInt8 := (buffer.getD LineBuffer.zeroed).text

theorem chomp_line (l : Line) : chomp l.bytes = some l.chomped := by
  have hLast := List.getLast?_eq_some_getLast l.nonempty
  rw [chomp, Line.chomped, hLast]
  by_cases hReturn : l.bytes.getLast l.nonempty = carriageReturn
  · simp [hReturn]
  · simp [hReturn]

/-- One call takes one line off what is held and what is still to be received. -/
theorem mpRecvLine_spec (l : Line) {back : List UInt8} {buffer : Option LineBuffer}
    {chunks : List Chunk} (hNulFree : ∀ chunk ∈ chunks, 0 ∉ chunk.bytes)
    (h : held buffer ++ delivered chunks = l.bytes ++ newline :: back) :
    ∃ buffer' rest, mpRecvLine buffer chunks = some (l.chomped, buffer', rest) ∧
      held buffer' ++ delivered rest = back ∧ rest <:+ chunks := by
  obtain ⟨line, found, rest, hFetch, hLine, hBehind, hSuffix⟩ :=
    fetch_spec none (buffer.getD LineBuffer.zeroed) hNulFree l.noNewline h
  refine ⟨some found.rotate, rest, ?_, hBehind, hSuffix⟩
  have hWhole : mpStrcat line (some found.front) = some l.bytes := by simpa using hLine
  simp [mpRecvLine, hFetch, hWhole, chomp_line]

theorem mpRecvLines_spec (lines : List Line) {back : List UInt8} {buffer : Option LineBuffer}
    {chunks : List Chunk} (hNulFree : ∀ chunk ∈ chunks, 0 ∉ chunk.bytes)
    (h : held buffer ++ delivered chunks = stream lines ++ back) :
    ∃ buffer' rest, mpRecvLines lines.length buffer chunks =
        some (lines.map Line.chomped, buffer', rest) ∧
      held buffer' ++ delivered rest = back := by
  induction lines generalizing buffer chunks with
  | nil => exact ⟨buffer, chunks, rfl, by simpa [stream] using h⟩
  | cons l lines ih =>
      have hFirst : held buffer ++ delivered chunks =
          l.bytes ++ newline :: (stream lines ++ back) := by
        rw [h]
        simp [stream]
      obtain ⟨buffer', rest, hCall, hHeld, hSuffix⟩ := mpRecvLine_spec l hNulFree hFirst
      obtain ⟨buffer'', rest', hCalls, hBack⟩ :=
        ih (fun chunk hChunk => hNulFree chunk (hSuffix.subset hChunk)) hHeld
      exact ⟨buffer'', rest', by simp [mpRecvLines, hCall, hCalls], hBack⟩

/-- However a stream of lines comes in, the calls return its lines one after the
other, and what is behind the lines that were returned is kept. -/
theorem mpRecvLines_independent (lines : List Line) (chunks : List Chunk)
    (h : delivered chunks = stream lines) (calls : Nat) (hCalls : calls ≤ lines.length) :
    ∃ buffer rest, mpRecvLines calls none chunks =
        some ((lines.take calls).map Line.chomped, buffer, rest) ∧
      held buffer ++ delivered rest = stream (lines.drop calls) := by
  have hNulFree : ∀ chunk ∈ chunks, 0 ∉ chunk.bytes := by
    intro chunk hChunk hZero
    have hMem : 0 ∈ stream lines := h ▸ List.mem_flatMap.mpr ⟨chunk, hChunk, hZero⟩
    obtain ⟨l, _, hByte⟩ := List.mem_flatMap.mp hMem
    rcases List.mem_append.mp hByte with hBytes | hNewline
    · exact l.nulFree hBytes
    · simp [newline] at hNewline
  have hSplit : held none ++ delivered chunks =
      stream (lines.take calls) ++ stream (lines.drop calls) := by
    rw [h, stream, stream, stream, ← List.flatMap_append, List.take_append_drop]
    rfl
  have hRun := mpRecvLines_spec (lines.take calls) hNulFree hSplit
  rwa [List.length_take_of_le hCalls] at hRun

/-- Two lines in three pieces: a carriage return and a newline come with the
start of the next line. -/
def sampleLines : List Line :=
  [⟨[97, 13], by decide, by decide, by decide⟩, ⟨[98], by decide, by decide, by decide⟩]

def sampleChunks : List Chunk :=
  [⟨[97], by decide, by decide⟩, ⟨[13, 10, 98], by decide, by decide⟩,
    ⟨[10], by decide, by decide⟩]

theorem mpRecvLines_sample :
    ∃ buffer rest, mpRecvLines 1 none sampleChunks = some ([[97]], buffer, rest) ∧
      held buffer ++ delivered rest = [98, 10] :=
  mpRecvLines_independent sampleLines sampleChunks rfl 1 (by decide)

end MonitoringPlug.Net
