import MonitoringPlug.Lib.Loop
import MonitoringPlug.Net.RecvLine

/-! `mp_recv_line` on any results of `recv`: pieces of the stream, its end and
errors. The loop is one of `Lib.Loop`, so that it may also never be left. -/
namespace MonitoringPlug.Net

open CText Utils

/-- What one `recv` returns while the stream is open. Behind the last of them the
stream is at its end, and `recv` returns 0 from then on. -/
inductive Received where
  | chunk (chunk : Chunk)
  | error

/-- `recv` returns 0: nothing comes, and a NUL is stored in front. -/
def LineBuffer.receiveEnd (b : LineBuffer) : LineBuffer where
  bytes := b.bytes.set 0 0
  size := by rw [List.length_set, b.size]
  terminated := List.mem_set (by rw [b.size]; decide) 0

/-- The locals of `mp_recv_line`, the static buffer and the results to come. -/
structure Receiving where
  line : Option (List UInt8)
  buffer : LineBuffer
  results : List Received

/-- A pass of the `while` around `recv`. No result is the write behind -1, as a
`size_t`, outside of the buffer. -/
def recvPass (s : Receiving) :
    CLoop.Pass Receiving (Option (Option (List UInt8) × Found × List Received)) :=
  if h : newline ∈ s.buffer.text then .leave (some (s.line, ⟨s.buffer, h⟩, s.results))
  else
    let line :=
      if 0 < s.buffer.text.length then mpStrcat s.line (some s.buffer.text) else s.line
    match s.results with
    | [] => .again ⟨line, s.buffer.receiveEnd, []⟩
    | .error :: _ => .leave none
    | .chunk chunk :: results => .again ⟨line, s.buffer.receive chunk, results⟩

/-- What is behind the loop: the last part of the line, and the chomp. -/
def finish (line : Option (List UInt8)) (found : Found) : Option (List UInt8) :=
  (mpStrcat line (some found.front)).bind chomp

def entering (buffer : Option LineBuffer) (results : List Received) : Receiving :=
  ⟨none, buffer.getD LineBuffer.zeroed, results⟩

/-- The call returns a line, with every access inside of its object. -/
def IsTotal (buffer : Option LineBuffer) (results : List Received) : Prop :=
  ∃ line found rest result,
    CLoop.Returns recvPass (entering buffer results) (some (line, found, rest)) ∧
      finish line found = some result

/-- The string a chunk leaves in the buffer. -/
def Chunk.text (chunk : Chunk) : List UInt8 := chunk.bytes.takeWhile (· != 0)

/-- The chunks in front of the first error, or of the end. -/
def chunksBefore : List Received → List Chunk
  | .chunk chunk :: results => chunk :: chunksBefore results
  | _ => []

/-- All that the loop can find a newline in. -/
def arriving (b : LineBuffer) (results : List Received) : List UInt8 :=
  b.text ++ (chunksBefore results).flatMap Chunk.text

theorem receive_text (b : LineBuffer) (chunk : Chunk) : (b.receive chunk).text = chunk.text := by
  show (chunk.bytes ++ 0 :: _).takeWhile (· != 0) = chunk.bytes.takeWhile (· != 0)
  rw [List.takeWhile_append]
  split
  · rename_i hAll
    rw [(List.takeWhile_prefix _).eq_of_length hAll]
    simp
  · rfl

theorem receiveEnd_text (b : LineBuffer) : b.receiveEnd.text = [] := by
  show (b.bytes.set 0 0).takeWhile (· != 0) = []
  cases b.bytes with
  | nil => rfl
  | cons c rest => simp

theorem arriving_receive (b : LineBuffer) (chunk : Chunk) (results : List Received) :
    arriving (b.receive chunk) results =
      (chunksBefore (.chunk chunk :: results)).flatMap Chunk.text := by
  simp [arriving, receive_text, chunksBefore]

theorem arriving_error (b : LineBuffer) (results : List Received) :
    arriving b (.error :: results) = b.text := by
  simp [arriving, chunksBefore]

theorem arriving_nil (b : LineBuffer) : arriving b [] = b.text := by
  simp [arriving, chunksBefore]

section Pass

variable {s : Receiving}

theorem recvPass_newline (h : newline ∈ s.buffer.text) :
    recvPass s = .leave (some (s.line, ⟨s.buffer, h⟩, s.results)) := dif_pos h

/-- Where the loop goes on, the whole buffer was put behind the line. -/
theorem recvPass_chunk {chunk : Chunk} {results : List Received} (h : newline ∉ s.buffer.text)
    (hResults : s.results = .chunk chunk :: results) :
    ∃ line, recvPass s = .again ⟨line, s.buffer.receive chunk, results⟩ ∧
      line.getD [] = s.line.getD [] ++ s.buffer.text := by
  refine ⟨_, by rw [recvPass, dif_neg h, hResults], ?_⟩
  split
  · rw [mpStrcat_getD]
    rfl
  · rename_i hEmpty
    rw [List.eq_nil_of_length_eq_zero (by omega : s.buffer.text.length = 0), List.append_nil]

theorem recvPass_error {results : List Received} (h : newline ∉ s.buffer.text)
    (hResults : s.results = .error :: results) : recvPass s = .leave none := by
  rw [recvPass, dif_neg h, hResults]

end Pass

/-- Once the stream is at its end the loop is never left. -/
theorem recv_end_diverges {line : Option (List UInt8)} {b : LineBuffer}
    (h : newline ∉ b.text) : CLoop.Diverges recvPass ⟨line, b, []⟩ := by
  refine CLoop.diverges_of_invariant
    (fun s => s.results = [] ∧ newline ∉ s.buffer.text) (fun s hs => ?_) ⟨rfl, h⟩
  obtain ⟨hResults, hNone⟩ := hs
  refine ⟨_, by rw [recvPass, dif_neg hNone, hResults], rfl, ?_⟩
  simp [receiveEnd_text]

/-- With a newline in what arrives the loop ends with the bytes in front of the first
one; the results behind are not asked for. -/
theorem recv_newline (line : Option (List UInt8)) (b : LineBuffer) {results : List Received}
    (h : newline ∈ arriving b results) :
    ∃ line' found rest, CLoop.Returns recvPass ⟨line, b, results⟩ (some (line', found, rest)) ∧
      line'.getD [] ++ found.front =
        line.getD [] ++ (arriving b results).takeWhile (· != newline) := by
  induction results generalizing line b with
  | nil =>
      rw [arriving_nil] at h ⊢
      exact ⟨line, ⟨b, h⟩, [], CLoop.Returns.leave (recvPass_newline h), rfl⟩
  | cons result results ih =>
      by_cases hNow : newline ∈ b.text
      · refine ⟨line, ⟨b, hNow⟩, _, CLoop.Returns.leave (recvPass_newline hNow), ?_⟩
        rw [arriving, takeWhile_ne_append_of_mem hNow]
        rfl
      · cases result with
        | error =>
            rw [arriving_error] at h
            exact absurd h hNow
        | chunk chunk =>
            obtain ⟨line', hPass, hLine⟩ :=
              recvPass_chunk (s := ⟨line, b, .chunk chunk :: results⟩) hNow rfl
            have hSplit : arriving b (.chunk chunk :: results) =
                b.text ++ arriving (b.receive chunk) results := by
              rw [arriving_receive]
              rfl
            have hLater : newline ∈ arriving (b.receive chunk) results :=
              (List.mem_append.mp (hSplit ▸ h)).resolve_left hNow
            obtain ⟨line'', found, rest, hReturns, hWhole⟩ := ih line' (b.receive chunk) hLater
            refine ⟨line'', found, rest, hReturns.again hPass, ?_⟩
            rw [hWhole, hLine, hSplit, takeWhile_ne_append_of_not_mem hNow, List.append_assoc]

/-- Without one it ends, if at all, in the write outside of the buffer. -/
theorem recv_no_newline {line : Option (List UInt8)} {b : LineBuffer} {results : List Received}
    (h : newline ∉ arriving b results) {outcome}
    (hReturns : CLoop.Returns recvPass ⟨line, b, results⟩ outcome) : outcome = none := by
  induction results generalizing line b with
  | nil =>
      rw [arriving_nil] at h
      exact absurd hReturns (recv_end_diverges h).not_returns
  | cons result results ih =>
      have hNow : newline ∉ b.text := fun hMem => h (List.mem_append_left _ hMem)
      cases result with
      | error =>
          exact hReturns.unique (CLoop.Returns.leave (recvPass_error hNow rfl))
      | chunk chunk =>
          obtain ⟨line', hPass, -⟩ :=
            recvPass_chunk (s := ⟨line, b, .chunk chunk :: results⟩) hNow rfl
          refine ih (fun hMem => h ?_) ((CLoop.Reaches.start.pass hPass).returns hReturns)
          rw [arriving_receive] at hMem
          exact List.mem_append_right _ hMem

theorem finish_eq_none_iff (line : Option (List UInt8)) (found : Found) :
    finish line found = none ↔ line.getD [] ++ found.front = [] := by
  rw [finish, mpStrcat_getD, Option.bind_some, chomp, ← List.getLast?_eq_none_iff]
  cases (line.getD [] ++ found.front).getLast? with
  | none => simp
  | some c =>
      simp only [reduceCtorEq, iff_false]
      split <;> simp

/-- A call is total exactly when the string in the buffer and the chunks that come
before the end of the stream and before any error have a newline, and a byte in front of
the first one. A chunk counts up to its first NUL. -/
theorem isTotal_iff (buffer : Option LineBuffer) (results : List Received) :
    IsTotal buffer results ↔
      newline ∈ arriving (buffer.getD LineBuffer.zeroed) results ∧
        (arriving (buffer.getD LineBuffer.zeroed) results).head? ≠ some newline := by
  by_cases hNewline : newline ∈ arriving (buffer.getD LineBuffer.zeroed) results
  · obtain ⟨line, found, rest, hReturns, hWhole⟩ :=
      recv_newline none (buffer.getD LineBuffer.zeroed) hNewline
    have hEmpty : finish line found = none ↔
        (arriving (buffer.getD LineBuffer.zeroed) results).head? = some newline := by
      rw [finish_eq_none_iff, hWhole]
      generalize arriving (buffer.getD LineBuffer.zeroed) results = arrived at hNewline
      cases arrived with
      | nil => cases hNewline
      | cons c rest => by_cases hFirst : c = newline <;> simp [hFirst]
    rw [and_iff_right hNewline, ne_eq, ← hEmpty]
    constructor
    · rintro ⟨line', found', rest', result, hReturns', hFinish⟩ hNone
      cases hReturns.unique hReturns'
      rw [hFinish] at hNone
      cases hNone
    · intro hSome
      obtain ⟨result, hFinish⟩ := Option.ne_none_iff_exists'.mp hSome
      exact ⟨line, found, rest, result, hReturns, hFinish⟩
  · refine ⟨?_, fun h => absurd h.1 hNewline⟩
    rintro ⟨line, found, rest, result, hReturns, -⟩
    cases recv_no_newline hNewline hReturns

/-- A peer that closes the connection without sending keeps `recv` in the loop. -/
theorem recvPass_closed_diverges :
    CLoop.Diverges recvPass (entering none []) ∧ ¬ IsTotal none [] := by
  have hDiverges : CLoop.Diverges recvPass (entering none []) :=
    recv_end_diverges (by decide)
  refine ⟨hDiverges, ?_⟩
  rintro ⟨line, found, rest, result, hReturns, -⟩
  exact hDiverges.not_returns hReturns

/-- On chunks alone the loop is the one that `fetch` follows. -/
theorem fetch_returns {line line' : Option (List UInt8)} {b : LineBuffer} {found : Found}
    {chunks rest : List Chunk} (h : fetch line b chunks = some (line', found, rest)) :
    CLoop.Returns recvPass ⟨line, b, chunks.map .chunk⟩
      (some (line', found, rest.map .chunk)) := by
  induction chunks generalizing line b with
  | nil =>
      rw [fetch] at h
      split at h
      · rename_i hNewline
        cases h
        exact CLoop.Returns.leave (recvPass_newline hNewline)
      · cases h
  | cons chunk chunks ih =>
      rw [fetch] at h
      split at h
      · rename_i hNewline
        cases h
        exact CLoop.Returns.leave (recvPass_newline hNewline)
      · rename_i hNewline
        refine CLoop.Returns.again ?_ (ih h)
        rw [recvPass, dif_neg hNewline]
        rfl

/-- A call that is followed without end and errors is total, and returns that line. -/
theorem mpRecvLine_isTotal {buffer buffer' : Option LineBuffer} {chunks rest : List Chunk}
    {line : List UInt8} (h : mpRecvLine buffer chunks = some (line, buffer', rest)) :
    IsTotal buffer (chunks.map .chunk) := by
  simp only [mpRecvLine, Option.bind_eq_bind, Option.bind_eq_some_iff] at h
  obtain ⟨⟨line', found, rest'⟩, hFetch, whole, hWhole, chomped, hChomp, -⟩ := h
  refine ⟨line', found, _, chomped, fetch_returns hFetch, ?_⟩
  rw [finish, hWhole]
  exact hChomp

end MonitoringPlug.Net
