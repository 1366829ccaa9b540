import MonitoringPlug.Lib.Dialogue
import MonitoringPlug.Lib.Lines
import MonitoringPlug.Net.RecvLine
import MonitoringPlug.Net.RecvEnd

/-! A connection as a feed of lines: what the calls of `mp_recv_line` share, and the
lines that the client hears whatever the pieces are that they come in. -/
namespace MonitoringPlug.Net

open CText Utils

/-- The static buffer, and what is still to be received. -/
structure Connection where
  buffer : Option LineBuffer
  chunks : List Chunk

/-- A fresh process. -/
def Connection.fresh (chunks : List Chunk) : Connection := ⟨none, chunks⟩

/-- One call up to where it chomps: the object then holds the line with its carriage
return. -/
def Connection.recvLine (c : Connection) : Option (List UInt8 × Connection) := do
  let (line, found, chunks) ← fetch none (c.buffer.getD LineBuffer.zeroed) c.chunks
  let line ← mpStrcat line (some found.front)
  some (line, ⟨some found.rotate, chunks⟩)

theorem mpRecvLine_eq (c : Connection) :
    mpRecvLine c.buffer c.chunks =
      c.recvLine.bind fun (line, next) => (chomp line).map (·, next.buffer, next.chunks) := by
  simp only [mpRecvLine, Connection.recvLine, Option.bind_eq_bind, Option.bind_assoc]
  congr 1
  funext fetched
  cases mpStrcat fetched.1 (some fetched.2.1.front) with
  | none => rfl
  | some line => cases hChomp : chomp line <;> simp [hChomp]

/-- The string `mp_recv_line` returns for a line that is not empty. -/
def chomped (line : List UInt8) : List UInt8 :=
  if line.getLast? = some carriageReturn then line.dropLast else line

/-- `strncmp` over the length of a literal. -/
def Says (literal line : List UInt8) : Prop := literal <+: chomped line

instance (literal line : List UInt8) : Decidable (Says literal line) :=
  inferInstanceAs (Decidable (_ <+: _))

theorem chomp_nonempty {line : List UInt8} (h : line ≠ []) : chomp line = some (chomped line) := by
  rw [chomp, chomped, List.getLast?_eq_some_getLast h]
  simp only [Option.some.injEq]
  split <;> rfl

/-- All that comes, each chunk up to its first NUL. -/
def Connection.arriving (c : Connection) : List UInt8 :=
  held c.buffer ++ c.chunks.flatMap Chunk.text

/-- The lines of a stream, and what is behind the last of them. -/
def streamLines (stream : List UInt8) : List (List UInt8) × List UInt8 :=
  ((stream.splitOn newline).dropLast, (stream.splitOn newline).getLastD [])

theorem streamLines_unfinished {rest : List UInt8} (h : newline ∉ rest) :
    streamLines rest = ([], rest) := by
  have hSplit : rest.splitOn newline = [rest] := by
    rw [List.splitOn_eq_splitOnP]
    exact List.splitOnP_eq_singleton fun c hc => by
      simpa using fun he : c = newline => h (he ▸ hc)
  simp [streamLines, hSplit]

theorem streamLines_line {line : List UInt8} (h : newline ∉ line) (rest : List UInt8) :
    streamLines (line ++ newline :: rest) =
      (line :: (streamLines rest).1, (streamLines rest).2) := by
  have hSplit : (line ++ newline :: rest).splitOn newline = line :: rest.splitOn newline := by
    rw [List.splitOn_eq_splitOnP, List.splitOn_eq_splitOnP]
    refine List.splitOnP_append_cons_of_forall_mem (fun c hc => ?_) newline (by simp) rest
    simpa using fun he : c = newline => h (he ▸ hc)
  have hSome : rest.splitOn newline ≠ [] := by
    rw [List.splitOn_eq_splitOnP]
    exact List.splitOnP_ne_nil _ rest
  rw [streamLines, hSplit, List.dropLast_cons_of_ne_nil hSome]
  obtain ⟨first, more, hMore⟩ := List.exists_cons_of_ne_nil hSome
  simp only [streamLines, hMore, List.getLastD_cons]

section Fetch

variable {line : Option (List UInt8)} {b : LineBuffer} {chunks : List Chunk}
  {front back : List UInt8}

theorem fetch_found (line : Option (List UInt8)) (hNewline : newline ∈ b.text)
    (hFront : newline ∉ front)
    (h : b.text ++ chunks.flatMap Chunk.text = front ++ newline :: back) :
    ∃ found : Found, fetch line b chunks = some (line, found, chunks) ∧ found.front = front ∧
      found.rotate.text ++ chunks.flatMap Chunk.text = back := by
  let found : Found := ⟨b, hNewline⟩
  have hSplit : found.front ++ newline :: (found.rotate.text ++ chunks.flatMap Chunk.text) =
      front ++ newline :: back := by
    rw [← h, show b.text = found.text from rfl, rotate_text found, List.append_assoc]
    rfl
  have hClean : newline ∉ found.front := fun hMem => by simpa using List.mem_takeWhile_imp hMem
  obtain ⟨hSame, hBehind⟩ := front_unique hClean hFront hSplit
  exact ⟨found, by rw [fetch.eq_def, dif_pos hNewline], hSame, hBehind⟩

/-- The line is taken off what arrives, and the rest is what arrives then. -/
theorem fetch_arriving (line : Option (List UInt8)) (hFront : newline ∉ front)
    (h : b.text ++ chunks.flatMap Chunk.text = front ++ newline :: back) :
    ∃ line' found rest, fetch line b chunks = some (line', found, rest) ∧
      line'.getD [] ++ found.front = line.getD [] ++ front ∧
      found.rotate.text ++ rest.flatMap Chunk.text = back := by
  induction chunks generalizing line b front with
  | nil =>
      have hNewline : newline ∈ b.text := by
        rw [List.flatMap_nil, List.append_nil] at h
        simp [h]
      obtain ⟨found, hFetch, hSame, hBehind⟩ := fetch_found line hNewline hFront h
      exact ⟨line, found, [], hFetch, by rw [hSame], hBehind⟩
  | cons chunk chunks ih =>
      by_cases hNewline : newline ∈ b.text
      · obtain ⟨found, hFetch, hSame, hBehind⟩ := fetch_found line hNewline hFront h
        exact ⟨line, found, _, hFetch, by rw [hSame], hBehind⟩
      · -- The whole buffer belongs to the line.
        have hStop : (b.text ++ (chunk :: chunks).flatMap Chunk.text).takeWhile (· != newline) =
            front := by
          rw [h, takeWhile_ne_append_of_not_mem hFront]
          simp
        rw [takeWhile_ne_append_of_not_mem hNewline] at hStop
        have hRest : (b.receive chunk).text ++ chunks.flatMap Chunk.text =
            (front.drop b.text.length) ++ newline :: back := by
          rw [receive_text]
          have hDrop := congrArg (List.drop b.text.length) h
          rwa [List.drop_left, List.drop_append_of_le_length (by simp [← hStop])] at hDrop
        obtain ⟨line', found, rest, hFetch, hLine, hBehind⟩ :=
          ih (if 0 < b.text.length then mpStrcat line (some b.text) else line)
            (fun hMem => hFront (List.mem_of_mem_drop hMem)) hRest
        refine ⟨line', found, rest, ?_, ?_, hBehind⟩
        · rw [fetch, dif_neg hNewline]
          exact hFetch
        · have hSoFar : (if 0 < b.text.length then mpStrcat line (some b.text) else line).getD [] =
              line.getD [] ++ b.text := by
            split
            · rw [mpStrcat_getD]
              rfl
            · rw [List.eq_nil_of_length_eq_zero (by omega : b.text.length = 0), List.append_nil]
          rw [hLine, hSoFar, List.append_assoc, ← hStop, List.drop_left]

theorem fetch_silent (line : Option (List UInt8))
    (h : newline ∉ b.text ++ chunks.flatMap Chunk.text) : fetch line b chunks = none := by
  induction chunks generalizing line b with
  | nil =>
      rw [fetch, dif_neg fun hMem => h (List.mem_append_left _ hMem)]
  | cons chunk chunks ih =>
      rw [fetch, dif_neg fun hMem => h (List.mem_append_left _ hMem)]
      refine ih _ fun hMem => h ?_
      rw [receive_text] at hMem
      exact List.mem_append_right _ hMem

end Fetch

/-- To a client a connection is the lines that arrive over it. -/
theorem recvLine_shows :
    Dialogue.Shows (fun c : Connection => streamLines c.arriving) Connection.recvLine
      Dialogue.given := by
  intro c
  by_cases hNewline : newline ∈ c.arriving
  · obtain ⟨back, hSplit⟩ := eq_takeWhile_append_cons hNewline
    have hFront : newline ∉ c.arriving.takeWhile (· != newline) := fun hMem => by
      simpa using List.mem_takeWhile_imp hMem
    obtain ⟨line, found, rest, hFetch, hLine, hBehind⟩ := fetch_arriving none hFront hSplit
    generalize c.arriving.takeWhile (· != newline) = front at hSplit hFront hLine
    have hRecv : c.recvLine = some (front, ⟨some found.rotate, rest⟩) := by
      rw [Option.getD_none, List.nil_append] at hLine
      simp [Connection.recvLine, hFetch, mpStrcat_getD, hLine]
    have hArriving : Connection.arriving ⟨some found.rotate, rest⟩ = back := hBehind
    have hLines := streamLines_line hFront back
    rw [← hSplit] at hLines
    show _ = Dialogue.given (streamLines c.arriving)
    rw [hRecv, hLines]
    simp [Dialogue.given, hArriving]
  · have hRecv : c.recvLine = none := by
      simp [Connection.recvLine, fetch_silent none hNewline]
    show _ = Dialogue.given (streamLines c.arriving)
    rw [hRecv, streamLines_unfinished hNewline]
    rfl

end MonitoringPlug.Net
