import MonitoringPlug.Lib.Text

/-! All that a loop over `fgets` reads of a stream, and what it reads of a line, however
long. -/
namespace CText

/-- The reads of a stream that has at most so many characters. -/
def readsFor (size : Nat) : Nat → List Char → List (List Char)
  | 0, _ => []
  | left + 1, stream =>
      match fgets size stream with
      | none => []
      | some (buffer, rest) => buffer :: readsFor size left rest

def reads (size : Nat) (stream : List Char) : List (List Char) :=
  readsFor size stream.length stream

/-- The reads of a line that fills the buffer so many times. -/
def piecesFor (room : Nat) : Nat → List Char → List (List Char)
  | 0, line => [line ++ ['\n']]
  | full + 1, line => line.take room :: piecesFor room full (line.drop room)

def pieces (room : Nat) (line : List Char) : List (List Char) :=
  piecesFor room (line.length / room) line

@[simp] theorem reads_nil (size : Nat) : reads size [] = [] := rfl

/-- More room than the stream has characters changes nothing. -/
theorem readsFor_eq_reads {size left : Nat} (hSize : 1 < size) {stream : List Char}
    (h : stream.length ≤ left) : readsFor size left stream = reads size stream := by
  induction hLength : stream.length using Nat.strongRecOn generalizing left stream with
  | ind length ih =>
      cases hRead : fgets size stream with
      | none =>
          have hNone (n : Nat) : readsFor size n stream = [] := by
            cases n with
            | zero => rfl
            | succ n => rw [readsFor, hRead]
          rw [reads, hNone, hNone]
      | some read =>
          obtain ⟨buffer, rest⟩ := read
          have hShorter := fgets_shortens hSize hRead
          obtain ⟨n, hLeft⟩ : ∃ n, left = n + 1 := ⟨left - 1, by omega⟩
          obtain ⟨m, hStream⟩ : ∃ m, stream.length = m + 1 := ⟨stream.length - 1, by omega⟩
          have hRest : readsFor size n rest = reads size rest :=
            ih rest.length (by omega) (by omega) rfl
          have hSame : readsFor size m rest = reads size rest :=
            ih rest.length (by omega) (by omega) rfl
          rw [reads, hLeft, hStream, readsFor, readsFor, hRead]
          simp only [hRest, hSame]

theorem reads_cons {size : Nat} (hSize : 1 < size) {stream buffer rest : List Char}
    (h : fgets size stream = some (buffer, rest)) :
    reads size stream = buffer :: reads size rest := by
  have hShorter := fgets_shortens hSize h
  obtain ⟨left, hLeft⟩ : ∃ left, stream.length = left + 1 := ⟨stream.length - 1, by omega⟩
  rw [reads, hLeft, readsFor, h]
  simp only
  rw [readsFor_eq_reads hSize (by omega)]

theorem pieces_short {room : Nat} {line : List Char} (h : line.length < room) :
    pieces room line = [line ++ ['\n']] := by
  rw [pieces, Nat.div_eq_of_lt h, piecesFor]

theorem pieces_long {room : Nat} {line : List Char} (hRoom : 0 < room)
    (h : room ≤ line.length) :
    pieces room line = line.take room :: pieces room (line.drop room) := by
  rw [pieces, Nat.div_eq_sub_div hRoom h, piecesFor, pieces, List.length_drop]

/-- A line is read in its pieces, and then what is behind it. -/
theorem reads_line {room : Nat} (hRoom : 0 < room) {line : List Char} (hLine : '\n' ∉ line)
    (rest : List Char) :
    reads (room + 1) (line ++ '\n' :: rest) = pieces room line ++ reads (room + 1) rest := by
  induction hLength : line.length using Nat.strongRecOn generalizing line with
  | ind length ih =>
      by_cases hShort : line.length < room
      · rw [pieces_short hShort, reads_cons (by omega) (fgets_line _ hLine (by omega) rest)]
        rfl
      · have hLong : room ≤ line.length := Nat.le_of_not_lt hShort
        have hTake : (line ++ '\n' :: rest).take room = line.take room :=
          List.take_append_of_le_length hLong
        have hSome : line ++ '\n' :: rest ≠ [] := by simp
        have hFree : '\n' ∉ (line ++ '\n' :: rest).take (room + 1 - 1) := by
          rw [Nat.add_sub_cancel, hTake]
          exact fun hMem => hLine (List.mem_of_mem_take hMem)
        have hRead := fgets_incomplete (room + 1) hSome hFree
        rw [Nat.add_sub_cancel, hTake, List.drop_append_of_le_length hLong] at hRead
        have hLess : (line.drop room).length < length := by
          rw [List.length_drop]
          omega
        rw [pieces_long hRoom hLong, reads_cons (by omega) hRead, List.cons_append,
          ih _ hLess (fun hMem => hLine (List.mem_of_mem_drop hMem)) rfl]

end CText
