import MonitoringPlug.Common
import MonitoringPlug.Common.Subprocess
import MonitoringPlug.Lib.Format
import MonitoringPlug.Lib.Reads
import MonitoringPlug.Lib.Scanner
import MonitoringPlug.Lib.Search

/-! `check_multipath`: the output of `multipath -l` is read from the pipe, and the reads that
tell of a failed path are counted. -/
namespace MonitoringPlug.Base

open CText Pipes Scanner
open MonitoringPlug.Common

def failedWord : List Char := "failed".toList

/-- `strstr` on what `fgets` stored. -/
def tellsFailed (line : List Char) : Bool :=
  (strstr failedWord (line.takeWhile (· != '\x00'))).isSome

/-- `main` behind the pipe: the reads are counted, and then the result of the child comes
first. -/
def multipathExit (output : List Char) (r : Int) : Status × List Char :=
  let lines := reads 128 output
  let failed := lines.countP tellsFailed
  if r ≠ 0 then (.critical, "Executing multipath failed! (".toList ++ formatLong r ++ [')'])
  else if lines.length = 0 then (.warning, "No paths defined".toList)
  else if failed > 0 then (.critical, formatLong failed ++ " paths failed".toList)
  else (.ok, "Multipath".toList)

def linesText (lines : List (List Char)) : List Char := lines.flatMap fun line => line ++ ['\n']

theorem reads_linesText {lines : List (List Char)} (h : ∀ line ∈ lines, '\n' ∉ line) :
    reads 128 (linesText lines) = lines.flatMap (pieces 127) := by
  induction lines with
  | nil => rfl
  | cons line lines ih =>
      obtain ⟨hLine, hLines⟩ := List.forall_mem_cons.mp h
      rw [linesText, List.flatMap_cons, List.append_assoc, List.singleton_append,
        reads_line (by decide) hLine, List.flatMap_cons]
      exact congrArg _ (ih hLines)

/-- The pieces of the lines, of up to 127 characters, that have the word in them. -/
def toldFailed (lines : List (List Char)) : Nat :=
  (lines.flatMap (pieces 127)).countP fun piece => failedWord <:+: piece

theorem pieces_mem {room : Nat} {line piece : List Char} {c : Char}
    (hPiece : piece ∈ pieces room line) (hMem : c ∈ piece) : c ∈ line ∨ c = '\n' := by
  rw [pieces] at hPiece
  generalize line.length / room = full at hPiece
  induction full generalizing line with
  | zero =>
      obtain rfl : piece = line ++ ['\n'] := by simpa [piecesFor] using hPiece
      simpa using hMem
  | succ full ih =>
      rw [piecesFor, List.mem_cons] at hPiece
      rcases hPiece with rfl | hLater
      · exact .inl (List.mem_of_mem_take hMem)
      · exact (ih hLater).imp_left List.mem_of_mem_drop

theorem tellsFailed_iff {line : List Char} (hFree : '\x00' ∉ line) :
    tellsFailed line = true ↔ failedWord <:+: line := by
  have hAll : line.takeWhile (· != '\x00') = line :=
    List.takeWhile_eq_self_iff.mpr fun c hMem => bne_iff_ne.mpr fun hZero => hFree (hZero ▸ hMem)
  rw [tellsFailed, hAll, strstr_isSome_iff]

theorem countP_tellsFailed {lines : List (List Char)} (hFree : ∀ line ∈ lines, '\x00' ∉ line) :
    (lines.flatMap (pieces 127)).countP tellsFailed = toldFailed lines := by
  refine List.countP_congr fun piece hPiece => ?_
  obtain ⟨line, hLine, hPieces⟩ := List.mem_flatMap.mp hPiece
  rw [tellsFailed_iff, decide_eq_true_iff]
  intro hZero
  rcases pieces_mem hPieces hZero with hMem | hNewline
  · exact hFree line hLine hMem
  · exact absurd hNewline (by decide)

/-- A line that fits into the buffer is counted once, if at all. -/
theorem toldFailed_short {lines : List (List Char)} (h : ∀ line ∈ lines, line.length < 127) :
    toldFailed lines = lines.countP fun line => failedWord <:+: line := by
  induction lines with
  | nil => rfl
  | cons line lines ih =>
      obtain ⟨hLine, hLines⟩ := List.forall_mem_cons.mp h
      have hPiece : failedWord <:+: line ++ ['\n'] ↔ failedWord <:+: line := by
        have hPadded : failedWord <:+: [] ++ line ++ ['\n'] ↔ failedWord <:+: line :=
          infix_padded_iff (by decide) (List.forall_mem_nil _)
            (List.forall_mem_singleton.mpr (by decide))
        simpa using hPadded
      have hRest := ih hLines
      rw [toldFailed] at hRest ⊢
      rw [List.flatMap_cons, pieces_short hLine, List.countP_append, hRest, List.countP_singleton,
        Nat.add_comm, List.countP_cons]
      simp only [hPiece]

section Exit

variable {Child : Type} {capacity : Nat} {child : Process Child} {start : Child}
  {c : Config Slurp Child} {events : List (Side × Act)} {got : List UInt8} {result : Int}
  {lines : List (List Char)}

/-- Whatever the order in which `multipath` writes and the plugin reads: the plugin exits by
the result and by all of the lines that `multipath` wrote, where a long line is looked at
piece by piece. -/
theorem checkMultipath_exit {launch : Launch} {p : Pipe} (hLaunch : mpSubprocess launch = some p)
    (hQuiet : Quiet child) (hRun : Run capacity Slurp.Does child ⟨p, .opened, start⟩ events c)
    (hClosed : c.parent = .closed got result)
    (hOutput : characters (inflow events) = linesText lines)
    (hLines : ∀ line ∈ lines, '\n' ∉ line ∧ '\x00' ∉ line) :
    multipathExit (characters got) result =
        (if result ≠ 0 then
          (.critical, "Executing multipath failed! (".toList ++ formatLong result ++ [')'])
        else if lines = [] then (.warning, "No paths defined".toList)
        else if toldFailed lines > 0 then
          (.critical, formatLong (toldFailed lines) ++ " paths failed".toList)
        else (.ok, "Multipath".toList)) ∧
      ((∀ line ∈ lines, line.length < 127) →
        toldFailed lines = lines.countP fun line => failedWord <:+: line) := by
  refine ⟨?_, toldFailed_short⟩
  obtain rfl := mpSubprocess_shared hLaunch
  have hAll := slurp_all hQuiet hRun (by rw [hClosed]; trivial)
  rw [hClosed] at hAll
  obtain rfl : got = inflow events := hAll
  have hReads := reads_linesText fun line hLine => (hLines line hLine).1
  have hCount := countP_tellsFailed fun line hLine => (hLines line hLine).2
  have hNone : (lines.flatMap (pieces 127)).length = 0 ↔ lines = [] := by
    cases lines with
    | nil => simp
    | cons line lines =>
        have hSome : pieces 127 line ≠ [] := by
          rw [pieces]
          cases line.length / 127 <;> simp [piecesFor]
        simp [hSome]
  simp only [multipathExit, hOutput, hReads, hCount, hNone]

/-- A child that writes its chunks and exits. -/
inductive Printing where
  | left (chunks : List (List UInt8)) (status : Int)
  | gone

inductive Printing.Does : Process Printing where
  | write {chunk chunks status} :
      Printing.Does (.left (chunk :: chunks) status) (.write chunk) (.left chunks status)
  | exit {status} : Printing.Does (.left [] status) (.exit status) .gone

theorem printing_quiet : Quiet Printing.Does := by
  rintro s act next hDoes bytes rfl
  cases hDoes

/-- The pipe while the child prints: the plugin has closed its write end. -/
def printingPipe : Pipe := { Pipe.shared with writer := Pipe.release Pipe.shared.writer .parent }

def printedPipe (status : Int) : Pipe where
  content := []
  reader := Pipe.release Pipe.shared.reader .child
  writer := Pipe.release printingPipe.writer .child
  exited s := if s = .child then some status else none

/-- One of the orders: every chunk is read as soon as it is written. -/
theorem printing_run (got : List UInt8) {chunks : List (List UInt8)} (status : Int)
    (h : ∀ chunk ∈ chunks, chunk ≠ [] ∧ chunk.length ≤ capacity) :
    ∃ events, Run capacity Slurp.Does Printing.Does
        ⟨printingPipe, .reading got, .left chunks status⟩ events
        ⟨printedPipe status, .closed (got ++ chunks.flatten) status, .gone⟩ ∧
      inflow events = chunks.flatten := by
  induction chunks generalizing got with
  | nil =>
      have hExit : Step capacity Slurp.Does Printing.Does
          ⟨printingPipe, .reading got, .left [] status⟩ _
          ⟨printedPipe status, .reading got, .gone⟩ := .child .exit rfl
      have hEnd : Step capacity Slurp.Does Printing.Does
          ⟨printedPipe status, .reading got, .gone⟩ _ ⟨printedPipe status, .ended got, .gone⟩ :=
        .parent .endOfFile (Act.endOfFile_apply rfl rfl rfl rfl)
      have hClose : Step capacity Slurp.Does Printing.Does
          ⟨printedPipe status, .ended got, .gone⟩ _
          ⟨printedPipe status, .closed got status, .gone⟩ := .parent .close (if_pos rfl)
      rw [List.flatten_nil, List.append_nil]
      exact ⟨_, ((Run.single hExit).step hEnd).step hClose, rfl⟩
  | cons chunk chunks ih =>
      obtain ⟨⟨hSome, hFits⟩, hChunks⟩ := List.forall_mem_cons.mp h
      have hWrite : Step capacity Slurp.Does Printing.Does
          ⟨printingPipe, .reading got, .left (chunk :: chunks) status⟩ _
          ⟨{ printingPipe with content := chunk }, .reading got, .left chunks status⟩ :=
        .child .write (if_pos ⟨rfl, .inl rfl, by simpa [printingPipe, Pipe.shared] using hFits⟩)
      have hRead : Step capacity Slurp.Does Printing.Does
          ⟨{ printingPipe with content := chunk }, .reading got, .left chunks status⟩
          (.parent, .read chunk) ⟨printingPipe, .reading (got ++ chunk), .left chunks status⟩ := by
        refine .parent .read ((if_pos ⟨rfl, hSome, List.prefix_rfl⟩).trans ?_)
        simp [printingPipe, Pipe.shared]
      obtain ⟨events, hRest, hFlow⟩ := ih (got ++ chunk) hChunks
      rw [List.flatten_cons, ← List.append_assoc]
      refine ⟨_, ((Run.single hWrite).step hRead).trans hRest, ?_⟩
      rw [inflow_append, hFlow]
      simp [inflow]

/-- A word that is read in two parts, and a line of a healthy path. -/
theorem checkMultipath_exit_split :
    ∃ events c, Run 64 Slurp.Does Printing.Does
        ⟨Pipe.shared, .opened, .left [ascii "sda fai", ascii "led\nsdb\n"] 0⟩ events c ∧
      c.parent = .closed (ascii "sda failed\nsdb\n") 0 ∧
      multipathExit (characters (ascii "sda failed\nsdb\n")) 0 =
        (.critical, "1 paths failed".toList) := by
  have hStart : Step 64 Slurp.Does Printing.Does
      ⟨Pipe.shared, .opened, .left [ascii "sda fai", ascii "led\nsdb\n"] 0⟩ _
      ⟨printingPipe, .reading [], .left [ascii "sda fai", ascii "led\nsdb\n"] 0⟩ :=
    .parent .closeStdin rfl
  have hChunks : ∀ chunk ∈ [ascii "sda fai", ascii "led\nsdb\n"],
      chunk ≠ [] ∧ chunk.length ≤ 64 := by decide +kernel
  obtain ⟨events, hRun, hFlow⟩ := printing_run [] 0 hChunks
  have hAll : [] ++ [ascii "sda fai", ascii "led\nsdb\n"].flatten = ascii "sda failed\nsdb\n" := by
    decide +kernel
  rw [hAll] at hRun
  have hWhole := (Run.single hStart).trans hRun
  refine ⟨_, _, hWhole, rfl, ?_⟩
  have hOutput : characters (inflow ([(Side.parent, Act.closeWrite)] ++ events)) =
      linesText ["sda failed".toList, "sdb".toList] := by
    rw [inflow_append, hFlow]
    decide +kernel
  exact (checkMultipath_exit started_shared printing_quiet hWhole rfl hOutput
    (by decide +kernel)).1.trans (by decide +kernel)

end Exit

end MonitoringPlug.Base
