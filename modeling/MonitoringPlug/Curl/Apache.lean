import Mathlib.Algebra.BigOperators.Group.List.Basic
import MonitoringPlug.Lib.Encoded
import MonitoringPlug.Lib.Lines
import MonitoringPlug.Lib.Loop
import MonitoringPlug.Lib.Rounds

/-! `check_apache_status`: the answer as libcurl hands it over, and the loop that
counts the characters of the scoreboard. -/
namespace MonitoringPlug.Curl

open CLoop CText

/-- `mp_curl_recv_data`: `data` is NULL before the first call. -/
def mpCurlRecvData (data : Option (List Char)) (contents : List Char) : Option (List Char) :=
  some (data.getD [] ++ contents)

/-- The answer after libcurl handed over these pieces. -/
def received (pieces : List (List Char)) : Option (List Char) :=
  pieces.foldl mpCurlRecvData none

/-- What the functions on strings see of it: the characters in front of a NUL. -/
def cText (data : List Char) : List Char := data.takeWhile (· != '\x00')

/-- The counters of `main`. -/
inductive Counter where
  | open_
  | wait
  | start
  | recv
  | send
  | keep
  | dns
  | close
  | log
  | grace
  | idle
deriving DecidableEq

/-- The `switch` on a character of the scoreboard. -/
def counterOf : Char → Option Counter
  | '.' => some .open_
  | '_' => some .wait
  | 'S' => some .start
  | 'R' => some .recv
  | 'W' => some .send
  | 'K' => some .keep
  | 'D' => some .dns
  | 'C' => some .close
  | 'L' => some .log
  | 'G' => some .grace
  | 'I' => some .idle
  | _ => none

def Counter.char : Counter → Char
  | .open_ => '.'
  | .wait => '_'
  | .start => 'S'
  | .recv => 'R'
  | .send => 'W'
  | .keep => 'K'
  | .dns => 'D'
  | .close => 'C'
  | .log => 'L'
  | .grace => 'G'
  | .idle => 'I'

abbrev Counters := Counter → Nat

/-- The first number an `int` cannot hold. -/
def intLimit : Nat := 2147483648

/-- `++` on a counter. It must not overflow. -/
def increment (counters : Counters) (c : Char) : Option Counters :=
  match counterOf c with
  | none => some counters
  | some counter =>
      if counters counter + 1 < intLimit then
        some (Function.update counters counter (counters counter + 1))
      else none

def scoreboardKey : List Char := ['S', 'c', 'o', 'r', 'e', 'b', 'o', 'a', 'r', 'd']

/-- One line. A NULL value is read when the key is the whole line. -/
def countLine (line : List Char) (counters : Counters) : Option Counters :=
  let (key, val) := strsepAny [':', ' '] line
  if key = scoreboardKey then
    match val with
    | none => none
    | some val => val.foldlM increment counters
  else some counters

/-- One round of the loop. `buf` is NULL behind a line without a newline. -/
def parsePass : Option (List Char) × Counters →
    Pass (Option (List Char) × Counters) (Option Counters)
  | (none, _) => .leave none
  | (some [], counters) => .leave (some counters)
  | (some (c :: buf), counters) =>
      let (val, buf) := strsep '\n' (c :: buf)
      match countLine val counters with
      | none => .leave none
      | some counters => .again (buf, counters)

/-- What a line adds to a counter: its characters in the value of a scoreboard line. -/
def lineCount (line : List Char) (counter : Counter) : Nat :=
  let (key, val) := strsepAny [':', ' '] line
  if key = scoreboardKey then (val.getD []).count counter.char else 0

/-- What all lines of a text add to it. -/
def boardCount (text : List Char) (counter : Counter) : Nat :=
  ((text.splitOn '\n').map fun line => lineCount line counter).sum

theorem counterOf_eq_some_iff (c : Char) (counter : Counter) :
    counterOf c = some counter ↔ c = counter.char := by
  constructor
  · intro h
    unfold counterOf at h
    split at h <;> cases h <;> rfl
  · rintro rfl
    cases counter <;> rfl

/-- Every counter fits into an `int`. -/
def Fits (counters : Counters) : Prop := ∀ counter, counters counter < intLimit

theorem increment_of_counter {counters : Counters} {c : Char} {counter : Counter}
    (h : counterOf c = some counter) (hFits : counters counter + 1 < intLimit) :
    increment counters c = some fun other => counters other + [c].count other.char := by
  obtain rfl := (counterOf_eq_some_iff c counter).mp h
  rw [increment, h]
  simp only [if_pos hFits, Option.some.injEq]
  funext other
  by_cases hSame : other = counter
  · subst hSame
    simp
  · have hOther : counter.char ≠ other.char := by
      intro hChar
      rw [← counterOf_eq_some_iff, (counterOf_eq_some_iff _ counter).mpr rfl] at hChar
      exact hSame (Option.some.inj hChar).symm
    rw [Function.update_of_ne hSame]
    simp [hOther]

theorem increment_of_other {counters : Counters} {c : Char} (h : counterOf c = none) :
    increment counters c = some fun other => counters other + [c].count other.char := by
  rw [increment, h]
  simp only [Option.some.injEq]
  funext other
  have hOther : c ≠ other.char := by
    intro hChar
    rw [(counterOf_eq_some_iff c other).mpr hChar] at h
    cases h
  simp [hOther]

/-- A character is counted, exactly if all counters fit then too. -/
theorem increment_iff {counters next : Counters} {c : Char} (hFits : Fits counters) :
    increment counters c = some next ↔
      Fits next ∧ next = fun other => counters other + [c].count other.char := by
  cases hCounter : counterOf c with
  | none =>
      have hStep : increment counters c = some counters := by rw [increment, hCounter]
      have hSame := Option.some.inj (hStep.symm.trans (increment_of_other hCounter))
      rw [hStep, ← hSame, Option.some.injEq]
      constructor
      · rintro rfl
        exact ⟨hFits, rfl⟩
      · intro h
        exact h.2.symm
  | some counter =>
      obtain rfl := (counterOf_eq_some_iff c counter).mp hCounter
      by_cases hRoom : counters counter + 1 < intLimit
      · have hStep := increment_of_counter hCounter hRoom
        have hSums : Fits fun other => counters other + [counter.char].count other.char := by
          intro other
          by_cases hSame : counter.char = other.char
          · rw [(counterOf_eq_some_iff _ other).mpr hSame] at hCounter
            obtain rfl := Option.some.inj hCounter
            simpa using hRoom
          · simpa [hSame] using hFits other
        rw [hStep, Option.some.injEq]
        constructor
        · rintro rfl
          exact ⟨hSums, rfl⟩
        · intro h
          exact h.2.symm
      · have hStep : increment counters counter.char = none := by
          simp [increment, hCounter, hRoom]
        rw [hStep]
        apply iff_of_false nofun
        rintro ⟨hAll, rfl⟩
        exact hRoom (by simpa using hAll counter)

/-- Counting ends with the sums, exactly if all of them fit. -/
theorem foldlM_increment_iff {val : List Char} {counters counters' : Counters}
    (hFits : Fits counters) :
    val.foldlM increment counters = some counters' ↔
      Fits counters' ∧ counters' = fun counter => counters counter + val.count counter.char := by
  induction val generalizing counters with
  | nil =>
      simp only [List.foldlM_nil, List.count_nil, Nat.add_zero]
      constructor
      · intro h
        obtain rfl := Option.some.inj h
        exact ⟨hFits, rfl⟩
      · rintro ⟨-, rfl⟩
        rfl
  | cons c val ih =>
      have hCount (counter : Counter) : counters counter + (c :: val).count counter.char =
          counters counter + [c].count counter.char + val.count counter.char := by
        rw [← List.singleton_append, List.count_append, Nat.add_assoc]
      simp only [hCount, foldlM_cons_eq_some_iff]
      constructor
      · rintro ⟨next, hStep, hRest⟩
        obtain ⟨hNext, rfl⟩ := (increment_iff hFits).mp hStep
        exact (ih hNext).mp hRest
      · intro h
        have hNext : Fits fun counter => counters counter + [c].count counter.char := by
          intro counter
          apply lt_of_le_of_lt _ (h.1 counter)
          rw [h.2]
          exact Nat.le_add_right _ _
        exact ⟨_, (increment_iff hFits).mpr ⟨hNext, rfl⟩, (ih hNext).mpr h⟩

/-- A line is counted unless it is the key alone. -/
theorem countLine_iff {line : List Char} {counters counters' : Counters} (hFits : Fits counters) :
    countLine line counters = some counters' ↔ line ≠ scoreboardKey ∧ Fits counters' ∧
      counters' = fun counter => counters counter + lineCount line counter := by
  rw [countLine]
  rcases exists_cut [':', ' '] line with hFree | ⟨front, d, rest, rfl, hFront, hd⟩
  · simp only [lineCount, strsepAny_none hFree]
    by_cases hKey : line = scoreboardKey
    · simp [hKey]
    · rw [if_neg hKey]
      simp only [if_neg hKey, Nat.add_zero, Option.some.injEq]
      constructor
      · rintro rfl
        exact ⟨hKey, hFits, rfl⟩
      · intro h
        exact h.2.2.symm
  · have hNotKey : front ++ d :: rest ≠ scoreboardKey := by
      intro hKey
      have hMem : d ∈ scoreboardKey := by simp [← hKey]
      simp only [List.mem_cons, List.not_mem_nil, or_false] at hd
      rcases hd with rfl | rfl <;> revert hMem <;> decide
    simp only [lineCount, strsepAny_append hFront hd]
    by_cases hKey : front = scoreboardKey
    · simp only [if_pos hKey, Option.getD_some, foldlM_increment_iff hFits]
      exact (and_iff_right hNotKey).symm
    · simp only [if_neg hKey, Nat.add_zero, Option.some.injEq]
      constructor
      · rintro rfl
        exact ⟨hNotKey, hFits, rfl⟩
      · intro h
        exact h.2.2.symm

/-- The text ends behind a newline, or there is none. -/
def Ended (text : List Char) : Prop := ∀ c ∈ text.getLast?, c = '\n'

/-- No line is the key alone. -/
def NoBareKey (text : List Char) : Prop := scoreboardKey ∉ text.splitOn '\n'

theorem splitOn_line {line : List Char} (hLine : '\n' ∉ line) (rest : List Char) :
    (line ++ '\n' :: rest).splitOn '\n' = line :: rest.splitOn '\n' :=
  List.splitOnP_append_cons_of_forall_mem
    (fun c hc => by simpa using fun h : c = '\n' => hLine (h ▸ hc)) '\n' (by simp) rest

theorem boardCount_line {line : List Char} (hLine : '\n' ∉ line) (rest : List Char)
    (counter : Counter) :
    boardCount (line ++ '\n' :: rest) counter =
      lineCount line counter + boardCount rest counter := by
  rw [boardCount, splitOn_line hLine, List.map_cons, List.sum_cons]
  rfl

theorem ended_line (line rest : List Char) : Ended (line ++ '\n' :: rest) ↔ Ended rest := by
  cases rest with
  | nil => simp [Ended]
  | cons c rest => simp [Ended, List.getLast?_append]

theorem parsePass_text (text : List Char) (hSome : text ≠ []) (counters : Counters) :
    parsePass (some text, counters) =
      match countLine (strsep '\n' text).1 counters with
      | none => .leave none
      | some counters => .again ((strsep '\n' text).2, counters) := by
  cases text with
  | nil => exact absurd rfl hSome
  | cons c buf => rfl

/-- A line without a newline ends in a fault, be it for its key or behind it. -/
theorem parse_unfinished {line : List Char} (hSome : line ≠ []) (hLine : '\n' ∉ line)
    (counters : Counters) : Returns parsePass (some line, counters) none := by
  have hPass := parsePass_text line hSome counters
  rw [strsep_none hLine] at hPass
  cases hCount : countLine line counters with
  | none =>
      rw [hCount] at hPass
      exact Returns.leave hPass
  | some next =>
      rw [hCount] at hPass
      exact Returns.again hPass (Returns.leave rfl)

/-- The loop ends for every text. It ends well exactly if the text ends behind a
newline, no line is the key alone and the sums fit; these are its result then. -/
theorem parse_text (text : List Char) (counters : Counters) (hFits : Fits counters) :
    ∃ result, Returns parsePass (some text, counters) result ∧ ∀ counters',
      result = some counters' ↔ Ended text ∧ NoBareKey text ∧ Fits counters' ∧
        counters' = fun counter => counters counter + boardCount text counter := by
  induction text using CMemory.lines_induction (p := (· == '\n')) generalizing counters with
  | unfinished line hLine =>
      have hNewline : '\n' ∉ line := fun h => by simpa using hLine _ h
      cases line with
      | nil =>
          refine ⟨some counters, Returns.leave rfl, fun counters' => ?_⟩
          have hEmpty : lineCount [] = fun _ => 0 := rfl
          simp only [Ended, List.getLast?_nil, Option.mem_def, reduceCtorEq, false_imp_iff,
            implies_true, NoBareKey, List.splitOn_nil, List.mem_singleton, true_and, boardCount,
            List.map_cons, List.map_nil, List.sum_cons, List.sum_nil, hEmpty, Nat.add_zero,
            Option.some.injEq]
          constructor
          · rintro rfl
            exact ⟨nofun, hFits, rfl⟩
          · intro h
            exact h.2.2.symm
      | cons c line =>
          refine ⟨none, parse_unfinished (List.cons_ne_nil _ _) hNewline counters,
            fun counters' => ?_⟩
          apply iff_of_false nofun
          intro h
          have hLast := List.getLast_mem (List.cons_ne_nil c line)
          rw [h.1 _ (List.getLast?_eq_some_getLast (List.cons_ne_nil c line))] at hLast
          exact hNewline hLast
  | line line c rest hLine hEnd ih =>
      obtain rfl : c = '\n' := by simpa using hEnd
      have hNewline : '\n' ∉ line := fun h => by simpa using hLine _ h
      have hPass := parsePass_text (line ++ '\n' :: rest) (by simp) counters
      rw [strsep_append hNewline] at hPass
      have hBare : NoBareKey (line ++ '\n' :: rest) ↔ line ≠ scoreboardKey ∧ NoBareKey rest := by
        rw [NoBareKey, splitOn_line hNewline, List.mem_cons, not_or, NoBareKey]
        exact and_congr_left' ⟨Ne.symm, Ne.symm⟩
      simp only [ended_line, hBare, boardCount_line hNewline, ← Nat.add_assoc]
      cases hCount : countLine line counters with
      | none =>
          rw [hCount] at hPass
          refine ⟨none, Returns.leave hPass, fun counters' => iff_of_false nofun ?_⟩
          rintro ⟨-, ⟨hKey, -⟩, hAll, rfl⟩
          have hLine : Fits fun counter => counters counter + lineCount line counter :=
            fun counter => lt_of_le_of_lt (Nat.le_add_right _ _) (hAll counter)
          have hCounted := (countLine_iff hFits).mpr ⟨hKey, hLine, rfl⟩
          rw [hCount] at hCounted
          cases hCounted
      | some next =>
          rw [hCount] at hPass
          obtain ⟨hKey, hNextFits, rfl⟩ := (countLine_iff hFits).mp hCount
          obtain ⟨result, hReturns, hResult⟩ := ih _ hNextFits
          refine ⟨result, Returns.again hPass hReturns, fun counters' => ?_⟩
          rw [hResult]
          simp only [hKey, ne_eq, not_false_eq_true, true_and]

/-- What has to be true of the pieces of the body: there is one, the text in front of
the first NUL ends behind a newline or is empty, none of its lines is the key alone,
nothing behind the NUL counts, and every sum fits into an `int`. -/
structure CountsBody (pieces : List (List Char)) : Prop where
  handed : pieces ≠ []
  ended : Ended (cText pieces.flatten)
  noBareKey : NoBareKey (cText pieces.flatten)
  nothingBehind : boardCount (cText pieces.flatten) = boardCount pieces.flatten
  fits : Fits (boardCount pieces.flatten)

theorem received_eq (pieces : List (List Char)) :
    received pieces = if pieces = [] then none else some pieces.flatten := by
  have hRest (rest : List (List Char)) (data : List Char) :
      rest.foldl mpCurlRecvData (some data) = some (data ++ rest.flatten) := by
    induction rest generalizing data with
    | nil => simp
    | cons piece rest ih =>
        rw [List.foldl_cons, List.flatten_cons, ← List.append_assoc]
        exact ih (data ++ piece)
  cases pieces with
  | nil => rfl
  | cons piece rest =>
      rw [if_neg (List.cons_ne_nil _ _), received, List.foldl_cons]
      exact hRest rest piece

/-- For every body, however it is handed over, the loop ends. It ends without a fault,
each counter being the number of its character in the scoreboard lines of the body,
exactly under these conditions. -/
theorem parse_counts_iff (pieces : List (List Char)) :
    ∃ result, Returns parsePass ((received pieces).map cText, fun _ => 0) result ∧
      (result = some (boardCount pieces.flatten) ↔ CountsBody pieces) := by
  by_cases hNone : pieces = []
  · refine ⟨none, ?_, iff_of_false nofun fun h => h.handed hNone⟩
    rw [received_eq, if_pos hNone]
    exact Returns.leave rfl
  · obtain ⟨result, hReturns, hResult⟩ :=
      parse_text (cText pieces.flatten) (fun _ => 0) (fun _ => Nat.succ_pos _)
    refine ⟨result, ?_, ?_⟩
    · rw [received_eq, if_neg hNone]
      exact hReturns
    · rw [hResult]
      simp only [Nat.zero_add]
      constructor
      · rintro ⟨hEnded, hBare, hFits, hSame⟩
        exact ⟨hNone, hEnded, hBare, hSame.symm, hFits⟩
      · intro h
        exact ⟨h.ended, h.noBareKey, h.fits, h.nothingBehind.symm⟩

/-- "Scoreboard: _W" without a newline at its end. -/
theorem parse_unfinished_scoreboard :
    Returns parsePass ((received [scoreboardKey ++ [':', ' ', '_', 'W']]).map cText, fun _ => 0)
      none := by
  apply parse_unfinished
  · decide
  · decide

end MonitoringPlug.Curl
