import Mathlib.Data.List.DropRight
import MonitoringPlug.Lib.Loop
import MonitoringPlug.Lib.Text

/-! Options from an ini file, spliced into an argument vector behind its
`--eopt` word. A `none` result is a dereferenced NULL pointer or an access
outside an object. -/
namespace MonitoringPlug.Args

open CText CLoop

/-- The surroundings of `mp_eopt`. The vector only holds pointers, so what a word
is stays open: `text` is the string behind one, and `word` the one for a string
that was allocated. That `strsep` ends the section inside the `--eopt` word is
not seen in the vector. -/
structure EoptEnv (Word : Type) where
  progname : List Char
  fopen : List Char → Option (List Char)
  text : Word → List Char
  word : List Char → Word

def defaultFile : List Char := "/etc/nagios/monitoringplug.ini".toList

def rtrim (buffer : List Char) : List Char := buffer.rdropWhile isSpace

/-- The option word for a key. -/
def optionWord (key : List Char) : List Char :=
  if 1 < key.length then '-' :: '-' :: key else '-' :: key

/-- The words a key line adds. -/
def entryWords (key val : List Char) : List (List Char) :=
  optionWord key :: if val = [] then [] else [val]

structure Reading where
  stream : List Char
  currentSection : Bool
  newArgv : List (List Char)

/-- How the file was read: to its end, or up to a line that is not complete. -/
inductive ReadResult where
  | words (newArgv : List (List Char))
  | tooLong

/-- One pass of the `fgets` loop. -/
def readPass (esection : List Char) (s : Reading) : Pass Reading (Option ReadResult) :=
  match fgets 256 s.stream with
  | none => .leave (some (.words s.newArgv))
  | some (read, stream) =>
      let buffer := read.takeWhile (· != '\x00')
      match buffer.getLast? with
      | none => .leave none
      | some last =>
          if last ≠ '\n' then .leave (some .tooLong)
          else
            let buffer := rtrim buffer
            if buffer.length ≤ 1 then .again { s with stream := stream }
            else if buffer.head? = some '#' ∨ buffer.head? = some ';' then
              .again { s with stream := stream }
            else if buffer.head? = some '[' ∧ buffer.getLast? = some ']' then
              .again { s with stream := stream, currentSection := esection == buffer.tail.dropLast }
            else if !s.currentSection then .again { s with stream := stream }
            else
              match strsep '=' buffer with
              | (_, none) => .leave none
              | (key, some val) =>
                  .again { s with stream := stream, newArgv := s.newArgv ++ entryWords key val }

/-- Every pass takes a line off the stream, so its length bounds the passes. -/
def readFile (esection stream : List Char) : Option ReadResult :=
  (runFor (readPass esection) (stream.length + 1)
    { stream := stream, currentSection := false, newArgv := [] }).join

/-- A loop of assignments to consecutive slots from `offset` on. -/
def assignFrom {α : Type*} (slots : List (Option α)) (offset : Nat) :
    List α → Option (List (Option α))
  | [] => some slots
  | a :: rest =>
      if offset < slots.length then assignFrom (slots.set offset (some a)) (offset + 1) rest
      else none

/-- The new vector with its three copy loops. -/
def spliceArgv {Word : Type} (argv : List Word) (optind : Nat) (newArgv : List Word) :
    Option (List Word) := do
  let eargv := List.replicate (argv.length + newArgv.length) none
  let eargv ← assignFrom eargv 0 (argv.take optind)
  let eargv ← assignFrom eargv optind newArgv
  let eargv ← assignFrom eargv (newArgv.length + optind) (argv.drop optind)
  eargv.mapM id

/-- The section and the file. -/
def parseOptarg (progname : List Char) (optarg : Option (List Char)) : List Char × List Char :=
  match optarg with
  | none => (progname, defaultFile)
  | some ('@' :: efile) => (progname, efile)
  | some optarg =>
      match strsep '@' optarg with
      | (esection, none) => (esection, defaultFile)
      | (esection, some efile) => (esection, efile)

structure Spliced (Word : Type) where
  argv : List Word
  argc : Nat
  optind : Nat
deriving DecidableEq

/-- A NULL `optarg` takes the next word unless it starts with a dash. -/
def takeSection {Word : Type} (env : EoptEnv Word) (argv : List Word) (optind : Nat)
    (optarg : Option (List Char)) : Option (Option (List Char) × Nat) :=
  match optarg with
  | some optarg => some (some optarg, optind)
  | none =>
      match argv[optind]? with
      | none => none
      | some next =>
          if (env.text next).head? ≠ some '-' then some (some (env.text next), optind + 1)
          else some (none, optind)

/-- `argc` is the length of the vector; the NULL behind it is not part of it. -/
def mpEopt {Word : Type} (env : EoptEnv Word) (argv : List Word) (optind : Nat)
    (optarg : Option (List Char)) : Option (Spliced Word) := do
  let (optarg, optind) ← takeSection env argv optind optarg
  let (esection, efile) := parseOptarg env.progname optarg
  match env.fopen efile with
  | none => some { argv := argv, argc := argv.length, optind := optind }
  | some stream =>
      match ← readFile esection stream with
      | .tooLong => some { argv := argv, argc := argv.length, optind := optind }
      | .words newArgv =>
          let eargv ← spliceArgv argv optind (newArgv.map env.word)
          some { argv := eargv, argc := argv.length + newArgv.length, optind := optind }

/-- A line that `fgets` reads whole. -/
structure IniLine where
  text : List Char
  noNewline : '\n' ∉ text
  noNul : '\x00' ∉ text
  short : text.length ≤ 254

def fileText (lines : List IniLine) : List Char := lines.flatMap fun line => line.text ++ ['\n']

/-- What a line is, its right end trimmed. -/
inductive LineKind where
  | nothing
  | header (name : List Char)
  | entry (text : List Char)

def IniLine.kind (line : IniLine) : LineKind :=
  let text := rtrim line.text
  if text.length ≤ 1 ∨ text.head? = some '#' ∨ text.head? = some ';' then .nothing
  else if text.head? = some '[' ∧ text.getLast? = some ']' then .header text.tail.dropLast
  else .entry text

/-- The key lines, each with the nearest header above it. -/
def headedEntries : Option (List Char) → List IniLine → List (Option (List Char) × List Char)
  | _, [] => []
  | above, line :: rest =>
      match line.kind with
      | .nothing => headedEntries above rest
      | .header name => headedEntries (some name) rest
      | .entry text => (above, text) :: headedEntries above rest

/-- The key lines below headers of this section. -/
def sectionEntries (section_ : List Char) (above : Option (List Char)) (lines : List IniLine) :
    List (List Char) :=
  (headedEntries above lines).filterMap fun (header, text) =>
    if header = some section_ then some text else none

/-- The words of a key line: its key with dashes in front, and its value if
there is one. -/
def wordsOfEntry (text : List Char) : List (List Char) :=
  entryWords (text.takeWhile (· != '=')) (text.dropWhile (· != '=')).tail

section ReadLines

variable {esection : List Char}

theorem rtrim_newline (text : List Char) : rtrim (text ++ ['\n']) = rtrim text :=
  List.rdropWhile_concat_pos _ _ _ rfl

/-- The header that counts for the lines below this one. -/
def IniLine.below (above : Option (List Char)) (line : IniLine) : Option (List Char) :=
  match line.kind with
  | .header name => some name
  | _ => above

theorem headedEntries_cons (above : Option (List Char)) (line : IniLine) (rest : List IniLine) :
    headedEntries above (line :: rest) =
      headedEntries above [line] ++ headedEntries (line.below above) rest := by
  cases hKind : line.kind <;> simp [headedEntries, IniLine.below, hKind]

theorem sectionEntries_cons (above : Option (List Char)) (line : IniLine) (rest : List IniLine) :
    sectionEntries esection above (line :: rest) =
      sectionEntries esection above [line] ++ sectionEntries esection (line.below above) rest := by
  rw [sectionEntries, headedEntries_cons, List.filterMap_append]
  rfl

/-- What is in the buffer after a complete line was read. -/
theorem line_buffer (line : IniLine) :
    (line.text ++ ['\n']).takeWhile (· != '\x00') = line.text ++ ['\n'] := by
  rw [List.takeWhile_eq_self_iff]
  intro c hc
  have hNul : c ≠ '\x00' := by
    rintro rfl
    rcases List.mem_append.mp hc with hc | hc
    · exact line.noNul hc
    · simp at hc
  simpa using hNul

/-- One line is one pass: a header decides whether the key lines below count. -/
theorem readPass_line (line : IniLine) (above : Option (List Char)) (newArgv : List (List Char))
    (stream : List Char) (hEntry : ∀ text ∈ sectionEntries esection above [line], '=' ∈ text) :
    readPass esection
        { stream := line.text ++ '\n' :: stream, currentSection := above == some esection,
          newArgv := newArgv } =
      .again
        { stream := stream, currentSection := line.below above == some esection,
          newArgv := newArgv ++ (sectionEntries esection above [line]).flatMap wordsOfEntry } := by
  have hRead := fgets_line 256 line.noNewline (by have := line.short; omega) stream
  have hLast : (line.text ++ ['\n']).getLast? = some '\n' := by simp
  simp only [readPass, hRead, line_buffer, hLast, ne_eq, not_true_eq_false, if_false,
    rtrim_newline]
  -- The branches of the loop body are the cases of `kind`, blank lines and comments apart.
  by_cases hBlank : (rtrim line.text).length ≤ 1
  · have hKind : line.kind = .nothing := by simp [IniLine.kind, hBlank]
    simp [hBlank, IniLine.below, hKind, sectionEntries, headedEntries]
  · by_cases hComment : (rtrim line.text).head? = some '#' ∨ (rtrim line.text).head? = some ';'
    · have hKind : line.kind = .nothing := by simp only [IniLine.kind, hComment, or_true, if_true]
      simp [hBlank, hComment, IniLine.below, hKind, sectionEntries, headedEntries]
    · by_cases hHeader : (rtrim line.text).head? = some '[' ∧ (rtrim line.text).getLast? = some ']'
      · have hKind : line.kind = .header (rtrim line.text).tail.dropLast :=
          (if_neg (not_or.mpr ⟨hBlank, hComment⟩)).trans (if_pos hHeader)
        have hSame : (esection == (rtrim line.text).tail.dropLast) =
            (some (rtrim line.text).tail.dropLast == some esection) := by
          rw [Bool.eq_iff_iff, beq_iff_eq, beq_iff_eq, Option.some.injEq, eq_comm]
        simp [hBlank, hHeader, IniLine.below, hKind, sectionEntries, headedEntries, hSame]
      · have hKind : line.kind = .entry (rtrim line.text) :=
          (if_neg (not_or.mpr ⟨hBlank, hComment⟩)).trans (if_neg hHeader)
        rw [if_neg hBlank, if_neg hComment, if_neg hHeader]
        by_cases hCurrent : above = some esection
        · have hEntries : sectionEntries esection above [line] = [rtrim line.text] := by
            simp [sectionEntries, headedEntries, hKind, hCurrent]
          have hEquals := hEntry _ (by rw [hEntries]; exact List.mem_singleton_self _)
          rw [hEntries, strsep_mem hEquals]
          simp [hCurrent, IniLine.below, hKind, wordsOfEntry]
        · have hEntries : sectionEntries esection above [line] = [] := by
            simp [sectionEntries, headedEntries, hKind, hCurrent]
          simp [hEntries, hCurrent, IniLine.below, hKind]

/-- A file of complete lines is read line by line. -/
theorem returns_readPass (lines : List IniLine) (above : Option (List Char))
    (newArgv : List (List Char)) {tail : List Char} {result : Option ReadResult}
    (hEntry : ∀ text ∈ sectionEntries esection above lines, '=' ∈ text)
    (hTail : ∀ current, Returns (readPass esection)
      { stream := tail, currentSection := current,
        newArgv := newArgv ++ (sectionEntries esection above lines).flatMap wordsOfEntry }
      result) :
    Returns (readPass esection)
      { stream := fileText lines ++ tail, currentSection := above == some esection,
        newArgv := newArgv } result := by
  induction lines generalizing above newArgv with
  | nil => simpa [fileText, sectionEntries, headedEntries] using hTail (above == some esection)
  | cons line rest ih =>
      rw [sectionEntries_cons] at hEntry hTail
      have hFirst : ∀ text ∈ sectionEntries esection above [line], '=' ∈ text :=
        fun text hText => hEntry text (List.mem_append_left _ hText)
      have hRest : ∀ text ∈ sectionEntries esection (line.below above) rest, '=' ∈ text :=
        fun text hText => hEntry text (List.mem_append_right _ hText)
      have hStream : fileText (line :: rest) ++ tail =
          line.text ++ '\n' :: (fileText rest ++ tail) := by simp [fileText]
      rw [hStream]
      refine Returns.again (readPass_line line above newArgv _ hFirst) (ih _ _ hRest ?_)
      intro current
      simpa [List.flatMap_append, List.append_assoc] using hTail current

theorem readPass_advances (s next : Reading) (h : readPass esection s = .again next) :
    next.stream.length < s.stream.length := by
  unfold readPass at h
  split at h
  · cases h
  · rename_i read stream hRead
    have hShorter := fgets_shortens (by decide) hRead
    have hStream : next.stream = stream := by
      simp only at h
      split at h
      · cases h
      · split_ifs at h
        · cases h; rfl
        · cases h; rfl
        · cases h; rfl
        · cases h; rfl
        · split at h
          · cases h
          · cases h; rfl
    rw [hStream]
    exact hShorter

theorem readFile_eq {stream : List Char} {result : Option ReadResult}
    (h : Returns (readPass esection)
      { stream := stream, currentSection := false, newArgv := [] } result) :
    readFile esection stream = result := by
  have hRun := h.runFor_measure (fun s => s.stream.length) readPass_advances
  rw [readFile, hRun]
  rfl

theorem readFile_lines (lines : List IniLine)
    (hEntry : ∀ text ∈ sectionEntries esection none lines, '=' ∈ text) :
    readFile esection (fileText lines) =
      some (.words ((sectionEntries esection none lines).flatMap wordsOfEntry)) := by
  have hTail : ∀ current, Returns (readPass esection)
      { stream := [], currentSection := current,
        newArgv := [] ++ (sectionEntries esection none lines).flatMap wordsOfEntry }
      (some (.words ((sectionEntries esection none lines).flatMap wordsOfEntry))) :=
    fun current => Returns.leave rfl
  have hLines := returns_readPass lines none [] hEntry hTail
  rw [List.append_nil] at hLines
  exact readFile_eq hLines

/-- The file goes on with a line that does not fit into the buffer or that the
end of the file breaks off. -/
structure BrokenOff (tail : List Char) : Prop where
  ne_nil : tail ≠ []
  noNewline : '\n' ∉ tail.take 255
  noNul : '\x00' ∉ tail.take 255

theorem readPass_brokenOff {tail : List Char} (h : BrokenOff tail) (current : Bool)
    (newArgv : List (List Char)) :
    readPass esection { stream := tail, currentSection := current, newArgv := newArgv } =
      .leave (some .tooLong) := by
  have hRead := fgets_incomplete 256 h.ne_nil h.noNewline
  have hBuffer : (tail.take 255).takeWhile (· != '\x00') = tail.take 255 := by
    rw [List.takeWhile_eq_self_iff]
    intro c hc
    simpa using fun he : c = '\x00' => h.noNul (he ▸ hc)
  have hSome : tail.take 255 ≠ [] := by
    intro hNil
    exact h.ne_nil ((List.take_eq_nil_iff.mp hNil).resolve_left (by decide))
  have hLast := List.getLast?_eq_some_getLast hSome
  have hOther : (tail.take 255).getLast hSome ≠ '\n' :=
    fun he => h.noNewline (he ▸ List.getLast_mem hSome)
  simp only [readPass, hRead, hBuffer, hLast]
  rw [if_pos hOther]

theorem readFile_brokenOff (lines : List IniLine) {tail : List Char} (h : BrokenOff tail)
    (hEntry : ∀ text ∈ sectionEntries esection none lines, '=' ∈ text) :
    readFile esection (fileText lines ++ tail) = some .tooLong := by
  have hLines := returns_readPass lines none [] hEntry fun current =>
    Returns.leave (readPass_brokenOff h current _)
  exact readFile_eq hLines

end ReadLines

section Copy

variable {α : Type}

theorem assignFrom_eq (front back : List (Option α)) (list : List α)
    (h : list.length ≤ back.length) :
    assignFrom (front ++ back) front.length list =
      some (front ++ list.map some ++ back.drop list.length) := by
  induction list generalizing front back with
  | nil => simp [assignFrom]
  | cons a rest ih =>
      cases back with
      | nil => simp at h
      | cons slot back =>
          have hInside : front.length < (front ++ slot :: back).length := by simp
          have hSet : (front ++ slot :: back).set front.length (some a) =
              (front ++ [some a]) ++ back := by simp
          have hNext := ih (front ++ [some a]) back (by simpa using h)
          rw [List.length_append, List.length_singleton] at hNext
          rw [assignFrom, if_pos hInside, hSet, hNext]
          simp

theorem mapM_id_some (list : List α) : (list.map some).mapM id = some list := by
  induction list with
  | nil => rfl
  | cons a rest ih => simp [List.mapM_cons, ih]

/-- The copy loops fill the new vector slot by slot: the words up to `optind`,
the new ones and the others. -/
theorem spliceArgv_eq (argv newArgv : List α) {optind : Nat} (h : optind ≤ argv.length) :
    spliceArgv argv optind newArgv = some (argv.take optind ++ newArgv ++ argv.drop optind) := by
  have hTake : (argv.take optind).length = optind := List.length_take_of_le h
  have hDrop : (argv.drop optind).length = argv.length - optind := List.length_drop
  obtain ⟨others, hOthers⟩ : ∃ others, argv.length = optind + others :=
    ⟨_, (Nat.add_sub_of_le h).symm⟩
  have hFirst := assignFrom_eq [] (List.replicate (argv.length + newArgv.length) none)
    (argv.take optind) (by rw [hTake, List.length_replicate]; omega)
  have hSecond := assignFrom_eq ((argv.take optind).map some)
    (List.replicate (others + newArgv.length) none) newArgv (by rw [List.length_replicate]; omega)
  have hThird := assignFrom_eq ((argv.take optind).map some ++ newArgv.map some)
    (List.replicate others none) (argv.drop optind) (by rw [hDrop, List.length_replicate]; omega)
  rw [List.length_map, hTake] at hSecond
  rw [List.length_append, List.length_map, List.length_map, hTake, Nat.add_comm] at hThird
  have hRest : (List.replicate (argv.length + newArgv.length) (none : Option α)).drop optind =
      List.replicate (others + newArgv.length) none := by
    rw [List.drop_replicate]
    congr 1
    omega
  have hRest' : (List.replicate (others + newArgv.length) (none : Option α)).drop newArgv.length =
      List.replicate others none := by
    rw [List.drop_replicate]
    congr 1
    omega
  have hFull : (List.replicate others (none : Option α)).drop (argv.drop optind).length = [] := by
    rw [hDrop, List.drop_replicate, hOthers]
    simp
  simp only [List.nil_append, List.length_nil, hTake, hRest] at hFirst
  rw [hRest'] at hSecond
  rw [hFull, List.append_nil, ← List.map_append, ← List.map_append] at hThird
  simp only [spliceArgv, Option.bind_eq_bind, hFirst, Option.bind_some, hSecond]
  rw [← List.map_append, hThird]
  exact mapM_id_some _

end Copy

/-- The argument that counts: the given one, or the next word if that does not
start with a dash. -/
def eoptArgument {Word : Type} (env : EoptEnv Word) (next : Word) : Option (List Char) →
    Option (List Char)
  | some optarg => some optarg
  | none => if (env.text next).head? = some '-' then none else some (env.text next)

/-- How far `optind` moves over a separate section word. -/
def sectionWords {Word : Type} (env : EoptEnv Word) (next : Word) : Option (List Char) → Nat
  | some _ => 0
  | none => if (env.text next).head? = some '-' then 0 else 1

/-- The part of `[section][@file]` in front of the `@`. It is the program name
when there is no argument or only the file is given; an empty argument names the
empty section. -/
def selectedSection (progname : List Char) : Option (List Char) → List Char
  | none => progname
  | some argument =>
      if argument.head? = some '@' then progname else argument.takeWhile (· != '@')

def selectedFile : Option (List Char) → List Char
  | none => defaultFile
  | some argument =>
      if '@' ∈ argument then (argument.dropWhile (· != '@')).tail else defaultFile

theorem parseOptarg_eq (progname : List Char) (argument : Option (List Char)) :
    parseOptarg progname argument = (selectedSection progname argument, selectedFile argument) := by
  unfold parseOptarg
  split
  · rfl
  · simp [selectedSection, selectedFile]
  · rename_i optarg hFirst
    have hHead : optarg.head? ≠ some '@' := by
      intro hHead
      obtain ⟨rest, rfl⟩ := List.head?_eq_some_iff.mp hHead
      exact hFirst rest rfl
    by_cases hAt : '@' ∈ optarg
    · rw [strsep_mem hAt]
      simp [selectedSection, selectedFile, hHead, hAt]
    · have hTake : optarg.takeWhile (· != '@') = optarg := by
        rw [List.takeWhile_eq_self_iff]
        intro c hc
        simpa using fun he : c = '@' => hAt (he ▸ hc)
      rw [strsep_none hAt]
      simp only [selectedSection, selectedFile, hHead, hAt, if_false, hTake]

theorem takeSection_eq {Word : Type} (env : EoptEnv Word) (argv : List Word) {optind : Nat}
    (h : optind < argv.length) (optarg : Option (List Char)) :
    takeSection env argv optind optarg =
      some (eoptArgument env argv[optind] optarg,
        optind + sectionWords env argv[optind] optarg) := by
  cases optarg with
  | some optarg => rfl
  | none =>
      have hNext : argv[optind]? = some argv[optind] := List.getElem?_eq_getElem h
      simp only [takeSection, hNext, eoptArgument, sectionWords]
      by_cases hDash : (env.text argv[optind]).head? = some '-'
      · simp [hDash]
      · simp [hDash]

/-- A section in two parts, with a comment, an empty value and a short key. -/
def sampleLines : List IniLine :=
  [⟨['[', 'T', ']'], by decide, by decide, by decide⟩,
    ⟨['#', 'a', '=', 'b'], by decide, by decide, by decide⟩,
    ⟨['a', 'b', '=', ' '], by decide, by decide, by decide⟩,
    ⟨['[', 'U', ']', ' '], by decide, by decide, by decide⟩,
    ⟨['c', '=', 'd'], by decide, by decide, by decide⟩,
    ⟨['[', 'T', ']'], by decide, by decide, by decide⟩,
    ⟨['k', '=', 'v', '=', ' '], by decide, by decide, by decide⟩]

/-- Words are their strings, and the one file is the sample. -/
def sampleEnv : EoptEnv (List Char) where
  progname := ['p']
  fopen name := if name = ['f'] then some (fileText sampleLines) else none
  text := id
  word := id

end MonitoringPlug.Args
