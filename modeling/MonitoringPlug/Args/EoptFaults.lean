import MonitoringPlug.Args.Eopt

/-! Which calls of `mp_eopt` stay inside of the argument vector and of the line
buffer and dereference no NULL: for any vector, any argument and any file. -/
namespace MonitoringPlug.Args

open CText CLoop

/-- Behind any whole lines the file does not go on with a NUL, and the key lines of the
section among them have an equals sign. -/
def ReadsInside (esection stream : List Char) : Prop :=
  ∀ lines tail, stream = fileText lines ++ tail →
    tail.head? ≠ some '\x00' ∧ ∀ text ∈ sectionEntries esection none lines, '=' ∈ text

section Passes

variable {esection : List Char}

/-- A line that begins with a NUL: the buffer is indexed by -1. -/
theorem readPass_nul {stream : List Char} (hNul : stream.head? = some '\x00') (current : Bool)
    (newArgv : List (List Char)) :
    readPass esection { stream := stream, currentSection := current, newArgv := newArgv } =
      .leave none := by
  have hSome : stream ≠ [] := by
    rintro rfl
    cases hNul
  have hSize : 1 < 256 := by decide
  obtain ⟨read, rest, hRead, hHead⟩ := fgets_front hSize hSome
  obtain ⟨more, rfl⟩ := List.head?_eq_some_iff.mp (hHead.trans hNul)
  simp [readPass, hRead]

/-- What is read of a line that is not whole: it has no newline in front of a NUL. -/
theorem fgets_not_whole {stream : List Char} (hSome : stream ≠ [])
    (hLine : ∀ (line : IniLine) rest, stream ≠ line.text ++ '\n' :: rest) :
    ∃ read rest, fgets 256 stream = some (read, rest) ∧
      '\n' ∉ read.takeWhile (· != '\x00') := by
  by_cases hNewline : '\n' ∈ stream.take 255
  · obtain ⟨rest, hStream⟩ := eq_takeWhile_append_cons (List.mem_of_mem_take hNewline)
    have hClean : '\n' ∉ stream.takeWhile (· != '\n') := fun hMem => by
      simpa using List.mem_takeWhile_imp hMem
    have hShort : (stream.takeWhile (· != '\n')).length ≤ 254 := by
      by_contra hLong
      refine hClean (List.mem_of_mem_take (i := 255) ?_)
      rw [hStream, List.take_append_of_le_length (by omega)] at hNewline
      exact hNewline
    have hNul : '\x00' ∈ stream.takeWhile (· != '\n') := by
      by_contra hNone
      exact hLine ⟨_, hClean, hNone, hShort⟩ rest hStream
    have hRead := fgets_line 256 hClean (by omega) rest
    rw [← hStream] at hRead
    refine ⟨_, rest, hRead, fun hMem => ?_⟩
    rw [takeWhile_ne_append_of_mem hNul] at hMem
    exact hClean ((List.takeWhile_sublist _).subset hMem)
  · exact ⟨_, _, fgets_incomplete 256 hSome hNewline, fun hMem =>
      hNewline ((List.takeWhile_sublist _).subset hMem)⟩

/-- A line that is broken off, has a NUL inside or does not fit into the buffer. -/
theorem readPass_incomplete {stream : List Char} (hSome : stream ≠ [])
    (hNul : stream.head? ≠ some '\x00')
    (hLine : ∀ (line : IniLine) rest, stream ≠ line.text ++ '\n' :: rest)
    (current : Bool) (newArgv : List (List Char)) :
    readPass esection { stream := stream, currentSection := current, newArgv := newArgv } =
      .leave (some .tooLong) := by
  obtain ⟨read, rest, hRead, hNone⟩ := fgets_not_whole hSome hLine
  have hSize : 1 < 256 := by decide
  obtain ⟨read', rest', hRead', hHead⟩ := fgets_front hSize hSome
  cases hRead.symm.trans hRead'
  have hBuffer : read.takeWhile (· != '\x00') ≠ [] := by
    obtain ⟨c, more, rfl⟩ := List.exists_cons_of_ne_nil hSome
    obtain ⟨more', rfl⟩ := List.head?_eq_some_iff.mp hHead
    have hFirst : c ≠ '\x00' := fun hEq => hNul (congrArg some hEq)
    simp [hFirst]
  have hLast := List.getLast?_eq_some_getLast hBuffer
  have hOther : (read.takeWhile (· != '\x00')).getLast hBuffer ≠ '\n' :=
    fun hEq => hNone (hEq ▸ List.getLast_mem hBuffer)
  simp only [readPass, hRead, hLast]
  rw [if_pos hOther]

theorem entry_of_mem_sectionEntries {line : IniLine} {above : Option (List Char)}
    {text : List Char} (h : text ∈ sectionEntries esection above [line]) :
    above = some esection ∧ line.kind = .entry text := by
  cases hKind : line.kind with
  | nothing => simp [sectionEntries, headedEntries, hKind] at h
  | header name => simp [sectionEntries, headedEntries, hKind] at h
  | entry own =>
      have hParts : above = some esection ∧ own = text := by
        simpa [sectionEntries, headedEntries, hKind] using h
      exact ⟨hParts.1, congrArg _ hParts.2⟩

/-- A key line of the section without an equals sign: `strsep` leaves a NULL behind. -/
theorem readPass_noValue (line : IniLine) {above : Option (List Char)}
    (newArgv : List (List Char)) (stream : List Char)
    (hEntry : ∃ text ∈ sectionEntries esection above [line], '=' ∉ text) :
    readPass esection
        { stream := line.text ++ '\n' :: stream, currentSection := above == some esection,
          newArgv := newArgv } = .leave none := by
  obtain ⟨text, hText, hNone⟩ := hEntry
  obtain ⟨hAbove, hKind⟩ := entry_of_mem_sectionEntries hText
  have hRead := fgets_line 256 line.noNewline (by have := line.short; omega) stream
  have hLast : (line.text ++ ['\n']).getLast? = some '\n' := by simp
  simp only [readPass, hRead, line_buffer, hLast, ne_eq, not_true_eq_false, if_false,
    rtrim_newline]
  -- Only the last branch of `kind` gives an entry.
  simp only [IniLine.kind] at hKind
  split at hKind
  · cases hKind
  · rename_i hOther
    split at hKind
    · cases hKind
    · rename_i hHeader
      obtain ⟨hLong, hComment⟩ := not_or.mp hOther
      cases hKind
      rw [if_neg hLong, if_neg hComment, if_neg hHeader, strsep_none hNone]
      simp [hAbove]

/-- The loop ends in a fault at a line that begins with a NUL, or at a key line without an
equals sign. -/
theorem returns_fault (lines : List IniLine) (above : Option (List Char))
    (newArgv : List (List Char)) {tail : List Char}
    (h : tail.head? = some '\x00' ∨ ∃ text ∈ sectionEntries esection above lines, '=' ∉ text) :
    Returns (readPass esection)
      { stream := fileText lines ++ tail, currentSection := above == some esection,
        newArgv := newArgv } none := by
  induction lines generalizing above newArgv with
  | nil =>
      have hNul : tail.head? = some '\x00' := by
        simpa [sectionEntries, headedEntries] using h
      exact Returns.leave (readPass_nul hNul _ _)
  | cons line rest ih =>
      have hStream : fileText (line :: rest) ++ tail =
          line.text ++ '\n' :: (fileText rest ++ tail) := by simp [fileText]
      rw [hStream]
      by_cases hFirst : ∀ text ∈ sectionEntries esection above [line], '=' ∈ text
      · refine Returns.again (readPass_line line above newArgv _ hFirst) (ih _ _ ?_)
        rcases h with hNul | ⟨text, hText, hNone⟩
        · exact Or.inl hNul
        · rw [sectionEntries_cons] at hText
          rcases List.mem_append.mp hText with hOwn | hLater
          · exact absurd (hFirst text hOwn) hNone
          · exact Or.inr ⟨text, hLater, hNone⟩
      · push Not at hFirst
        exact Returns.leave (readPass_noValue line newArgv _ hFirst)

/-- Without such lines the file is read to its end or to a line that is not whole. -/
theorem returns_result {stream : List Char} (above : Option (List Char))
    (newArgv : List (List Char))
    (h : ∀ lines tail, stream = fileText lines ++ tail →
      tail.head? ≠ some '\x00' ∧ ∀ text ∈ sectionEntries esection above lines, '=' ∈ text) :
    ∃ result, Returns (readPass esection)
      { stream := stream, currentSection := above == some esection, newArgv := newArgv }
      (some result) := by
  induction hLength : stream.length using Nat.strongRecOn generalizing stream above newArgv with
  | ind length ih =>
      by_cases hSome : stream = []
      · subst hSome
        exact ⟨.words newArgv, Returns.leave rfl⟩
      · by_cases hLine : ∃ (line : IniLine) (rest : List Char),
            stream = line.text ++ '\n' :: rest
        · obtain ⟨line, rest, hStarts⟩ := hLine
          have hOwn := (h [line] rest (by simpa [fileText] using hStarts)).2
          have hShorter : rest.length < length := by
            rw [← hLength, hStarts, List.length_append, List.length_cons]
            omega
          have hRest : ∀ lines tail, rest = fileText lines ++ tail →
              tail.head? ≠ some '\x00' ∧
                ∀ text ∈ sectionEntries esection (line.below above) lines, '=' ∈ text := by
            intro lines tail hSplit
            obtain ⟨hNul, hEntries⟩ := h (line :: lines) tail (by
              rw [hStarts, hSplit]
              simp [fileText])
            refine ⟨hNul, fun text hText => hEntries text ?_⟩
            rw [sectionEntries_cons]
            exact List.mem_append_right _ hText
          obtain ⟨result, hReturns⟩ := ih rest.length hShorter (line.below above) _ hRest rfl
          refine ⟨result, ?_⟩
          rw [hStarts]
          exact hReturns.again (readPass_line line above newArgv rest hOwn)
        · push Not at hLine
          have hNul := (h [] stream rfl).1
          exact ⟨.tooLong, Returns.leave (readPass_incomplete hSome hNul hLine _ _)⟩

/-- Reading the file stays inside exactly when no line that is reached is one of these. -/
theorem readFile_ne_none_iff (esection stream : List Char) :
    readFile esection stream ≠ none ↔ ReadsInside esection stream := by
  constructor
  · intro hRead lines tail hSplit
    by_contra hFault
    have hCase : tail.head? = some '\x00' ∨
        ∃ text ∈ sectionEntries esection none lines, '=' ∉ text := by
      by_contra hNeither
      push Not at hNeither
      exact hFault hNeither
    refine hRead (readFile_eq ?_)
    rw [hSplit]
    exact returns_fault lines none [] hCase
  · intro hInside
    obtain ⟨result, hReturns⟩ := returns_result none [] hInside
    rw [readFile_eq hReturns]
    exact Option.some_ne_none result

end Passes

/-- The argument that counts: the given one, or the next word if there is one that does
not start with a dash. -/
def givenArgument {Word : Type} (env : EoptEnv Word) (back : List Word) :
    Option (List Char) → Option (List Char)
  | some optarg => some optarg
  | none => (back.head?.map env.text).filter fun next => next.head? ≠ some '-'

theorem takeSection_eq_given {Word : Type} (env : EoptEnv Word) (front back : List Word)
    (optarg : Option (List Char)) (h : optarg = none → back ≠ []) :
    ∃ optind, takeSection env (front ++ back) front.length optarg =
      some (givenArgument env back optarg, optind) ∧ optind ≤ (front ++ back).length := by
  cases optarg with
  | some optarg => exact ⟨front.length, rfl, by simp⟩
  | none =>
      obtain ⟨next, others, rfl⟩ := List.exists_cons_of_ne_nil (h rfl)
      have hNext : (front ++ next :: others)[front.length]? = some next := by simp
      simp only [takeSection, hNext, givenArgument]
      by_cases hDash : (env.text next).head? = some '-'
      · exact ⟨front.length, by simp [hDash, Option.filter], by simp⟩
      · exact ⟨front.length + 1, by simp [hDash, Option.filter], by simp⟩

/-- For any words in front of `optind` and behind it: a call stays inside exactly when it
has an argument or a word to look at, and reading the file, if it can be opened, does. -/
theorem mpEopt_inside_iff {Word : Type} (env : EoptEnv Word) (front back : List Word)
    (optarg : Option (List Char)) :
    mpEopt env (front ++ back) front.length optarg ≠ none ↔
      (optarg = none → back ≠ []) ∧
        ∀ stream, env.fopen (selectedFile (givenArgument env back optarg)) = some stream →
          ReadsInside (selectedSection env.progname (givenArgument env back optarg)) stream := by
  by_cases hWord : optarg = none → back ≠ []
  · obtain ⟨optind, hTake, hInside⟩ := takeSection_eq_given env front back optarg hWord
    rw [and_iff_right hWord]
    simp only [mpEopt, Option.bind_eq_bind, hTake, Option.bind_some, parseOptarg_eq]
    cases hOpen : env.fopen (selectedFile (givenArgument env back optarg)) with
    | none => simp
    | some stream =>
        simp only [Option.some.injEq, forall_eq', ← readFile_ne_none_iff]
        generalize selectedSection env.progname (givenArgument env back optarg) = esection
        cases hRead : readFile esection stream with
        | none => simp
        | some result =>
            cases result with
            | tooLong => simp
            | words newArgv =>
                simp [spliceArgv_eq (front ++ back) (newArgv.map env.word) hInside]
  · push Not at hWord
    obtain ⟨rfl, rfl⟩ := hWord
    have hFault : takeSection env (front ++ []) front.length none = none := by
      simp [takeSection]
    simp only [mpEopt, Option.bind_eq_bind, hFault, Option.bind_none]
    simp

/-- `--eopt` as the last word, whatever the files hold. -/
theorem mpEopt_last_word :
    mpEopt sampleEnv [['p'], ['-', '-', 'e', 'o', 'p', 't']] 2 none = none := rfl

end MonitoringPlug.Args
