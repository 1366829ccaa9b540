import MonitoringPlug.Args.Nesting

/-! Option processing ends exactly when the scan of its words does: every option
it reads, letter by letter, is one step of the scan. -/
namespace MonitoringPlug.Args

open CText CLoop CSplice

/-- The operands that were passed over lie in front of the next word. -/
structure WellPlaced (s : Scan) : Prop where
  ordered : s.firstNonopt ≤ s.lastNonopt
  behind : s.lastNonopt ≤ s.optind
  inside : s.optind ≤ s.argv.length

/-- Between two options: what the scan still has to look at. -/
structure Between (s : Scan) (remaining : List (List Char)) : Prop where
  placed : WellPlaced s
  started : s.nextchar = []
  left : s.argv.drop s.optind = remaining

section Place

variable {s : Scan}

/-- Operands move behind options, and the words from `optind` on stay. -/
theorem exchange_placed (h : WellPlaced s) :
    WellPlaced (exchange s) ∧ (exchange s).optind = s.optind ∧
      (exchange s).argv.drop s.optind = s.argv.drop s.optind ∧
      (exchange s).nextchar = s.nextchar := by
  obtain ⟨hOrdered, hBehind, hInside⟩ := h
  have hFront : (s.argv.take s.firstNonopt ++
      ((s.argv.take s.optind).drop s.lastNonopt ++
        (s.argv.take s.lastNonopt).drop s.firstNonopt)).length = s.optind := by
    simp only [List.length_append, List.length_take, List.length_drop]
    omega
  have hLength : (exchange s).argv.length = s.argv.length := by
    rw [exchange, List.length_append, hFront, List.length_drop]
    omega
  refine ⟨⟨?_, le_refl _, hLength ▸ hInside⟩, rfl, ?_, rfl⟩
  · show s.firstNonopt + ((s.argv.take s.optind).drop s.lastNonopt).length ≤ s.optind
    rw [List.length_drop, List.length_take]
    omega
  · show List.drop s.optind (_ ++ s.argv.drop s.optind) = _
    exact List.drop_left' hFront

theorem skipOperands_placed {remaining : List (List Char)} (h : Between s remaining) :
    WellPlaced (skipOperands s) ∧ (skipOperands s).nextchar = [] ∧
      (skipOperands s).argv.drop (skipOperands s).optind = remaining.dropWhile isOperand := by
  obtain ⟨⟨hOrdered, hBehind, hInside⟩, hStarted, rfl⟩ := h
  have hLast : min s.lastNonopt s.optind = s.lastNonopt := by omega
  have hFirst : min s.firstNonopt s.optind = s.firstNonopt := by omega
  -- Whatever was moved before, the words from `optind` on are the same.
  have hMoved : ∀ moved : Scan, moved.firstNonopt ≤ s.optind → s.optind ≤ moved.argv.length →
      moved.optind = s.optind → moved.argv.drop s.optind = s.argv.drop s.optind →
      let skipped := ((moved.argv.drop moved.optind).takeWhile isOperand).length
      WellPlaced { moved with optind := moved.optind + skipped,
                              lastNonopt := moved.optind + skipped } ∧
        moved.argv.drop (moved.optind + skipped) =
          (s.argv.drop s.optind).dropWhile isOperand := by
    intro moved hFront hLength hOptind hDrop skipped
    have hWhole := List.takeWhile_append_dropWhile (p := isOperand) (l := s.argv.drop s.optind)
    constructor
    · have hFits : skipped ≤ (moved.argv.drop moved.optind).length :=
        (List.takeWhile_sublist _).length_le
      rw [List.length_drop] at hFits
      constructor
      · show moved.firstNonopt ≤ moved.optind + skipped
        omega
      · exact le_refl _
      · show moved.optind + skipped ≤ moved.argv.length
        omega
    · have hSkipped : skipped = ((s.argv.drop s.optind).takeWhile isOperand).length := by
        simp only [skipped, hOptind, hDrop]
      calc moved.argv.drop (moved.optind + skipped)
          = (s.argv.drop s.optind).drop ((s.argv.drop s.optind).takeWhile isOperand).length := by
            rw [← List.drop_drop, hOptind, hDrop, hSkipped]
        _ = ((s.argv.drop s.optind).takeWhile isOperand ++
              (s.argv.drop s.optind).dropWhile isOperand).drop
                ((s.argv.drop s.optind).takeWhile isOperand).length := by rw [hWhole]
        _ = (s.argv.drop s.optind).dropWhile isOperand := List.drop_left' rfl
  unfold skipOperands
  simp only [hLast, hFirst]
  split_ifs with hBoth hOther
  · obtain ⟨hPlaced, hOptind, hDrop, hNext⟩ :=
      exchange_placed (s := s) ⟨hOrdered, hBehind, hInside⟩
    have hFront := hPlaced.ordered.trans hPlaced.behind
    rw [hOptind] at hFront
    obtain ⟨hWell, hLeft⟩ := hMoved _ hFront (hOptind ▸ hPlaced.inside) hOptind hDrop
    exact ⟨hWell, hNext.trans hStarted, hLeft⟩
  · obtain ⟨hWell, hLeft⟩ :=
      hMoved { s with firstNonopt := s.optind } (le_refl _) hInside rfl rfl
    exact ⟨hWell, hStarted, hLeft⟩
  · obtain ⟨hWell, hLeft⟩ := hMoved s (hOrdered.trans hBehind) hInside rfl rfl
    exact ⟨hWell, hStarted, hLeft⟩

end Place

section Pass

variable {table : OptionTable} {progname : List Char} {files : List (List Char × List Char)}
  {s start : Scan} {c : Int} {optarg : Option (List Char)} {word : List Char}
  {rest : List (List Char)}

theorem processPass_stop (env : EoptEnv (List Char))
    (hRead : getoptLong table s = (c, optarg, start))
    (hStop : stopCode c = true) : ∃ result, processPass table env s = .leave result := by
  simp only [stopCode, Bool.or_eq_true, beq_iff_eq] at hStop
  rcases hStop with ((rfl | rfl) | rfl) | rfl
  · exact ⟨.eof, by simp [processPass, mpGetoptPass, hRead]⟩
  · exact ⟨.exited, by simp [processPass, mpGetoptPass, hRead, charCode]⟩
  · exact ⟨.exited, by simp [processPass, mpGetoptPass, hRead, charCode]⟩
  · exact ⟨.exited, by simp [processPass, mpGetoptPass, hRead, charCode]⟩

theorem processPass_option (env : EoptEnv (List Char))
    (hRead : getoptLong table s = (c, optarg, start)) (hStop : stopCode c = false) :
    processPass table env s =
      if c = longoptEopt then
        match mpEopt env start.argv start.optind optarg with
        | none => .leave .fault
        | some spliced => .again { start with argv := spliced.argv, optind := spliced.optind }
      else .again start := by
  simp only [stopCode, Bool.or_eq_false_iff, beq_eq_false_iff_ne] at hStop
  obtain ⟨⟨⟨hEof, hUnknown⟩, hHelp⟩, hVersion⟩ := hStop
  have hVerbose : charCode 'v' ≠ longoptEopt := by decide
  unfold processPass mpGetoptPass
  simp only [hRead, hEof, hUnknown, hHelp, hVersion, or_self, if_false]
  by_cases hV : c = charCode 'v'
  · simp [hV, hVerbose]
  · by_cases hEopt : c = longoptEopt
    · simp only [if_neg hV, if_pos hEopt]
      cases mpEopt env start.argv start.optind optarg with
      | none => rfl
      | some spliced => rfl
    · by_cases hT : c = charCode 't'
      · simp only [if_neg hV, if_neg hEopt, if_pos hT]
      · simp only [if_neg hV, if_neg hEopt, if_neg hT, if_neg hEof]

theorem finishOption_between (hPlaced : WellPlaced start)
    (hLeft : start.argv.drop start.optind = word :: rest) {read : ReadOption}
    (hWords : read.words ≤ rest.length + 1) (hNext : read.nextchar = []) :
    Between { start with optind := start.optind + read.words, nextchar := read.nextchar }
      ((word :: rest).drop read.words) := by
  have hLength := congrArg List.length hLeft
  rw [List.length_drop, List.length_cons] at hLength
  constructor
  · constructor
    · exact hPlaced.ordered
    · exact hPlaced.behind.trans (Nat.le_add_right _ _)
    · show start.optind + read.words ≤ start.argv.length
      omega
  · exact hNext
  · show start.argv.drop (start.optind + read.words) = _
    rw [← List.drop_drop, hLeft]

/-- What a look ends with: passes that leave the loop, or that lead to what it
leaves of the words. -/
def Follows (table : OptionTable) (env : EoptEnv (List Char)) (s : Scan) :
    Option (List (List Char)) → Prop
  | none => ∃ result, Returns (processPass table env) s result
  | some remaining => ∃ count s', 0 < count ∧ Leads (processPass table env) count s s' ∧
      Between s' remaining

theorem Follows.again {env : EoptEnv (List Char)} {next : Scan}
    {remaining : Option (List (List Char))} (h : processPass table env s = .again next)
    (hNext : Follows table env next remaining) : Follows table env s remaining := by
  cases remaining with
  | none =>
      obtain ⟨result, hReturns⟩ := hNext
      exact ⟨result, hReturns.again h⟩
  | some remaining =>
      obtain ⟨count, s', _, hLeads, hBetween⟩ := hNext
      exact ⟨count + 1, s', Nat.succ_pos count, (Leads.one h).trans hLeads, hBetween⟩

theorem Follows.one {env : EoptEnv (List Char)} {next : Scan} {remaining : List (List Char)}
    (h : processPass table env s = .again next) (hBetween : Between next remaining) :
    Follows table env s (some remaining) :=
  ⟨1, next, Nat.one_pos, Leads.one h, hBetween⟩

theorem Follows.stop (env : EoptEnv (List Char))
    (hRead : getoptLong table s = (c, optarg, start)) (hStop : stopCode c = true) :
    Follows table env s none := by
  obtain ⟨result, hLeave⟩ := processPass_stop env hRead hStop
  exact ⟨result, Returns.leave hLeave⟩

/-- A group of letters is processed letter by letter. -/
theorem group_follows (env : EoptEnv (List Char)) {letter : Char} (letters : List Char)
    (hPlaced : WellPlaced start) (hLeft : start.argv.drop start.optind = word :: rest)
    (hRead : getoptLong table s = finishOption start (readShort table letter letters rest)) :
    Follows table env s
      ((groupWords table rest (letter :: letters)).map (word :: rest).drop) := by
  induction letters generalizing letter s start with
  | nil =>
      cases hStop : stopCode (readShort table letter [] rest).code with
      | true => simpa [groupWords, hStop] using Follows.stop env hRead hStop
      | false =>
          have hWords := readShort_words hStop
          have hEnds : (readShort table letter [] rest).words ≠ 0 :=
            fun hNone => (hWords.2.1 hNone).1 rfl
          have hPass := processPass_option env hRead hStop
          rw [if_neg readShort_code] at hPass
          simpa [groupWords, hStop, hEnds] using
            Follows.one hPass (finishOption_between hPlaced hLeft hWords.1 (hWords.2.2 hEnds))
  | cons next letters ih =>
      cases hStop : stopCode (readShort table letter (next :: letters) rest).code with
      | true => simpa [groupWords, hStop] using Follows.stop env hRead hStop
      | false =>
          have hWords := readShort_words hStop
          have hPass := processPass_option env hRead hStop
          rw [if_neg readShort_code] at hPass
          by_cases hNone : (readShort table letter (next :: letters) rest).words = 0
          · -- The word goes on with the next letter.
            have hNext := (hWords.2.1 hNone).2
            rw [hNone, hNext] at hPass
            have hBehind : start.argv.drop (start.optind + 1) = rest := by
              rw [← List.drop_drop, hLeft]
              rfl
            let after : Scan :=
              { start with optind := start.optind + 0, nextchar := next :: letters }
            have hPlacedAfter : WellPlaced after :=
              ⟨hPlaced.ordered, hPlaced.behind, hPlaced.inside⟩
            have hReadAfter : getoptLong table after =
                finishOption after (readShort table next letters rest) := by
              simp [after, getoptLong, hBehind]
            have hRest := ih hPlacedAfter hLeft hReadAfter
            rw [groupWords, hStop, if_neg Bool.false_ne_true, if_pos hNone]
            exact hRest.again hPass
          · rw [groupWords, hStop, if_neg Bool.false_ne_true, if_neg hNone]
            exact Follows.one hPass
              (finishOption_between hPlaced hLeft hWords.1 (hWords.2.2 hNone))

/-- What a look leaves of the words, if it does not stop. -/
def outcome (env : EoptEnv (List Char)) (remaining : List (List Char)) :
    Look Selection → Option (List (List Char))
  | .stop => none
  | .pass count => some (remaining.drop count)
  | .splice count selection =>
      some ((splicedWords env selection).getD [] ++ remaining.drop count)

theorem outcome_behind (env : EoptEnv (List Char)) (operands remaining : List (List Char))
    (look : Look Selection) :
    outcome env (operands ++ remaining) (look.behind operands.length) =
      outcome env remaining look := by
  have hDrop : ∀ count, (operands ++ remaining).drop (operands.length + count) =
      remaining.drop count := fun count => List.drop_length_add_append count
  cases look with
  | stop => rfl
  | pass count => simp only [Look.behind, outcome, hDrop]
  | splice count selection => simp only [Look.behind, outcome, hDrop]

/-- The section word that `mp_eopt` takes is the one the scan passes over. -/
theorem takeSection_cases (progname : List Char) (files : List (List Char × List Char))
    {argv : List (List Char)} {optind : Nat}
    (hLeft : argv.drop optind = rest) (optarg : Option (List Char)) :
    (takeSection (fileEnv progname files) argv optind optarg = none ∧
      lookEopt (fileEnv progname files) optarg rest = .stop) ∨
    ∃ argument more,
      takeSection (fileEnv progname files) argv optind optarg = some (argument, optind + more) ∧
      lookEopt (fileEnv progname files) optarg rest =
        lookSelection (fileEnv progname files) (1 + more) argument := by
  cases optarg with
  | some optarg => exact Or.inr ⟨some optarg, 0, rfl, rfl⟩
  | none =>
      have hNext : argv[optind]? = rest.head? := by rw [← hLeft, List.head?_drop]
      cases rest with
      | nil => exact Or.inl ⟨by simp [takeSection, hNext], rfl⟩
      | cons next rest =>
          have hText : (fileEnv progname files).text next = next := rfl
          by_cases hDash : next.head? = some '-'
          · exact Or.inr ⟨none, 0, by simp [takeSection, hNext, hText, hDash],
              by simp [lookEopt, hDash]⟩
          · exact Or.inr ⟨some next, 1, by simp [takeSection, hNext, hText, hDash],
              by simp [lookEopt, hDash]⟩

theorem eopt_follows (word : List Char) (hPlaced : WellPlaced start)
    (hStarted : start.nextchar = [])
    (hLeft : start.argv.drop start.optind = rest)
    (hRead : getoptLong table s = (longoptEopt, optarg, start)) :
    Follows table (fileEnv progname files) s
      (outcome (fileEnv progname files) (word :: rest)
        (lookEopt (fileEnv progname files) optarg rest)) := by
  have hPass := processPass_option (fileEnv progname files) hRead (by decide)
  rw [if_pos rfl, mpEopt_eq progname files _ hPlaced.inside] at hPass
  rcases takeSection_cases progname files hLeft optarg with
    ⟨hTake, hLook⟩ | ⟨argument, more, hTake, hLook⟩
  · rw [hTake] at hPass
    rw [hLook]
    exact ⟨_, Returns.leave hPass⟩
  · have hInside := takeSection_le progname files hPlaced.inside hTake
    have hProgname : (fileEnv progname files).progname = progname := rfl
    simp only [hTake, Option.bind_some] at hPass
    rw [hLook]
    unfold lookSelection
    simp only [hProgname]
    cases hSpliced : splicedWords (fileEnv progname files) (parseOptarg progname argument) with
    | none =>
        rw [hSpliced] at hPass
        exact ⟨_, Returns.leave hPass⟩
    | some words =>
        have hFront : (start.argv.take (start.optind + more)).length = start.optind + more :=
          List.length_take_of_le hInside
        simp only [hSpliced, Option.map_some] at hPass
        simp only [outcome, hSpliced, Option.getD_some]
        apply Follows.one hPass
        constructor
        · constructor
          · exact hPlaced.ordered
          · exact hPlaced.behind.trans (Nat.le_add_right _ _)
          · simp only [List.length_append, hFront]
            omega
        · exact hStarted
        · have hRest : start.argv.drop (start.optind + more) = rest.drop more := by
            rw [← List.drop_drop, hLeft]
          rw [Nat.add_comm 1 more, List.drop_succ_cons, ← hRest, List.append_assoc]
          exact List.drop_left' hFront

theorem isOperand_false (h : isOperand word = false) :
    ∃ c letters, word = '-' :: c :: letters := by
  cases word with
  | nil => cases h
  | cons dash word =>
      cases word with
      | nil => simp [isOperand] at h
      | cons c letters =>
          simp only [isOperand, List.head?_cons, List.tail_cons, List.isEmpty_cons, Bool.or_false,
            bne_eq_false_iff_eq, Option.some.injEq] at h
          exact ⟨c, letters, by rw [h]⟩

theorem long_follows {letter : Char} {letters : List Char} (hPlaced : WellPlaced start)
    (hLeft : start.argv.drop start.optind = ('-' :: '-' :: letter :: letters) :: rest)
    (hRead : getoptLong table s =
      finishOption start (readLong table (letter :: letters) rest)) :
    Follows table (fileEnv progname files) s
      (outcome (fileEnv progname files) (('-' :: '-' :: letter :: letters) :: rest)
        (lookWord table (fileEnv progname files) ('-' :: '-' :: letter :: letters) rest)) := by
  have hLook : lookWord table (fileEnv progname files) ('-' :: '-' :: letter :: letters) rest =
      let read := readLong table (letter :: letters) rest
      if stopCode read.code then .stop
      else if read.code = longoptEopt then lookEopt (fileEnv progname files) read.optarg rest
      else .pass read.words := rfl
  rw [hLook]
  cases hStop : stopCode (readLong table (letter :: letters) rest).code with
  | true =>
      have hFollows := Follows.stop (fileEnv progname files) hRead hStop
      simpa [hStop, outcome] using hFollows
  | false =>
      have hWords := (readLong_words hStop).2
      by_cases hEopt : (readLong table (letter :: letters) rest).code = longoptEopt
      · have hOne := (readLong_eopt hEopt).1
        have hBetween := finishOption_between hPlaced hLeft hWords readLong_nextchar
        simp only [hStop, Bool.false_eq_true, if_false, if_pos hEopt]
        exact eopt_follows ('-' :: '-' :: letter :: letters) hBetween.placed hBetween.started
          (by rw [hBetween.left, hOne]; rfl) (by rw [hRead, finishOption, hEopt])
      · have hPass := processPass_option (fileEnv progname files) hRead hStop
        rw [if_neg hEopt] at hPass
        simpa [hStop, hEopt, outcome] using
          Follows.one hPass (finishOption_between hPlaced hLeft hWords readLong_nextchar)

/-- From one option to the next, processing does what the scan does. -/
theorem option_follows (table : OptionTable) (progname : List Char)
    (files : List (List Char × List Char)) {remaining : List (List Char)}
    (h : Between s remaining) :
    Follows table (fileEnv progname files) s
      (outcome (fileEnv progname files) remaining
        (lookOption table (fileEnv progname files) remaining)) := by
  obtain ⟨hPlaced, _, hLeft⟩ := skipOperands_placed h
  rcases exists_option remaining with hAll | ⟨operands, word, rest, rfl, hAll, hWord⟩
  · have hNone : remaining.dropWhile isOperand = [] := by
      rw [List.dropWhile_eq_nil_iff]
      exact List.all_eq_true.mp hAll
    rw [hNone] at hLeft
    have hRead : getoptLong table s = (-1, none, endScan (skipOperands s)) := by
      simp only [getoptLong, h.started, hLeft]
    rw [lookOption_operands hAll]
    exact Follows.stop _ hRead rfl
  · have hDrop : (operands ++ word :: rest).dropWhile isOperand = word :: rest := by
      rw [List.dropWhile_append_of_pos (List.all_eq_true.mp hAll),
        List.dropWhile_cons_of_neg (by simp [hWord])]
    rw [hDrop] at hLeft
    rw [lookOption_eq _ _ hAll hWord, outcome_behind]
    obtain ⟨c, letters, rfl⟩ := isOperand_false hWord
    by_cases hLong : c = '-'
    · subst hLong
      cases letters with
      | nil =>
          have hRead : getoptLong table s = (-1, none, endOptions (skipOperands s)) := by
            simp only [getoptLong, h.started, hLeft]
          exact Follows.stop _ hRead rfl
      | cons letter letters =>
          have hRead : getoptLong table s =
              finishOption (skipOperands s) (readLong table (letter :: letters) rest) := by
            simp only [getoptLong, h.started, hLeft]
          exact long_follows hPlaced hLeft hRead
    · have hRead : getoptLong table s =
          finishOption (skipOperands s) (readShort table c letters rest) := by
        simp [getoptLong, h.started, hLeft, hLong]
      have hLook : lookWord table (fileEnv progname files) ('-' :: c :: letters) rest =
          (groupWords table rest (c :: letters)).elim .stop .pass := by
        simp [lookWord, hLong]
      have hGroup := group_follows (fileEnv progname files) letters hPlaced hLeft hRead
      rw [hLook]
      cases hWords : groupWords table rest (c :: letters) with
      | none => simpa [hWords, outcome] using hGroup
      | some words => simpa [hWords, outcome] using hGroup

end Pass

section Runs

variable (table : OptionTable) (progname : List Char) (files : List (List Char × List Char))

theorem step_outcome (remaining : List (List Char)) :
    (optionScanner table (fileEnv progname files)).step remaining =
      match outcome (fileEnv progname files) remaining
          (lookOption table (fileEnv progname files) remaining) with
      | none => .leave ()
      | some next => .again next := by
  unfold Scanner.step
  simp only [optionScanner]
  cases lookOption table (fileEnv progname files) remaining with
  | stop => rfl
  | pass count => rfl
  | splice count selection => rfl

/-- Processing the options of a vector returns exactly when the scan of the words
behind the program does. -/
theorem processing_returns_iff (argv : List (List Char)) :
    (∃ result, Returns (processPass table (fileEnv progname files)) (startScan argv) result) ↔
      Returns (optionScanner table (fileEnv progname files)).step (argv.drop 1) () := by
  cases argv with
  | nil =>
      constructor
      · exact fun _ => Returns.leave rfl
      · intro _
        have hRead : getoptLong table (startScan []) = (-1, none, _) := rfl
        obtain ⟨result, hLeave⟩ := processPass_stop (fileEnv progname files) hRead rfl
        exact ⟨result, Returns.leave hLeave⟩
  | cons name words =>
      have hStart : Between (startScan (name :: words)) words :=
        ⟨⟨le_refl 1, le_refl 1, Nat.le_add_left 1 words.length⟩, rfl, rfl⟩
      have hLeave : ∀ s remaining output, Between s remaining →
          (optionScanner table (fileEnv progname files)).step remaining = .leave output →
          ∃ result, Returns (processPass table (fileEnv progname files)) s result := by
        intro s remaining output hBetween hStep
        have hFollows := option_follows table progname files hBetween
        rw [step_outcome] at hStep
        split at hStep
        · rename_i hNone
          rwa [hNone] at hFollows
        · cases hStep
      have hAgain : ∀ s remaining next, Between s remaining →
          (optionScanner table (fileEnv progname files)).step remaining = .again next →
          ∃ count s', 0 < count ∧
            Leads (processPass table (fileEnv progname files)) count s s' ∧ Between s' next := by
        intro s remaining next hBetween hStep
        have hFollows := option_follows table progname files hBetween
        rw [step_outcome] at hStep
        split at hStep
        · cases hStep
        · rename_i hSome
          cases hStep
          rwa [hSome] at hFollows
      have hIff := returns_iff_of_simulates Between hLeave hAgain hStart
      rw [hIff]
      constructor
      · rintro ⟨⟨⟩, hReturns⟩
        exact hReturns
      · exact fun hReturns => ⟨(), hReturns⟩

/-- Option processing ends if and only if no `--eopt` that is reached selects a
section of a file out of words that were spliced in from that section of it. -/
theorem processing_ends_iff (argv : List (List Char)) :
    (∃ result, Returns (processPass table (fileEnv progname files)) (startScan argv) result) ↔
      ∀ stack, Reaches (optionScanner table (fileEnv progname files)).markedStep
          (given (argv.drop 1)) stack →
        ¬(optionScanner table (fileEnv progname files)).SelfSplices stack := by
  rw [processing_returns_iff]
  exact returns_iff (optionScanner_lawful table progname files) (argv.drop 1)

end Runs

/-- A file whose section `p` selects itself. -/
def nestedFiles : List (List Char × List Char) :=
  [(['f'], ['[', 'p', ']', '\n', 'e', 'o', 'p', 't', '=', '@', 'f', '\n'])]

/-- Its entry comes back each time it is processed. -/
theorem processing_nested_diverges :
    ¬∃ result, Returns (processPass defaultTable (fileEnv ['p'] nestedFiles))
      (startScan [['p'], ['-', '-', 'e', 'o', 'p', 't', '=', '@', 'f']]) result := by
  rw [processing_returns_iff]
  have hFirst : (optionScanner defaultTable (fileEnv ['p'] nestedFiles)).step
      [['-', '-', 'e', 'o', 'p', 't', '=', '@', 'f']] =
        .again [['-', '-', 'e', 'o', 'p', 't'], ['@', 'f']] := rfl
  have hNested : (optionScanner defaultTable (fileEnv ['p'] nestedFiles)).step
      [['-', '-', 'e', 'o', 'p', 't'], ['@', 'f']] =
        .again [['-', '-', 'e', 'o', 'p', 't'], ['@', 'f']] := rfl
  have hDiverges : Diverges (optionScanner defaultTable (fileEnv ['p'] nestedFiles)).step
      [['-', '-', 'e', 'o', 'p', 't'], ['@', 'f']] := by
    apply diverges_of_invariant (· = [['-', '-', 'e', 'o', 'p', 't'], ['@', 'f']])
    · rintro words rfl
      exact ⟨_, hNested, rfl⟩
    · rfl
  intro hReturns
  exact hDiverges.not_returns ((Reaches.start.pass hFirst).returns hReturns)

end MonitoringPlug.Args
