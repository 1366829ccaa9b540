import Mathlib.Data.List.Sublists
import MonitoringPlug.Lib.Splice
import MonitoringPlug.Args.Getopt

/-! Option processing as a scan of the words that are left, in which `--eopt`
splices the words of a section in. It ends if and only if no section is spliced
into words that come from itself. -/
namespace MonitoringPlug.Args

open CText CLoop CSplice

/-- What an `--eopt` selects: a section and a file. -/
abbrev Selection := List Char × List Char

/-- The words a selection adds; `none` where reading the file fails. -/
def splicedWords (env : EoptEnv (List Char)) (selection : Selection) :
    Option (List (List Char)) :=
  match env.fopen selection.2 with
  | none => some []
  | some stream =>
      match readFile selection.1 stream with
      | none => none
      | some .tooLong => some []
      | some (.words newArgv) => some newArgv

/-- The codes that end option processing: EOF, `?`, `h` and `V`. -/
def stopCode (c : Int) : Bool :=
  c == -1 || c == charCode '?' || c == charCode 'h' || c == charCode 'V'

/-- How many words a group of letters ends, if none of its letters stops. -/
def groupWords (table : OptionTable) (rest : List (List Char)) : List Char → Option Nat
  | [] => none
  | c :: letters =>
      let read := readShort table c letters rest
      if stopCode read.code then none
      else if read.words = 0 then groupWords table rest letters
      else some read.words

/-- The splice of an `--eopt` with its `count` words, if the file can be read. -/
def lookSelection (env : EoptEnv (List Char)) (count : Nat) (argument : Option (List Char)) :
    Look Selection :=
  let selection := parseOptarg env.progname argument
  match splicedWords env selection with
  | none => .stop
  | some _ => .splice count selection

def lookEopt (env : EoptEnv (List Char)) (optarg : Option (List Char))
    (rest : List (List Char)) : Look Selection :=
  match optarg, rest with
  | some optarg, _ => lookSelection env 1 (some optarg)
  | none, [] => .stop
  | none, next :: _ =>
      if next.head? ≠ some '-' then lookSelection env 2 (some next) else lookSelection env 1 none

/-- What a word that is no operand does. -/
def lookWord (table : OptionTable) (env : EoptEnv (List Char)) (word : List Char)
    (rest : List (List Char)) : Look Selection :=
  match word with
  | ['-', '-'] => .stop
  | '-' :: '-' :: text =>
      let read := readLong table text rest
      if stopCode read.code then .stop
      else if read.code = longoptEopt then lookEopt env read.optarg rest
      else .pass read.words
  | _ :: c :: letters => (groupWords table rest (c :: letters)).elim .stop .pass
  | _ => .stop

/-- The next option of the remaining words, operands in front of it passed over. -/
def lookOption (table : OptionTable) (env : EoptEnv (List Char)) (remaining : List (List Char)) :
    Look Selection :=
  match remaining.dropWhile isOperand with
  | [] => .stop
  | word :: rest =>
      (lookWord table env word rest).behind (remaining.takeWhile isOperand).length

def optionScanner (table : OptionTable) (env : EoptEnv (List Char)) :
    Scanner (List Char) Selection where
  look := lookOption table env
  words selection := (splicedWords env selection).getD []

section Eopt

variable (progname : List Char) (files : List (List Char × List Char))

theorem takeSection_le {argv : List (List Char)} {optind : Nat} (h : optind ≤ argv.length)
    {optarg argument : Option (List Char)} {next : Nat}
    (hTake : takeSection (fileEnv progname files) argv optind optarg = some (argument, next)) :
    next ≤ argv.length := by
  unfold takeSection at hTake
  split at hTake
  · cases hTake
    exact h
  · split at hTake
    · cases hTake
    · rename_i word hWord
      obtain ⟨hInside, _⟩ := List.getElem?_eq_some_iff.mp hWord
      split at hTake
      · cases hTake
        exact hInside
      · cases hTake
        exact h

/-- A call of `mp_eopt` as its selection and the words of it. -/
theorem mpEopt_eq (argv : List (List Char)) {optind : Nat} (h : optind ≤ argv.length)
    (optarg : Option (List Char)) :
    mpEopt (fileEnv progname files) argv optind optarg =
      (takeSection (fileEnv progname files) argv optind optarg).bind fun (argument, optind) =>
        (splicedWords (fileEnv progname files) (parseOptarg progname argument)).map fun words =>
          { argv := argv.take optind ++ words ++ argv.drop optind
            argc := argv.length + words.length
            optind := optind } := by
  cases hTake : takeSection (fileEnv progname files) argv optind optarg with
  | none => simp [mpEopt, hTake]
  | some taken =>
      obtain ⟨argument, next⟩ := taken
      have hNext := takeSection_le progname files h hTake
      have hProgname : (fileEnv progname files).progname = progname := rfl
      simp only [mpEopt, Option.bind_eq_bind, hTake, Option.bind_some, hProgname, splicedWords]
      cases hOpen : (fileEnv progname files).fopen (parseOptarg progname argument).2 with
      | none => simp
      | some stream =>
          cases hRead : readFile (parseOptarg progname argument).1 stream with
          | none => simp [hRead]
          | some result =>
              cases result with
              | tooLong => simp [hRead]
              | words newArgv =>
                  have hWords : newArgv.map (fileEnv progname files).word = newArgv :=
                    List.map_id newArgv
                  simp [hRead, hWords, spliceArgv_eq argv newArgv hNext]

end Eopt

section Files

variable {esection : List Char}

/-- What the loop over a file keeps: it is in the file, the selected section was
named in it once words were read, and the words come as keys with their values. -/
structure ReadsFrom (esection content : List Char) (s : Reading) : Prop where
  suffix : s.stream <:+ content
  current : s.currentSection = true → esection.Sublist content
  named : s.newArgv ≠ [] → esection.Sublist content
  chain : s.newArgv.IsChain fun key word =>
    ¬word.head? = some '-' → key.head? = some '-' ∧ '=' ∉ key

theorem optionWord_key {key : List Char} (hKey : '=' ∉ key) :
    (optionWord key).head? = some '-' ∧ '=' ∉ optionWord key := by
  rw [optionWord]
  split
  · exact ⟨rfl, by simpa using hKey⟩
  · exact ⟨rfl, by simpa using hKey⟩

theorem strsep_front {delimiter : Char} {s front : List Char} {rest : Option (List Char)}
    (h : strsep delimiter s = (front, rest)) : delimiter ∉ front := by
  by_cases hMem : delimiter ∈ s
  · rw [strsep_mem hMem] at h
    cases h
    intro hFront
    simpa using List.mem_takeWhile_imp hFront
  · rw [strsep_none hMem] at h
    cases h
    exact hMem

theorem entryWords_chain {words : List (List Char)} {key val : List Char} (hKey : '=' ∉ key)
    (h : words.IsChain fun key word =>
      ¬word.head? = some '-' → key.head? = some '-' ∧ '=' ∉ key) :
    (words ++ entryWords key val).IsChain fun key word =>
      ¬word.head? = some '-' → key.head? = some '-' ∧ '=' ∉ key := by
  have hWord := optionWord_key hKey
  refine List.isChain_append.mpr ⟨h, ?_, ?_⟩
  · rw [entryWords]
    split
    · exact List.isChain_singleton _
    · exact List.isChain_cons_cons.mpr ⟨fun _ => hWord, List.isChain_singleton _⟩
  · intro _ _ word hFirst hClosed
    have hFirst' : optionWord key = word := by simpa [entryWords] using hFirst
    exact absurd (hFirst' ▸ hWord.1) hClosed

theorem readPass_readsFrom {content : List Char} {s next : Reading}
    (h : ReadsFrom esection content s) (hPass : readPass esection s = .again next) :
    ReadsFrom esection content next := by
  unfold readPass at hPass
  split at hPass
  · cases hPass
  · rename_i read stream hRead
    have hStream : read ++ stream = s.stream := by
      unfold fgets at hRead
      split at hRead
      · cases hRead
      · simp only [Option.some.injEq, Prod.mk.injEq] at hRead
        rw [← hRead.1, ← hRead.2, List.take_append_drop]
    have hSuffix : stream <:+ content := (hStream ▸ List.suffix_append read stream).trans h.suffix
    have hBuffer : (rtrim (read.takeWhile (· != '\x00'))).Sublist content := by
      have hTrim : rtrim (read.takeWhile (· != '\x00')) <+: read.takeWhile (· != '\x00') :=
        List.rdropWhile_prefix _ _
      have hTake : (read.takeWhile (· != '\x00')).Sublist read := List.takeWhile_sublist _
      have hFront : read.Sublist s.stream := hStream ▸ List.sublist_append_left read stream
      exact hTrim.sublist.trans (hTake.trans (hFront.trans h.suffix.sublist))
    simp only at hPass
    split at hPass
    · cases hPass
    · split_ifs at hPass with _ _ _ hHeader hCurrent
      · cases hPass
        exact ⟨hSuffix, h.current, h.named, h.chain⟩
      · cases hPass
        exact ⟨hSuffix, h.current, h.named, h.chain⟩
      · cases hPass
        refine ⟨hSuffix, fun hName => ?_, h.named, h.chain⟩
        have hTail := (List.dropLast_sublist (rtrim (read.takeWhile (· != '\x00'))).tail).trans
          ((List.tail_sublist _).trans hBuffer)
        rwa [beq_iff_eq.mp hName]
      · cases hPass
        exact ⟨hSuffix, h.current, h.named, h.chain⟩
      · split at hPass
        · cases hPass
        · rename_i key val hSplit
          cases hPass
          have hSection : esection.Sublist content := h.current (by simpa using hCurrent)
          exact ⟨hSuffix, h.current, fun _ => hSection,
            entryWords_chain (strsep_front hSplit) h.chain⟩

/-- The words a file gives for a section. -/
theorem readFile_words {content : List Char} {newArgv : List (List Char)}
    (h : readFile esection content = some (.words newArgv)) :
    (newArgv ≠ [] → esection.Sublist content) ∧
      newArgv.IsChain fun key word =>
        ¬word.head? = some '-' → key.head? = some '-' ∧ '=' ∉ key := by
  have hReturns : Returns (readPass esection)
      { stream := content, currentSection := false, newArgv := [] } (some (.words newArgv)) :=
    ⟨content.length + 1, Option.join_eq_some_iff.mp h⟩
  obtain ⟨finish, hReaches, hLeave⟩ := hReturns.exists_leave
  have hStart : ReadsFrom esection content
      { stream := content, currentSection := false, newArgv := [] } :=
    ⟨List.suffix_rfl, fun hCurrent => absurd hCurrent (by simp), fun hSome => absurd rfl hSome,
      List.isChain_nil⟩
  have hFinish : ReadsFrom esection content finish :=
    hReaches.invariant _ hStart fun _ _ _ hInv hPass => readPass_readsFrom hInv hPass
  have hWords : finish.newArgv = newArgv := by
    unfold readPass at hLeave
    split at hLeave
    · cases hLeave
      rfl
    · simp only at hLeave
      split at hLeave
      · cases hLeave
      · split_ifs at hLeave
        · cases hLeave
        · split at hLeave
          · cases hLeave
          · cases hLeave
  rw [← hWords]
  exact ⟨hFinish.named, hFinish.chain⟩

end Files

section Read

variable (table : OptionTable)

theorem missingArgument_eq : missingArgument table.optstring = charCode '?' := by
  rw [missingArgument, if_neg table.starts]

theorem stopCode_missing : stopCode (missingArgument table.optstring) = true := by
  rw [missingArgument_eq]
  rfl

variable {table} {text : List Char} {c : Char} {letters : List Char}

theorem readLong_words {rest : List (List Char)}
    (h : stopCode (readLong table text rest).code = false) :
    0 < (readLong table text rest).words ∧ (readLong table text rest).words ≤ rest.length + 1 := by
  unfold readLong at h ⊢
  simp only at h ⊢
  split
  · simp [unknownOption]
  · split
    · simp [unknownOption]
    · simp
    · cases rest with
      | nil => simp
      | cons arg rest => simp
    · simp

theorem readLong_nextchar {rest : List (List Char)} :
    (readLong table text rest).nextchar = [] := by
  unfold readLong
  simp only
  split
  · rfl
  · split
    · rfl
    · rfl
    · cases rest with
      | nil => rfl
      | cons arg rest => rfl
    · rfl

/-- The words behind a long option only matter if one of them is its argument. -/
theorem readLong_front {front back : List (List Char)} (other : List (List Char))
    (h : stopCode (readLong table text (front ++ back)).code = false)
    (hWords : (readLong table text (front ++ back)).words ≤ front.length + 1) :
    readLong table text (front ++ other) = readLong table text (front ++ back) := by
  unfold readLong at h hWords ⊢
  simp only at h hWords ⊢
  split
  · rfl
  · rename_i option hOption
    simp only [hOption] at h hWords
    split
    · rfl
    · rfl
    · rename_i hInline hArg
      simp only [hInline, hArg] at h hWords
      cases front with
      | cons arg front => rfl
      | nil =>
          cases back with
          | nil => simp [stopCode_missing] at h
          | cons arg back => simp at hWords
    · rfl

theorem readShort_words {rest : List (List Char)}
    (h : stopCode (readShort table c letters rest).code = false) :
    (readShort table c letters rest).words ≤ rest.length + 1 ∧
      ((readShort table c letters rest).words = 0 → letters ≠ [] ∧
        (readShort table c letters rest).nextchar = letters) ∧
      ((readShort table c letters rest).words ≠ 0 →
        (readShort table c letters rest).nextchar = []) := by
  unfold readShort at h ⊢
  simp only at h ⊢
  split
  · cases letters with
    | nil => simp [unknownOption]
    | cons next letters => simp [unknownOption]
  · cases letters with
    | nil => simp
    | cons next letters => simp
  · simp
  · cases letters with
    | cons next letters => simp
    | nil =>
        cases rest with
        | nil => simp
        | cons arg rest => simp

theorem readShort_front {front back : List (List Char)} (other : List (List Char))
    (h : stopCode (readShort table c letters (front ++ back)).code = false)
    (hWords : (readShort table c letters (front ++ back)).words ≤ front.length + 1) :
    readShort table c letters (front ++ other) = readShort table c letters (front ++ back) := by
  unfold readShort at h hWords ⊢
  simp only at h hWords ⊢
  split
  · rfl
  · rfl
  · rfl
  · rename_i hArg
    simp only [hArg] at h hWords
    split
    · rfl
    · rename_i hLetters
      rw [if_neg hLetters] at h hWords
      cases front with
      | cons arg front => rfl
      | nil =>
          cases back with
          | nil => simp [stopCode_missing] at h
          | cons arg back => simp at hWords

/-- No letter has the number of `--eopt`. -/
theorem readShort_code {rest : List (List Char)} :
    (readShort table c letters rest).code ≠ longoptEopt := by
  have hUnknown : charCode '?' ≠ longoptEopt := by decide
  have hLetter : ∀ hasArg, shortOption table.optstring c = some hasArg →
      charCode c ≠ longoptEopt := by
    intro hasArg hSome
    apply table.eopt_long c
    unfold shortOption at hSome
    split at hSome
    · cases hSome
    · by_contra hMem
      have hNone : table.optstring.dropWhile (· != c) = [] := by
        rw [List.dropWhile_eq_nil_iff]
        intro d hd
        simpa using fun he : d = c => hMem (he ▸ hd)
      simp [hNone] at hSome
  unfold readShort
  simp only
  split
  · exact hUnknown
  · exact hLetter _ ‹_›
  · exact hLetter _ ‹_›
  · split
    · exact hLetter _ ‹_›
    · cases rest with
      | nil => simpa [missingArgument_eq] using hUnknown
      | cons arg rest => exact hLetter _ ‹_›

theorem groupWords_le {rest : List (List Char)} {count : Nat}
    (h : groupWords table rest letters = some count) : 0 < count ∧ count ≤ rest.length + 1 := by
  induction letters with
  | nil => cases h
  | cons c letters ih =>
      simp only [groupWords] at h
      split_ifs at h with hStop hNone
      · exact ih h
      · have hWords := readShort_words (by simpa using hStop)
        cases h
        exact ⟨Nat.pos_of_ne_zero hNone, hWords.1⟩

theorem groupWords_front {front back : List (List Char)} (other : List (List Char)) {count : Nat}
    (h : groupWords table (front ++ back) letters = some count)
    (hCount : count ≤ front.length + 1) :
    groupWords table (front ++ other) letters = some count := by
  induction letters with
  | nil => cases h
  | cons c letters ih =>
      simp only [groupWords] at h ⊢
      split_ifs at h with hStop hNone
      · rw [readShort_front other (by simpa using hStop) (by omega), if_neg hStop, if_pos hNone]
        exact ih h
      · cases h
        rw [readShort_front other (by simpa using hStop) hCount, if_neg hStop, if_neg hNone]

end Read

section Word

variable {table : OptionTable} {env : EoptEnv (List Char)} {word : List Char}

theorem lookSelection_not_pass {words count : Nat} {argument : Option (List Char)} :
    lookSelection env words argument ≠ .pass count := by
  unfold lookSelection
  simp only
  split
  · exact nofun
  · exact nofun

theorem lookSelection_count {words count : Nat} {argument : Option (List Char)}
    {selection : Selection} (h : lookSelection env words argument = .splice count selection) :
    count = words := by
  unfold lookSelection at h
  simp only at h
  split at h
  · cases h
  · cases h
    rfl

theorem lookEopt_not_pass {count : Nat} {optarg : Option (List Char)}
    {rest : List (List Char)} : lookEopt env optarg rest ≠ .pass count := by
  unfold lookEopt
  split
  · exact lookSelection_not_pass
  · exact nofun
  · split
    · exact lookSelection_not_pass
    · exact lookSelection_not_pass

/-- An `--eopt` ends with its own word, behind which the next option starts if it
came without an argument, or with a section word. -/
theorem lookEopt_cases {count : Nat} {optarg : Option (List Char)} {rest : List (List Char)}
    {selection : Selection} (h : lookEopt env optarg rest = .splice count selection) :
    (count = 1 ∧ optarg.isSome) ∨
      (count = 1 ∧ optarg = none ∧ ∃ next ∈ rest.head?, next.head? = some '-') ∨
      (count = 2 ∧ optarg = none ∧ ∃ next ∈ rest.head?, next.head? ≠ some '-') := by
  unfold lookEopt at h
  split at h
  · exact Or.inl ⟨lookSelection_count h, rfl⟩
  · cases h
  · rename_i next rest
    split at h
    · exact Or.inr (Or.inr ⟨lookSelection_count h, rfl, next, rfl, ‹_›⟩)
    · rename_i hDash
      exact Or.inr (Or.inl ⟨lookSelection_count h, rfl, next, rfl, not_not.mp hDash⟩)

theorem lookEopt_front {count : Nat} {optarg : Option (List Char)} {front back : List (List Char)}
    {selection : Selection} (h : lookEopt env optarg (front ++ back) = .splice count selection)
    (hCount : count ≤ front.length + 1) {other : List (List Char)}
    (hOther : ∃ word ∈ other.head?, word.head? = some '-') :
    lookEopt env optarg (front ++ other) = .splice count selection := by
  cases optarg with
  | some optarg => exact h
  | none =>
      cases front with
      | cons next front => exact h
      | nil =>
          obtain ⟨word, hWord, hOpens⟩ := hOther
          obtain ⟨others, rfl⟩ := List.head?_eq_some_iff.mp hWord
          rcases lookEopt_cases h with ⟨_, hSome⟩ | ⟨_, _, next, hNext, hDash⟩ | ⟨hTwo, _⟩
          · cases hSome
          · obtain ⟨rest, hRest⟩ := List.head?_eq_some_iff.mp hNext
            rw [hRest] at h
            simpa [lookEopt, hDash, hOpens] using h
          · rw [List.length_nil] at hCount
            omega

/-- How a word is looked at: as the end of the options, a long option, or a
group of letters. -/
theorem lookWord_cases (table : OptionTable) (env : EoptEnv (List Char)) (word : List Char) :
    (∀ rest, lookWord table env word rest = .stop) ∨
    (∃ text, word = '-' :: '-' :: text ∧ ∀ rest, lookWord table env word rest =
      let read := readLong table text rest
      if stopCode read.code then .stop
      else if read.code = longoptEopt then lookEopt env read.optarg rest
      else .pass read.words) ∨
    (∃ letters, ∀ rest, lookWord table env word rest =
      (groupWords table rest letters).elim .stop .pass) := by
  unfold lookWord
  split
  · exact Or.inl fun _ => rfl
  · exact Or.inr (Or.inl ⟨_, rfl, fun _ => rfl⟩)
  · exact Or.inr (Or.inr ⟨_, fun _ => rfl⟩)
  · exact Or.inl fun _ => rfl

theorem lookWord_pass {rest : List (List Char)} {count : Nat}
    (h : lookWord table env word rest = .pass count) : 0 < count ∧ count ≤ rest.length + 1 := by
  rcases lookWord_cases table env word with hLook | ⟨text, _, hLook⟩ | ⟨letters, hLook⟩
  · rw [hLook] at h
    cases h
  · simp only [hLook] at h
    split_ifs at h with hStop hEopt
    · exact absurd h lookEopt_not_pass
    · cases h
      exact readLong_words (by simpa using hStop)
  · rw [hLook] at h
    cases hWords : groupWords table rest letters with
    | none => simp [hWords] at h
    | some words =>
        rw [hWords] at h
        cases h
        exact groupWords_le hWords

theorem lookWord_pass_front {front back : List (List Char)} {count : Nat}
    (h : lookWord table env word (front ++ back) = .pass count)
    (hCount : count ≤ front.length + 1) (other : List (List Char)) :
    lookWord table env word (front ++ other) = .pass count := by
  rcases lookWord_cases table env word with hLook | ⟨text, _, hLook⟩ | ⟨letters, hLook⟩
  · rw [hLook] at h
    cases h
  · simp only [hLook] at h ⊢
    split_ifs at h with hStop hEopt
    · exact absurd h lookEopt_not_pass
    · cases h
      rw [readLong_front other (by simpa using hStop) hCount, if_neg hStop, if_neg hEopt]
  · rw [hLook] at h ⊢
    cases hWords : groupWords table (front ++ back) letters with
    | none => simp [hWords] at h
    | some words =>
        rw [hWords] at h
        cases h
        rw [groupWords_front other hWords hCount]
        rfl

/-- Only a long option splices. -/
theorem lookWord_splice {rest : List (List Char)} {count : Nat} {selection : Selection}
    (h : lookWord table env word rest = .splice count selection) :
    ∃ text, word = '-' :: '-' :: text ∧ stopCode (readLong table text rest).code = false ∧
      (readLong table text rest).code = longoptEopt ∧
      lookEopt env (readLong table text rest).optarg rest = .splice count selection := by
  rcases lookWord_cases table env word with hLook | ⟨text, hWord, hLook⟩ | ⟨letters, hLook⟩
  · rw [hLook] at h
    cases h
  · simp only [hLook] at h
    split_ifs at h with hStop hEopt
    exact ⟨text, hWord, by simpa using hStop, hEopt, h⟩
  · rw [hLook] at h
    cases hWords : groupWords table rest letters with
    | none => simp [hWords] at h
    | some words => simp [hWords] at h

/-- An `--eopt` ends with its own word, and it has an argument just when there
is an equals sign in it. -/
theorem readLong_eopt {text : List Char} {rest : List (List Char)}
    (h : (readLong table text rest).code = longoptEopt) :
    (readLong table text rest).words = 1 ∧
      ((readLong table text rest).optarg.isSome → '=' ∈ text) := by
  have hUnknown : charCode '?' ≠ longoptEopt := by decide
  have hInline : (strsep '=' text).2.isSome → '=' ∈ text := by
    intro hSome
    by_contra hMem
    rw [strsep_none hMem] at hSome
    cases hSome
  unfold readLong at h ⊢
  simp only at h ⊢
  split
  · simp [unknownOption]
  · rename_i option hOption
    simp only [hOption] at h
    split
    · simp [unknownOption]
    · rename_i arg hArg _
      exact ⟨rfl, fun _ => hInline (by rw [hArg]; rfl)⟩
    · rename_i hNone hRequired
      simp only [hNone, hRequired] at h
      cases rest with
      | nil => exact absurd h (by simpa [missingArgument_eq] using hUnknown)
      | cons arg rest =>
          have hMem : option ∈ table.longopts := by
            unfold longOption at hOption
            split at hOption
            · cases hOption
              exact List.mem_of_find?_eq_some ‹_›
            · split at hOption
              · cases hOption
              · rename_i hFilter
                split at hOption
                · cases hOption
                  have hFirst := hFilter ▸ List.mem_cons_self
                  exact (List.mem_filter.mp hFirst).1
                · cases hOption
          rw [table.eopt_optional option hMem h] at hRequired
          cases hRequired
    · exact ⟨rfl, fun hSome => absurd hSome (by simp)⟩

theorem lookWord_splice_count {rest : List (List Char)} {count : Nat} {selection : Selection}
    (h : lookWord table env word rest = .splice count selection) :
    0 < count ∧ count ≤ rest.length + 1 := by
  obtain ⟨_, _, _, _, hLook⟩ := lookWord_splice h
  rcases lookEopt_cases hLook with ⟨rfl, _⟩ | ⟨rfl, _⟩ | ⟨rfl, _, next, hNext, _⟩
  · omega
  · omega
  · obtain ⟨others, rfl⟩ := List.head?_eq_some_iff.mp hNext
    simp

theorem lookWord_splice_front {front back : List (List Char)} {count : Nat}
    {selection : Selection} (h : lookWord table env word (front ++ back) = .splice count selection)
    (hCount : count ≤ front.length + 1) {other : List (List Char)}
    (hOther : ∃ word ∈ other.head?, word.head? = some '-') :
    lookWord table env word (front ++ other) = .splice count selection := by
  obtain ⟨text, rfl, hStop, hEopt, hLook⟩ := lookWord_splice h
  have hRead := readLong_front other hStop (by rw [(readLong_eopt hEopt).1]; omega)
  rcases lookWord_cases table env ('-' :: '-' :: text) with
    hNone | ⟨text', hText, hLong⟩ | ⟨letters, hGroup⟩
  · rw [hNone] at h
    cases h
  · cases hText
    simp only [hLong, hRead]
    rw [if_neg (by simp [hStop]), if_pos hEopt]
    exact lookEopt_front hLook hCount hOther
  · rw [hGroup] at h
    cases hWords : groupWords table (front ++ back) letters with
    | none => simp [hWords] at h
    | some words => simp [hWords] at h

end Word

section Operands

variable {table : OptionTable} {env : EoptEnv (List Char)}

theorem lookOption_eq (table : OptionTable) (env : EoptEnv (List Char))
    {operands : List (List Char)} (hOperands : operands.all isOperand) {word : List Char}
    (hWord : isOperand word = false) (rest : List (List Char)) :
    lookOption table env (operands ++ word :: rest) =
      (lookWord table env word rest).behind operands.length := by
  have hAll := List.all_eq_true.mp hOperands
  have hDrop : (operands ++ word :: rest).dropWhile isOperand = word :: rest := by
    rw [List.dropWhile_append_of_pos hAll, List.dropWhile_cons_of_neg (by simp [hWord])]
  have hTake : (operands ++ word :: rest).takeWhile isOperand = operands := by
    rw [List.takeWhile_append_of_pos hAll, List.takeWhile_cons_of_neg (by simp [hWord]),
      List.append_nil]
  rw [lookOption, hDrop, hTake]

theorem exists_option (remaining : List (List Char)) :
    remaining.all isOperand = true ∨ ∃ operands word rest, remaining = operands ++ word :: rest ∧
      operands.all isOperand = true ∧ isOperand word = false := by
  induction remaining with
  | nil => exact Or.inl rfl
  | cons word rest ih =>
      cases hWord : isOperand word with
      | false => exact Or.inr ⟨[], word, rest, rfl, rfl, hWord⟩
      | true =>
          rcases ih with hAll | ⟨operands, option, others, rfl, hAll, hOption⟩
          · exact Or.inl (by rw [List.all_cons, hWord, hAll]; rfl)
          · refine Or.inr ⟨word :: operands, option, others, rfl, ?_, hOption⟩
            rw [List.all_cons, hWord, hAll]
            rfl

theorem lookOption_operands {remaining : List (List Char)} (h : remaining.all isOperand = true) :
    lookOption table env remaining = .stop := by
  have hDrop : remaining.dropWhile isOperand = [] := by
    rw [List.dropWhile_eq_nil_iff]
    exact List.all_eq_true.mp h
  rw [lookOption, hDrop]

/-- What is found is behind operands, and is what the first other word is. -/
theorem lookOption_found {remaining : List (List Char)} {look : Look Selection}
    (h : lookOption table env remaining = look) (hLook : look ≠ .stop) :
    ∃ operands word rest, remaining = operands ++ word :: rest ∧
      operands.all isOperand = true ∧ isOperand word = false ∧
      look = (lookWord table env word rest).behind operands.length := by
  rcases exists_option remaining with hAll | ⟨operands, word, rest, rfl, hAll, hWord⟩
  · rw [lookOption_operands hAll] at h
    exact absurd h.symm hLook
  · rw [lookOption_eq _ _ hAll hWord] at h
    exact ⟨operands, word, rest, rfl, hAll, hWord, h.symm⟩

theorem lookOption_pass {remaining : List (List Char)} {count : Nat}
    (h : lookOption table env remaining = .pass count) :
    ∃ operands word rest ended, remaining = operands ++ word :: rest ∧
      operands.all isOperand = true ∧ isOperand word = false ∧
      count = operands.length + ended ∧ lookWord table env word rest = .pass ended := by
  obtain ⟨operands, word, rest, rfl, hAll, hWord, hBehind⟩ := lookOption_found h (by simp)
  cases hLook : lookWord table env word rest with
  | stop => simp [hLook, Look.behind] at hBehind
  | splice ended selection => simp [hLook, Look.behind] at hBehind
  | pass ended =>
      rw [hLook] at hBehind
      cases hBehind
      exact ⟨operands, word, rest, ended, rfl, hAll, hWord, rfl, hLook⟩

theorem lookOption_splice {remaining : List (List Char)} {count : Nat} {selection : Selection}
    (h : lookOption table env remaining = .splice count selection) :
    ∃ operands word rest ended, remaining = operands ++ word :: rest ∧
      operands.all isOperand = true ∧ isOperand word = false ∧
      count = operands.length + ended ∧ lookWord table env word rest = .splice ended selection := by
  obtain ⟨operands, word, rest, rfl, hAll, hWord, hBehind⟩ := lookOption_found h (by simp)
  cases hLook : lookWord table env word rest with
  | stop => simp [hLook, Look.behind] at hBehind
  | pass ended => simp [hLook, Look.behind] at hBehind
  | splice ended other =>
      rw [hLook] at hBehind
      cases hBehind
      exact ⟨operands, word, rest, ended, rfl, hAll, hWord, rfl, hLook⟩

/-- An option that ends within the front words starts there. -/
theorem split_front {α : Type} {front back operands rest : List α} {word : α} {ended : Nat}
    (h : front ++ back = operands ++ word :: rest) (hPos : 0 < ended)
    (hCount : operands.length + ended ≤ front.length) :
    ∃ others, front = operands ++ word :: others ∧ rest = others ++ back := by
  rcases List.append_eq_append_iff.mp h with ⟨others, hFront, hBack⟩ | ⟨others, hFront, hBack⟩
  · have hLength := congrArg List.length hFront
    rw [List.length_append] at hLength
    omega
  · cases others with
    | nil =>
        rw [List.append_nil] at hFront
        rw [hFront] at hCount
        omega
    | cons first others =>
        cases hBack
        exact ⟨others, hFront, rfl⟩

/-- The selections that can have words: a file with a section named in it. -/
def selectionsOf (files : List (List Char × List Char)) : List Selection :=
  files.flatMap fun (name, content) => content.sublists.map fun esection => (esection, name)

theorem splicedWords_words (progname : List Char) (files : List (List Char × List Char))
    (selection : Selection) :
    ((splicedWords (fileEnv progname files) selection).getD [] ≠ [] →
      selection ∈ selectionsOf files) ∧
    ((splicedWords (fileEnv progname files) selection).getD []).IsChain fun key word =>
      ¬word.head? = some '-' → key.head? = some '-' ∧ '=' ∉ key := by
  obtain ⟨esection, efile⟩ := selection
  unfold splicedWords
  split
  · exact ⟨fun hSome => absurd rfl hSome, List.isChain_nil⟩
  · rename_i stream hOpen
    split
    · exact ⟨fun hSome => absurd rfl hSome, List.isChain_nil⟩
    · exact ⟨fun hSome => absurd rfl hSome, List.isChain_nil⟩
    · rename_i newArgv hRead
      obtain ⟨hNamed, hChain⟩ := readFile_words hRead
      refine ⟨fun hSome => ?_, hChain⟩
      obtain ⟨⟨name, content⟩, hFind, hStream⟩ := Option.map_eq_some_iff.mp hOpen
      have hName : name = efile := by simpa using List.find?_some hFind
      cases hStream
      apply List.mem_flatMap.mpr
      refine ⟨(name, content), List.mem_of_find?_eq_some hFind, ?_⟩
      exact List.mem_map.mpr ⟨esection, List.mem_sublists.mpr (hNamed hSome), by rw [hName]⟩

/-- A splice does not end with an option word that has no equals sign, unless
the next option starts behind it. -/
theorem lookWord_complete {word next : List Char} {more rest : List (List Char)}
    {selection : Selection}
    (h : lookWord table env word (more ++ next :: rest) = .splice (more.length + 1) selection)
    {key : List Char} (hLast : (word :: more).getLast? = some key)
    (hKey : key.head? = some '-' ∧ '=' ∉ key) : next.head? = some '-' := by
  obtain ⟨text, rfl, _, hEopt, hLook⟩ := lookWord_splice h
  cases more with
  | nil =>
      cases hLast
      rcases lookEopt_cases hLook with ⟨_, hSome⟩ | ⟨_, _, other, hOther, hDash⟩ | ⟨hTwo, _⟩
      · have hEquals := (readLong_eopt hEopt).2 hSome
        exact absurd hEquals fun hMem => hKey.2 (by simp [hMem])
      · cases hOther
        exact hDash
      · cases hTwo
  | cons argument more =>
      rcases lookEopt_cases hLook with ⟨hOne, _⟩ | ⟨hOne, _⟩ | ⟨hTwo, _, other, hOther, hDash⟩
      · simp at hOne
      · simp at hOne
      · have hNil : more = [] := by simpa using hTwo
        subst hNil
        cases hOther
        cases hLast
        exact absurd hKey.1 hDash

/-- Option processing only looks at what a scan may look at. -/
theorem optionScanner_lawful (table : OptionTable) (progname : List Char)
    (files : List (List Char × List Char)) :
    (optionScanner table (fileEnv progname files)).Lawful (fun word => word.head? = some '-')
      (fun key => key.head? = some '-' ∧ '=' ∉ key) (selectionsOf files) where
  pass_count remaining count h := by
    obtain ⟨operands, word, rest, ended, rfl, _, _, rfl, hLook⟩ := lookOption_pass h
    have hWords := lookWord_pass hLook
    simp only [List.length_append, List.length_cons]
    omega
  splice_count remaining count selection h := by
    obtain ⟨operands, word, rest, ended, rfl, _, _, rfl, hLook⟩ := lookOption_splice h
    have hWords := lookWord_splice_count hLook
    simp only [List.length_append, List.length_cons]
    omega
  pass_local front back other count h hCount hOther := by
    obtain ⟨operands, word, rest, ended, hSplit, hAll, hWord, rfl, hLook⟩ := lookOption_pass h
    obtain ⟨others, rfl, rfl⟩ := split_front hSplit (lookWord_pass hLook).1 hCount
    have hInside : ended ≤ others.length + 1 := by
      simp only [List.length_append, List.length_cons] at hCount
      omega
    have hOption := lookOption_eq table (fileEnv progname files) hAll hWord (others ++ other)
    rw [lookWord_pass_front hLook hInside other] at hOption
    simpa [optionScanner, Look.behind] using hOption
  splice_local front back other count selection h hCount hOther := by
    obtain ⟨operands, word, rest, ended, hSplit, hAll, hWord, rfl, hLook⟩ := lookOption_splice h
    obtain ⟨others, rfl, rfl⟩ := split_front hSplit (lookWord_splice_count hLook).1 hCount
    have hInside : ended ≤ others.length + 1 := by
      simp only [List.length_append, List.length_cons] at hCount
      omega
    have hOption := lookOption_eq table (fileEnv progname files) hAll hWord (others ++ other)
    rw [lookWord_splice_front hLook hInside hOther] at hOption
    simpa [optionScanner, Look.behind] using hOption
  splice_complete front key next rest selection h hKey := by
    obtain ⟨operands, word, others, ended, hSplit, _, _, hCount, hLook⟩ := lookOption_splice h
    have hPos := (lookWord_splice_count hLook).1
    have hFront : (front ++ [key]) ++ next :: rest = operands ++ word :: others := by
      simpa using hSplit
    obtain ⟨more, hMore, rfl⟩ := split_front hFront hPos (by simp [hCount])
    have hLast : (word :: more).getLast? = some key := by
      have hAll : (operands ++ word :: more).getLast? = some key := by rw [← hMore]; simp
      rwa [List.getLast?_append_of_ne_nil _ (List.cons_ne_nil word more)] at hAll
    have hEnded : ended = more.length + 1 := by
      have hLength := congrArg List.length hMore
      simp only [List.length_append, List.length_cons, List.length_nil] at hLength
      omega
    exact lookWord_complete (hEnded ▸ hLook) hLast hKey
  words_chain selection := (splicedWords_words progname files selection).2
  words_targets selection := (splicedWords_words progname files selection).1

end Operands

end MonitoringPlug.Args
