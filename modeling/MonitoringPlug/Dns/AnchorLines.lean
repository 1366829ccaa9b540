import MonitoringPlug.Dns.AnchorReading

/-! The lines of a trust-anchor file: what the end of each of them adds, and in which state
it leaves the loop. -/
namespace MonitoringPlug.Dns

open CText

section Lines

/-- Where a line starts or ends in the file: what has been gathered since a quote was
opened, whether it still is open, and whether a section is. -/
structure Position where
  gathered : List Char
  quoteOpen : Bool
  sectionOpen : Bool

/-- Behind some more text. -/
def Position.gather (p : Position) (text : List Char) : Position where
  gathered := p.gathered ++ kept text
  quoteOpen := quoteBehind p.quoteOpen text
  sectionOpen := p.sectionOpen && decide ('}' ∉ text)

/-- Behind the end of a line. The word "trusted-keys" opens a section. -/
def Position.ended (p : Position) : Position :=
  { p with
    gathered := []
    sectionOpen := p.sectionOpen || decide (trustedKeysWord <:+: p.gathered) }

/-- At the start of the next line, to which an open quote leads on. -/
def Position.next (p : Position) : Position :=
  if p.quoteOpen = true then { p with gathered := p.gathered ++ ['\n'] } else p.ended

/-- The variables of the loop at a position. -/
def Position.reading (p : Position) (keys : List DnsKey) : Reading where
  linebuffer := p.gathered
  grouped := p.quoteOpen
  tkSection := p.sectionOpen
  trustedKeys := keys

/-- The line of a comment, as it is gathered. -/
def IsComment (line : List Char) : Prop :=
  (line.dropWhile isLeading).head? = some ';' ∨ ['/', '/'] <+: line.dropWhile isLeading

/-- Nothing that begins so is converted to a clean key. -/
def Tainted (line : List Char) : Prop := IsComment line ∨ ';' ∈ line.dropLast

variable {p : Position} {keys : List DnsKey} {s' : Reading} {line : List Char}

theorem IsComment.skipped (h : IsComment line) (tkSection : Bool) :
    isSkipped line tkSection = true := by
  rw [isSkipped]
  rcases h with hSemicolon | hSlashes
  · simp [hSemicolon]
  · simp [List.isPrefixOf_iff_prefix.mpr hSlashes]

theorem IsComment.append (h : IsComment line) (more : List Char) : IsComment (line ++ more) := by
  have hSome : line.dropWhile isLeading ≠ [] := by
    intro hNil
    rw [IsComment, hNil] at h
    simp at h
  have hDrop : (line ++ more).dropWhile isLeading = line.dropWhile isLeading ++ more := by
    rw [List.dropWhile_append, if_neg (by simpa using hSome)]
  rw [IsComment, hDrop]
  rcases h with hSemicolon | hSlashes
  · apply Or.inl
    rw [List.head?_append, hSemicolon]
    rfl
  · exact Or.inr (hSlashes.trans (List.prefix_append _ _))

theorem Tainted.append (h : Tainted line) (more : List Char) : Tainted (line ++ more) := by
  rcases h with hComment | hMem
  · exact Or.inl (hComment.append more)
  · apply Or.inr
    cases more with
    | nil => rwa [List.append_nil]
    | cons c more =>
        rw [List.dropLast_append_of_ne_nil (List.cons_ne_nil c more)]
        exact List.mem_append_left _ (List.mem_of_mem_dropLast hMem)

/-- The end of a line, and what is added there. -/
theorem endLine_eq_some_iff :
    endLine (p.reading keys) = some s' ↔
      p.gathered.length < maxPacketLen ∧
      ((trustedKeysWord <:+: p.gathered ∨ isSkipped p.gathered p.sectionOpen = true) ∧
          s' = p.ended.reading keys ∨
        ¬trustedKeysWord <:+: p.gathered ∧ isSkipped p.gathered p.sectionOpen = false ∧
          ∃ key, convert (p.gathered.dropWhile isLeading) = some key ∧
            s' = p.ended.reading (keys ++ [key])) := by
  rw [endLine, Position.reading]
  simp only [strstr_isSome_iff]
  by_cases hFull : maxPacketLen ≤ p.gathered.length
  · rw [if_pos hFull]
    simp [Nat.not_lt.mpr hFull]
  · rw [if_neg hFull]
    have hRoom := Nat.lt_of_not_le hFull
    by_cases hWord : trustedKeysWord <:+: p.gathered
    · have hEnded : p.ended.reading keys =
          { linebuffer := [], grouped := p.quoteOpen, tkSection := true,
            trustedKeys := keys } := by
        simp [Position.ended, Position.reading, hWord]
      rw [if_pos hWord, Option.some.injEq, hEnded, eq_comm]
      simp [hWord, hRoom]
    · have hEnded (keys : List DnsKey) : p.ended.reading keys =
          { linebuffer := [], grouped := p.quoteOpen, tkSection := p.sectionOpen,
            trustedKeys := keys } := by
        simp [Position.ended, Position.reading, hWord]
      rw [if_neg hWord]
      cases hSkipped : isSkipped p.gathered p.sectionOpen with
      | true =>
          rw [if_pos rfl, Option.some.injEq, hEnded, eq_comm]
          simp [hRoom]
      | false =>
          rw [if_neg Bool.false_ne_true, Option.map_eq_some_iff]
          simp only [hEnded, eq_comm]
          simp [hWord, hRoom]

/-- What begins so is a comment or has a semicolon in a field. -/
theorem Tainted.not_clean (h : Tainted line) {tkSection : Bool} {key : DnsKey}
    (hSkipped : isSkipped line tkSection = false)
    (hKey : convert (line.dropWhile isLeading) = some key) : key.isClean = false := by
  rcases h with hComment | hMem
  · rw [hComment.skipped tkSection] at hSkipped
    cases hSkipped
  · rw [← Bool.not_eq_true]
    intro hClean
    apply convert_clean hKey hClean
    have hSplit := List.takeWhile_append_dropWhile (p := isLeading) (l := line)
    have hFront : ';' ∉ line.takeWhile isLeading := by
      intro hLeading
      have hSemicolon := List.mem_takeWhile_imp hLeading
      exact absurd hSemicolon (by decide)
    by_cases hNil : line.dropWhile isLeading = []
    · rw [hNil, List.append_nil] at hSplit
      rw [← hSplit] at hMem
      exact absurd (List.mem_of_mem_dropLast hMem) hFront
    · rw [← hSplit, List.dropLast_append_of_ne_nil hNil, List.mem_append] at hMem
      exact hMem.resolve_left hFront

theorem readText_iff {text : List Char} (hInside : Inside p.quoteOpen text)
    (hFits : p.gathered.length ≤ maxPacketLen) :
    text.foldlM readChar (p.reading keys) = some s' ↔
      s' = (p.gather text).reading keys ∧ (p.gather text).gathered.length ≤ maxPacketLen := by
  rw [readText_eq_some_iff (s := p.reading keys) hInside hFits]
  constructor
  · rintro ⟨rfl, hRoom⟩
    exact ⟨rfl, hRoom⟩
  · rintro ⟨rfl, hRoom⟩
    exact ⟨rfl, hRoom⟩

/-- A line is ended by a newline, or by the end of the file. -/
def lineEnd (last : Bool) (s : Reading) : Option Reading :=
  if last = true then endLine s else readChar s '\n'

theorem lineEnd_closed (last : Bool) (hClosed : p.quoteOpen = false) :
    lineEnd last (p.reading keys) = endLine (p.reading keys) := by
  have hGrouped : (p.reading keys).grouped = false := hClosed
  cases last with
  | true => rfl
  | false => simp [lineEnd, readChar, hGrouped]

theorem lineEnd_open (hOpen : p.quoteOpen = true) :
    lineEnd false (p.reading keys) =
      if p.gathered.length < maxPacketLen then some (p.next.reading keys) else none := by
  simp [lineEnd, readChar, Position.next, hOpen, Position.reading]

/-- The end of a line that adds nothing. -/
def Position.Passes (p : Position) : Prop :=
  p.gathered.length < maxPacketLen ∧ (p.quoteOpen = true ∨ trustedKeysWord <:+: p.gathered ∨
    isSkipped p.gathered p.sectionOpen = true)

/-- What the end of a line adds, and where it leads. -/
structure Ended (p : Position) (keys : List DnsKey) (last : Bool) (s' : Reading)
    (added : List DnsKey) : Prop where
  room : p.gathered.length < maxPacketLen
  result : s'.trustedKeys = keys ++ added
  leads : last = false → s' = p.next.reading (keys ++ added)
  passes : added = [] → p.Passes
  converted : ∀ key ∈ added, added = [key] ∧ ¬trustedKeysWord <:+: p.gathered ∧
    isSkipped p.gathered p.sectionOpen = false ∧
    convert (p.gathered.dropWhile isLeading) = some key

theorem lineEnd_ended {last : Bool} (h : lineEnd last (p.reading keys) = some s') :
    ∃ added, Ended p keys last s' added := by
  by_cases hLeads : last = false ∧ p.quoteOpen = true
  · rw [hLeads.1, lineEnd_open hLeads.2] at h
    split at h
    · rename_i hRoom
      cases h
      exact ⟨[], hRoom, by simp [Position.reading], fun _ => by rw [List.append_nil],
        fun _ => ⟨hRoom, Or.inl hLeads.2⟩, by simp⟩
    · cases h
  · have hEnd : endLine (p.reading keys) = some s' := by
      cases last with
      | true => exact h
      | false =>
          rw [← h, lineEnd_closed false]
          simpa using hLeads
    have hNext (hLast : last = false) : p.next = p.ended := by
      rw [Position.next, if_neg fun hOpen => hLeads ⟨hLast, hOpen⟩]
    obtain ⟨hRoom, hPassed | ⟨hWord, hSkipped, key, hKey, hState⟩⟩ := endLine_eq_some_iff.mp hEnd
    · exact ⟨[], hRoom, by rw [hPassed.2, List.append_nil]; rfl,
        fun hLast => by rw [hNext hLast, List.append_nil, hPassed.2],
        fun _ => ⟨hRoom, Or.inr hPassed.1⟩, by simp⟩
    · refine ⟨[key], hRoom, by rw [hState]; rfl, fun hLast => by rw [hNext hLast, hState],
        by simp, ?_⟩
      intro other hOther
      rw [List.mem_singleton.mp hOther]
      exact ⟨rfl, hWord, hSkipped, hKey⟩

/-- At the start of a line nothing is gathered, or what no clean key begins with. -/
structure Position.AtStart (p : Position) : Prop where
  fits : p.gathered.length ≤ maxPacketLen
  leading : p.quoteOpen = true → Tainted p.gathered
  fresh : p.quoteOpen = false → p.gathered = []

theorem Position.AtStart.next (hRoom : p.gathered.length < maxPacketLen)
    (hTainted : p.quoteOpen = true → Tainted (p.gathered ++ ['\n'])) : p.next.AtStart := by
  rw [Position.next]
  split
  · rename_i hOpen
    refine ⟨?_, fun _ => hTainted hOpen, fun hClosed => ?_⟩
    · rw [List.length_append, List.length_singleton]
      exact hRoom
    · rw [hOpen] at hClosed
      cases hClosed
  · rename_i hClosed
    exact ⟨Nat.zero_le _, fun hOpen => absurd hOpen hClosed, fun _ => rfl⟩

/-- A text with the end of its line. -/
def readLine (last : Bool) (text : List Char) (s : Reading) : Option Reading :=
  (text.foldlM readChar s).bind (lineEnd last)

/-- What reading a line adds is unclean, and the next line starts where the text leads. -/
structure Passed (p : Position) (keys : List DnsKey) (last : Bool) (text : List Char)
    (s' : Reading) (added : List DnsKey) : Prop where
  ended : Ended (p.gather text) keys last s' added
  unclean : ∀ key ∈ added, key.isClean = false
  start : (p.gather text).next.AtStart

theorem readLine_split {last : Bool} {text : List Char} (hInside : Inside p.quoteOpen text)
    (hFits : p.gathered.length ≤ maxPacketLen)
    (h : readLine last text (p.reading keys) = some s') :
    lineEnd last ((p.gather text).reading keys) = some s' := by
  obtain ⟨s, hText, hEnd⟩ := Option.bind_eq_some_iff.mp h
  rw [((readText_iff hInside hFits).mp hText).1] at hEnd
  exact hEnd

/-- A line that a quote is open in front of. -/
theorem passed_open (hStart : p.AtStart) (hOpen : p.quoteOpen = true) {last : Bool}
    {text : List Char} (hLine : '\n' ∉ text)
    (h : readLine last text (p.reading keys) = some s') :
    ∃ added, Passed p keys last text s' added := by
  have hEnd := readLine_split (inside_line _ hLine) hStart.fits h
  have hTainted : Tainted (p.gather text).gathered := (hStart.leading hOpen).append _
  obtain ⟨added, hEnded⟩ := lineEnd_ended hEnd
  refine ⟨added, hEnded, fun key hKey => ?_, .next hEnded.room fun _ => hTainted.append _⟩
  obtain ⟨_, _, hSkipped, hConvert⟩ := hEnded.converted key hKey
  exact hTainted.not_clean hSkipped hConvert

theorem blank_leading {c : Char} (hc : c ∈ blanks) : isLeading c = true := by
  rcases List.mem_pair.mp hc with rfl | rfl
  · rfl
  · rfl

theorem dropWhile_indent {indent : List Char} (hIndent : ∀ c ∈ indent, c ∈ blanks)
    (text : List Char) : (indent ++ text).dropWhile isLeading = text.dropWhile isLeading := by
  induction indent with
  | nil => rfl
  | cons c indent ih =>
      rw [List.forall_mem_cons] at hIndent
      rw [List.cons_append, List.dropWhile_cons, if_pos (blank_leading hIndent.1)]
      exact ih hIndent.2

theorem not_mem_blanks {text : List Char} (hText : ∀ c ∈ text, c ∈ blanks) {c : Char}
    (hc : c ∉ blanks) : c ∉ text := fun hMem => hc (hText c hMem)

theorem kept_blanks {text : List Char} (hText : ∀ c ∈ text, c ∈ blanks) : kept text = text :=
  kept_plain (not_mem_blanks hText (by decide)) (not_mem_blanks hText (by decide))

theorem isComment_kept {indent text : List Char} (hIndent : ∀ c ∈ indent, c ∈ blanks)
    (hStart : text.head? = some ';' ∨ ['/', '/'] <+: text) : IsComment (kept (indent ++ text)) := by
  rw [kept_append, kept_blanks hIndent, IsComment, dropWhile_indent hIndent]
  rcases hStart with hSemicolon | ⟨rest, rfl⟩
  · obtain ⟨rest, rfl⟩ := List.head?_eq_some_iff.mp hSemicolon
    apply Or.inl
    rfl
  · apply Or.inr
    exact ⟨kept rest, rfl⟩

/-- A line without a statement is a comment, or blank, or it opens a section or closes it. -/
theorem OtherLine.kinds {text : List Char} (line : OtherLine text) :
    '\n' ∉ text ∧ (IsComment (kept text) ∨ '"' ∉ text ∧
      ((kept text).dropWhile isLeading = [] ∨ trustedKeysWord <:+: kept text ∨ '}' ∈ text)) := by
  have hNewline : '\n' ∉ blanks := by decide
  have hQuote : '"' ∉ blanks := by decide
  cases line with
  | blank hIndent =>
      have hDrop := dropWhile_indent hIndent []
      rw [List.append_nil] at hDrop
      exact ⟨not_mem_blanks hIndent hNewline, Or.inr ⟨not_mem_blanks hIndent hQuote,
        Or.inl (by rw [kept_blanks hIndent, hDrop]; rfl)⟩⟩
  | comment hIndent hStart hLine =>
      have hIndentLine := not_mem_blanks hIndent hNewline
      exact ⟨by simp [hIndentLine, hLine], Or.inl (isComment_kept hIndent hStart)⟩
  | @heading indent gap behind hIndent hGap hBehind =>
      have hWord : kept trustedKeysWord = trustedKeysWord := by decide
      have hWordLine : '\n' ∉ trustedKeysWord := by decide
      have hWordQuote : '"' ∉ trustedKeysWord := by decide
      have hKept : trustedKeysWord <:+:
          kept (indent ++ trustedKeysWord ++ gap ++ '{' :: behind) := by
        rw [kept_append, kept_append, kept_append, hWord, List.append_assoc]
        exact List.infix_append _ _ _
      refine ⟨?_, Or.inr ⟨?_, Or.inr (Or.inl hKept)⟩⟩
      · simp [not_mem_blanks hIndent hNewline, not_mem_blanks hGap hNewline,
          not_mem_blanks hBehind hNewline, hWordLine]
      · simp [not_mem_blanks hIndent hQuote, not_mem_blanks hGap hQuote,
          not_mem_blanks hBehind hQuote, hWordQuote]
  | @closing indent behind hIndent hBehind =>
      have hFree {c : Char} (hc : c ∉ [' ', '\t', ';']) (hMem : c ∈ behind) : False :=
        hc (hBehind c hMem)
      refine ⟨?_, Or.inr ⟨?_, Or.inr (Or.inr (by simp))⟩⟩
      · simp only [List.mem_append, List.mem_cons, not_or]
        exact ⟨not_mem_blanks hIndent hNewline, by decide, hFree (by decide)⟩
      · simp only [List.mem_append, List.mem_cons, not_or]
        exact ⟨not_mem_blanks hIndent hQuote, by decide, hFree (by decide)⟩

/-- A line without a statement, wherever it stands. -/
theorem passed_other (hStart : p.AtStart) {last : Bool} {text : List Char}
    (line : OtherLine text) (h : readLine last text (p.reading keys) = some s') :
    ∃ added, Passed p keys last text s' added := by
  obtain ⟨hLine, hKind⟩ := line.kinds
  cases hQuote : p.quoteOpen with
  | true => exact passed_open hStart hQuote hLine h
  | false =>
      have hGathered : (p.gather text).gathered = kept text := by
        rw [Position.gather, hStart.fresh hQuote, List.nil_append]
      have hEnd := readLine_split (inside_line _ hLine) hStart.fits h
      obtain ⟨added, hEnded⟩ := lineEnd_ended hEnd
      rcases hKind with hComment | ⟨hPlain, hOther⟩
      · have hTainted : Tainted (p.gather text).gathered := hGathered ▸ Or.inl hComment
        refine ⟨added, hEnded, fun key hKey => ?_, .next hEnded.room fun _ => hTainted.append _⟩
        obtain ⟨_, _, hSkipped, hConvert⟩ := hEnded.converted key hKey
        exact hTainted.not_clean hSkipped hConvert
      · have hClosed : (p.gather text).quoteOpen = false := by
          rw [Position.gather, quoteBehind_plain _ hPlain, hQuote]
        refine ⟨added, hEnded, fun key hKey => ?_, .next hEnded.room fun hOpen => ?_⟩
        · obtain ⟨_, hWord, hSkipped, hConvert⟩ := hEnded.converted key hKey
          rw [hGathered] at hWord hSkipped hConvert
          rcases hOther with hBlank | hHeading | hClosing
          · rw [hBlank] at hConvert
            cases hConvert
          · exact absurd hHeading hWord
          · simp [isSkipped, Position.gather, hClosing] at hSkipped
        · rw [hClosed] at hOpen
          cases hOpen

end Lines

end MonitoringPlug.Dns
