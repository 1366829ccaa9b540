import MonitoringPlug.Dns.AnchorStatements

/-! The files that `loadAnchorfile` reads as they are meant: every statement is converted to
its own fields, and nothing else is. -/
namespace MonitoringPlug.Dns

open CText

variable {p : Position} {keys : List DnsKey} {s' : Reading}

section Legible

/-- The layout of a statement that is converted to its own fields. -/
structure Statement.Legible (statement : Statement) : Prop where
  spaced : statement.SingleSpaced
  unclosed : '}' ∉ statement.behindEnd
  short : (statement.indent ++ statement.fields).length < maxPacketLen
  wordless : ¬trustedKeysWord <:+: statement.indent ++ statement.fields
  named : ¬['/', '/'] <+: statement.name.text

/-- No line is converted that is none of a statement, no line leaves the buffer, and in front
of every statement no quote of a comment is open, and the section is. -/
def Legible : List AnchorLine → Position → Prop
  | [], _ => True
  | .other text _ :: lines, p => (p.gather text).Passes ∧ Legible lines (p.gather text).next
  | .key statement :: lines, p =>
      p.quoteOpen = false ∧ p.sectionOpen = true ∧ statement.Legible ∧ Legible lines p

/-- The start of the file. -/
def Position.start : Position := { gathered := [], quoteOpen := false, sectionOpen := false }

theorem slashes_fields_iff (statement : Statement) :
    ['/', '/'] <+: statement.fields ↔ ['/', '/'] <+: statement.name.text := by
  obtain ⟨c, more, hName⟩ := List.exists_cons_of_ne_nil statement.name.ne_nil
  obtain ⟨d, gap, hGap⟩ := List.exists_cons_of_ne_nil statement.behindName.ne_nil
  have hBlank : d ∈ blanks := statement.behindName.blank d (by simp [hGap])
  have hSlash : '/' ≠ d := by
    rintro rfl
    exact absurd hBlank (by decide)
  rw [Statement.fields, hName, hGap]
  cases more with
  | nil => simp [hSlash]
  | cons e more => simp

theorem isSkipped_fields_iff (statement : Statement) (tkSection : Bool) :
    isSkipped (statement.indent ++ statement.fields) tkSection = false ↔
      tkSection = true ∧ ¬['/', '/'] <+: statement.name.text := by
  obtain ⟨c, more, hName⟩ := List.exists_cons_of_ne_nil statement.name.ne_nil
  have hSemicolon : c ≠ ';' := by
    rintro rfl
    exact statement.name.plain ';' (by simp [hName]) (by decide)
  have hHead : statement.fields.head? = some c := by simp [Statement.fields, hName]
  have hSome : statement.fields ≠ [] := by
    intro hNil
    rw [hNil] at hHead
    cases hHead
  rw [isSkipped, dropWhile_fields, ← slashes_fields_iff, hHead]
  simp [hSemicolon, hSome, ← List.isPrefixOf_iff_prefix, and_comm]

/-- A statement that adds its own key is laid out as it must be, and leaves the loop where
it was. -/
theorem legible_of_added (statement : Statement) (hStart : p.AtStart)
    (hFresh : p.quoteOpen = false) {last : Bool}
    (h : Ended (p.gather statement.text) keys last s' [statement.dnskey]) :
    p.sectionOpen = true ∧ statement.Legible ∧ (p.gather statement.text).next = p := by
  have hGathered := hStart.fresh hFresh
  have hRoom := h.room
  obtain ⟨_, hWord, hSkipped, hConvert⟩ := h.converted _ (List.mem_singleton_self _)
  rw [gather_statement statement hFresh hGathered] at hRoom hWord hSkipped hConvert ⊢
  rw [isSkipped_fields_iff, Bool.and_eq_true] at hSkipped
  rw [dropWhile_fields] at hConvert
  obtain ⟨⟨hSection, hClosed⟩, hNamed⟩ := hSkipped
  refine ⟨hSection, ⟨(convert_fields_iff statement).mp hConvert, of_decide_eq_true hClosed, hRoom,
    hWord, hNamed⟩, ?_⟩
  obtain ⟨gathered, quoteOpen, sectionOpen⟩ := p
  cases hFresh
  cases hGathered
  cases hSection
  simp [Position.next, Position.ended, of_decide_eq_true hClosed]

/-- Behind an open quote a statement is lost, and nothing can stand in for it. -/
theorem lost_behind_quote (statement : Statement) (hStart : p.AtStart)
    (hOpen : p.quoteOpen = true) {lines : List AnchorLine} {s : Reading}
    (hLine : readLine lines.isEmpty statement.text (p.reading keys) = some s)
    (hRest : readLines lines s = some s') :
    s'.trustedKeys ≠ keys ++ statement.dnskey :: dnskeys lines := by
  intro hResult
  by_cases hKey : '\n' ∈ statement.key.text
  · obtain ⟨added, hAdded, hInner, hLeads⟩ := spanning_open statement hStart hOpen hKey hLine
    obtain ⟨more, hMore, hOutweighed, _⟩ := outweighed_rest hAdded hLeads hRest
    have hAll := List.append_cancel_left (hMore.symm.trans hResult)
    have hNone : added.countP DnsKey.isSpanning = 0 :=
      List.countP_eq_zero.mpr fun key hMem => by simp [hInner key hMem]
    have hCount := congrArg (List.countP DnsKey.isSpanning) hAll
    rw [List.countP_append, hNone,
      List.countP_cons_of_pos ((dnskey_spanning_iff statement).mpr hKey)] at hCount
    omega
  · obtain ⟨added, hPassed⟩ := passed_open hStart hOpen (text_line statement hKey) hLine
    obtain ⟨more, hMore, hOutweighed⟩ := outweighed_rest hPassed.ended.result
      (fun hLast => ⟨_, hPassed.start, hPassed.ended.leads hLast⟩) hRest
    have hAll := List.append_cancel_left (hMore.symm.trans hResult)
    cases added with
    | nil =>
        rw [List.nil_append] at hAll
        rw [hAll] at hOutweighed
        exact not_outweighed_cons statement _ hOutweighed
    | cons key added =>
        have hFirst : key = statement.dnskey := (List.cons.inj hAll).1
        have hNot := hPassed.unclean key (List.mem_cons_self ..)
        rw [hFirst, dnskey_clean] at hNot
        cases hNot

theorem legible_of_result {lines : List AnchorLine} (hStart : p.AtStart)
    (h : readLines lines (p.reading keys) = some s')
    (hResult : s'.trustedKeys = keys ++ dnskeys lines) : Legible lines p := by
  induction lines generalizing p keys with
  | nil => trivial
  | cons line lines ih =>
      obtain ⟨s, hLine, hRest⟩ := Option.bind_eq_some_iff.mp h
      cases line with
      | other text other =>
          obtain ⟨added, hPassed⟩ := passed_other hStart other hLine
          have hLeads (hLast : lines.isEmpty = false) :
              ∃ q : Position, q.AtStart ∧ s = q.reading (keys ++ added) :=
            ⟨_, hPassed.start, hPassed.ended.leads hLast⟩
          obtain ⟨more, hMore, _⟩ := outweighed_rest hPassed.ended.result hLeads hRest
          have hAll : added ++ more = dnskeys lines :=
            List.append_cancel_left (hMore.symm.trans hResult)
          have hNone : added = [] := by
            apply List.eq_nil_iff_forall_not_mem.mpr
            intro key hKey
            have hClean := dnskeys_clean (hAll ▸ List.mem_append_left more hKey)
            rw [hPassed.unclean key hKey] at hClean
            cases hClean
          apply And.intro (hPassed.ended.passes hNone)
          cases lines with
          | nil => trivial
          | cons second lines =>
              have hState := hPassed.ended.leads rfl
              rw [hNone, List.append_nil] at hState
              rw [hState] at hRest
              exact ih hPassed.start hRest hResult
      | key statement =>
          cases hQuote : p.quoteOpen with
          | true => exact absurd hResult (lost_behind_quote statement hStart hQuote hLine hRest)
          | false =>
              obtain ⟨added, hEnded, hNext⟩ := passed_statement statement hStart hQuote hLine
              obtain ⟨more, hMore, hOutweighed⟩ := outweighed_rest hEnded.result
                (fun hLast => ⟨_, hNext, hEnded.leads hLast⟩) hRest
              have hAll : added ++ more = statement.dnskey :: dnskeys lines :=
                List.append_cancel_left (hMore.symm.trans hResult)
              cases added with
              | nil =>
                  rw [List.nil_append] at hAll
                  rw [hAll] at hOutweighed
                  exact absurd hOutweighed (not_outweighed_cons statement _)
              | cons key rest =>
                  obtain ⟨hOne, _⟩ := hEnded.converted key (List.mem_cons_self ..)
                  have hFirst : key = statement.dnskey := (List.cons.inj hAll).1
                  rw [hOne, hFirst] at hEnded
                  obtain ⟨hSection, hLegible, hSame⟩ :=
                    legible_of_added statement hStart hQuote hEnded
                  refine ⟨hQuote, hSection, hLegible, ?_⟩
                  cases lines with
                  | nil => trivial
                  | cons second lines =>
                      have hState := hEnded.leads rfl
                      rw [hSame] at hState
                      rw [hState] at hRest
                      apply ih hStart hRest
                      rw [hResult, List.append_assoc]
                      rfl

/-- Where a line starts in a legible file: what is gathered then is a comment. -/
structure Position.Safe (p : Position) : Prop where
  fits : p.gathered.length ≤ maxPacketLen
  comment : p.quoteOpen = true → IsComment p.gathered
  fresh : p.quoteOpen = false → p.gathered = []

theorem Position.Passes.lineEnd (h : p.Passes) (keys : List DnsKey)
    (hComment : p.quoteOpen = true → IsComment p.gathered) (last : Bool) :
    ∃ s, lineEnd last (p.reading keys) = some s ∧ s.trustedKeys = keys ∧
      (last = false → s = p.next.reading keys) := by
  obtain ⟨hRoom, hKind⟩ := h
  by_cases hLeads : last = false ∧ p.quoteOpen = true
  · refine ⟨p.next.reading keys, ?_, rfl, fun _ => rfl⟩
    rw [hLeads.1, lineEnd_open hLeads.2, if_pos hRoom]
  · have hPassed : trustedKeysWord <:+: p.gathered ∨
        isSkipped p.gathered p.sectionOpen = true := by
      rcases hKind with hOpen | hPassed
      · exact Or.inr ((hComment hOpen).skipped _)
      · exact hPassed
    have hEnd : endLine (p.reading keys) = some (p.ended.reading keys) :=
      endLine_eq_some_iff.mpr ⟨hRoom, Or.inl ⟨hPassed, rfl⟩⟩
    refine ⟨p.ended.reading keys, ?_, rfl, fun hLast => ?_⟩
    · cases last with
      | true => exact hEnd
      | false =>
          rw [lineEnd_closed false (by simpa using hLeads)]
          exact hEnd
    · rw [Position.next, if_neg fun hOpen => hLeads ⟨hLast, hOpen⟩]

/-- A line without a statement leaves a comment open, or nothing. -/
theorem safe_other (hSafe : p.Safe) {text : List Char} (line : OtherLine text)
    (hRoom : (p.gather text).gathered.length < maxPacketLen) :
    ((p.gather text).quoteOpen = true → IsComment (p.gather text).gathered) ∧
      (p.gather text).next.Safe := by
  have hComment (hOpen : (p.gather text).quoteOpen = true) :
      IsComment (p.gather text).gathered := by
    cases hQuote : p.quoteOpen with
    | true => exact (hSafe.comment hQuote).append _
    | false =>
        rcases line.kinds.2 with hComment | ⟨hPlain, _⟩
        · rw [Position.gather, hSafe.fresh hQuote]
          exact hComment
        · rw [Position.gather, quoteBehind_plain _ hPlain, hQuote] at hOpen
          cases hOpen
  apply And.intro hComment
  rw [Position.next]
  split
  · rename_i hOpen
    refine ⟨?_, fun _ => (hComment hOpen).append _, fun hClosed => ?_⟩
    · rw [List.length_append, List.length_singleton]
      exact hRoom
    · rw [hOpen] at hClosed
      cases hClosed
  · rename_i hClosed
    exact ⟨Nat.zero_le _, fun hOpen => absurd hOpen hClosed, fun _ => rfl⟩

theorem added_of_legible {statement : Statement} (h : statement.Legible)
    (hFresh : p.quoteOpen = false) (hGathered : p.gathered = []) (hSection : p.sectionOpen = true)
    (keys : List DnsKey) (last : Bool) :
    readLine last statement.text (p.reading keys) =
      some (p.reading (keys ++ [statement.dnskey])) := by
  have hInside : Inside p.quoteOpen statement.text := hFresh ▸ inside_text statement
  have hFits : p.gathered.length ≤ maxPacketLen := hGathered ▸ Nat.zero_le _
  have hPosition := gather_statement statement hFresh hGathered
  rw [hSection, Bool.true_and, decide_eq_true h.unclosed] at hPosition
  have hText : statement.text.foldlM readChar (p.reading keys) =
      some ((p.gather statement.text).reading keys) := by
    apply (readText_iff hInside hFits).mpr
    apply And.intro rfl
    rw [hPosition]
    exact Nat.le_of_lt h.short
  have hSkipped := (isSkipped_fields_iff statement true).mpr ⟨rfl, h.named⟩
  have hConvert := (convert_fields_iff statement).mpr h.spaced
  rw [readLine, hText, Option.bind_some, hPosition, lineEnd_closed last rfl, endLine_eq_some_iff]
  apply And.intro h.short
  apply Or.inr
  refine ⟨h.wordless, hSkipped, statement.dnskey, ?_, ?_⟩
  · rw [dropWhile_fields]
    exact hConvert
  · simp [Position.ended, Position.reading, hFresh, hGathered, hSection]

theorem result_of_legible {lines : List AnchorLine} (hSafe : p.Safe) (h : Legible lines p) :
    ∃ s', readLines lines (p.reading keys) = some s' ∧
      s'.trustedKeys = keys ++ dnskeys lines := by
  induction lines generalizing p keys with
  | nil => exact ⟨p.reading keys, rfl, by rw [dnskeys, List.filterMap_nil, List.append_nil]; rfl⟩
  | cons line lines ih =>
      cases line with
      | other text other =>
          obtain ⟨hPasses, hLegible⟩ := h
          obtain ⟨hComment, hNext⟩ := safe_other hSafe other hPasses.1
          obtain ⟨s, hEnd, hKeys, hLeads⟩ := hPasses.lineEnd keys hComment lines.isEmpty
          have hText : text.foldlM readChar (p.reading keys) =
              some ((p.gather text).reading keys) :=
            (readText_iff (inside_line _ other.kinds.1) hSafe.fits).mpr
              ⟨rfl, Nat.le_of_lt hPasses.1⟩
          have hLine : readLine lines.isEmpty (AnchorLine.other text other).text
              (p.reading keys) = some s := by
            rw [AnchorLine.text, readLine, hText]
            exact hEnd
          rw [readLines, hLine]
          cases lines with
          | nil => exact ⟨s, rfl, by rw [hKeys]; exact (List.append_nil keys).symm⟩
          | cons second lines =>
              rw [hLeads rfl]
              exact ih hNext hLegible
      | key statement =>
          obtain ⟨hQuote, hSection, hLegible, hRest⟩ := h
          have hLine := added_of_legible hLegible hQuote (hSafe.fresh hQuote) hSection keys
            lines.isEmpty
          have hAll : keys ++ dnskeys (.key statement :: lines) =
              keys ++ [statement.dnskey] ++ dnskeys lines := by
            rw [List.append_assoc]
            rfl
          rw [readLines, AnchorLine.text, hLine, hAll]
          exact ih hSafe hRest

theorem readLines_fileText {lines : List AnchorLine} (hSome : lines ≠ []) (s : Reading) :
    ((fileText lines).foldlM readChar s).bind endLine = readLines lines s := by
  induction lines generalizing s with
  | nil => exact absurd rfl hSome
  | cons line lines ih =>
      cases lines with
      | nil =>
          rw [fileText, List.map_singleton, List.intercalate_singleton]
          show readLine true line.text s = (readLine true line.text s).bind (readLines [])
          cases readLine true line.text s with
          | none => rfl
          | some next => rfl
      | cons second lines =>
          have hText : fileText (line :: second :: lines) =
              line.text ++ '\n' :: fileText (second :: lines) := by
            simp [fileText, List.intercalate_cons_cons]
          rw [hText, List.foldlM_append, readLines, readLine]
          cases line.text.foldlM readChar s with
          | none => rfl
          | some s =>
              show (('\n' :: fileText (second :: lines)).foldlM readChar s).bind endLine =
                (readChar s '\n').bind (readLines (second :: lines))
              rw [List.foldlM_cons]
              cases readChar s '\n' with
              | none => rfl
              | some s => exact ih (List.cons_ne_nil second lines) s

/-- For every file: the conversions are those of its statements, in their order, exactly if
it is legible. -/
theorem loadAnchorfile_iff (file : AnchorFile) :
    loadAnchorfile (some (fileText file.lines)) = some (some (dnskeys file.lines)) ↔
      Legible file.lines .start := by
  have hLoad : loadAnchorfile (some (fileText file.lines)) =
      (readLines file.lines (Position.start.reading [])).map fun s => some s.trustedKeys := by
    rw [← readLines_fileText file.ne_nil, loadAnchorfile]
    show (((fileText file.lines).foldlM readChar (Position.start.reading [])).bind fun s =>
      (endLine s).bind fun s => some (some s.trustedKeys)) = _
    cases (fileText file.lines).foldlM readChar (Position.start.reading []) with
    | none => rfl
    | some s => cases hEnd : endLine s <;> simp [hEnd]
  have hOpen : Position.start.quoteOpen ≠ true := Bool.false_ne_true
  rw [hLoad]
  constructor
  · intro h
    obtain ⟨s, hLines, hKeys⟩ := Option.map_eq_some_iff.mp h
    have hStart : Position.start.AtStart :=
      ⟨Nat.zero_le _, fun hStill => absurd hStill hOpen, fun _ => rfl⟩
    exact legible_of_result hStart hLines (Option.some.inj hKeys)
  · intro h
    have hSafe : Position.start.Safe :=
      ⟨Nat.zero_le _, fun hStill => absurd hStill hOpen, fun _ => rfl⟩
    obtain ⟨s, hLines, hKeys⟩ := result_of_legible hSafe h
    rw [hLines, Option.map_some, hKeys]
    rfl

end Legible

theorem plain_of_all {text : List Char}
    (h : text.all (fun c => c ∉ [' ', '\t', '\n', '"', ';', '{', '}']) = true) :
    ∀ c ∈ text, c ∉ [' ', '\t', '\n', '"', ';', '{', '}'] :=
  fun c hc => of_decide_eq_true (List.all_eq_true.mp h c hc)

theorem blank_of_all {text : List Char} (h : text.all (fun c => c ∈ blanks) = true) :
    ∀ c ∈ text, c ∈ blanks := fun c hc => of_decide_eq_true (List.all_eq_true.mp h c hc)

def oneBlank : Gap := ⟨[' '], List.cons_ne_nil _ _, blank_of_all rfl⟩

/-- The statement ".  257 3 5 AwEA;", with two blanks behind the name. -/
def twoBlanks : Statement where
  indent := []
  name := ⟨['.'], List.cons_ne_nil _ _, plain_of_all rfl⟩
  nameQuoted := false
  behindName := ⟨[' ', ' '], List.cons_ne_nil _ _, blank_of_all rfl⟩
  flags := ⟨['2', '5', '7'], List.cons_ne_nil _ _, plain_of_all rfl⟩
  behindFlags := oneBlank
  protocol := ⟨['3'], List.cons_ne_nil _ _, plain_of_all rfl⟩
  behindProtocol := oneBlank
  algorithm := ⟨['5'], List.cons_ne_nil _ _, plain_of_all rfl⟩
  behindAlgorithm := oneBlank
  key := .bare ⟨['A', 'w', 'E', 'A'], List.cons_ne_nil _ _, plain_of_all rfl⟩
  beforeEnd := []
  behindEnd := []
  indent_blank := List.forall_mem_nil _
  beforeEnd_blank := List.forall_mem_nil _
  behindEnd_closing := List.forall_mem_nil _

/-- The section with this statement. -/
def twoBlanksFile : AnchorFile where
  lines :=
    [.other _ (.heading (List.forall_mem_nil _) oneBlank.blank (List.forall_mem_nil _)),
      .key twoBlanks, .other _ (.closing (List.forall_mem_nil _) (List.forall_mem_nil _))]
  ne_nil := List.cons_ne_nil _ _

/-- The second blank becomes an empty field, and all fields behind it move on by one. -/
theorem loadAnchorfile_two_blanks :
    loadAnchorfile (some (fileText twoBlanksFile.lines)) =
        some (some [⟨['.'], [], ['2', '5', '7'], ['3'], ['5', ' ', 'A', 'w', 'E', 'A']⟩]) ∧
      dnskeys twoBlanksFile.lines =
        [⟨['.'], ['2', '5', '7'], ['3'], ['5'], ['A', 'w', 'E', 'A']⟩] := by
  decide

end MonitoringPlug.Dns
