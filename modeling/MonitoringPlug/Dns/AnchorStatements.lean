import MonitoringPlug.Dns.AnchorLines
import MonitoringPlug.Lib.Rounds

/-! The statements of a trust-anchor file: the text of one, what is read of it behind an open
quote, and how many keys the lines of a file can add at most. -/
namespace MonitoringPlug.Dns

open CLoop CText

variable {p : Position} {keys : List DnsKey} {s' : Reading}

section Layout

variable (statement : Statement)

theorem Word.not_mem (word : Word) {c : Char} (hc : c ∈ [' ', '\t', '\n', '"', ';', '{', '}']) :
    c ∉ word.text := fun hMem => word.plain c hMem hc

theorem Gap.not_mem (gap : Gap) {c : Char} (hc : c ∉ blanks) : c ∉ gap.text :=
  fun hMem => hc (gap.blank c hMem)

theorem KeyText.not_mem (key : KeyText) {c : Char} (hc : c ∈ ['"', ';', '{', '}']) :
    c ∉ key.text := by
  cases key with
  | bare word =>
      apply word.not_mem
      simp only [List.mem_cons, List.not_mem_nil, or_false] at hc ⊢
      exact Or.inr (Or.inr (Or.inr hc))
  | quoted text hSome hClean => exact fun hMem => hClean c hMem hc

theorem Word.newline_notMem (word : Word) : '\n' ∉ word.text := word.not_mem (by decide)

theorem Word.quote_notMem (word : Word) : '"' ∉ word.text := word.not_mem (by decide)

theorem Word.brace_notMem (word : Word) : '}' ∉ word.text := word.not_mem (by decide)

theorem KeyText.quote_notMem (key : KeyText) : '"' ∉ key.text := key.not_mem (by decide)

theorem KeyText.brace_notMem (key : KeyText) : '}' ∉ key.text := key.not_mem (by decide)

theorem kept_quote (quoted : Bool) {text : List Char} (hQuote : '"' ∉ text)
    (hBrace : '}' ∉ text) : kept (quote quoted text) = text := by
  have hMark : kept ['"'] = [] := rfl
  cases quoted with
  | false => exact kept_plain hQuote hBrace
  | true =>
      show kept (['"'] ++ (text ++ ['"'])) = text
      rw [kept_append, kept_append, hMark, kept_plain hQuote hBrace, List.nil_append,
        List.append_nil]

theorem quoteBehind_quote (grouped quoted : Bool) {text : List Char} (hQuote : '"' ∉ text) :
    quoteBehind grouped (quote quoted text) = grouped := by
  cases quoted with
  | false => exact quoteBehind_plain grouped hQuote
  | true =>
      show quoteBehind grouped (['"'] ++ (text ++ ['"'])) = grouped
      rw [quoteBehind_append, quoteBehind_append, quoteBehind_plain _ hQuote]
      simp [quoteBehind]

theorem not_mem_quote (quoted : Bool) {text : List Char} {c : Char} (hQuote : c ≠ '"')
    (hText : c ∉ text) : c ∉ quote quoted text := by
  cases quoted with
  | false => exact hText
  | true => simp [quote, hQuote, hText]

theorem front_not_mem {c : Char} (hBlank : c ∉ blanks) (hQuote : c ≠ '"')
    (hWord : ∀ word : Word, c ∉ word.text) : c ∉ statement.front := by
  have hName := not_mem_quote statement.nameQuoted hQuote (hWord statement.name)
  simp [Statement.front, not_mem_blanks statement.indent_blank hBlank, hName, hWord,
    Gap.not_mem _ hBlank]

theorem front_line : '\n' ∉ statement.front :=
  front_not_mem statement (by decide) (by decide) Word.newline_notMem

theorem front_brace : '}' ∉ statement.front :=
  front_not_mem statement (by decide) (by decide) Word.brace_notMem

theorem quoteBehind_front (grouped : Bool) :
    quoteBehind grouped statement.front = grouped := by
  have hBlank : '"' ∉ blanks := by decide
  simp only [Statement.front, quoteBehind_append,
    quoteBehind_plain _ (not_mem_blanks statement.indent_blank hBlank),
    quoteBehind_quote _ _ (Word.quote_notMem _), quoteBehind_plain _ (Word.quote_notMem _),
    quoteBehind_plain _ (Gap.not_mem _ hBlank)]

theorem behindEnd_not_mem {c : Char} (hc : c ∉ [' ', '\t', '}', ';']) :
    c ∉ statement.behindEnd := fun hMem => hc (statement.behindEnd_closing c hMem)

theorem back_not_mem {c : Char} (hc : c ∉ [' ', '\t', '}', ';']) : c ∉ statement.back := by
  simp only [List.mem_cons, List.not_mem_nil, or_false, not_or] at hc
  have hBefore : c ∉ statement.beforeEnd :=
    not_mem_blanks statement.beforeEnd_blank (by simp [blanks, hc.1, hc.2.1])
  have hBehind : c ∉ statement.behindEnd := behindEnd_not_mem statement (by simp [hc])
  simp [Statement.back, hBefore, hBehind, hc.2.2.2]

theorem kept_text : kept statement.text = statement.indent ++ statement.fields := by
  have hWord (word : Word) : kept word.text = word.text :=
    kept_plain word.quote_notMem word.brace_notMem
  have hName : kept (quote statement.nameQuoted statement.name.text) = statement.name.text :=
    kept_quote _ statement.name.quote_notMem statement.name.brace_notMem
  have hKey : kept (quote statement.key.isQuoted statement.key.text) = statement.key.text :=
    kept_quote _ statement.key.quote_notMem statement.key.brace_notMem
  have hGap (gap : Gap) : kept gap.text = gap.text := kept_blanks gap.blank
  have hEnd : kept (';' :: statement.behindEnd) = ';' :: kept statement.behindEnd := rfl
  simp only [Statement.text, Statement.front, Statement.back, Statement.fields, kept_append,
    kept_blanks statement.indent_blank, kept_blanks statement.beforeEnd_blank, hName, hWord,
    hGap, hKey, hEnd, List.append_assoc]

theorem quoteBehind_text (grouped : Bool) :
    quoteBehind grouped statement.text = grouped := by
  rw [Statement.text, quoteBehind_append, quoteBehind_append, quoteBehind_front,
    quoteBehind_quote _ _ statement.key.quote_notMem,
    quoteBehind_plain _ (back_not_mem statement (by decide))]

theorem brace_text_iff : '}' ∈ statement.text ↔ '}' ∈ statement.behindEnd := by
  have hKey := not_mem_quote statement.key.isQuoted (by decide) statement.key.brace_notMem
  have hBefore : '}' ∉ statement.beforeEnd :=
    not_mem_blanks statement.beforeEnd_blank (by decide)
  simp [Statement.text, Statement.back, front_brace, hKey, hBefore]

theorem inside_text : Inside false statement.text := by
  have hBack (grouped : Bool) : Inside grouped statement.back :=
    inside_line grouped (back_not_mem statement (by decide))
  rw [Statement.text, inside_append, quoteBehind_front]
  apply And.intro (inside_line _ (front_line statement))
  rw [inside_append]
  apply And.intro _ (hBack _)
  cases hKey : statement.key with
  | bare word => exact inside_line _ word.newline_notMem
  | quoted text hSome hClean =>
      have hQuote : '"' ∉ text := fun hMem => hClean _ hMem (by decide)
      apply And.intro (by decide)
      show Inside true (text ++ ['"'])
      rw [inside_append]
      exact ⟨inside_grouped hQuote, inside_line _ (by decide)⟩

theorem text_line (hKey : '\n' ∉ statement.key.text) : '\n' ∉ statement.text := by
  have hBack : '\n' ∉ statement.back := back_not_mem statement (by decide)
  have hQuoted := not_mem_quote statement.key.isQuoted (by decide) hKey
  simp [Statement.text, front_line, hQuoted, hBack]

theorem dropWhile_fields :
    (statement.indent ++ statement.fields).dropWhile isLeading = statement.fields := by
  obtain ⟨c, more, hName⟩ := List.exists_cons_of_ne_nil statement.name.ne_nil
  have hPlain := statement.name.plain c (by simp [hName])
  have hLeading : isLeading c = false := by
    simp only [List.mem_cons, not_or] at hPlain
    simp [isLeading, hPlain.1, hPlain.2.1, hPlain.2.2.1]
  rw [dropWhile_indent statement.indent_blank, Statement.fields, hName, List.cons_append,
    List.dropWhile_cons, hLeading]
  rfl

end Layout

section Spanning

/-- A clean key that goes over several lines. -/
def DnsKey.isSpanning (key : DnsKey) : Bool := key.isClean && decide ('\n' ∈ key.publicKey)

theorem not_spanning_of_line {key : DnsKey} (h : '\n' ∉ key.publicKey) :
    key.isSpanning = false := by
  simp [DnsKey.isSpanning, h]

theorem not_spanning_of_not_clean {key : DnsKey} (h : key.isClean = false) :
    key.isSpanning = false := by
  simp [DnsKey.isSpanning, h]

theorem not_mem_dropWhile {line : List Char} {c : Char} (h : c ∉ line) :
    c ∉ line.dropWhile isLeading :=
  fun hMem => h ((List.dropWhile_suffix isLeading).subset hMem)

/-- Where the quotes are the other way round, the lines of a key are taken one by one. -/
theorem fragments {text : List Char} (hQuote : '"' ∉ text) (hBrace : '}' ∉ text)
    (hClosed : p.quoteOpen = false) (hLine : '\n' ∉ p.gathered)
    (hFits : p.gathered.length ≤ maxPacketLen)
    (h : text.foldlM readChar (p.reading keys) = some s') :
    ∃ (q : Position) (added : List DnsKey), s' = q.reading (keys ++ added) ∧
      q.quoteOpen = false ∧ '\n' ∉ q.gathered ∧ q.gathered.length ≤ maxPacketLen ∧
      ∀ key ∈ added, key.isSpanning = false := by
  induction text generalizing p keys with
  | nil =>
      cases h
      exact ⟨p, [], by rw [List.append_nil], hClosed, hLine, hFits, by simp⟩
  | cons c text ih =>
      rw [List.mem_cons, not_or] at hQuote hBrace
      obtain ⟨s, hChar, hRest⟩ := foldlM_cons_eq_some_iff.mp h
      by_cases hNewline : c = '\n'
      · have hEnd : lineEnd false (p.reading keys) = some s := by
          rw [← hChar, hNewline]
          rfl
        obtain ⟨first, hEnded⟩ := lineEnd_ended hEnd
        have hNext : p.next = p.ended := by rw [Position.next, hClosed]; rfl
        have hStill : p.ended.quoteOpen = false := hClosed
        rw [hEnded.leads rfl, hNext] at hRest
        obtain ⟨q, added, hState, hQ, hQLine, hQFits, hAdded⟩ :=
          ih hQuote.2 hBrace.2 hStill (List.not_mem_nil) (Nat.zero_le _) hRest
        refine ⟨q, first ++ added, by rw [hState, List.append_assoc], hQ, hQLine, hQFits, ?_⟩
        intro key hKey
        rcases List.mem_append.mp hKey with hFirst | hLater
        · obtain ⟨_, _, _, hConvert⟩ := hEnded.converted key hFirst
          exact not_spanning_of_line (convert_newline hConvert (not_mem_dropWhile hLine))
        · exact hAdded key hLater
      · have hInside : Inside p.quoteOpen [c] :=
          inside_line _ (by simpa using Ne.symm hNewline)
        have hOne : [c].foldlM readChar (p.reading keys) = some s := by
          rw [List.foldlM_cons, hChar]
          rfl
        obtain ⟨rfl, hRoom⟩ := (readText_iff hInside hFits).mp hOne
        have hQuoteOne : '"' ∉ [c] := by simpa using hQuote.1
        have hKept : kept [c] = [c] := kept_plain hQuoteOne (by simpa using hBrace.1)
        have hGathered : '\n' ∉ (p.gather [c]).gathered := by
          simp [Position.gather, hKept, hLine, Ne.symm hNewline]
        have hStill : (p.gather [c]).quoteOpen = false := by
          rw [Position.gather, quoteBehind_plain _ hQuoteOne, hClosed]
        exact ih hQuote.2 hBrace.2 hStill hGathered hRoom hRest

/-- What is gathered behind the key. -/
theorem gather_back (statement : Statement) (q : Position) :
    (q.gather ('"' :: statement.back)).gathered =
      q.gathered ++ statement.beforeEnd ++ ';' :: kept statement.behindEnd := by
  have hKept : kept ('"' :: statement.back) =
      statement.beforeEnd ++ ';' :: kept statement.behindEnd := by
    show kept (statement.beforeEnd ++ ';' :: statement.behindEnd) = _
    rw [kept_append, kept_blanks statement.beforeEnd_blank]
    rfl
  rw [Position.gather, hKept, List.append_assoc]

theorem behindEnd_line (statement : Statement) : '\n' ∉ kept statement.behindEnd := fun hMem =>
  behindEnd_not_mem statement (by decide) (List.mem_of_mem_filter hMem)

theorem quoted_of_newline {key : KeyText} (h : '\n' ∈ key.text) : key.isQuoted = true := by
  cases key with
  | bare word => exact absurd h word.newline_notMem
  | quoted text hSome hClean => rfl

/-- A statement behind an open quote, whose key goes over several lines. -/
theorem spanning_open (statement : Statement) (hStart : p.AtStart) (hOpen : p.quoteOpen = true)
    (hKey : '\n' ∈ statement.key.text) {last : Bool}
    (h : readLine last statement.text (p.reading keys) = some s') :
    ∃ added, s'.trustedKeys = keys ++ added ∧ (∀ key ∈ added, key.isSpanning = false) ∧
      (last = false → ∃ q : Position, q.AtStart ∧ s' = q.reading (keys ++ added)) := by
  have hQuote := statement.key.quote_notMem
  have hBrace := statement.key.brace_notMem
  obtain ⟨first, more, hSplit, hFirst⟩ := List.eq_append_cons_of_mem hKey
  rw [hSplit, List.mem_append, List.mem_cons, not_or, not_or] at hQuote hBrace
  have hText : statement.text =
      (statement.front ++ '"' :: first) ++ '\n' :: (more ++ '"' :: statement.back) := by
    simp [Statement.text, quote, quoted_of_newline hKey, hSplit]
  rw [readLine, hText, List.foldlM_append] at h
  obtain ⟨s, hLine, hEnd⟩ := Option.bind_eq_some_iff.mp h
  obtain ⟨s₁, hFront, hBehind⟩ := Option.bind_eq_some_iff.mp hLine
  obtain ⟨s₂, hNewline, hMore⟩ := foldlM_cons_eq_some_iff.mp hBehind
  -- the line that the open quote leads to ends at the first newline of the key
  have hFrontLine : '\n' ∉ statement.front ++ '"' :: first := by
    simp [front_line, hFirst]
  have hFirstLine : readLine false (statement.front ++ '"' :: first) (p.reading keys) =
      some s₂ := Option.bind_eq_some_iff.mpr ⟨s₁, hFront, hNewline⟩
  obtain ⟨leading, hPassed⟩ := passed_open hStart hOpen hFrontLine hFirstLine
  have hClosed : (p.gather (statement.front ++ '"' :: first)).quoteOpen = false := by
    have hMark : '"' :: first = ['"'] ++ first := rfl
    rw [Position.gather, quoteBehind_append, quoteBehind_front, hOpen, hMark, quoteBehind_append,
      quoteBehind_plain _ hQuote.1]
    rfl
  have hNext := hPassed.ended.leads rfl
  rw [Position.next, hClosed, if_neg Bool.false_ne_true] at hNext
  rw [hNext, List.foldlM_append] at hMore
  obtain ⟨s₃, hFragments, hBack⟩ := Option.bind_eq_some_iff.mp hMore
  -- the rest of the key is taken line by line
  have hStill : (p.gather (statement.front ++ '"' :: first)).ended.quoteOpen = false := hClosed
  obtain ⟨q, inner, rfl, hQ, hQLine, hQFits, hInner⟩ :=
    fragments hQuote.2.2 hBrace.2.2 hStill List.not_mem_nil (Nat.zero_le _) hFragments
  -- and what is behind the key is gathered again
  have hBackLine : '\n' ∉ '"' :: statement.back := by
    simp [back_not_mem statement]
  obtain ⟨rfl, _⟩ := (readText_iff (inside_line _ hBackLine) hQFits).mp hBack
  obtain ⟨final, hFinal⟩ := lineEnd_ended hEnd
  have hBefore : '\n' ∉ statement.beforeEnd :=
    not_mem_blanks statement.beforeEnd_blank (by decide)
  have hFinalLine : '\n' ∉ (q.gather ('"' :: statement.back)).gathered := by
    rw [gather_back]
    simp [hQLine, hBefore, behindEnd_line]
  refine ⟨leading ++ inner ++ final, by rw [hFinal.result]; simp, ?_, fun hLast => ?_⟩
  · intro key hAdded
    rcases List.mem_append.mp hAdded with hFirstTwo | hLater
    · rcases List.mem_append.mp hFirstTwo with hEarly | hMiddle
      · exact not_spanning_of_not_clean (hPassed.unclean key hEarly)
      · exact hInner key hMiddle
    · obtain ⟨_, _, _, hConvert⟩ := hFinal.converted key hLater
      exact not_spanning_of_line (convert_newline hConvert (not_mem_dropWhile hFinalLine))
  · refine ⟨_, .next hFinal.room fun _ => ?_, by rw [hFinal.leads hLast]; simp⟩
    apply Or.inr
    rw [List.dropLast_concat, gather_back]
    simp

end Spanning

section Weight

/-- Not more keys that go over several lines; and if there are as many of them, not more
clean ones. -/
def Outweighed (added asked : List DnsKey) : Prop :=
  added.countP DnsKey.isSpanning ≤ asked.countP DnsKey.isSpanning ∧
    (added.countP DnsKey.isSpanning = asked.countP DnsKey.isSpanning →
      added.countP DnsKey.isClean ≤ asked.countP DnsKey.isClean)

theorem Outweighed.append {added added' asked asked' : List DnsKey} (h : Outweighed added asked)
    (h' : Outweighed added' asked') : Outweighed (added ++ added') (asked ++ asked') := by
  obtain ⟨hSpanning, hClean⟩ := h
  obtain ⟨hSpanning', hClean'⟩ := h'
  simp only [Outweighed, List.countP_append]
  apply And.intro (Nat.add_le_add hSpanning hSpanning')
  intro hEqual
  exact Nat.add_le_add (hClean (by omega)) (hClean' (by omega))

theorem outweighed_of_not_clean {added : List DnsKey}
    (h : ∀ key ∈ added, key.isClean = false) (asked : List DnsKey) : Outweighed added asked := by
  have hClean : added.countP DnsKey.isClean = 0 :=
    List.countP_eq_zero.mpr fun key hKey => by simp [h key hKey]
  have hSpanning : added.countP DnsKey.isSpanning = 0 :=
    List.countP_eq_zero.mpr fun key hKey => by simp [not_spanning_of_not_clean (h key hKey)]
  rw [Outweighed, hClean, hSpanning]
  exact ⟨Nat.zero_le _, fun _ => Nat.zero_le _⟩

theorem dnskey_clean (statement : Statement) : statement.dnskey.isClean = true := by
  have hWord (word : Word) : ';' ∉ word.text := word.not_mem (by decide)
  have hKey : ';' ∉ statement.key.text := statement.key.not_mem (by decide)
  simp [DnsKey.isClean, Statement.dnskey, hWord, hKey]

theorem dnskey_spanning_iff (statement : Statement) :
    statement.dnskey.isSpanning = true ↔ '\n' ∈ statement.key.text := by
  rw [DnsKey.isSpanning, dnskey_clean, Bool.true_and]
  exact decide_eq_true_iff

theorem fields_line (statement : Statement) (hKey : '\n' ∉ statement.key.text) :
    '\n' ∉ statement.fields := by
  have hBlank : '\n' ∉ blanks := by decide
  have hBefore := not_mem_blanks statement.beforeEnd_blank hBlank
  simp [Statement.fields, Word.newline_notMem, Gap.not_mem _ hBlank, hKey, hBefore, behindEnd_line]

/-- The line of a statement, where no quote is open in front of it. -/
theorem gather_statement (statement : Statement) (hFresh : p.quoteOpen = false)
    (hGathered : p.gathered = []) :
    p.gather statement.text =
      { gathered := statement.indent ++ statement.fields
        quoteOpen := false
        sectionOpen := p.sectionOpen && decide ('}' ∉ statement.behindEnd) } := by
  simp only [Position.gather, hGathered, kept_text, quoteBehind_text, hFresh, brace_text_iff,
    List.nil_append]

theorem passed_statement (statement : Statement) (hStart : p.AtStart)
    (hFresh : p.quoteOpen = false) {last : Bool}
    (h : readLine last statement.text (p.reading keys) = some s') :
    ∃ added, Ended (p.gather statement.text) keys last s' added ∧
      (p.gather statement.text).next.AtStart := by
  have hInside : Inside p.quoteOpen statement.text := hFresh ▸ inside_text statement
  obtain ⟨added, hEnded⟩ := lineEnd_ended (readLine_split hInside hStart.fits h)
  refine ⟨added, hEnded, .next hEnded.room fun hOpen => ?_⟩
  rw [gather_statement statement hFresh (hStart.fresh hFresh)] at hOpen
  cases hOpen

theorem outweighed_statement (statement : Statement) (hStart : p.AtStart)
    (hFresh : p.quoteOpen = false) {last : Bool} {added : List DnsKey}
    (h : Ended (p.gather statement.text) keys last s' added) :
    Outweighed added [statement.dnskey] := by
  have hConverted := h.converted
  rw [gather_statement statement hFresh (hStart.fresh hFresh)] at hConverted
  cases added with
  | nil => exact outweighed_of_not_clean (List.forall_mem_nil _) _
  | cons key rest =>
      obtain ⟨hOne, _, _, hConvert⟩ := hConverted key (List.mem_cons_self ..)
      rw [dropWhile_fields] at hConvert
      have hSpanning : key.isSpanning = true → statement.dnskey.isSpanning = true := by
        rw [dnskey_spanning_iff]
        intro hKey
        by_contra hLine
        have hNot := not_spanning_of_line (convert_newline hConvert (fields_line statement hLine))
        rw [hNot] at hKey
        cases hKey
      rw [hOne, Outweighed]
      simp only [List.countP_singleton, dnskey_clean, if_true]
      apply And.intro
      · split_ifs with hKey hAsked
        · exact Nat.le_refl 1
        · exact absurd (hSpanning hKey) hAsked
        · exact Nat.zero_le 1
        · exact Nat.le_refl 0
      · intro _
        split_ifs
        · exact Nat.le_refl 1
        · exact Nat.zero_le 1

def readLines : List AnchorLine → Reading → Option Reading
  | [], s => some s
  | line :: lines, s => (readLine lines.isEmpty line.text s).bind (readLines lines)

theorem dnskeys_cons (line : AnchorLine) (lines : List AnchorLine) :
    dnskeys (line :: lines) = line.dnskey?.toList ++ dnskeys lines := by
  cases line with
  | other text other => rfl
  | key statement => rfl

/-- One line, wherever it stands. -/
theorem outweighed_line (line : AnchorLine) (hStart : p.AtStart) {last : Bool}
    (h : readLine last line.text (p.reading keys) = some s') :
    ∃ added, s'.trustedKeys = keys ++ added ∧ Outweighed added line.dnskey?.toList ∧
      (last = false → ∃ q : Position, q.AtStart ∧ s' = q.reading (keys ++ added)) := by
  cases line with
  | other text other =>
      obtain ⟨added, hPassed⟩ := passed_other hStart other h
      exact ⟨added, hPassed.ended.result, outweighed_of_not_clean hPassed.unclean _,
        fun hLast => ⟨_, hPassed.start, hPassed.ended.leads hLast⟩⟩
  | key statement =>
      cases hQuote : p.quoteOpen with
      | false =>
          obtain ⟨added, hEnded, hNext⟩ := passed_statement statement hStart hQuote h
          exact ⟨added, hEnded.result, outweighed_statement statement hStart hQuote hEnded,
            fun hLast => ⟨_, hNext, hEnded.leads hLast⟩⟩
      | true =>
          by_cases hKey : '\n' ∈ statement.key.text
          · obtain ⟨added, hResult, hAdded, hLeads⟩ :=
              spanning_open statement hStart hQuote hKey h
            refine ⟨added, hResult, ?_, hLeads⟩
            have hNone : added.countP DnsKey.isSpanning = 0 :=
              List.countP_eq_zero.mpr fun key hMem => by simp [hAdded key hMem]
            have hOne : [statement.dnskey].countP DnsKey.isSpanning = 1 := by
              rw [List.countP_singleton, if_pos ((dnskey_spanning_iff statement).mpr hKey)]
            show Outweighed added [statement.dnskey]
            rw [Outweighed, hNone, hOne]
            exact ⟨Nat.zero_le 1, fun hEqual => absurd hEqual (by decide)⟩
          · have hLine : '\n' ∉ statement.text := text_line statement hKey
            obtain ⟨added, hPassed⟩ := passed_open hStart hQuote hLine h
            exact ⟨added, hPassed.ended.result, outweighed_of_not_clean hPassed.unclean _,
              fun hLast => ⟨_, hPassed.start, hPassed.ended.leads hLast⟩⟩

/-- All lines. -/
theorem outweighed_lines (lines : List AnchorLine) (hStart : p.AtStart)
    (h : readLines lines (p.reading keys) = some s') :
    ∃ added, s'.trustedKeys = keys ++ added ∧ Outweighed added (dnskeys lines) := by
  induction lines generalizing p keys with
  | nil =>
      cases h
      exact ⟨[], by rw [List.append_nil]; rfl, outweighed_of_not_clean (List.forall_mem_nil _) _⟩
  | cons line lines ih =>
      obtain ⟨s, hLine, hRest⟩ := Option.bind_eq_some_iff.mp h
      obtain ⟨added, hResult, hAdded, hLeads⟩ := outweighed_line line hStart hLine
      rw [dnskeys_cons]
      cases lines with
      | nil =>
          cases hRest
          refine ⟨added, hResult, ?_⟩
          rw [dnskeys, List.filterMap_nil, List.append_nil]
          exact hAdded
      | cons second lines =>
          obtain ⟨q, hNext, rfl⟩ := hLeads rfl
          obtain ⟨more, hMore, hOutweighed⟩ := ih hNext hRest
          exact ⟨added ++ more, by rw [hMore, List.append_assoc], hAdded.append hOutweighed⟩

/-- What the lines behind a line add. -/
theorem outweighed_rest {lines : List AnchorLine} {s : Reading} {added : List DnsKey}
    (hResult : s.trustedKeys = keys ++ added)
    (hLeads : lines.isEmpty = false → ∃ q : Position, q.AtStart ∧ s = q.reading (keys ++ added))
    (h : readLines lines s = some s') :
    ∃ more, s'.trustedKeys = keys ++ (added ++ more) ∧ Outweighed more (dnskeys lines) := by
  cases lines with
  | nil =>
      cases h
      exact ⟨[], by rw [List.append_nil, hResult],
        outweighed_of_not_clean (List.forall_mem_nil _) _⟩
  | cons line lines =>
      obtain ⟨q, hStart, rfl⟩ := hLeads rfl
      obtain ⟨more, hMore, hOutweighed⟩ := outweighed_lines (line :: lines) hStart h
      exact ⟨more, by rw [hMore, List.append_assoc], hOutweighed⟩

theorem not_outweighed_cons (statement : Statement) (asked : List DnsKey) :
    ¬Outweighed (statement.dnskey :: asked) asked := by
  rintro ⟨hSpanning, hClean⟩
  rw [List.countP_cons_of_pos (dnskey_clean statement)] at hClean
  by_cases hKey : statement.dnskey.isSpanning = true
  · rw [List.countP_cons_of_pos hKey] at hSpanning
    omega
  · rw [List.countP_cons_of_neg hKey] at hClean
    have hLess := hClean rfl
    omega

theorem dnskeys_clean {lines : List AnchorLine} {key : DnsKey} (h : key ∈ dnskeys lines) :
    key.isClean = true := by
  obtain ⟨line, _, hLine⟩ := List.mem_filterMap.mp h
  cases line with
  | other text other => cases hLine
  | key statement =>
      cases hLine
      exact dnskey_clean statement

end Weight

end MonitoringPlug.Dns
