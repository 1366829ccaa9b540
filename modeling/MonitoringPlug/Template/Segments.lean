import MonitoringPlug.Template.Parse

/-! Text and the delimiters of tags. What the scanner makes of a template is followed byte
by byte: outside of the tags every byte is copied, and what a tag or a comment takes is
exactly its own text and the newlines its dashes reach for. -/
namespace MonitoringPlug.Template

open CMemory Scanner

/-- The end of a tag or a comment with a dash at the end of a line. -/
def lineClosePattern : Pattern := .seq (.literal (ascii "-")) (.seq ttEnd newlineByte)

def closePattern : Pattern := .seq (.optional (.literal (ascii "-"))) ttEnd

section Competing

variable {F : Type} [CFloat F]

/-! The rules that compete for the bytes of text and delimiters. -/

def commentStart : Scanner.Rule StartCondition (Token F) :=
  ⟨.initial, .seq ttStart (.literal (ascii "#")), fun _ => .begin .comment⟩

def lineTagStart : Scanner.Rule StartCondition (Token F) :=
  ⟨.initial, .seq newlineByte (.seq ttStart (.literal (ascii "-"))), fun _ => .begin .tt⟩

def tagStart : Scanner.Rule StartCondition (Token F) :=
  ⟨.initial, .seq ttStart (.optional (.literal (ascii "-"))), fun _ => .begin .tt⟩

def isPlain (c : UInt8) : Bool := c != 10 && c != 91

def textRun : Scanner.Rule StartCondition (Token F) :=
  ⟨.initial, .many1 isPlain, fun yytext => .token ⟨.text, .ofBytes yytext⟩⟩

def lineEnd : Scanner.Rule StartCondition (Token F) :=
  ⟨.initial, newlineByte, fun _ => .token ⟨.eol, ()⟩⟩

def otherText : Scanner.Rule StartCondition (Token F) :=
  ⟨.initial, dot, fun yytext => .token ⟨.text, .ofBytes yytext⟩⟩

def lineClose (start : StartCondition) : Scanner.Rule StartCondition (Token F) :=
  ⟨start, lineClosePattern, fun _ => .begin .initial⟩

def close (start : StartCondition) : Scanner.Rule StartCondition (Token F) :=
  ⟨start, closePattern, fun _ => .begin .initial⟩

def isBlank (c : UInt8) : Bool := c == 32 || c == 9

def quotedString (quote : UInt8) : Scanner.Rule StartCondition (Token F) :=
  ⟨.tt, quoted quote, fun yytext => .token ⟨.string, unquote yytext⟩⟩

def otherTag : Scanner.Rule StartCondition (Token F) := ⟨.tt, dot, returnChar⟩

def isRemark (c : UInt8) : Bool := c != 10 && c != 37 && c != 45

def otherRemark : Scanner.Rule StartCondition (Token F) := ⟨.comment, dot, fun _ => .skip⟩

end Competing

section Patterns

variable {s : List UInt8} {c : UInt8}

theorem longest_dot (h : c ≠ 10) : dot.longest (c :: s) = 1 := by
  simp [dot, Pattern.longest, Pattern.lengths, h]

theorem longest_close : closePattern.longest (45 :: 37 :: 93 :: s) = 3 := by
  simp [closePattern, ttEnd, Pattern.longest, Pattern.lengths, Pattern.literal, ascii]

theorem longest_lineClose (h : s.head? ≠ some 10) :
    lineClosePattern.longest (45 :: 37 :: 93 :: s) = 0 := by
  cases s with
  | nil =>
      simp [lineClosePattern, ttEnd, newlineByte, Pattern.longest, Pattern.lengths,
        Pattern.literal, ascii]
  | cons c rest =>
      have hLine : c ≠ 10 := fun hEq => h (congrArg some hEq)
      simp [lineClosePattern, ttEnd, newlineByte, Pattern.longest, Pattern.lengths,
        Pattern.literal, ascii, hLine]

/-- The closing delimiter is nowhere else. -/
theorem longest_close_eq_zero (h : ¬[37, 93] <+: s) (hDash : ¬[45, 37, 93] <+: s) :
    closePattern.longest s = 0 := by
  refine Nat.le_zero.mp (Pattern.longest_le_iff.mpr fun n hn => ?_)
  obtain ⟨i, hi, j, hj, rfl⟩ := Pattern.mem_lengths_seq.mp hn
  obtain ⟨hEnd, _⟩ := Pattern.mem_lengths_literal.mp hj
  rcases List.mem_cons.mp hi with rfl | hOptional
  · exact (h hEnd).elim
  · obtain ⟨⟨rest, rfl⟩, rfl⟩ := Pattern.mem_lengths_literal.mp hOptional
    obtain ⟨rest', hRest⟩ := hEnd
    refine (hDash ⟨rest', ?_⟩).elim
    exact congrArg (45 :: ·) hRest

theorem longest_lineClose_eq_zero (hDash : ¬[45, 37, 93] <+: s) :
    lineClosePattern.longest s = 0 := by
  refine Nat.le_zero.mp (Pattern.longest_le_iff.mpr fun n hn => ?_)
  obtain ⟨i, hi, j, hj, rfl⟩ := Pattern.mem_lengths_seq.mp hn
  obtain ⟨⟨rest, rfl⟩, rfl⟩ := Pattern.mem_lengths_literal.mp hi
  obtain ⟨k, hk, l, _, rfl⟩ := Pattern.mem_lengths_seq.mp hj
  obtain ⟨⟨rest', hRest⟩, _⟩ := Pattern.mem_lengths_literal.mp hk
  refine (hDash ⟨rest', ?_⟩).elim
  exact congrArg (45 :: ·) hRest

theorem longest_quoted {quote : UInt8} {string : List UInt8} (h : quote ∉ string)
    (rest : List UInt8) :
    (quoted quote).longest (quote :: (string ++ quote :: rest)) = string.length + 2 := by
  have hRun : (string ++ quote :: rest).takeWhile (· != quote) = string := by
    have hAll : ∀ c ∈ string, (c != quote) = true := fun c hc =>
      bne_iff_ne.mpr fun hEq => h (hEq ▸ hc)
    rw [List.takeWhile_append_of_pos hAll]
    simp
  apply Pattern.longest_eq
  · refine Pattern.mem_lengths_seq.mpr ⟨1, by simp [Pattern.lengths], string.length + 1,
      Pattern.mem_lengths_seq.mpr ⟨string.length, ?_, 1, ?_, rfl⟩, by omega⟩
    · simp [Pattern.lengths, hRun]
    · simp [Pattern.lengths]
  · intro n hn
    obtain ⟨i, hi, j, hj, rfl⟩ := Pattern.mem_lengths_seq.mp hn
    obtain ⟨k, hk, l, hl, rfl⟩ := Pattern.mem_lengths_seq.mp hj
    obtain rfl : i = 1 := by simpa [Pattern.lengths] using hi
    have hString : k < string.length + 1 := by simpa [Pattern.lengths, hRun] using hk
    have hQuote : l ≤ 1 := by
      rw [Pattern.lengths] at hl
      split at hl
      · rw [List.mem_singleton.mp hl]
      · cases hl
    omega

end Patterns

section Scan

variable {F : Type} [CFloat F] {rest s : List UInt8} {c : UInt8}

theorem scan_commentStart : scan (rules (F := F)) .initial 0 (91 :: 37 :: 35 :: rest) =
    scan rules .comment 0 rest :=
  scan_best [37, 35] [] commentStart [tagStart, otherText] rfl rfl rfl (by simp) (by
    simp [tagStart, otherText, ttStart, dot, Pattern.longest, Pattern.lengths, Pattern.literal,
      ascii])

theorem scan_tagStart_dash : scan (rules (F := F)) .initial 0 (91 :: 37 :: 45 :: rest) =
    scan rules .tt 0 rest :=
  scan_best [37, 45] [commentStart] tagStart [otherText] rfl rfl rfl
    (by simp [commentStart, ttStart, Pattern.longest, Pattern.lengths, Pattern.literal, ascii])
    (by simp [otherText, longest_dot])

theorem scan_tagStart (hHash : c ≠ 35) (hDash : c ≠ 45) :
    scan (rules (F := F)) .initial 0 (91 :: 37 :: c :: rest) = scan rules .tt 0 (c :: rest) :=
  scan_best [37] [commentStart] tagStart [otherText] rfl rfl
    (by simp [tagStart, ttStart, Pattern.longest, Pattern.lengths, Pattern.literal, ascii, hDash])
    (by simp [commentStart, ttStart, Pattern.longest, Pattern.lengths, Pattern.literal, ascii,
      hHash])
    (by simp [otherText, longest_dot])

theorem scan_lineTagStart : scan (rules (F := F)) .initial 0 (10 :: 91 :: 37 :: 45 :: rest) =
    scan rules .tt 0 rest :=
  scan_best [91, 37, 45] [] lineTagStart [lineEnd] rfl rfl rfl (by simp)
    (by simp [lineEnd, newlineByte, Pattern.longest, Pattern.lengths])

/-- A newline that is not taken by the tag behind it. -/
theorem scan_lineEnd (h : ¬[91, 37, 45] <+: s) :
    scan (rules (F := F)) .initial 0 (10 :: s) = proceed rules .initial s (.token ⟨.eol, ()⟩) := by
  refine scan_best [] [lineTagStart] lineEnd [] rfl rfl rfl ?_ (by simp)
  rw [List.forall_mem_singleton]
  refine Nat.lt_succ_of_le (Pattern.longest_le_iff.mpr fun n hn => ?_)
  obtain ⟨i, hi, j, hj, rfl⟩ := Pattern.mem_lengths_seq.mp hn
  obtain ⟨k, hk, l, hl, rfl⟩ := Pattern.mem_lengths_seq.mp hj
  obtain rfl : i = 1 := by simpa [newlineByte, Pattern.lengths] using hi
  obtain ⟨⟨rest, hOpen⟩, rfl⟩ := Pattern.mem_lengths_literal.mp hk
  obtain ⟨⟨rest', hDash⟩, _⟩ := Pattern.mem_lengths_literal.mp hl
  refine (h ⟨rest', ?_⟩).elim
  have hTail : s = ascii "[%" ++ rest := hOpen.symm
  rw [hTail] at hDash ⊢
  exact congrArg (ascii "[%" ++ ·) hDash

/-- A bracket that opens nothing. -/
theorem scan_bracket (h : s.head? ≠ some 37) :
    scan (rules (F := F)) .initial 0 (91 :: s) =
      proceed rules .initial s (.token ⟨.text, .ofBytes [91]⟩) := by
  have hOpen : ∀ pattern : Pattern, (Pattern.seq ttStart pattern).longest (91 :: s) = 0 := by
    intro pattern
    refine Nat.le_zero.mp (Pattern.longest_le_iff.mpr fun n hn => ?_)
    obtain ⟨i, hi, j, _, rfl⟩ := Pattern.mem_lengths_seq.mp hn
    obtain ⟨⟨rest, hText⟩, _⟩ := Pattern.mem_lengths_literal.mp hi
    refine (h ?_).elim
    rw [← (List.cons.inj hText).2]
    rfl
  refine scan_best [] [commentStart, tagStart] otherText [] rfl rfl rfl ?_ (by simp)
  simp [commentStart, tagStart, hOpen]

theorem isPlain_iff : isPlain c = true ↔ c ≠ 10 ∧ c ≠ 91 := by
  simp [isPlain]

theorem scan_textRun (h : isPlain c = true) :
    scan (rules (F := F)) .initial 0 (c :: s) = proceed rules .initial (s.dropWhile isPlain)
      (.token ⟨.text, .ofBytes (c :: s.takeWhile isPlain)⟩) := by
  obtain ⟨hLine, hBracket⟩ := isPlain_iff.mp h
  refine scan_best (s.takeWhile isPlain) [] textRun [otherText]
    List.takeWhile_append_dropWhile.symm ?_ (Pattern.longest_many1 h) (by simp) ?_
  · simp [rules, Pattern.starts, ttStart, Pattern.literal, ascii, newlineByte, dot, Pattern.many1,
      Pattern.nullable, hLine, hBracket, word, textRun, otherText]
    rfl
  · simp [otherText, longest_dot hLine]

theorem scan_close : scan (rules (F := F)) .tt 0 (37 :: 93 :: rest) = scan rules .initial 0 rest :=
  scan_best [93] [] (close .tt) [otherTag] rfl rfl rfl (by simp) (by simp [otherTag, longest_dot])

/-- What a closing dash leaves of the text behind it. -/
def withoutLineEnd : List UInt8 → List UInt8
  | 10 :: rest => rest
  | rest => rest

/-- A dash in front of the closing delimiter, in a tag or in a comment. -/
theorem scan_dash {start : StartCondition} (other : Scanner.Rule StartCondition (Token F))
    (hRules : ((rules (F := F)).filter fun rule => rule.start = start && rule.pattern.starts 45) =
      [lineClose start, close start, other]) (hOther : other.pattern = dot) :
    scan (rules (F := F)) start 0 (45 :: 37 :: 93 :: s) =
      scan rules .initial 0 (withoutLineEnd s) := by
  have hByte : other.pattern.longest (45 :: 37 :: 93 :: s) = 1 := by
    rw [hOther]
    exact longest_dot (by decide)
  by_cases hLine : s.head? = some 10
  · obtain ⟨rest, rfl⟩ : ∃ rest, s = 10 :: rest := by
      cases s with
      | nil => cases hLine
      | cons c rest => exact ⟨rest, by rw [Option.some.inj hLine]⟩
    exact scan_best [37, 93, 10] [] (lineClose start) [close start, other] rfl hRules rfl
      (by simp) (by simp [hByte, close, longest_close])
  · have hSame : withoutLineEnd s = s := by
      unfold withoutLineEnd
      split
      · exact (hLine rfl).elim
      · rfl
    rw [hSame]
    exact scan_best [37, 93] [lineClose start] (close start) [other] rfl hRules longest_close
      (by simp [lineClose, longest_lineClose hLine]) (by simp [hByte])

theorem scan_close_dash : scan (rules (F := F)) .tt 0 (45 :: 37 :: 93 :: s) =
    scan rules .initial 0 (withoutLineEnd s) :=
  scan_dash otherTag rfl rfl

/-- A blank of a tag, whatever is behind it. -/
theorem scan_blank (h : isBlank c = true) :
    scan (rules (F := F)) .tt 0 (c :: s) = scan rules .tt 0 s := by
  have hByte : ∀ c, isBlank c = true → c = 32 ∨ c = 9 := fun c hc => by simpa [isBlank] using hc
  refine scan_run (p := isBlank) [otherTag] (fun c hc => ?_) (fun other hOther c s hc => ?_) h
  · rcases hByte c hc with rfl | rfl
    · rfl
    · rfl
  · rw [List.mem_singleton.mp hOther]
    refine (longest_dot ?_).le
    rcases hByte c hc with rfl | rfl
    · decide
    · decide

theorem scan_tagLine : scan (rules (F := F)) .tt 0 (10 :: s) = scan rules .tt 0 s :=
  scan_best [] [] ⟨.tt, newlineByte, fun _ => .skip⟩ [] rfl rfl rfl (by simp) (by simp)

theorem scan_quoted {quote : UInt8} (hQuote : quote = 34 ∨ quote = 39) {string : List UInt8}
    (h : quote ∉ string) :
    scan (rules (F := F)) .tt 0 (quote :: (string ++ quote :: rest)) =
      proceed rules .tt rest (.token ⟨.string, .ofBytes string⟩) := by
  have hText : unquote (quote :: (string ++ [quote])) = .ofBytes string := by
    simp [unquote]
  rw [← hText]
  have hByte : quote ≠ 10 := by
    rcases hQuote with rfl | rfl
    · decide
    · decide
  refine scan_best (string ++ [quote]) [] (quotedString quote) [otherTag] (by simp) ?_ ?_
    (by simp) (by simp [otherTag, longest_dot hByte])
  · rcases hQuote with rfl | rfl
    · rfl
    · rfl
  · rw [List.length_append]
    exact longest_quoted h rest

theorem scan_remarkEnd : scan (rules (F := F)) .comment 0 (37 :: 93 :: rest) =
    scan rules .initial 0 rest :=
  scan_best [93] [] (close .comment) [otherRemark] rfl rfl rfl (by simp)
    (by simp [otherRemark, longest_dot])

theorem scan_remarkEnd_dash : scan (rules (F := F)) .comment 0 (45 :: 37 :: 93 :: s) =
    scan rules .initial 0 (withoutLineEnd s) :=
  scan_dash otherRemark rfl rfl

/-- A byte of a comment that does not start its end. -/
theorem scan_remark (hPercent : ¬[37, 93] <+: c :: s) (hDash : ¬[45, 37, 93] <+: c :: s) :
    scan (rules (F := F)) .comment 0 (c :: s) = scan rules .comment 0 s := by
  by_cases hLine : c = 10
  · subst hLine
    exact scan_best [] [] ⟨.comment, newlineByte, fun _ => .skip⟩ [] rfl rfl rfl (by simp) (by simp)
  · by_cases hStart : c = 37
    · subst hStart
      exact scan_best [] [close .comment] otherRemark [] rfl rfl rfl
        (by simp [close, longest_close_eq_zero hPercent hDash]) (by simp)
    · by_cases hOther : c = 45
      · subst hOther
        exact scan_best [] [lineClose .comment, close .comment] otherRemark [] rfl rfl rfl
          (by simp [close, lineClose, longest_close_eq_zero hPercent hDash,
            longest_lineClose_eq_zero hDash]) (by simp)
      · have hRemark : isRemark c = true := by simp [isRemark, hLine, hStart, hOther]
        refine scan_run (p := isRemark) [otherRemark] (fun c hc => ?_)
          (fun other hOther c s hc => ?_) hRemark
        · obtain ⟨hLine, hStart, hDash⟩ : c ≠ 10 ∧ c ≠ 37 ∧ c ≠ 45 := by
            simpa [isRemark, and_assoc] using hc
          simp [rules, Pattern.starts, ttStart, ttEnd, Pattern.literal, ascii, newlineByte, dot,
            Pattern.many1, Pattern.nullable, hLine, hStart, hDash, word, otherRemark]
          rfl
        · rw [List.mem_singleton.mp hOther]
          refine (longest_dot fun hEq => ?_).le
          rw [hEq] at hc
          cases hc

end Scan

/-- The scanner stops outside of every tag, and its tokens are copied to this text. -/
structure Shows {F : Type} (result : List (Token F) × StartCondition) (text : List UInt8) :
    Prop where
  start : result.2 = .initial
  tokens : Literal result.1
  text : (result.1.filterMap literal).flatMap CString.bytes = text

section Shows

variable {F : Type} [CFloat F] {s rest text : List UInt8} {c : UInt8}

theorem ofBytes_bytes_of_notMem (h : 0 ∉ s) : (CString.ofBytes s).bytes = s :=
  congrArg CString.bytes (CString.ofBytes_bytes ⟨s, h⟩)

/-- One more token that is copied. -/
theorem shows_token_iff {start : StartCondition} {t : Token F} {string : CString}
    (hToken : literal t = some string) :
    Shows (proceed (rules (F := F)) start rest (.token t)) text ↔
      ∃ back, Shows (scan (rules (F := F)) start 0 rest) back ∧ text = string.bytes ++ back := by
  have hText : ((t :: (scan (rules (F := F)) start 0 rest).1).filterMap literal).flatMap
      CString.bytes = string.bytes ++ ((scan (rules (F := F)) start 0 rest).1.filterMap
        literal).flatMap CString.bytes := by
    rw [List.filterMap_cons, hToken, List.flatMap_cons]
  constructor
  · rintro ⟨hStart, hTokens, rfl⟩
    exact ⟨_, ⟨hStart, fun t' ht => hTokens t' (List.mem_cons_of_mem _ ht), rfl⟩, hText⟩
  · rintro ⟨back, ⟨hStart, hTokens, rfl⟩, rfl⟩
    refine ⟨hStart, fun t' ht => ?_, hText⟩
    rcases List.mem_cons.mp ht with rfl | hRest
    · rw [hToken]
      rfl
    · exact hTokens t' hRest

theorem shows_lineEnd (hTag : ¬[91, 37, 45] <+: s)
    (h : Shows (scan (rules (F := F)) .initial 0 s) text) :
    Shows (scan (rules (F := F)) .initial 0 (10 :: s)) (10 :: text) := by
  have hToken : literal (F := F) ⟨.eol, ()⟩ = some newline := rfl
  rw [scan_lineEnd hTag, shows_token_iff hToken]
  exact ⟨text, h, rfl⟩

theorem shows_bracket (hTag : s.head? ≠ some 37)
    (h : Shows (scan (rules (F := F)) .initial 0 s) text) :
    Shows (scan (rules (F := F)) .initial 0 (91 :: s)) (91 :: text) := by
  have hToken : literal (F := F) ⟨.text, .ofBytes [91]⟩ = some (.ofBytes [91]) := rfl
  rw [scan_bracket hTag, shows_token_iff hToken]
  exact ⟨text, h, rfl⟩

/-- A byte of a run of text, whether it is the last one or not. -/
theorem shows_plain (hPlain : isPlain c = true) (hFree : 0 ∉ c :: s)
    (h : Shows (scan (rules (F := F)) .initial 0 s) text) :
    Shows (scan (rules (F := F)) .initial 0 (c :: s)) (c :: text) := by
  have hToken : ∀ run, literal (F := F) ⟨.text, .ofBytes run⟩ = some (.ofBytes run) :=
    fun _ => rfl
  have hBytes : ∀ c s, 0 ∉ c :: s →
      (CString.ofBytes (c :: s.takeWhile isPlain)).bytes = c :: s.takeWhile isPlain := by
    intro c s hFree
    apply ofBytes_bytes_of_notMem
    exact fun hMem => hFree
      (((List.prefix_cons_inj c).mpr (List.takeWhile_prefix isPlain)).subset hMem)
  rw [scan_textRun hPlain, shows_token_iff (hToken _), hBytes c s hFree]
  cases s with
  | nil => exact ⟨text, h, rfl⟩
  | cons d s =>
      by_cases hNext : isPlain d = true
      · have hRest : 0 ∉ d :: s := fun hMem => hFree (List.mem_cons_of_mem _ hMem)
        rw [scan_textRun hNext, shows_token_iff (hToken _), hBytes d s hRest] at h
        obtain ⟨back, hBack, rfl⟩ := h
        rw [List.takeWhile_cons_of_pos hNext, List.dropWhile_cons_of_pos hNext]
        exact ⟨back, hBack, rfl⟩
      · rw [List.takeWhile_cons_of_neg hNext, List.dropWhile_cons_of_neg hNext]
        exact ⟨text, h, rfl⟩

/-- Bytes that open no tag and end no line are copied, in whatever tokens. -/
theorem shows_text {bytes : List UInt8} (hLine : 10 ∉ bytes) (hTag : ¬[91, 37] <:+: bytes)
    (hNext : rest.head? ≠ some 37) (hFree : 0 ∉ bytes ++ rest)
    (h : Shows (scan (rules (F := F)) .initial 0 rest) text) :
    Shows (scan (rules (F := F)) .initial 0 (bytes ++ rest)) (bytes ++ text) := by
  induction bytes with
  | nil => exact h
  | cons c bytes ih =>
      obtain ⟨hFirst, hLine'⟩ := not_or.mp (mt List.mem_cons.mpr hLine)
      have hTail := ih hLine' (fun hIn => hTag (hIn.trans (List.suffix_cons c bytes).isInfix))
        fun hMem => hFree (List.mem_cons_of_mem _ hMem)
      by_cases hBracket : c = 91
      · subst hBracket
        refine shows_bracket ?_ hTail
        cases bytes with
        | nil => exact hNext
        | cons d bytes =>
            intro hPercent
            obtain rfl : d = 37 := Option.some.inj hPercent
            exact hTag ⟨[], bytes, rfl⟩
      · exact shows_plain (isPlain_iff.mpr ⟨Ne.symm hFirst, hBracket⟩) hFree hTail

/-- A comment is passed over, and with a dash at its end the newline behind it. -/
theorem scan_comment {bytes : List UInt8} (h : ¬[37, 93] <:+: bytes) :
    scan (rules (F := F)) .comment 0 (bytes ++ 37 :: 93 :: rest) =
      scan rules .initial 0 (if bytes.getLast? = some 45 then withoutLineEnd rest else rest) := by
  induction bytes with
  | nil => exact scan_remarkEnd
  | cons c bytes ih =>
      have hRest := ih fun hIn => h (hIn.trans (List.suffix_cons c bytes).isInfix)
      cases bytes with
      | nil =>
          by_cases hDash : c = 45
          · subst hDash
            exact scan_remarkEnd_dash
          · have hLast : ¬[c].getLast? = some 45 := fun hEq => hDash (Option.some.inj hEq)
            rw [if_neg hLast, List.singleton_append, scan_remark, scan_remarkEnd]
            · rintro ⟨tail, hTail⟩
              cases hTail
            · rintro ⟨tail, hTail⟩
              exact hDash (List.cons.inj hTail).1.symm
      | cons d bytes =>
          rw [List.getLast?_cons_cons, ← hRest, List.cons_append, scan_remark]
          · rintro ⟨tail, hTail⟩
            cases hTail
            exact h ⟨[], bytes, rfl⟩
          · rintro ⟨tail, hTail⟩
            cases bytes with
            | nil => cases hTail
            | cons e bytes =>
                cases hTail
                exact h ⟨[45], bytes, rfl⟩

/-- Blanks and newlines inside of a tag. -/
theorem scan_blanks {blanks : List UInt8} (h : ∀ c ∈ blanks, c = 32 ∨ c = 9 ∨ c = 10) :
    scan (rules (F := F)) .tt 0 (blanks ++ rest) = scan rules .tt 0 rest := by
  induction blanks with
  | nil => rfl
  | cons c blanks ih =>
      have hRest := ih fun d hd => h d (List.mem_cons_of_mem _ hd)
      rw [← hRest]
      rcases h c List.mem_cons_self with rfl | rfl | rfl
      · exact scan_blank rfl
      · exact scan_blank rfl
      · exact scan_tagLine

end Shows

inductive Quote where
  | single
  | double
deriving DecidableEq

def Quote.byte : Quote → UInt8
  | .single => 39
  | .double => 34

/-- A tag with nothing but a quoted string, blanks around it, and a dash at either
delimiter or not. -/
structure StringTag where
  dashBefore : Bool
  dashAfter : Bool
  lead : List UInt8
  quote : Quote
  string : CString
  trail : List UInt8
  blanks : ∀ c ∈ lead ++ trail, c = 32 ∨ c = 9 ∨ c = 10
  closed : quote.byte ∉ string.bytes

/-- A part of a template: text on one line that opens no tag, the end of a line, a comment
tag, or a string tag. -/
inductive Segment where
  | text (s : CString) (some : s.bytes ≠ []) (line : 10 ∉ s.bytes)
      (plain : ¬[91, 37] <:+: s.bytes)
  | newline
  | comment (c : CString) (open_ : ¬[37, 93] <:+: c.bytes)
  | string (tag : StringTag)

def dashText (dash : Bool) : List UInt8 := if dash then [45] else []

/-- A string tag behind its opening delimiter and dash. -/
def StringTag.inner (tag : StringTag) : List UInt8 :=
  tag.lead ++ tag.quote.byte :: (tag.string.bytes ++ tag.quote.byte ::
    (tag.trail ++ (dashText tag.dashAfter ++ [37, 93])))

def StringTag.source (tag : StringTag) : List UInt8 :=
  91 :: 37 :: (dashText tag.dashBefore ++ tag.inner)

def Segment.source : Segment → List UInt8
  | .text s .. => s.bytes
  | .newline => [10]
  | .comment c _ => 91 :: 37 :: 35 :: (c.bytes ++ [37, 93])
  | .string tag => tag.source

def Segment.isText : Segment → Bool
  | .text .. => true
  | _ => false

/-- Text segments are maximal: there is something else between two of them. -/
def Maximal : List Segment → Prop
  | [] => True
  | segment :: rest =>
      (segment.isText = true → rest.head?.any Segment.isText = false) ∧ Maximal rest

def sources (segments : List Segment) : List UInt8 := segments.flatMap Segment.source

/-- The next thing is a string tag that starts with a dash. -/
def opensWithDash : List Segment → Bool
  | .string tag :: _ => tag.dashBefore
  | _ => false

/-- What the segments are to give, with `dashed` when `-%]` is right in front of them. A
newline behind `-%]`, or in front of `[%-`, is dropped. -/
def expected : Bool → List Segment → List UInt8
  | _, [] => []
  | _, .text s .. :: rest => s.bytes ++ expected false rest
  | dashed, .newline :: rest =>
      (if dashed || opensWithDash rest then [] else [10]) ++ expected false rest
  | _, .comment c _ :: rest => expected (c.bytes.getLast? = some 45) rest
  | _, .string tag :: rest => tag.string.bytes ++ expected tag.dashAfter rest

section Segments

variable {F : Type} [CFloat F]

theorem Quote.byte_cases (quote : Quote) : quote.byte = 34 ∨ quote.byte = 39 := by
  cases quote with
  | single => exact .inr rfl
  | double => exact .inl rfl

/-- What the text behind a tag starts with. -/
def behind (dash : Bool) (rest : List UInt8) : List UInt8 :=
  if dash then withoutLineEnd rest else rest

theorem scan_inner (tag : StringTag) (rest : List UInt8) :
    scan (rules (F := F)) .tt 0 (tag.inner ++ rest) =
      proceed rules .initial (behind tag.dashAfter rest) (.token ⟨.string, tag.string⟩) := by
  have hLead : ∀ c ∈ tag.lead, c = 32 ∨ c = 9 ∨ c = 10 := fun c hc =>
    tag.blanks c (List.mem_append_left _ hc)
  have hTrail : ∀ c ∈ tag.trail, c = 32 ∨ c = 9 ∨ c = 10 := fun c hc =>
    tag.blanks c (List.mem_append_right _ hc)
  have hClose : scan (rules (F := F)) .tt 0 (dashText tag.dashAfter ++ 37 :: 93 :: rest) =
      scan rules .initial 0 (behind tag.dashAfter rest) := by
    cases tag.dashAfter with
    | true => exact scan_close_dash
    | false => exact scan_close
  have hInner : tag.inner ++ rest = tag.lead ++ tag.quote.byte :: (tag.string.bytes ++
      tag.quote.byte :: (tag.trail ++ (dashText tag.dashAfter ++ 37 :: 93 :: rest))) := by
    simp [StringTag.inner]
  rw [hInner, scan_blanks (F := F) hLead, scan_quoted (F := F) tag.quote.byte_cases tag.closed,
    proceed, scan_blanks (F := F) hTrail, hClose, CString.ofBytes_bytes, proceed]

theorem inner_head (tag : StringTag) (rest : List UInt8) :
    ∃ c tail, tag.inner ++ rest = c :: tail ∧ c ≠ 35 ∧ c ≠ 45 := by
  cases hLead : tag.lead with
  | nil =>
      refine ⟨tag.quote.byte, _, by rw [StringTag.inner, hLead]; rfl, ?_⟩
      cases tag.quote with
      | single => decide
      | double => decide
  | cons c lead =>
      refine ⟨c, _, by rw [StringTag.inner, hLead]; rfl, ?_⟩
      rcases tag.blanks c (by simp [hLead]) with rfl | rfl | rfl
      · decide
      · decide
      · decide

/-- A string tag with what is behind it. -/
theorem scan_stringTag (tag : StringTag) (rest : List UInt8) :
    scan (rules (F := F)) .initial 0 (tag.source ++ rest) =
      proceed rules .initial (behind tag.dashAfter rest) (.token ⟨.string, tag.string⟩) := by
  rw [← scan_inner]
  cases hDash : tag.dashBefore with
  | true =>
      have hSource : tag.source ++ rest = 91 :: 37 :: 45 :: (tag.inner ++ rest) := by
        simp [StringTag.source, hDash, dashText]
      rw [hSource, scan_tagStart_dash]
  | false =>
      have hSource : tag.source ++ rest = 91 :: 37 :: (tag.inner ++ rest) := by
        simp [StringTag.source, hDash, dashText]
      obtain ⟨c, tail, hInner, hHash, hDash'⟩ := inner_head tag rest
      rw [hSource, hInner, scan_tagStart hHash hDash']

/-- What is not text starts with a newline or a tag. -/
theorem sources_head {segments : List Segment}
    (h : segments.head?.any Segment.isText = false) :
    (sources segments).head? = none ∨ (sources segments).head? = some 10 ∨
      (sources segments).head? = some 91 := by
  cases segments with
  | nil => exact .inl rfl
  | cons segment rest =>
      cases segment with
      | text s hSome hLine hPlain => cases h
      | newline => exact .inr (.inl rfl)
      | comment c hOpen => exact .inr (.inr rfl)
      | string tag => exact .inr (.inr rfl)

theorem sources_cons (segment : Segment) (rest : List Segment) :
    sources (segment :: rest) = segment.source ++ sources rest := List.flatMap_cons

/-- Text is not the start of a tag, whatever maximal text is followed by. -/
theorem text_head {s : CString} {rest : List Segment} (hPlain : ¬[91, 37] <:+: s.bytes)
    (hSome : s.bytes ≠ []) (hNext : rest.head?.any Segment.isText = false) :
    ¬[91, 37] <+: s.bytes ++ sources rest := by
  rintro ⟨tail, hTail⟩
  match hBytes : s.bytes with
  | [] => exact hSome hBytes
  | [c] =>
      rw [hBytes] at hTail
      have hHead : (sources rest).head? = some 37 := by
        have hRest := (List.cons.inj hTail).2
        change 37 :: tail = sources rest at hRest
        rw [← hRest]
        rfl
      rcases sources_head hNext with h | h | h <;> rw [hHead] at h <;> cases h
  | c :: d :: bytes =>
      rw [hBytes] at hTail hPlain
      cases hTail
      exact hPlain ⟨[], bytes, rfl⟩

/-- A tag with a dash is only at a string tag. -/
theorem dash_not_opened {segments : List Segment} (hMaximal : Maximal segments)
    (h : opensWithDash segments = false) : ¬[91, 37, 45] <+: sources segments := by
  intro hPrefix
  cases segments with
  | nil => simp [sources] at hPrefix
  | cons segment rest =>
      rw [sources_cons] at hPrefix
      cases segment with
      | newline =>
          obtain ⟨tail, hTail⟩ := hPrefix
          cases hTail
      | comment c hOpen =>
          obtain ⟨tail, hTail⟩ := hPrefix
          cases hTail
      | text s hSome hLine hPlain =>
          have hTwo : ([91, 37] : List UInt8) <+: [91, 37, 45] := ⟨[45], rfl⟩
          exact text_head hPlain hSome (hMaximal.1 rfl) (hTwo.trans hPrefix)
      | string tag =>
          obtain ⟨tail, hTail⟩ := hPrefix
          have hDash : tag.dashBefore = false := h
          obtain ⟨c, inner, hInner, _, hNot⟩ := inner_head tag (sources rest)
          have hSource : tag.source ++ sources rest = 91 :: 37 :: (tag.inner ++ sources rest) := by
            simp [StringTag.source, hDash, dashText]
          change 91 :: 37 :: 45 :: tail = tag.source ++ sources rest at hTail
          rw [hSource, hInner] at hTail
          cases hTail
          exact hNot rfl

theorem dash_source {segments : List Segment} (h : opensWithDash segments = true) :
    ∃ tail, sources segments = 91 :: 37 :: 45 :: tail := by
  match segments with
  | [] => cases h
  | .text .. :: _ => cases h
  | .newline :: _ => cases h
  | .comment .. :: _ => cases h
  | .string tag :: rest =>
      have hDash : tag.dashBefore = true := h
      refine ⟨tag.inner ++ sources rest, ?_⟩
      rw [sources_cons, Segment.source, StringTag.source, hDash]
      rfl

theorem behind_of_head {bytes : List UInt8} (h : bytes.head? ≠ some 10) (dashed : Bool) :
    behind dashed bytes = bytes := by
  cases dashed with
  | false => rfl
  | true =>
      change withoutLineEnd bytes = bytes
      unfold withoutLineEnd
      split
      · exact (h rfl).elim
      · rfl

theorem scan_sources {segments : List Segment} (hMaximal : Maximal segments)
    (hFree : 0 ∉ sources segments) (dashed : Bool) :
    Shows (scan (rules (F := F)) .initial 0 (behind dashed (sources segments)))
      (expected dashed segments) := by
  induction segments generalizing dashed with
  | nil =>
      cases dashed with
      | true => exact ⟨rfl, fun t ht => absurd ht List.not_mem_nil, rfl⟩
      | false => exact ⟨rfl, fun t ht => absurd ht List.not_mem_nil, rfl⟩
  | cons segment rest ih =>
      rw [sources_cons] at hFree ⊢
      have hRest := ih hMaximal.2 (fun hMem => hFree (List.mem_append_right _ hMem))
      cases segment with
      | text s hSome hLine hPlain =>
          have hNext : (sources rest).head? ≠ some 37 := by
            rcases sources_head (hMaximal.1 rfl) with h | h | h <;> rw [h] <;> decide
          have hHead : (s.bytes ++ sources rest).head? ≠ some 10 := by
            obtain ⟨c, bytes, hBytes⟩ := List.exists_cons_of_ne_nil hSome
            rw [hBytes]
            intro hEq
            exact hLine (by rw [hBytes, Option.some.inj hEq]; exact List.mem_cons_self)
          rw [Segment.source, behind_of_head hHead]
          exact shows_text hLine hPlain hNext hFree (hRest false)
      | newline =>
          cases dashed with
          | true => exact hRest false
          | false =>
              cases hOpens : opensWithDash rest with
              | true =>
                  obtain ⟨tail, hTail⟩ := dash_source hOpens
                  have hSame : scan (rules (F := F)) .initial 0 (10 :: sources rest) =
                      scan rules .initial 0 (sources rest) := by
                    rw [hTail, scan_lineTagStart, scan_tagStart_dash]
                  change Shows (scan (rules (F := F)) .initial 0 (10 :: sources rest)) _
                  rw [hSame, expected, hOpens]
                  exact hRest false
              | false =>
                  rw [expected, hOpens]
                  exact shows_lineEnd (dash_not_opened hMaximal.2 hOpens) (hRest false)
      | comment c hOpen =>
          have hSource : behind dashed ((Segment.comment c hOpen).source ++ sources rest) =
              91 :: 37 :: 35 :: (c.bytes ++ 37 :: 93 :: sources rest) := by
            rw [behind_of_head (fun h => by cases h)]
            simp [Segment.source]
          rw [hSource, scan_commentStart, scan_comment hOpen]
          have hShows := hRest (c.bytes.getLast? = some 45)
          simp only [behind, decide_eq_true_eq] at hShows
          exact hShows
      | string tag =>
          have hToken : literal (F := F) ⟨.string, tag.string⟩ = some tag.string := rfl
          rw [Segment.source, behind_of_head (fun h => by cases h), scan_stringTag,
            shows_token_iff hToken]
          exact ⟨_, hRest tag.dashAfter, rfl⟩

end Segments

end MonitoringPlug.Template
