import MonitoringPlug.Dns.Anchorfile

/-! What `loadAnchorfile` gathers of a text in its buffer, and how the fields of a statement
must be laid out for the conversions. -/
namespace MonitoringPlug.Dns

open CText

section Texts

/-- What is kept of a text in the buffer. -/
def kept (text : List Char) : List Char := text.filter fun c => c ≠ '"' ∧ c ≠ '}'

/-- Whether a quote is open behind a text. -/
def quoteBehind (grouped : Bool) (text : List Char) : Bool :=
  text.foldl (fun grouped c => if c = '"' then !grouped else grouped) grouped

/-- Newlines only stand in quotes. -/
def Inside : Bool → List Char → Prop
  | _, [] => True
  | grouped, c :: text =>
      (c = '\n' → grouped = true) ∧ Inside (if c = '"' then !grouped else grouped) text

/-- The state behind a text that ends no line. -/
def Reading.gather (s : Reading) (text : List Char) : Reading :=
  { s with
    linebuffer := s.linebuffer ++ kept text
    grouped := quoteBehind s.grouped text
    tkSection := s.tkSection && decide ('}' ∉ text) }

@[simp] theorem kept_append (front back : List Char) :
    kept (front ++ back) = kept front ++ kept back := List.filter_append ..

theorem quoteBehind_append (grouped : Bool) (front back : List Char) :
    quoteBehind grouped (front ++ back) = quoteBehind (quoteBehind grouped front) back :=
  List.foldl_append

/-- A text without quotes and braces is kept as it is. -/
theorem kept_plain {text : List Char} (hQuote : '"' ∉ text) (hBrace : '}' ∉ text) :
    kept text = text := by
  apply List.filter_eq_self.mpr
  intro c hc
  have hNotQuote : c ≠ '"' := fun h => hQuote (h ▸ hc)
  have hNotBrace : c ≠ '}' := fun h => hBrace (h ▸ hc)
  simp [hNotQuote, hNotBrace]

theorem quoteBehind_plain (grouped : Bool) {text : List Char} (hQuote : '"' ∉ text) :
    quoteBehind grouped text = grouped := by
  induction text generalizing grouped with
  | nil => rfl
  | cons c text ih =>
      rw [List.mem_cons, not_or] at hQuote
      rw [quoteBehind, List.foldl_cons, if_neg (Ne.symm hQuote.1)]
      exact ih _ hQuote.2

theorem inside_append (grouped : Bool) (front back : List Char) :
    Inside grouped (front ++ back) ↔
      Inside grouped front ∧ Inside (quoteBehind grouped front) back := by
  induction front generalizing grouped with
  | nil => simp [Inside, quoteBehind]
  | cons c front ih =>
      rw [List.cons_append, Inside, Inside, ih, and_assoc]
      rfl

theorem inside_line (grouped : Bool) {text : List Char} (hLine : '\n' ∉ text) :
    Inside grouped text := by
  induction text generalizing grouped with
  | nil => trivial
  | cons c text ih =>
      rw [List.mem_cons, not_or] at hLine
      exact ⟨fun hc => absurd hc.symm hLine.1, ih _ hLine.2⟩

theorem inside_grouped {text : List Char} (hQuote : '"' ∉ text) : Inside true text := by
  induction text with
  | nil => trivial
  | cons c text ih =>
      rw [List.mem_cons, not_or] at hQuote
      rw [Inside, if_neg (Ne.symm hQuote.1)]
      exact ⟨fun _ => rfl, ih hQuote.2⟩

theorem Reading.gather_append (s : Reading) (front back : List Char) :
    s.gather (front ++ back) = (s.gather front).gather back := by
  simp [Reading.gather, quoteBehind_append, Bool.and_assoc]

theorem readChar_gather {s : Reading} {c : Char} (hEnds : c = '\n' → s.grouped = true)
    (hFits : s.linebuffer.length ≤ maxPacketLen) :
    readChar s c =
      if (s.gather [c]).linebuffer.length ≤ maxPacketLen then some (s.gather [c]) else none := by
  have hNot : ¬(c = '\n' ∧ s.grouped = false) := by
    intro h
    rw [hEnds h.1] at h
    exact absurd h.2 (by decide)
  rw [readChar, if_neg hNot]
  by_cases hBrace : c = '}'
  · have hNext : s.gather [c] = { s with tkSection := false } := by
      simp [Reading.gather, kept, quoteBehind, hBrace]
    rw [if_pos hBrace, hNext, if_pos hFits]
  · rw [if_neg hBrace]
    by_cases hQuote : c = '"'
    · have hNext : s.gather [c] = { s with grouped := !s.grouped } := by
        simp [Reading.gather, kept, quoteBehind, hQuote]
      rw [if_pos hQuote, hNext, if_pos hFits]
    · have hNext : s.gather [c] = { s with linebuffer := s.linebuffer ++ [c] } := by
        simp [Reading.gather, kept, quoteBehind, hQuote, hBrace, Ne.symm hBrace]
      rw [if_neg hQuote, hNext]
      simp only [List.length_append, List.length_singleton, Nat.succ_le_iff]

/-- A text that ends no line is gathered, as far as the buffer goes. -/
theorem readText_eq_some_iff {s s' : Reading} {text : List Char}
    (hInside : Inside s.grouped text) (hFits : s.linebuffer.length ≤ maxPacketLen) :
    text.foldlM readChar s = some s' ↔
      s' = s.gather text ∧ s'.linebuffer.length ≤ maxPacketLen := by
  induction text generalizing s with
  | nil =>
      have hSame : s.gather [] = s := by simp [Reading.gather, kept, quoteBehind]
      rw [hSame]
      show some s = some s' ↔ _
      rw [Option.some.injEq, eq_comm]
      exact ⟨fun h => ⟨h, h ▸ hFits⟩, fun h => h.1⟩
  | cons c text ih =>
      have hGather : s.gather (c :: text) = (s.gather [c]).gather text :=
        s.gather_append [c] text
      rw [List.foldlM_cons, readChar_gather hInside.1 hFits, hGather]
      by_cases hRoom : (s.gather [c]).linebuffer.length ≤ maxPacketLen
      · rw [if_pos hRoom]
        exact ih hInside.2 hRoom
      · rw [if_neg hRoom]
        have hBuffer : ((s.gather [c]).gather text).linebuffer =
            (s.gather [c]).linebuffer ++ kept text := rfl
        have hLonger : (s.gather [c]).linebuffer.length ≤
            ((s.gather [c]).gather text).linebuffer.length := by
          rw [hBuffer, List.length_append]
          exact Nat.le_add_right _ _
        constructor
        · intro h
          cases h
        · rintro ⟨rfl, hLe⟩
          exact absurd (hLonger.trans hLe) hRoom

end Texts

section Fields

theorem strsepAny_some_iff {s front rest : List Char} :
    strsepAny blanks s = (front, some rest) ↔
      (∀ c ∈ front, c ∉ blanks) ∧ ∃ d ∈ blanks, s = front ++ d :: rest := by
  constructor
  · intro h
    rcases exists_cut blanks s with hFree | ⟨start, d, behind, rfl, hStart, hd⟩
    · rw [strsepAny_none hFree] at h
      cases h
    · rw [strsepAny_append hStart hd] at h
      cases h
      exact ⟨hStart, d, hd, rfl⟩
  · rintro ⟨hFront, d, hd, rfl⟩
    exact strsepAny_append hFront hd rest

/-- No field holds a separator. -/
structure DnsKey.Separable (key : DnsKey) : Prop where
  owner : ∀ c ∈ key.owner, c ∉ blanks
  flags : ∀ c ∈ key.flags, c ∉ blanks
  protocol : ∀ c ∈ key.protocol, c ∉ blanks
  algorithm : ∀ c ∈ key.algorithm, c ∉ blanks

/-- The last field without its semicolon. -/
def withoutEnd (rest : List Char) : List Char :=
  if rest.getLast? = some ';' then rest.dropLast else rest

/-- What the conversions take from a line: four fields, each with one separator behind
it, and all the rest. -/
theorem convert_eq_some_iff {cur : List Char} {key : DnsKey} :
    convert cur = some key ↔
      key.Separable ∧ ∃ a ∈ blanks, ∃ b ∈ blanks, ∃ c ∈ blanks, ∃ d ∈ blanks, ∃ rest,
        key.publicKey = withoutEnd rest ∧
        cur = key.owner ++ a :: (key.flags ++ b :: (key.protocol ++ c :: (key.algorithm ++
          d :: rest))) := by
  constructor
  · intro h
    rcases hOwner : strsepAny blanks cur with ⟨owner, _ | behindOwner⟩
    · simp [convert, hOwner] at h
    rcases hFlags : strsepAny blanks behindOwner with ⟨flags, _ | behindFlags⟩
    · simp [convert, hOwner, hFlags] at h
    rcases hProtocol : strsepAny blanks behindFlags with ⟨protocol, _ | behindProtocol⟩
    · simp [convert, hOwner, hFlags, hProtocol] at h
    rcases hAlgorithm : strsepAny blanks behindProtocol with ⟨algorithm, _ | rest⟩
    · simp [convert, hOwner, hFlags, hProtocol, hAlgorithm] at h
    simp only [convert, hOwner, hFlags, hProtocol, hAlgorithm, Option.bind_eq_bind,
      Option.bind_some, Option.some.injEq] at h
    obtain ⟨hFreeOwner, a, ha, rfl⟩ := strsepAny_some_iff.mp hOwner
    obtain ⟨hFreeFlags, b, hb, rfl⟩ := strsepAny_some_iff.mp hFlags
    obtain ⟨hFreeProtocol, c, hc, rfl⟩ := strsepAny_some_iff.mp hProtocol
    obtain ⟨hFreeAlgorithm, d, hd, rfl⟩ := strsepAny_some_iff.mp hAlgorithm
    subst h
    exact ⟨⟨hFreeOwner, hFreeFlags, hFreeProtocol, hFreeAlgorithm⟩,
      a, ha, b, hb, c, hc, d, hd, rest, rfl, rfl⟩
  · rintro ⟨hFields, a, ha, b, hb, c, hc, d, hd, rest, hRest, rfl⟩
    rw [convert, strsepAny_append hFields.owner ha]
    simp only [Option.bind_eq_bind, Option.bind_some, strsepAny_append hFields.flags hb,
      strsepAny_append hFields.protocol hc, strsepAny_append hFields.algorithm hd]
    rw [← withoutEnd, ← hRest]

/-- No field holds a semicolon. -/
def DnsKey.isClean (key : DnsKey) : Bool :=
  ';' ∉ key.owner ++ key.flags ++ key.protocol ++ key.algorithm ++ key.publicKey

theorem withoutEnd_subset {rest : List Char} {c : Char} (hc : c ∈ withoutEnd rest) : c ∈ rest := by
  rw [withoutEnd] at hc
  split at hc
  · exact List.mem_of_mem_dropLast hc
  · exact hc

theorem mem_withoutEnd {rest : List Char} {c : Char} (hc : c ∈ rest.dropLast) :
    c ∈ withoutEnd rest := by
  rw [withoutEnd]
  split
  · exact hc
  · exact List.mem_of_mem_dropLast hc

theorem withoutEnd_length (rest : List Char) : rest.length ≤ (withoutEnd rest).length + 1 := by
  rw [withoutEnd]
  split
  · rw [List.length_dropLast]
    omega
  · exact Nat.le_succ _

/-- A semicolon in front of the last character ends up in a field. -/
theorem convert_clean {cur : List Char} {key : DnsKey} (h : convert cur = some key)
    (hClean : key.isClean = true) : ';' ∉ cur.dropLast := by
  obtain ⟨_, a, ha, b, hb, c, hc, d, hd, rest, hKey, rfl⟩ := convert_eq_some_iff.mp h
  have hNotBlank : ∀ x ∈ blanks, ';' ≠ x := by
    rintro x hx rfl
    exact absurd hx (by decide)
  have hFree := of_decide_eq_true hClean
  simp only [List.mem_append, not_or] at hFree
  obtain ⟨⟨⟨⟨hOwner, hFlags⟩, hProtocol⟩, hAlgorithm⟩, hPublic⟩ := hFree
  have hRest : ';' ∉ rest.dropLast := fun hMem => hPublic (hKey ▸ mem_withoutEnd hMem)
  have hTail : ';' ∉ (d :: rest).dropLast := by
    cases rest with
    | nil => simp
    | cons e rest =>
        rw [List.dropLast_cons_cons, List.mem_cons, not_or]
        exact ⟨hNotBlank d hd, hRest⟩
  simp [List.dropLast_append_of_ne_nil, List.dropLast_cons_of_ne_nil, hOwner, hFlags, hProtocol,
    hAlgorithm, hTail, hNotBlank a ha, hNotBlank b hb, hNotBlank c hc]

theorem convert_newline {cur : List Char} {key : DnsKey} (h : convert cur = some key)
    (hLine : '\n' ∉ cur) : '\n' ∉ key.publicKey := by
  obtain ⟨_, a, ha, b, hb, c, hc, d, hd, rest, hKey, rfl⟩ := convert_eq_some_iff.mp h
  intro hMem
  rw [hKey] at hMem
  exact hLine (by simp [withoutEnd_subset hMem])

/-- The line of a statement, as it is kept in the buffer, behind its indentation. -/
def Statement.fields (statement : Statement) : List Char :=
  statement.name.text ++ (statement.behindName.text ++ (statement.flags.text ++
    (statement.behindFlags.text ++ (statement.protocol.text ++ (statement.behindProtocol.text ++
      (statement.algorithm.text ++ (statement.behindAlgorithm.text ++ (statement.key.text ++
        (statement.beforeEnd ++ ';' :: kept statement.behindEnd)))))))))

/-- One separator between two fields each, and nothing around the semicolon. -/
structure Statement.SingleSpaced (statement : Statement) : Prop where
  behindName : statement.behindName.text.length = 1
  behindFlags : statement.behindFlags.text.length = 1
  behindProtocol : statement.behindProtocol.text.length = 1
  behindAlgorithm : statement.behindAlgorithm.text.length = 1
  beforeEnd : statement.beforeEnd = []
  behindEnd : kept statement.behindEnd = []

theorem Word.not_blank (word : Word) {c : Char} (hc : c ∈ word.text) : c ∉ blanks := by
  have hPlain := word.plain c hc
  simp only [List.mem_cons, List.not_mem_nil, or_false, not_or] at hPlain
  simp [blanks, hPlain.1, hPlain.2.1]

/-- Where one separator is taken off and then a field, there was only one. -/
theorem Gap.single {gap : Gap} {word : Word} {a : Char} {front back : List Char}
    (h : gap.text ++ front = a :: (word.text ++ back)) :
    gap.text.length = 1 ∧ front = word.text ++ back := by
  obtain ⟨b, more, hGap⟩ := List.exists_cons_of_ne_nil gap.ne_nil
  rw [hGap, List.cons_append, List.cons.injEq] at h
  cases more with
  | nil => exact ⟨by simp [hGap], h.2⟩
  | cons d more =>
      obtain ⟨e, rest, hWord⟩ := List.exists_cons_of_ne_nil word.ne_nil
      have hTail := h.2
      rw [hWord, List.cons_append, List.cons_append, List.cons.injEq] at hTail
      have hBlank : d ∈ blanks := gap.blank d (by simp [hGap])
      have hNot : e ∉ blanks := word.not_blank (by simp [hWord])
      exact absurd (hTail.1 ▸ hBlank) hNot

theorem convert_fields_iff (statement : Statement) :
    convert statement.fields = some statement.dnskey ↔ statement.SingleSpaced := by
  rw [convert_eq_some_iff]
  constructor
  · rintro ⟨_, a, ha, b, hb, c, hc, d, hd, rest, hKey, hCur⟩
    have hName := List.append_cancel_left hCur
    obtain ⟨hOne, hFlags⟩ := Gap.single hName
    obtain ⟨hTwo, hProtocol⟩ := Gap.single (List.append_cancel_left hFlags)
    obtain ⟨hThree, hAlgorithm⟩ := Gap.single (List.append_cancel_left hProtocol)
    have hRest := congrArg List.length (List.append_cancel_left hAlgorithm)
    have hLast := withoutEnd_length rest
    have hSame : statement.key.text.length = (withoutEnd rest).length := congrArg List.length hKey
    have hGap : 0 < statement.behindAlgorithm.text.length :=
      List.length_pos_iff.mpr statement.behindAlgorithm.ne_nil
    simp only [List.length_append, List.length_cons] at hRest
    exact
      { behindName := hOne
        behindFlags := hTwo
        behindProtocol := hThree
        behindAlgorithm := by omega
        beforeEnd := List.length_eq_zero_iff.mp (by omega)
        behindEnd := List.length_eq_zero_iff.mp (by omega) }
  · intro h
    obtain ⟨a, hName⟩ := List.length_eq_one_iff.mp h.behindName
    obtain ⟨b, hFlags⟩ := List.length_eq_one_iff.mp h.behindFlags
    obtain ⟨c, hProtocol⟩ := List.length_eq_one_iff.mp h.behindProtocol
    obtain ⟨d, hAlgorithm⟩ := List.length_eq_one_iff.mp h.behindAlgorithm
    have hBlank {gap : Gap} {x : Char} (hGap : gap.text = [x]) : x ∈ blanks :=
      gap.blank x (by simp [hGap])
    have hFields : statement.dnskey.Separable :=
      { owner := fun x hx => statement.name.not_blank hx
        flags := fun x hx => statement.flags.not_blank hx
        protocol := fun x hx => statement.protocol.not_blank hx
        algorithm := fun x hx => statement.algorithm.not_blank hx }
    refine ⟨hFields, a, hBlank hName, b, hBlank hFlags, c, hBlank hProtocol, d,
      hBlank hAlgorithm, statement.key.text ++ [';'], ?_, ?_⟩
    · simp [withoutEnd, Statement.dnskey]
    · simp [Statement.fields, Statement.dnskey, hName, hFlags, hProtocol, hAlgorithm,
        h.beforeEnd, h.behindEnd]

end Fields

end MonitoringPlug.Dns
