import MonitoringPlug.Template.Conflicts

/-! What a template shows whose condition compares two arithmetic expressions. -/
namespace MonitoringPlug.Template

open CMemory ShiftReduce

section Quiet

variable {F : Type}

theorem Read.calls_quiet [CFloat F] {env : CString → Option CString} {x : Read F}
    (h : Quiet (.nonterminal x.1.lhs)) : x.calls env = [] := by
  rw [Read.calls]
  split
  · rename_i hCode
    exact Rule.code_quiet h hCode
  · obtain ⟨r, trees⟩ := x
    cases r with
    | urlSexpr => rcases h with h | h | h | h <;> cases h
    | _ => rfl

/-- Expressions are read without a call of the engine. -/
def AllQuiet (reads : List (Read F)) : Prop := ∀ x ∈ reads, Quiet (.nonterminal x.1.lhs)

theorem AllQuiet.append {front back : List (Read F)} (hFront : AllQuiet front)
    (hBack : AllQuiet back) : AllQuiet (front ++ back) :=
  List.forall_mem_append.mpr ⟨hFront, hBack⟩

theorem AllQuiet.singleton {x : Read F} (h : Quiet (.nonterminal x.1.lhs)) : AllQuiet [x] :=
  List.forall_mem_singleton.mpr h

theorem AllQuiet.calls [CFloat F] {env : CString → Option CString} {reads : List (Read F)}
    (h : AllQuiet reads) : reads.flatMap (Read.calls env) = [] :=
  List.flatMap_eq_nil_iff.mpr fun x hx => Read.calls_quiet (h x hx)

theorem IExpr.reads_quiet (a : IExpr) : AllQuiet (a.reads (F := F)) := by
  induction a with
  | int ival => exact .singleton (.inr (.inl rfl))
  | paren a ih => exact ih.append (.singleton (.inr (.inl rfl)))
  | arith op a b ihLeft ihRight =>
      exact (ihLeft.append ihRight).append (.singleton (.inr (.inl rfl)))

theorem FExpr.reads_quiet (e : FExpr F) : AllQuiet e.reads := by
  induction e with
  | int ival => exact .singleton (.inr (.inr (.inl rfl)))
  | float fval => exact .singleton (.inr (.inr (.inl rfl)))
  | paren a ih => exact ih.append (.singleton (.inr (.inr (.inl rfl))))
  | arith op a b ihLeft ihRight =>
      exact (ihLeft.append ihRight).append (.singleton (.inr (.inr (.inl rfl))))

theorem SExpr.reads_quiet (s : SExpr F) : AllQuiet s.reads := by
  cases s with
  | string sval => exact .singleton (.inr (.inr (.inr rfl)))
  | label sval => exact .singleton (.inr (.inr (.inr rfl)))
  | iexpr a => exact a.reads_quiet.append (.singleton (.inr (.inr (.inr rfl))))
  | fexpr e => exact e.reads_quiet.append (.singleton (.inr (.inr (.inr rfl))))

end Quiet

section Shown

variable {P : Platform} {env : CString → Option CString} {p : Process} {s : CString}
  {text : List UInt8}

/-- The tree of a condition with its two parts. -/
def branchTemplate (bexpr : Int) : Blocks :=
  .block (.condElse (.ifExpr bexpr) (.block (.text textA) .empty) (.block (.text textB) .empty))
    .empty

theorem branchTemplate_render (bexpr : Int) :
    (branchTemplate bexpr).render = if bexpr = 0 then [98] else [97] := by
  have hRender : (branchTemplate bexpr).render = if bexpr ≠ 0 then [97] else [98] := by
    simp only [branchTemplate, Blocks.render, Item.render, CondStart.expr, textA, textB,
      List.append_nil]
  rw [hRender, ite_not]

/-- A condition that was read shows one of the parts if its code has a value. -/
theorem renders_condition (hOn : p.globals.outputDisable = false) {front : List (Read P.Float)}
    {c : BExpr P.Float} (hReads : P.Reads p s (front ++ branchReads c)) (hQuiet : AllQuiet front) :
    P.Renders env p s text ↔
      (∀ x ∈ front, (x.code env).isSome) ∧ text = if c.value env = 0 then [98] else [97] := by
  have hBranches : ∀ x ∈ branchReads c, (x.code env).isSome := List.all_eq_true.mp rfl
  have hCalls : (front ++ branchReads c).flatMap (Read.calls env) =
      (branchTemplate (c.value env)).actions := by
    rw [List.flatMap_append, hQuiet.calls]
    rfl
  obtain ⟨st', hRun, _, hAfter⟩ := (branchTemplate (c.value env)).refines
    (initOutput p.globals) _ [] ⟨rfl, initOutput_rendered _⟩ hOn
  have hText : loadString st'.output = some (if c.value env = 0 then [98] else [97]) := by
    rw [← branchTemplate_render]
    exact hAfter.rendered.text (branchTemplate (c.value env)).render_nulFree
  rw [Platform.renders_iff]
  constructor
  · rintro ⟨reads, last, hSame, hLast, hLoad⟩
    cases hReads.unique hSame
    have hCode : ∀ x ∈ front ++ branchReads c, (x.code env).isSome :=
      code_of_runReads (Option.isSome_iff_exists.mpr ⟨_, hLast⟩)
    rw [runReads_eq hCode, hCalls, hRun] at hLast
    cases hLast
    rw [hText] at hLoad
    exact ⟨(List.forall_mem_append.mp hCode).1, (Option.some.inj hLoad).symm⟩
  · rintro ⟨hFront, rfl⟩
    refine ⟨_, st', hReads, ?_, hText⟩
    rw [runReads_eq (List.forall_mem_append.mpr ⟨hFront, hBranches⟩), hCalls, hRun]

end Shown

section Compared

variable {P : Platform} {env : CString → Option CString} {templates : List CString}
  {p : Process} {s : CString} {text : List UInt8} {e₁ e₂ : FExpr P.Float} {op : Relation}

/-- Read as `float` expressions, the two sides are compared as such. -/
theorem renders_relation (hTables : comparisonEntries.In P.tables)
    (hOn : p.globals.outputDisable = false) (hGrouped₁ : e₁.Grouped) (hGrouped₂ : e₂.Grouped)
    (hTokens : (lex p.start s).1 = comparisonTokens e₁ op e₂) (hFloat : e₁.LeftFloat op) :
    P.Renders env p s text ↔ text = if op.holds e₁.value e₂.value then [97] else [98] := by
  have hReads := reads_relation hTables hGrouped₁ hGrouped₂ hFloat
  rw [← hTokens] at hReads
  have hQuiet : AllQuiet (e₁.reads ++ e₂.reads ++
      [(⟨.bexprRelation op, (e₁, op.mark, e₂, ())⟩ : Read P.Float)]) :=
    (e₁.reads_quiet.append e₂.reads_quiet).append (.singleton (.inl rfl))
  have hCode : ∀ x ∈ e₁.reads ++ e₂.reads ++
      [(⟨.bexprRelation op, (e₁, op.mark, e₂, ())⟩ : Read P.Float)], (x.code env).isSome :=
    List.forall_mem_append.mpr ⟨List.forall_mem_append.mpr ⟨e₁.reads_code, e₂.reads_code⟩,
      List.forall_mem_singleton.mpr rfl⟩
  rw [renders_condition hOn hReads hQuiet, and_iff_right hCode, BExpr.value]
  cases op.holds e₁.value e₂.value <;> exact Iff.rfl

/-- Read as strings, they are compared as they are printed, where their code has results. -/
theorem renders_sexprEq (hTables : comparisonEntries.In P.tables)
    (hOn : p.globals.outputDisable = false) (hGrouped₁ : e₁.Grouped) (hGrouped₂ : e₂.Grouped)
    (hTokens : (lex p.start s).1 = comparisonTokens e₁ .eq e₂) {a : IExpr}
    (hLeft : e₁.toIExpr = some a) {t : SExpr P.Float} (hRight : e₂.toSExpr = some t) :
    P.Renders env p s text ↔
      (a.run.isSome ∧ ∀ x ∈ t.reads, (x.code env).isSome) ∧
        text = if equalStrings (some (printed a.value)) (t.value env) then [97] else [98] := by
  have hReads := reads_sexprEq hTables hGrouped₁ hGrouped₂ hLeft hRight
  rw [← hTokens] at hReads
  have hQuiet : AllQuiet ((SExpr.iexpr a).reads ++ t.reads ++
      [(⟨.bexprSexprEq, (.iexpr a, (), t, ())⟩ : Read P.Float)]) :=
    ((SExpr.iexpr a).reads_quiet.append t.reads_quiet).append (.singleton (.inl rfl))
  have hSet : ¬t.Unset env := by
    rcases FExpr.toSExpr_eq_some.mp hRight with ⟨b, _, rfl⟩ | ⟨_, rfl⟩ <;> exact id
  have hCompared :
      (Read.code env (⟨.bexprSexprEq, (.iexpr a, (), t, ())⟩ : Read P.Float)).isSome := by
    rw [Option.isSome_iff_ne_none, ne_eq, Read.code_eq_none]
    rintro ((h | h) | h)
    · exact h
    · exact hSet h
    · exact h
  have hLeftCode : (∀ x ∈ (SExpr.iexpr a).reads (F := P.Float), (x.code env).isSome) ↔
      a.run.isSome := by
    rw [SExpr.reads, List.forall_mem_append, ← IExpr.run_isSome_iff]
    exact and_iff_left (List.forall_mem_singleton.mpr rfl)
  rw [renders_condition hOn hReads hQuiet, List.forall_mem_append, List.forall_mem_append,
    hLeftCode, List.forall_mem_singleton, and_iff_left hCompared, BExpr.value]
  refine and_congr_right fun _ => ?_
  have hValue : (SExpr.iexpr a : SExpr P.Float).value env = some (printed a.value) := rfl
  rw [hValue]
  cases equalStrings (some (printed a.value)) (t.value env) <;> exact Iff.rfl

theorem not_renders (hTokens : (lex p.start s).1 = comparisonTokens e₁ op e₂)
    (h : Parses (syntaxGrammar P.Float) P.tables (comparisonTokens e₁ op e₂) [] .syntaxError) :
    ¬P.Renders env p s text := by
  rw [Platform.renders_iff]
  rintro ⟨reads, _, hReads, _⟩
  rw [Platform.Reads, hTokens] at hReads
  cases hReads.unique h

/-- The condition under which a comparison shows what the numbers say. -/
def ShowsNumbers (e₁ : Side) (op : Relation) (e₂ : Side) : Prop :=
  e₁.expr.LeftFloat op ∧
      (op.float32 e₁.expr.float32 e₂.expr.float32 = true ↔ op.Numbers e₁.number e₂.number) ∨
    op = .eq ∧ ∃ a m, e₁.expr.toIExpr = some a ∧ a.run = some m ∧
      ((∃ b n, e₂.expr.toIExpr = some b ∧ b.run = some n ∧ (m = n ↔ e₁.number = e₂.number)) ∨
        e₂.expr.startsFloat = true ∧ e₁.number ≠ e₂.number)

/-- A side that is compared as a `float` is not compared as a string. -/
theorem showsNumbers_of_leftFloat {e₁ e₂ : Side} (h : e₁.expr.LeftFloat op) :
    ShowsNumbers e₁ op e₂ ↔ (op.float32 e₁.expr.float32 e₂.expr.float32 = true ↔
      op.Numbers e₁.number e₂.number) := by
  refine (or_iff_left ?_).trans (and_iff_right h)
  rintro ⟨hOp, a, m, hLeft, _⟩
  rcases h with hStarts | ⟨_, hOrder⟩
  · rw [FExpr.startsFloat_eq_false hLeft] at hStarts
    cases hStarts
  · exact hOrder hOp

theorem equalStrings_printed (m n : Int) :
    equalStrings (some (printed m)) (some (printed n)) = true ↔ m = n := by
  rw [equalStrings, beq_iff_eq, printed_inj]

/-- The same part is shown. -/
theorem parts_eq_iff {b : Bool} {Q : Prop} [Decidable Q] :
    (if Q then [97] else [98] : List UInt8) = (if b then [97] else [98]) ↔ (b = true ↔ Q) := by
  cases b <;> by_cases hQ : Q <;> simp [hQ]

/-- Two integer expressions are compared by their values in `int`. -/
theorem renders_whole (hTables : comparisonEntries.In P.tables)
    (hOn : p.globals.outputDisable = false) (hGrouped₁ : e₁.Grouped) (hGrouped₂ : e₂.Grouped)
    (hTokens : (lex p.start s).1 = comparisonTokens e₁ .eq e₂) {a b : IExpr}
    (hLeft : e₁.toIExpr = some a) (hRight : e₂.toIExpr = some b) {Q : Prop} [Decidable Q] :
    P.Renders env p s (if Q then [97] else [98]) ↔
      ∃ m n, a.run = some m ∧ b.run = some n ∧ (m = n ↔ Q) := by
  have hString : e₂.toSExpr = some (.iexpr b) := FExpr.toSExpr_eq_some.mpr (.inl ⟨b, hRight, rfl⟩)
  have hCode : (∀ x ∈ (SExpr.iexpr b).reads (F := P.Float), (x.code env).isSome) ↔
      b.run.isSome := by
    rw [SExpr.reads, List.forall_mem_append, ← IExpr.run_isSome_iff]
    exact and_iff_left (List.forall_mem_singleton.mpr rfl)
  have hValue : (SExpr.iexpr b : SExpr P.Float).value env = some (printed b.value) := rfl
  rw [renders_sexprEq hTables hOn hGrouped₁ hGrouped₂ hTokens hLeft hString, hCode, hValue,
    parts_eq_iff, equalStrings_printed]
  constructor
  · rintro ⟨⟨hA, hB⟩, hSame⟩
    obtain ⟨m, hM⟩ := Option.isSome_iff_exists.mp hA
    obtain ⟨n, hN⟩ := Option.isSome_iff_exists.mp hB
    rw [IExpr.run_value hM, IExpr.run_value hN] at hSame
    exact ⟨m, n, hM, hN, hSame⟩
  · rintro ⟨m, n, hM, hN, hSame⟩
    rw [hM, hN, IExpr.run_value hM, IExpr.run_value hN]
    exact ⟨⟨rfl, rfl⟩, hSame⟩

/-- An integer expression and a `float` are never printed alike. -/
theorem renders_printed {float32 : P.Float → Float32} (hIeee : CFloat.Ieee float32)
    (hTables : comparisonEntries.In P.tables)
    (hOn : p.globals.outputDisable = false) (hGrouped₁ : e₁.Grouped) (hGrouped₂ : e₂.Grouped)
    (hTokens : (lex p.start s).1 = comparisonTokens e₁ .eq e₂) {a : IExpr}
    (hLeft : e₁.toIExpr = some a) (hStarts : e₂.startsFloat = true) {Q : Prop} [Decidable Q] :
    P.Renders env p s (if Q then [97] else [98]) ↔ a.run.isSome ∧ ¬Q := by
  have hString : e₂.toSExpr = some (.fexpr e₂) :=
    FExpr.toSExpr_eq_some.mpr (.inr ⟨hStarts, rfl⟩)
  have hCode : ∀ x ∈ (SExpr.fexpr e₂).reads, (x.code env).isSome :=
    List.forall_mem_append.mpr ⟨e₂.reads_code, List.forall_mem_singleton.mpr rfl⟩
  have hDiffers : equalStrings (some (printed a.value)) ((SExpr.fexpr e₂).value env) = false := by
    refine Bool.eq_false_iff.mpr fun hSame => hIeee.format_ne_printed e₂.value a.value ?_
    have hEqual : printed a.value = .ofBytes (CFloat.format e₂.value) := beq_iff_eq.mp hSame
    exact hEqual.symm
  rw [renders_sexprEq hTables hOn hGrouped₁ hGrouped₂ hTokens hLeft hString, hDiffers,
    parts_eq_iff, and_iff_left hCode]
  exact and_congr_right fun _ => iff_false_left Bool.false_ne_true

/-- Behind an integer expression `==` compares strings: with another one the values in `int`,
with a `float` texts that differ, and anything else is no string. -/
theorem renders_equal {e₁ e₂ : Side} (hTables : comparisonEntries.In P.tables)
    {float32 : P.Float → Float32} (hIeee : CFloat.Ieee float32)
    (hOn : p.globals.outputDisable = false)
    (hTokens : (lex p.start s).1 = comparisonTokens (e₁.scanned : FExpr P.Float) .eq e₂.scanned)
    {a : IExpr} (hLeft : e₁.expr.toIExpr = some a) {Q : Prop} [Decidable Q] :
    P.Renders env p s (if Q then [97] else [98]) ↔ ∃ m, a.run = some m ∧
      ((∃ b n, e₂.expr.toIExpr = some b ∧ b.run = some n ∧ (m = n ↔ Q)) ∨
        e₂.expr.startsFloat = true ∧ ¬Q) := by
  have hGrouped₁ := e₁.scanned_grouped (F := P.Float)
  have hGrouped₂ := e₂.scanned_grouped (F := P.Float)
  have hScanned : (e₁.scanned : FExpr P.Float).toIExpr = some a := e₁.scanned_toIExpr.trans hLeft
  have hMap := e₂.scanned_toIExpr (F := P.Float)
  cases hRight : e₂.expr.toIExpr with
  | some b =>
      rw [renders_whole hTables hOn hGrouped₁ hGrouped₂ hTokens hScanned (hMap.trans hRight)]
      constructor
      · rintro ⟨m, n, hM, hN, hSame⟩
        exact ⟨m, hM, .inl ⟨b, n, rfl, hN, hSame⟩⟩
      · rintro ⟨m, hM, ⟨_, n, ⟨⟩, hN, hSame⟩ | ⟨hStarts, _⟩⟩
        · exact ⟨m, n, hM, hN, hSame⟩
        · rw [FExpr.startsFloat_eq_false hRight] at hStarts
          cases hStarts
  | none =>
      cases hStarts : e₂.expr.startsFloat with
      | true =>
          rw [renders_printed hIeee hTables hOn hGrouped₁ hGrouped₂ hTokens hScanned
            (e₂.scanned_startsFloat.trans hStarts)]
          constructor
          · rintro ⟨hA, hDiffers⟩
            obtain ⟨m, hM⟩ := Option.isSome_iff_exists.mp hA
            exact ⟨m, hM, .inr ⟨rfl, hDiffers⟩⟩
          · rintro ⟨m, hM, ⟨_, _, ⟨⟩, _⟩ | ⟨_, hDiffers⟩⟩
            exact ⟨by rw [hM]; rfl, hDiffers⟩
      | false =>
          have hNoString : (e₂.scanned : FExpr P.Float).toSExpr = none := by
            rw [FExpr.toSExpr, hMap, hRight, e₂.scanned_startsFloat, hStarts]
            rfl
          refine iff_of_false (not_renders hTokens
            (rejects_right hTables hGrouped₁ hGrouped₂ hScanned hNoString)) ?_
          rintro ⟨m, hM, ⟨_, _, ⟨⟩, _⟩ | ⟨⟨⟩, _⟩⟩

/-- A comparison is accepted and shows what the numbers of its sides say just when its left
side starts with a FLOAT or is one INT in front of an ordering, and the two sides compare alike
when everything is rounded to a `float`, or it is `==` and the left side is an integer
expression with a value in `int`: against another one if these values are equal just where the
numbers are, against a side that starts with a FLOAT if the numbers differ. -/
theorem comparison_iff {e₁ e₂ : Side} (hTables : comparisonEntries.In P.tables)
    {float32 : P.Float → Float32} (hIeee : CFloat.Ieee float32)
    (hSession : Session P env templates p)
    (hTokens : (lex p.start s).1 = comparisonTokens (e₁.scanned : FExpr P.Float) op e₂.scanned) :
    P.Renders env p s (if op.Numbers e₁.number e₂.number then [97] else [98]) ↔
      ShowsNumbers e₁ op e₂ := by
  have hOn := hSession.enabled
  have hGrouped₁ := e₁.scanned_grouped (F := P.Float)
  have hGrouped₂ := e₂.scanned_grouped (F := P.Float)
  by_cases hFloat : e₁.expr.LeftFloat op
  · have hLeftFloat : (e₁.scanned : FExpr P.Float).LeftFloat op := by
      rw [FExpr.LeftFloat, e₁.scanned_startsFloat, e₁.scanned_isInt]
      exact hFloat
    rw [showsNumbers_of_leftFloat hFloat, renders_relation hTables hOn hGrouped₁ hGrouped₂ hTokens
      hLeftFloat, parts_eq_iff, hIeee.relation, e₁.scanned_value hIeee, e₂.scanned_value hIeee]
  · refine Iff.trans ?_ (or_iff_right fun h => hFloat h.1).symm
    have hStarts : e₁.expr.startsFloat = false := Bool.eq_false_iff.mpr fun h => hFloat (.inl h)
    have hMap := e₁.scanned_toIExpr (F := P.Float)
    cases hLeft : e₁.expr.toIExpr with
    | none =>
        refine iff_of_false (not_renders hTokens (rejects_left hTables hGrouped₁
          (hMap.trans hLeft) (e₁.scanned_startsFloat.trans hStarts))) ?_
        rintro ⟨_, a, m, ⟨⟩, _⟩
    | some a =>
        by_cases hOp : op = .eq
        · subst hOp
          refine (renders_equal hTables hIeee hOn hTokens hLeft).trans ?_
          constructor
          · rintro ⟨m, hShown⟩
            exact ⟨rfl, a, m, rfl, hShown⟩
          · rintro ⟨_, _, m, ⟨⟩, hShown⟩
            exact ⟨m, hShown⟩
        · have hMore : (e₁.scanned : FExpr P.Float).isInt = false := by
            rw [e₁.scanned_isInt]
            exact Bool.eq_false_iff.mpr fun h => hFloat (.inr ⟨h, hOp⟩)
          exact iff_of_false
            (not_renders hTokens (rejects_ordering hTables hGrouped₁ (hMap.trans hLeft) hMore hOp))
            fun h => hOp h.1

end Compared

section Sample

/-- `strtof` of what the scanner takes for a FLOAT. -/
def strtof32 (yytext : List UInt8) : Float32 :=
  let whole := (chars yytext).takeWhile Char.isDigit
  let fraction := ((chars yytext).drop (whole.length + 1)).takeWhile Char.isDigit
  .ofScientific (CText.digitsValue (whole ++ fraction)) true fraction.length

/-- `%f`. -/
def format32 (x : Float32) : List UInt8 :=
  match x.toModel.unpack with
  | .notANumber => Scanner.ascii "nan"
  | .infinity .positive => Scanner.ascii "inf"
  | .infinity .negative => Scanner.ascii "-inf"
  | .zero .positive => Scanner.ascii "0.000000"
  | .zero .negative => Scanner.ascii "-0.000000"
  | .finite sign mantissa exponent _ =>
      bytesOf (CText.formatFixed 6 (sign.apply (mantissa : Int) * 2 ^ exponent))

/-- A platform whose tables are no more than these entries. -/
def comparisonPlatform : Platform where
  tables := fun stack next => (comparisonEntries stack next).getD .error
  Float := Float32
  float :=
    { ofInt := .ofInt, strtof := strtof32, add := fun x y => x + y, sub := fun x y => x - y,
      mul := fun x y => x * y, div := fun x y => x / y, eq := Float32.beq, le := Float32.le,
      lt := Float32.lt, format := format32 }

theorem comparisonPlatform_tables : comparisonEntries.In comparisonPlatform.tables := by
  intro stack next decision h
  change (comparisonEntries stack next).getD .error = decision
  rw [h]
  rfl

theorem FloatLiteral.chars_yytext (literal : FloatLiteral) : chars literal.yytext =
    CText.digitText literal.whole ++ '.' :: CText.digitText literal.fraction := by
  refine chars_bytesOf fun c hc => ?_
  have hNumber : CText.IsNumberChar c := by
    rcases List.mem_append.mp hc with hWhole | hPoint
    · exact .inl (CText.digitText_isDigit _ c hWhole)
    · rcases List.mem_cons.mp hPoint with rfl | hFraction
      · exact .inr (.inr rfl)
      · exact .inl (CText.digitText_isDigit _ c hFraction)
  have hRange := hNumber.toNat_mem
  omega

theorem strtof32_yytext (literal : FloatLiteral) : strtof32 literal.yytext = literal.float32 := by
  have hWhole : (CText.digitText literal.whole ++
      '.' :: CText.digitText literal.fraction).takeWhile Char.isDigit =
        CText.digitText literal.whole :=
    CText.takeWhile_digitText fun c hc => by
      cases hc
      rfl
  have hRest : (CText.digitText literal.whole ++ '.' :: CText.digitText literal.fraction).drop
      (literal.whole.length + 1) = CText.digitText literal.fraction := by
    rw [← CText.digitText_length literal.whole, ← List.drop_drop, List.drop_left]
    rfl
  have hFraction : (CText.digitText literal.fraction).takeWhile Char.isDigit =
      CText.digitText literal.fraction :=
    List.takeWhile_eq_self_iff.mpr (CText.digitText_isDigit literal.fraction)
  simp only [strtof32, literal.chars_yytext, hWhole, hRest, hFraction, FloatLiteral.float32,
    FloatLiteral.digits, CText.digitText_append, CText.digitText_length]

theorem format32_letters (x : Float32) : 46 ∈ (CString.ofBytes (format32 x)).bytes ∨
    110 ∈ (CString.ofBytes (format32 x)).bytes := by
  rw [format32]
  split
  · exact .inr (by decide)
  · exact .inr (by decide)
  · exact .inr (by decide)
  · exact .inl (by decide)
  · exact .inl (by decide)
  · rw [bytes_ofBytes_bytesOf (CText.formatFixed_chars 6 _)]
    exact .inl (List.mem_map.mpr ⟨'.', CText.point_mem_formatFixed (by decide) _, rfl⟩)

theorem comparisonPlatform_ieee : CFloat.Ieee (F := comparisonPlatform.Float) id where
  ofInt _ := rfl
  strtof := strtof32_yytext
  arith op _ _ := by cases op <;> rfl
  relation op _ _ := by cases op <;> rfl
  format := format32_letters

theorem lastDigit_lt (n : Nat) : n % 10 < 10 := Nat.mod_lt n (by decide)

/-- A FLOAT with one digit on each side of the point. -/
def decimal (whole fraction : Nat) : FExpr FloatLiteral :=
  .float ⟨[⟨whole % 10, lastDigit_lt whole⟩], [⟨fraction % 10, lastDigit_lt fraction⟩],
    List.cons_ne_nil _ _, List.cons_ne_nil _ _⟩

/-- A sum of two tenths, and three. None of them is a `float`. -/
def sumOfTenths : Side where
  expr := .arith .add (decimal 0 1) (decimal 0 2)
  grouped := ⟨trivial, trivial, by decide, by decide⟩
  number := 3 / 10
  isNumber := by decide +kernel

def threeTenths : Side where
  expr := decimal 0 3
  grouped := trivial
  number := 3 / 10
  isNumber := by decide +kernel

def tenthsTemplate : CString :=
  ⟨Scanner.ascii "[% IF 0.1 + 0.2 == 0.3 %]a[% ELSE %]b[% END %]", by decide⟩

theorem comparison_iff_tenths :
    comparisonPlatform.Renders (fun _ => none) .first tenthsTemplate [97] := by
  have hTokens : (lex Process.first.start tenthsTemplate).1 =
      comparisonTokens (sumOfTenths.scanned : FExpr comparisonPlatform.Float) .eq
        threeTenths.scanned := rfl
  have hNumbers : Relation.eq.Numbers sumOfTenths.number threeTenths.number := rfl
  have hRounded : Relation.eq.float32 sumOfTenths.expr.float32 threeTenths.expr.float32 = true := by
    decide +kernel
  have hShows : comparisonPlatform.Renders (fun _ => none) .first tenthsTemplate
      (if Relation.eq.Numbers sumOfTenths.number threeTenths.number then [97] else [98]) :=
    (comparison_iff comparisonPlatform_tables comparisonPlatform_ieee .first hTokens).mpr
      (.inl ⟨.inl rfl, iff_of_true hRounded hNumbers⟩)
  rwa [if_pos hNumbers] at hShows

def equalTemplate : CString := ⟨Scanner.ascii "[% IF 1 == 1.0 %]a[% ELSE %]b[% END %]", by decide⟩

def reversedTemplate : CString :=
  ⟨Scanner.ascii "[% IF 1.0 == 1 %]a[% ELSE %]b[% END %]", by decide⟩

def sumTemplate : CString := ⟨Scanner.ascii "[% IF 1+1 < 3 %]a[% ELSE %]b[% END %]", by decide⟩

def largeTemplate : CString :=
  ⟨Scanner.ascii "[% IF 16777217 > 16777216 %]a[% ELSE %]b[% END %]", by decide⟩

/-- As the scanner reads it. -/
def scannedDecimal (whole fraction : Nat) : FExpr comparisonPlatform.Float :=
  (decimal whole fraction).map fun literal => CFloat.strtof literal.yytext

/-- An integer is not equal to the same number as a FLOAT, unless that stands on the left, a
sum of integers is in no order, and two integers can be one `float`. -/
theorem equalTemplate_shows :
    comparisonPlatform.Renders (fun _ => none) .first equalTemplate [98] ∧
      comparisonPlatform.Renders (fun _ => none) .first reversedTemplate [97] ∧
      (∀ text, ¬comparisonPlatform.Renders (fun _ => none) .first sumTemplate text) ∧
      comparisonPlatform.Renders (fun _ => none) .first largeTemplate [98] := by
  have hEqual : (lex Process.first.start equalTemplate).1 =
      comparisonTokens (.int 1) .eq (scannedDecimal 1 0) := rfl
  have hReversed : (lex Process.first.start reversedTemplate).1 =
      comparisonTokens (scannedDecimal 1 0) .eq (.int 1) := rfl
  have hSum : (lex Process.first.start sumTemplate).1 =
      comparisonTokens (.arith .add (.int 1) (.int 1)) .lt
        (.int 3 : FExpr comparisonPlatform.Float) := rfl
  have hLarge : (lex Process.first.start largeTemplate).1 =
      comparisonTokens (.int 16777217) .gt
        (.int 16777216 : FExpr comparisonPlatform.Float) := rfl
  have hInt : ∀ n, (FExpr.int n : FExpr comparisonPlatform.Float).Grouped := fun _ => trivial
  have hDecimal : (scannedDecimal 1 0).Grouped := trivial
  refine ⟨?_, ?_, ?_, ?_⟩
  · exact (renders_printed (Q := False) comparisonPlatform_ieee comparisonPlatform_tables rfl
      (hInt 1) hDecimal hEqual rfl rfl).mpr ⟨rfl, id⟩
  · have hSame : Relation.eq.holds (scannedDecimal 1 0).value (FExpr.int 1).value = true := by
      decide +kernel
    refine (renders_relation comparisonPlatform_tables rfl hDecimal (hInt 1) hReversed
      (.inl rfl)).mpr ?_
    rw [hSame]
    rfl
  · intro text
    have hSumGrouped : (FExpr.arith .add (.int 1) (.int 1) :
        FExpr comparisonPlatform.Float).Grouped := ⟨trivial, trivial, by decide, by decide⟩
    exact not_renders hSum (rejects_ordering comparisonPlatform_tables hSumGrouped rfl rfl
      (by decide))
  · have hSame : Relation.gt.holds (FExpr.int 16777217 : FExpr comparisonPlatform.Float).value
        (FExpr.int 16777216).value = false := by
      decide +kernel
    refine (renders_relation comparisonPlatform_tables rfl (hInt 16777217) (hInt 16777216) hLarge
      (.inr ⟨rfl, by decide⟩)).mpr ?_
    rw [hSame]
    rfl

end Sample

end MonitoringPlug.Template
