import MonitoringPlug.Template.Number

/-! A condition that compares two arithmetic expressions. An integer is an integer, a `float`
and a string expression; which of them it becomes was decided when the tables were
generated. -/
namespace MonitoringPlug.Template

open CMemory ShiftReduce

abbrev Sym : Type := Symbol Terminal Nonterminal

/-- What can begin behind a symbol: both kinds of expressions, or one of them. -/
inductive Kind where
  | either | whole | float
deriving DecidableEq

def arithOf : Terminal → Option Arith
  | .char 43 => some .add
  | .char 45 => some .sub
  | .char 47 => some .div
  | .char 42 => some .mul
  | _ => none

def relationOf : Terminal → Option Relation
  | .opEq => some .eq
  | .opGe => some .ge
  | .opLe => some .le
  | .char 62 => some .gt
  | .char 60 => some .lt
  | _ => none

/-- The kind of operand that a stack in an IF waits for. -/
def kindOf : List Sym → Option Kind
  | .terminal .ifWord :: below => if below = [] then some .either else none
  | .terminal (.char 40) :: below => kindOf below
  | .terminal t :: .nonterminal .iexpr :: below =>
      if (arithOf t).isSome ∧ (kindOf below = some .either ∨ kindOf below = some .whole) then
        some .whole
      else none
  | .terminal t :: .nonterminal .fexpr :: below =>
      if (arithOf t).isSome ∧ (kindOf below = some .either ∨ kindOf below = some .float) ∨
          (relationOf t).isSome ∧ below = [.terminal .ifWord] then
        some .float
      else none
  | .terminal t :: .nonterminal .sexpr :: below =>
      if t = .opEq ∧ below = [.terminal .ifWord] then some .either else none
  | _ => none

/-- The precedence of the operator on top of a stack. -/
def pending : List Sym → Nat
  | .terminal t :: _ => (arithOf t).elim 0 Arith.prec
  | _ => 0

/-- The next token is an operator that takes its left operand from one of this precedence. -/
def binds (level : Nat) (next : Option Terminal) : Bool :=
  (next.bind arithOf).any fun op => level < op.prec

/-- The comparisons that only exist for `float` expressions. -/
def ordering (next : Option Terminal) : Bool :=
  match next with
  | some .opGe | some .opLe | some (.char 62) | some (.char 60) => true
  | _ => false

/-- Behind the last operand of an integer expression. A condition that could end here ends,
whatever comes next. -/
def endIexpr (next : Option Terminal) : List Sym → Option (Decision Rule)
  | .terminal (.char 40) :: _ => if next = some (.char 41) then some .shift else none
  | [.terminal .ifWord] => some (.reduce (if next = some .opEq then .sexprIexpr else .bexprIexpr))
  | [.terminal .opEq, .nonterminal .sexpr, .terminal .ifWord] => some (.reduce .sexprIexpr)
  | .terminal t :: _ => (arithOf t).map fun op => .reduce (.iexprArith op)
  | _ => none

def endFexpr (next : Option Terminal) : List Sym → Option (Decision Rule)
  | .terminal (.char 40) :: _ => if next = some (.char 41) then some .shift else none
  | [.terminal .ifWord] => if (next.bind relationOf).isSome then some .shift else none
  | [.terminal .opEq, .nonterminal .sexpr, .terminal .ifWord] => some (.reduce .sexprFexpr)
  | .terminal t :: _ =>
      match arithOf t, relationOf t with
      | some op, _ => some (.reduce (.fexprArith op))
      | none, some op => some (.reduce (.bexprRelation op))
      | none, none => none
  | _ => none

def behindIexpr (below : List Sym) (next : Option Terminal) : Option (Decision Rule) :=
  if binds (pending below) next then some .shift else endIexpr next below

def behindFexpr (below : List Sym) (next : Option Terminal) : Option (Decision Rule) :=
  if binds (pending below) next then some .shift else endFexpr next below

/-- The first token of an operand. -/
def operandEntry (kind : Kind) : Option Terminal → Option (Decision Rule)
  | some .int | some (.char 40) => some .shift
  | some .float => some (if kind = .whole then .error else .shift)
  | _ => none

/-- The entries for a stack that does not wait for an operand. -/
def otherEntry : Entries Terminal Nonterminal Rule
  | [], some .ifWord => some .shift
  | .terminal .int :: below, next =>
      (kindOf below).map fun
        | .whole => .reduce .iexprInt
        | .float => .reduce .fexprInt
        | .either => .reduce (if ordering next then .fexprInt else .iexprInt)
  | .terminal .float :: below, _ =>
      if kindOf below = some .either ∨ kindOf below = some .float then
        some (.reduce .fexprFloat)
      else none
  | .nonterminal .iexpr :: below, next =>
      if kindOf below = some .either ∨ kindOf below = some .whole then behindIexpr below next
      else none
  | .nonterminal .fexpr :: below, next =>
      if kindOf below = some .either ∨ kindOf below = some .float then behindFexpr below next
      else none
  | .terminal (.char 41) :: .nonterminal .iexpr :: .terminal (.char 40) :: below, _ =>
      if kindOf below = some .either ∨ kindOf below = some .whole then some (.reduce .iexprParen)
      else none
  | .terminal (.char 41) :: .nonterminal .fexpr :: .terminal (.char 40) :: below, _ =>
      if kindOf below = some .either ∨ kindOf below = some .float then some (.reduce .fexprParen)
      else none
  | [.nonterminal .sexpr, .terminal .ifWord], some .opEq => some .shift
  | [.nonterminal .sexpr, .terminal .opEq, .nonterminal .sexpr, .terminal .ifWord], _ =>
      some (.reduce .bexprSexprEq)
  | [.nonterminal .bexpr, .terminal .ifWord], _ => some (.reduce .startIf)
  | [.nonterminal .conditionalsStart], some .text => some .shift
  | [.nonterminal .conditionalsStart], next =>
      if ordering next then some (.reduce .blocksEmpty) else none
  | [.nonterminal .blocks, .nonterminal .conditionalsStart], some .elseWord => some .shift
  | [.nonterminal .blocks, .nonterminal .conditionalsStart], next =>
      if ordering next then some .error else none
  | [.terminal .text, .nonterminal .conditionalsStart], _
  | [.terminal .text, .nonterminal .conditionalsElse, .nonterminal .blocks,
      .nonterminal .conditionalsStart], _ => some (.reduce .blockText)
  | [.nonterminal .block, .nonterminal .conditionalsStart], _
  | [.nonterminal .block, .nonterminal .conditionalsElse, .nonterminal .blocks,
      .nonterminal .conditionalsStart], _
  | [.nonterminal .block], _ => some (.reduce .blocksFirst)
  | [.terminal .elseWord, .nonterminal .blocks, .nonterminal .conditionalsStart], _ =>
      some (.reduce .elseWord)
  | [.nonterminal .conditionalsElse, .nonterminal .blocks, .nonterminal .conditionalsStart],
      some .text => some .shift
  | [.nonterminal .blocks, .nonterminal .conditionalsElse, .nonterminal .blocks,
      .nonterminal .conditionalsStart], some .endWord => some .shift
  | [.terminal .endWord, .nonterminal .blocks, .nonterminal .conditionalsElse,
      .nonterminal .blocks, .nonterminal .conditionalsStart], _ => some (.reduce .endWord)
  | [.nonterminal .conditionalsEnd, .nonterminal .blocks, .nonterminal .conditionalsElse,
      .nonterminal .blocks, .nonterminal .conditionalsStart], _ =>
      some (.reduce .conditionalsElse)
  | [.nonterminal .conditionals], _ => some (.reduce .statementConditionals)
  | [.nonterminal .statement], _ => some (.reduce .blockStatement)
  | [.nonterminal .blocks], none => some (.reduce .template)
  | [.nonterminal .template], none => some .accept
  | _, _ => none

/-- The entries for `IF` with a comparison of arithmetic expressions, a text, `ELSE`, a text
and `END`. The earlier of two rules is reduced and shifting is preferred; where a state has
one reduction for most tokens it is also made for those that cannot follow. -/
def comparisonEntries : Entries Terminal Nonterminal Rule := fun stack next =>
  (kindOf stack).elim (otherEntry stack next) fun kind => operandEntry kind next

section Entries

variable {stack : List Sym} {kind : Kind} {next : Option Terminal}

@[simp] theorem arithOf_token (op : Arith) : arithOf op.token = some op := by
  cases op <;> rfl

theorem comparisonEntries_operand (h : kindOf stack = some kind) :
    comparisonEntries stack next = operandEntry kind next := by
  rw [comparisonEntries, h, Option.elim_some]

theorem comparisonEntries_other (h : kindOf stack = none) :
    comparisonEntries stack next = otherEntry stack next := by
  rw [comparisonEntries, h, Option.elim_none]

@[simp] theorem kindOf_paren : kindOf (.terminal (.char 40) :: stack) = kindOf stack := rfl

/-- No operand follows a literal or a closing parenthesis. -/
theorem kindOf_token {t : Terminal} (hIf : t ≠ .ifWord) (hParen : t ≠ .char 40)
    (hArith : arithOf t = none) (hRelation : relationOf t = none) :
    kindOf (.terminal t :: stack) = none := by
  have hEq : t ≠ .opEq := by
    rintro rfl
    cases hRelation
  unfold kindOf
  split <;> simp_all

theorem kindOf_nonterminal (n : Nonterminal) : kindOf (.nonterminal n :: stack) = none := rfl

theorem kindOf_iexpr (op : Arith) (h : kindOf stack = some .either ∨ kindOf stack = some .whole) :
    kindOf (.terminal op.token :: .nonterminal .iexpr :: stack) = some .whole := by
  cases op <;> exact if_pos ⟨rfl, h⟩

theorem kindOf_fexpr (op : Arith) (h : kindOf stack = some .either ∨ kindOf stack = some .float) :
    kindOf (.terminal op.token :: .nonterminal .fexpr :: stack) = some .float := by
  cases op <;> exact if_pos (.inl ⟨rfl, h⟩)

theorem kindOf_relation (op : Relation) :
    kindOf [.terminal op.token, .nonterminal .fexpr, .terminal .ifWord] = some .float := by
  cases op <;> rfl

theorem pending_token (op : Arith) : pending (.terminal op.token :: stack) = op.prec := by
  rw [pending, arithOf_token, Option.elim_some]

theorem binds_token (level : Nat) (op : Arith) :
    binds level (some op.token) = decide (level < op.prec) := by
  rw [binds, Option.bind_some, arithOf_token, Option.any_some]

theorem binds_mono {level level' : Nat} (hLevel : level ≤ level')
    (h : binds level next = false) : binds level' next = false := by
  rw [binds] at h ⊢
  cases hOp : next.bind arithOf with
  | none => rfl
  | some op =>
      rw [hOp, Option.any_some, decide_eq_false_iff_not] at h
      rw [Option.any_some, decide_eq_false_iff_not]
      omega

theorem ordering_token (op : Arith) : ordering (some op.token) = false := by
  cases op <;> rfl

theorem entries_int (h : kindOf stack = some kind) :
    comparisonEntries (.terminal .int :: stack) next =
      some (.reduce (if kind = .float ∨ kind = .either ∧ ordering next then .fexprInt
        else .iexprInt)) := by
  have hNone : kindOf (.terminal .int :: stack) = none :=
    kindOf_token (by decide) (by decide) rfl rfl
  refine (comparisonEntries_other hNone).trans ((congrArg (Option.map _) h).trans ?_)
  cases kind <;> simp

theorem entries_float (h : kindOf stack = some .either ∨ kindOf stack = some .float) :
    comparisonEntries (.terminal .float :: stack) next = some (.reduce .fexprFloat) := by
  have hNone : kindOf (.terminal .float :: stack) = none :=
    kindOf_token (by decide) (by decide) rfl rfl
  exact (comparisonEntries_other hNone).trans (if_pos h)

theorem entries_iexpr (h : kindOf stack = some .either ∨ kindOf stack = some .whole) :
    comparisonEntries (.nonterminal .iexpr :: stack) next = behindIexpr stack next :=
  (comparisonEntries_other (kindOf_nonterminal _)).trans (if_pos h)

theorem entries_fexpr (h : kindOf stack = some .either ∨ kindOf stack = some .float) :
    comparisonEntries (.nonterminal .fexpr :: stack) next = behindFexpr stack next :=
  (comparisonEntries_other (kindOf_nonterminal _)).trans (if_pos h)

theorem kindOf_close : kindOf (.terminal (.char 41) :: stack) = none :=
  kindOf_token (by decide) (by decide) rfl rfl

theorem entries_close_iexpr (h : kindOf stack = some .either ∨ kindOf stack = some .whole) :
    comparisonEntries (.terminal (.char 41) :: .nonterminal .iexpr :: .terminal (.char 40) :: stack)
      next = some (.reduce .iexprParen) :=
  (comparisonEntries_other kindOf_close).trans (if_pos h)

theorem entries_close_fexpr (h : kindOf stack = some .either ∨ kindOf stack = some .float) :
    comparisonEntries (.terminal (.char 41) :: .nonterminal .fexpr :: .terminal (.char 40) :: stack)
      next = some (.reduce .fexprParen) :=
  (comparisonEntries_other kindOf_close).trans (if_pos h)

theorem behindIexpr_shift (h : binds (pending stack) next = true) :
    behindIexpr stack next = some .shift := by
  rw [behindIexpr, if_pos h]

theorem behindFexpr_shift (h : binds (pending stack) next = true) :
    behindFexpr stack next = some .shift := by
  rw [behindFexpr, if_pos h]

theorem behindIexpr_arith {op : Arith} (h : binds op.prec next = false) :
    behindIexpr (.terminal op.token :: stack) next = some (.reduce (.iexprArith op)) := by
  have hStay : ¬binds (pending (.terminal op.token :: stack)) next = true := by
    rw [pending_token, h]
    exact Bool.false_ne_true
  rw [behindIexpr, if_neg hStay]
  cases op <;> rfl

theorem behindFexpr_arith {op : Arith} (h : binds op.prec next = false) :
    behindFexpr (.terminal op.token :: stack) next = some (.reduce (.fexprArith op)) := by
  have hStay : ¬binds (pending (.terminal op.token :: stack)) next = true := by
    rw [pending_token, h]
    exact Bool.false_ne_true
  rw [behindFexpr, if_neg hStay]
  cases op <;> rfl

theorem behindIexpr_paren :
    behindIexpr (.terminal (.char 40) :: stack) (some (.char 41)) = some .shift := rfl

theorem behindFexpr_paren :
    behindFexpr (.terminal (.char 40) :: stack) (some (.char 41)) = some .shift := rfl

end Entries

section Operands

variable {F : Type} {tables : Tables Terminal Nonterminal Rule} {stack : List (Entry (Tree F))}
  {kind : Kind} {rest : List (Token F)} {reads : List (Read F)}
  {outcome : Outcome (List (Read F))}

/-- The kinds of the symbols on a stack. -/
abbrev waits (stack : List (Entry (Tree F))) : Option Kind := kindOf (stack.map Sigma.fst)

abbrev ahead (rest : List (Token F)) : Option Terminal := rest.head?.map Sigma.fst

theorem shift_operand (hTables : comparisonEntries.In tables) (hKind : waits stack = some kind)
    {t : Terminal} {v : t.Value F} (hShift : operandEntry kind (some t) = some .shift)
    (h : CLoop.Returns (pass (syntaxGrammar F) tables) ⟨⟨.terminal t, v⟩ :: stack, rest, reads⟩
      outcome) :
    CLoop.Returns (pass (syntaxGrammar F) tables) ⟨stack, ⟨t, v⟩ :: rest, reads⟩ outcome :=
  .again (pass_shift (hTables _ _ _ ((comparisonEntries_operand hKind).trans hShift))) h

/-- An INT begins an operand of every kind. -/
theorem shift_int (hTables : comparisonEntries.In tables) (hKind : waits stack = some kind)
    {ival : Int}
    (h : CLoop.Returns (pass (syntaxGrammar F) tables)
      ⟨⟨.terminal .int, ival⟩ :: stack, rest, reads⟩ outcome) :
    CLoop.Returns (pass (syntaxGrammar F) tables) ⟨stack, ⟨.int, ival⟩ :: rest, reads⟩ outcome :=
  shift_operand hTables hKind (by cases kind <;> rfl) h

/-- A parenthesis begins an operand of every kind. -/
theorem shift_paren (hTables : comparisonEntries.In tables) (hKind : waits stack = some kind)
    (h : CLoop.Returns (pass (syntaxGrammar F) tables)
      ⟨⟨.terminal (.char 40), ()⟩ :: stack, rest, reads⟩ outcome) :
    CLoop.Returns (pass (syntaxGrammar F) tables) ⟨stack, ⟨.char 40, ()⟩ :: rest, reads⟩ outcome :=
  shift_operand hTables hKind (by cases kind <;> rfl) h

theorem exists_waits {kind' : Kind} (h : waits stack = some kind ∨ waits stack = some kind') :
    ∃ first, waits stack = some first :=
  h.elim (fun hKind => ⟨kind, hKind⟩) fun hKind => ⟨kind', hKind⟩

theorem waits_paren : waits (⟨.terminal (.char 40), ()⟩ :: stack) = waits stack := by
  rw [waits, List.map_cons, kindOf_paren]

theorem tokens_paren (e : FExpr F) : (FExpr.paren e).tokens ++ rest =
    ⟨.char 40, ()⟩ :: (e.tokens ++ ⟨.char 41, ()⟩ :: rest) := by
  simp [FExpr.tokens]

theorem tokens_arith (op : Arith) (e₁ e₂ : FExpr F) : (FExpr.arith op e₁ e₂).tokens ++ rest =
    e₁.tokens ++ ⟨op.token, op.mark⟩ :: (e₂.tokens ++ rest) := by
  simp [FExpr.tokens]

theorem shift_iexpr (hTables : comparisonEntries.In tables)
    (hOpen : waits stack = some .either ∨ waits stack = some .whole) {op : Arith}
    (hPrec : pending (stack.map Sigma.fst) < op.prec) (a : IExpr) :
    pass (syntaxGrammar F) tables
        ⟨⟨.nonterminal .iexpr, a⟩ :: stack, ⟨op.token, op.mark⟩ :: rest, reads⟩ =
      .again ⟨⟨.terminal op.token, op.mark⟩ :: ⟨.nonterminal .iexpr, a⟩ :: stack, rest,
        reads⟩ := by
  refine pass_shift (hTables _ _ _ ((entries_iexpr hOpen).trans (behindIexpr_shift ?_)))
  rw [binds_token]
  exact decide_eq_true hPrec

theorem shift_fexpr (hTables : comparisonEntries.In tables)
    (hOpen : waits stack = some .either ∨ waits stack = some .float) {op : Arith}
    (hPrec : pending (stack.map Sigma.fst) < op.prec) (e : FExpr F) :
    pass (syntaxGrammar F) tables
        ⟨⟨.nonterminal .fexpr, e⟩ :: stack, ⟨op.token, op.mark⟩ :: rest, reads⟩ =
      .again ⟨⟨.terminal op.token, op.mark⟩ :: ⟨.nonterminal .fexpr, e⟩ :: stack, rest,
        reads⟩ := by
  refine pass_shift (hTables _ _ _ ((entries_fexpr hOpen).trans (behindFexpr_shift ?_)))
  rw [binds_token]
  exact decide_eq_true hPrec

/-- An operator ends everything that does not bind less than it. -/
theorem binds_ahead {op : Arith} {level : Nat} (h : op.prec ≤ level) :
    binds level (ahead (⟨op.token, op.mark⟩ :: rest : List (Token F))) = false := by
  rw [ahead, List.head?_cons, Option.map_some, binds_token]
  exact decide_eq_false (Nat.not_lt.mpr h)

theorem reduce_again {r : Rule} {trees : Values (Tree F) r.rhs}
    (hEntry : tables (stack.map Sigma.fst) (ahead rest) = .reduce r)
    (hValues : valuesOf r.rhs (stack.take r.rhs.length).reverse = some trees)
    (h : CLoop.Returns (pass (syntaxGrammar F) tables)
      ⟨⟨.nonterminal r.lhs, r.build trees⟩ :: stack.drop r.rhs.length, rest,
        reads ++ [⟨r, trees⟩]⟩ outcome) :
    CLoop.Returns (pass (syntaxGrammar F) tables) ⟨stack, rest, reads⟩ outcome :=
  .again (pass_reduce (g := syntaxGrammar F) hEntry hValues rfl) h

/-- An expression without a FLOAT is read as an integer expression. -/
theorem reads_iexpr (hTables : comparisonEntries.In tables) {e : FExpr F} {a : IExpr}
    (hWhole : e.toIExpr = some a) (hGrouped : e.Grouped)
    (hOpen : waits stack = some .either ∨ waits stack = some .whole)
    (hPending : pending (stack.map Sigma.fst) < e.prec) (hEnds : binds e.prec (ahead rest) = false)
    (hAlone : e.isInt → waits stack = some .either → ordering (ahead rest) = false)
    (h : CLoop.Returns (pass (syntaxGrammar F) tables)
      ⟨⟨.nonterminal .iexpr, a⟩ :: stack, rest, reads ++ a.reads⟩ outcome) :
    CLoop.Returns (pass (syntaxGrammar F) tables) ⟨stack, e.tokens ++ rest, reads⟩ outcome := by
  induction e generalizing a stack rest reads with
  | float fval => cases hWhole
  | int ival =>
      cases hWhole
      have hEntry : comparisonEntries (.terminal .int :: stack.map Sigma.fst) (ahead rest) =
          some (.reduce .iexprInt) := by
        rcases hOpen with hEither | hOnly
        · simp [entries_int hEither, hAlone rfl hEither]
        · simp [entries_int hOnly]
      obtain ⟨kind, hKind⟩ := exists_waits hOpen
      exact shift_int hTables hKind (reduce_again (r := .iexprInt) (hTables _ _ _ hEntry) rfl h)
  | paren e ih =>
      obtain ⟨a, hInner, rfl⟩ := Option.map_eq_some_iff.mp hWhole
      have hBelow : waits (⟨.terminal (.char 40), ()⟩ :: stack) = some .either ∨
          waits (⟨.terminal (.char 40), ()⟩ :: stack) = some .whole := by
        rwa [waits_paren]
      have hClose : pass (syntaxGrammar F) tables
          ⟨⟨.nonterminal .iexpr, a⟩ :: ⟨.terminal (.char 40), ()⟩ :: stack,
            ⟨.char 41, ()⟩ :: rest, reads ++ a.reads⟩ =
          .again ⟨⟨.terminal (.char 41), ()⟩ :: ⟨.nonterminal .iexpr, a⟩ ::
            ⟨.terminal (.char 40), ()⟩ :: stack, rest, reads ++ a.reads⟩ :=
        pass_shift (hTables _ _ _ ((entries_iexpr hBelow).trans behindIexpr_paren))
      rw [IExpr.reads, ← List.append_assoc] at h
      have hClosed : CLoop.Returns (pass (syntaxGrammar F) tables)
          ⟨⟨.terminal (.char 41), ()⟩ :: ⟨.nonterminal .iexpr, a⟩ ::
            ⟨.terminal (.char 40), ()⟩ :: stack, rest, reads ++ a.reads⟩ outcome :=
        reduce_again (r := .iexprParen) (hTables _ _ _ (entries_close_iexpr hOpen)) rfl h
      obtain ⟨kind, hKind⟩ := exists_waits hOpen
      rw [tokens_paren]
      refine shift_paren hTables hKind (ih hInner hGrouped hBelow ?_ rfl (fun _ _ => rfl)
        (.again hClose hClosed))
      exact e.prec_pos
  | arith op e₁ e₂ ihLeft ihRight =>
      obtain ⟨a, hLeft, hRest⟩ := Option.bind_eq_some_iff.mp hWhole
      obtain ⟨b, hRight, rfl⟩ := Option.map_eq_some_iff.mp hRest
      obtain ⟨hGroupedLeft, hGroupedRight, hPrecLeft, hPrecRight⟩ := hGrouped
      have hPrec : pending (stack.map Sigma.fst) < op.prec := hPending
      have hRightKind : waits (⟨.terminal op.token, op.mark⟩ :: ⟨.nonterminal .iexpr, a⟩ :: stack) =
          some .whole := kindOf_iexpr op hOpen
      rw [IExpr.reads, ← List.append_assoc, ← List.append_assoc] at h
      have hValues : valuesOf (Rule.iexprArith op).rhs
          [⟨.nonterminal .iexpr, a⟩, ⟨.terminal op.token, op.mark⟩, ⟨.nonterminal .iexpr, b⟩] =
          some ((a, op.mark, b, ()) : Values (Tree F) (Rule.iexprArith op).rhs) := by
        cases op <;> rfl
      have hBoth : CLoop.Returns (pass (syntaxGrammar F) tables)
          ⟨⟨.nonterminal .iexpr, b⟩ :: ⟨.terminal op.token, op.mark⟩ ::
            ⟨.nonterminal .iexpr, a⟩ :: stack, rest, reads ++ a.reads ++ b.reads⟩ outcome :=
        reduce_again (r := .iexprArith op)
          (hTables _ _ _ ((entries_iexpr (.inr hRightKind)).trans (behindIexpr_arith hEnds)))
          hValues h
      rw [tokens_arith]
      refine ihLeft hLeft hGroupedLeft hOpen (Nat.lt_of_lt_of_le hPrec hPrecLeft)
        (binds_ahead hPrecLeft) (fun _ _ => ordering_token op)
        (.again (shift_iexpr hTables hOpen hPrec a) ?_)
      refine ihRight hRight hGroupedRight (.inr hRightKind) ?_ ?_ ?_ hBoth
      · exact Nat.lt_of_le_of_lt (Nat.le_of_eq (pending_token op)) hPrecRight
      · exact binds_mono (Nat.le_of_lt hPrecRight) hEnds
      · intro _ hEither
        rw [hRightKind] at hEither
        cases hEither

/-- Any expression is read as a `float` one where only that can follow, and one that starts
with a FLOAT wherever it can. -/
theorem reads_fexpr (hTables : comparisonEntries.In tables) {e : FExpr F} (hGrouped : e.Grouped)
    (hOpen : waits stack = some .float ∨ waits stack = some .either ∧ e.startsFloat)
    (hPending : pending (stack.map Sigma.fst) < e.prec) (hEnds : binds e.prec (ahead rest) = false)
    (h : CLoop.Returns (pass (syntaxGrammar F) tables)
      ⟨⟨.nonterminal .fexpr, e⟩ :: stack, rest, reads ++ e.reads⟩ outcome) :
    CLoop.Returns (pass (syntaxGrammar F) tables) ⟨stack, e.tokens ++ rest, reads⟩ outcome := by
  have hKind : waits stack = some .either ∨ waits stack = some .float :=
    hOpen.elim .inr fun hEither => .inl hEither.1
  induction e generalizing stack rest reads with
  | float fval =>
      have hRead : CLoop.Returns (pass (syntaxGrammar F) tables)
          ⟨⟨.terminal .float, fval⟩ :: stack, rest, reads⟩ outcome :=
        reduce_again (r := .fexprFloat) (hTables _ _ _ (entries_float hKind)) rfl h
      rcases hKind with hEither | hOnly
      · exact shift_operand hTables hEither rfl hRead
      · exact shift_operand hTables hOnly rfl hRead
  | int ival =>
      rcases hOpen with hOnly | ⟨_, hStarts⟩
      · have hEntry : comparisonEntries (.terminal .int :: stack.map Sigma.fst) (ahead rest) =
            some (.reduce .fexprInt) := by
          simp [entries_int hOnly]
        exact shift_int hTables hOnly (reduce_again (r := .fexprInt) (hTables _ _ _ hEntry) rfl h)
      · cases hStarts
  | paren e ih =>
      have hBelow : waits (⟨.terminal (.char 40), ()⟩ :: stack) = waits stack := waits_paren
      have hClose : pass (syntaxGrammar F) tables
          ⟨⟨.nonterminal .fexpr, e⟩ :: ⟨.terminal (.char 40), ()⟩ :: stack,
            ⟨.char 41, ()⟩ :: rest, reads ++ e.reads⟩ =
          .again ⟨⟨.terminal (.char 41), ()⟩ :: ⟨.nonterminal .fexpr, e⟩ ::
            ⟨.terminal (.char 40), ()⟩ :: stack, rest, reads ++ e.reads⟩ := by
        refine pass_shift (hTables _ _ _ ((entries_fexpr ?_).trans behindFexpr_paren))
        rw [← hBelow] at hKind
        exact hKind
      rw [FExpr.reads, ← List.append_assoc] at h
      have hClosed : CLoop.Returns (pass (syntaxGrammar F) tables)
          ⟨⟨.terminal (.char 41), ()⟩ :: ⟨.nonterminal .fexpr, e⟩ ::
            ⟨.terminal (.char 40), ()⟩ :: stack, rest, reads ++ e.reads⟩ outcome :=
        reduce_again (r := .fexprParen) (hTables _ _ _ (entries_close_fexpr hKind)) rfl h
      obtain ⟨kind, hWaits⟩ := exists_waits hKind
      rw [tokens_paren]
      exact shift_paren hTables hWaits (ih hGrouped (hBelow.symm ▸ hOpen) e.prec_pos rfl
        (.again hClose hClosed) (hBelow.symm ▸ hKind))
  | arith op a b ihLeft ihRight =>
      obtain ⟨hGroupedLeft, hGroupedRight, hPrecLeft, hPrecRight⟩ := hGrouped
      have hPrec : pending (stack.map Sigma.fst) < op.prec := hPending
      have hRightKind : waits (⟨.terminal op.token, op.mark⟩ :: ⟨.nonterminal .fexpr, a⟩ :: stack) =
          some .float := kindOf_fexpr op hKind
      rw [FExpr.reads, ← List.append_assoc, ← List.append_assoc] at h
      have hValues : valuesOf (Rule.fexprArith op).rhs
          [⟨.nonterminal .fexpr, a⟩, ⟨.terminal op.token, op.mark⟩, ⟨.nonterminal .fexpr, b⟩] =
          some ((a, op.mark, b, ()) : Values (Tree F) (Rule.fexprArith op).rhs) := by
        cases op <;> rfl
      have hBoth : CLoop.Returns (pass (syntaxGrammar F) tables)
          ⟨⟨.nonterminal .fexpr, b⟩ :: ⟨.terminal op.token, op.mark⟩ ::
            ⟨.nonterminal .fexpr, a⟩ :: stack, rest, reads ++ a.reads ++ b.reads⟩ outcome :=
        reduce_again (r := .fexprArith op)
          (hTables _ _ _ ((entries_fexpr (.inr hRightKind)).trans (behindFexpr_arith hEnds)))
          hValues h
      rw [tokens_arith]
      refine ihLeft hGroupedLeft hOpen (Nat.lt_of_lt_of_le hPrec hPrecLeft)
        (binds_ahead hPrecLeft) (.again (shift_fexpr hTables hKind hPrec a) ?_) hKind
      refine ihRight hGroupedRight (.inl hRightKind) ?_ ?_ hBoth (.inr hRightKind)
      · exact Nat.lt_of_le_of_lt (Nat.le_of_eq (pending_token op)) hPrecRight
      · exact binds_mono (Nat.le_of_lt hPrecRight) hEnds

/-- A FLOAT behind an INT is no expression. -/
theorem rejects_mixed (hTables : comparisonEntries.In tables) {e : FExpr F}
    (hMixed : e.toIExpr = none) (hGrouped : e.Grouped)
    (hOpen : waits stack = some .whole ∨ waits stack = some .either ∧ e.startsFloat = false)
    (hPending : pending (stack.map Sigma.fst) < e.prec) :
    CLoop.Returns (pass (syntaxGrammar F) tables) ⟨stack, e.tokens ++ rest, reads⟩
      .syntaxError := by
  induction e generalizing stack rest reads with
  | float fval =>
      rcases hOpen with hOnly | ⟨_, hStarts⟩
      · have hEntry : comparisonEntries (stack.map Sigma.fst) (some .float) = some .error :=
          comparisonEntries_operand hOnly
        exact .leave (pass_error (hTables _ _ _ hEntry))
      · cases hStarts
  | int ival => cases hMixed
  | paren e ih =>
      have hBelow : waits (⟨.terminal (.char 40), ()⟩ :: stack) = waits stack := waits_paren
      have hInside : CLoop.Returns (pass (syntaxGrammar F) tables)
          ⟨⟨.terminal (.char 40), ()⟩ :: stack, e.tokens ++ ⟨.char 41, ()⟩ :: rest, reads⟩
          .syntaxError :=
        ih (Option.map_eq_none_iff.mp hMixed) hGrouped (hBelow.symm ▸ hOpen) e.prec_pos
      obtain ⟨kind, hKind⟩ := exists_waits (hOpen.imp_right And.left)
      rw [tokens_paren]
      exact shift_paren hTables hKind hInside
  | arith op e₁ e₂ ihLeft ihRight =>
      obtain ⟨hGroupedLeft, hGroupedRight, hPrecLeft, hPrecRight⟩ := hGrouped
      have hPrec : pending (stack.map Sigma.fst) < op.prec := hPending
      rw [tokens_arith]
      cases hLeft : e₁.toIExpr with
      | none => exact ihLeft hLeft hGroupedLeft hOpen (Nat.lt_of_lt_of_le hPrec hPrecLeft)
      | some a =>
          have hRight : e₂.toIExpr = none := by
            rw [FExpr.toIExpr, hLeft, Option.bind_some] at hMixed
            exact Option.map_eq_none_iff.mp hMixed
          have hKind : waits stack = some .either ∨ waits stack = some .whole :=
            hOpen.elim .inr fun hEither => .inl hEither.1
          have hRightKind :
              waits (⟨.terminal op.token, op.mark⟩ :: ⟨.nonterminal .iexpr, a⟩ :: stack) =
              some .whole := kindOf_iexpr op hKind
          refine reads_iexpr hTables hLeft hGroupedLeft hKind
            (Nat.lt_of_lt_of_le hPrec hPrecLeft) (binds_ahead hPrecLeft)
            (fun _ _ => ordering_token op) (.again (shift_iexpr hTables hKind hPrec a) ?_)
          refine ihRight hRight hGroupedRight (.inl hRightKind) ?_
          exact Nat.lt_of_le_of_lt (Nat.le_of_eq (pending_token op)) hPrecRight

end Operands

section Conditions

variable {F : Type} {tables : Tables Terminal Nonterminal Rule} {e₁ e₂ : FExpr F} {op : Relation}
  {reads : List (Read F)}

def textA : CString := ⟨[97], by decide⟩

/-- `%]a[% ELSE %]b[% END %]` -/
def branches (F : Type) : List (Token F) :=
  [⟨.text, textA⟩, ⟨.elseWord, ()⟩, ⟨.text, textB⟩, ⟨.endWord, ()⟩]

/-- `[% IF` and a comparison, and the two parts. -/
def comparisonTokens (e₁ : FExpr F) (op : Relation) (e₂ : FExpr F) : List (Token F) :=
  ⟨.ifWord, ()⟩ :: (e₁.tokens ++ ⟨op.token, op.mark⟩ :: (e₂.tokens ++ branches F))

def branchReads (c : BExpr F) : List (Read F) :=
  [⟨.startIf, ((), c, ())⟩, ⟨.blockText, (textA, ())⟩, ⟨.blocksFirst, ((), ())⟩,
    ⟨.elseWord, ((), ())⟩, ⟨.blockText, (textB, ())⟩, ⟨.blocksFirst, ((), ())⟩,
    ⟨.endWord, ((), ())⟩, ⟨.conditionalsElse, ((), (), (), (), (), ())⟩,
    ⟨.statementConditionals, ((), ())⟩, ⟨.blockStatement, ((), ())⟩, ⟨.blocksFirst, ((), ())⟩,
    ⟨.template, ((), ())⟩]

/-- Behind its condition the template is read to the end. -/
theorem reads_branches (hTables : comparisonEntries.In tables) (c : BExpr F) :
    CLoop.Returns (pass (syntaxGrammar F) tables)
      ⟨[⟨.nonterminal .bexpr, c⟩, ⟨.terminal .ifWord, ()⟩], branches F, reads⟩
      (.accepted (reads ++ branchReads c)) := by
  have hLog : reads ++ branchReads c = reads ++ [⟨.startIf, ((), c, ())⟩] ++
      [⟨.blockText, (textA, ())⟩] ++ [⟨.blocksFirst, ((), ())⟩] ++ [⟨.elseWord, ((), ())⟩] ++
      [⟨.blockText, (textB, ())⟩] ++ [⟨.blocksFirst, ((), ())⟩] ++ [⟨.endWord, ((), ())⟩] ++
      [⟨.conditionalsElse, ((), (), (), (), (), ())⟩] ++ [⟨.statementConditionals, ((), ())⟩] ++
      [⟨.blockStatement, ((), ())⟩] ++ [⟨.blocksFirst, ((), ())⟩] ++
      [⟨.template, ((), ())⟩] := by
    simp [branchReads]
  rw [hLog]
  refine reduce_again (r := .startIf) (hTables _ _ _ rfl) rfl ?_
  refine .again (pass_shift (hTables _ _ _ rfl)) ?_
  refine reduce_again (r := .blockText) (hTables _ _ _ rfl) rfl ?_
  refine reduce_again (r := .blocksFirst) (hTables _ _ _ rfl) rfl ?_
  refine .again (pass_shift (hTables _ _ _ rfl)) ?_
  refine reduce_again (r := .elseWord) (hTables _ _ _ rfl) rfl ?_
  refine .again (pass_shift (hTables _ _ _ rfl)) ?_
  refine reduce_again (r := .blockText) (hTables _ _ _ rfl) rfl ?_
  refine reduce_again (r := .blocksFirst) (hTables _ _ _ rfl) rfl ?_
  refine .again (pass_shift (hTables _ _ _ rfl)) ?_
  refine reduce_again (r := .endWord) (hTables _ _ _ rfl) rfl ?_
  refine reduce_again (r := .conditionalsElse) (hTables _ _ _ rfl) rfl ?_
  refine reduce_again (r := .statementConditionals) (hTables _ _ _ rfl) rfl ?_
  refine reduce_again (r := .blockStatement) (hTables _ _ _ rfl) rfl ?_
  refine reduce_again (r := .blocksFirst) (hTables _ _ _ rfl) rfl ?_
  refine reduce_again (r := .template) (hTables _ _ _ rfl) rfl ?_
  exact .leave (pass_accept (g := syntaxGrammar F) (hTables _ _ _ rfl))

/-- The stack behind the first word. -/
abbrev ifStack (F : Type) : List (Entry (Tree F)) := [⟨.terminal .ifWord, ()⟩]

theorem shift_if (hTables : comparisonEntries.In tables) {input : List (Token F)}
    {outcome : Outcome (List (Read F))}
    (h : CLoop.Returns (pass (syntaxGrammar F) tables) ⟨ifStack F, input, reads⟩ outcome) :
    CLoop.Returns (pass (syntaxGrammar F) tables) ⟨[], ⟨.ifWord, ()⟩ :: input, reads⟩ outcome :=
  .again (pass_shift (hTables _ _ _ rfl)) h

/-- The left side is compared as a `float`. -/
def FExpr.LeftFloat (e : FExpr F) (op : Relation) : Prop :=
  e.startsFloat = true ∨ e.isInt = true ∧ op ≠ .eq

theorem binds_relation (level : Nat) (op : Relation) : binds level (some op.token) = false := by
  cases op <;> rfl

theorem pending_relation (op : Relation) (below : List Sym) :
    pending (.terminal op.token :: below) = 0 := by
  cases op <;> rfl

theorem reads_left_float (hTables : comparisonEntries.In tables) (hGrouped : e₁.Grouped)
    (hFloat : e₁.LeftFloat op) {rest : List (Token F)} {outcome : Outcome (List (Read F))}
    (h : CLoop.Returns (pass (syntaxGrammar F) tables)
      ⟨⟨.nonterminal .fexpr, e₁⟩ :: ifStack F, ⟨op.token, op.mark⟩ :: rest, reads ++ e₁.reads⟩
      outcome) :
    CLoop.Returns (pass (syntaxGrammar F) tables)
      ⟨ifStack F, e₁.tokens ++ ⟨op.token, op.mark⟩ :: rest, reads⟩ outcome := by
  rcases hFloat with hStarts | ⟨hInt, hOrder⟩
  · exact reads_fexpr hTables hGrouped (.inr ⟨rfl, hStarts⟩) e₁.prec_pos (binds_relation _ op) h
  · obtain ⟨n, rfl⟩ := FExpr.isInt_iff.mp hInt
    have hEntry : comparisonEntries [.terminal .int, .terminal .ifWord] (some op.token) =
        some (.reduce .fexprInt) := by
      cases op with
      | eq => exact absurd rfl hOrder
      | _ => rfl
    have hWaits : waits (ifStack F) = some .either := rfl
    exact shift_operand hTables hWaits rfl
      (reduce_again (r := .fexprInt) (hTables _ _ _ hEntry) rfl h)

/-- Two `float` values are compared. -/
theorem reads_relation (hTables : comparisonEntries.In tables) (hGrouped₁ : e₁.Grouped)
    (hGrouped₂ : e₂.Grouped) (hFloat : e₁.LeftFloat op) :
    Parses (syntaxGrammar F) tables (comparisonTokens e₁ op e₂) []
      (.accepted (e₁.reads ++ e₂.reads ++ [⟨.bexprRelation op, (e₁, op.mark, e₂, ())⟩] ++
        branchReads (.relation op e₁ e₂))) := by
  have hShift : comparisonEntries [.nonterminal .fexpr, .terminal .ifWord] (some op.token) =
      some .shift := by
    cases op <;> rfl
  have hReduce : comparisonEntries [.nonterminal .fexpr, .terminal op.token, .nonterminal .fexpr,
      .terminal .ifWord] (some .text) = some (.reduce (.bexprRelation op)) := by
    cases op <;> rfl
  have hValues : valuesOf (Rule.bexprRelation op).rhs
      [⟨.nonterminal .fexpr, e₁⟩, ⟨.terminal op.token, op.mark⟩, ⟨.nonterminal .fexpr, e₂⟩] =
      some ((e₁, op.mark, e₂, ()) : Values (Tree F) (Rule.bexprRelation op).rhs) := by
    cases op <;> rfl
  refine shift_if hTables (reads_left_float hTables hGrouped₁ hFloat ?_)
  refine .again (pass_shift (hTables _ _ _ hShift)) ?_
  refine reads_fexpr hTables hGrouped₂ (.inl (kindOf_relation op)) ?_ rfl ?_
  · exact Nat.lt_of_le_of_lt (Nat.le_of_eq (pending_relation op _)) e₂.prec_pos
  · refine reduce_again (r := .bexprRelation op) (hTables _ _ _ hReduce) hValues ?_
    exact reads_branches hTables _

/-- The left side of `==`, where it is an integer expression. -/
theorem reads_left_string (hTables : comparisonEntries.In tables) (hGrouped : e₁.Grouped)
    {a : IExpr} (hWhole : e₁.toIExpr = some a) {rest : List (Token F)}
    {outcome : Outcome (List (Read F))}
    (h : CLoop.Returns (pass (syntaxGrammar F) tables)
      ⟨⟨.terminal .opEq, ()⟩ :: ⟨.nonterminal .sexpr, .iexpr a⟩ :: ifStack F, rest,
        reads ++ (SExpr.iexpr a).reads⟩ outcome) :
    CLoop.Returns (pass (syntaxGrammar F) tables)
      ⟨ifStack F, e₁.tokens ++ ⟨.opEq, ()⟩ :: rest, reads⟩ outcome := by
  rw [SExpr.reads, ← List.append_assoc] at h
  refine reads_iexpr hTables hWhole hGrouped (.inl rfl) e₁.prec_pos rfl (fun _ _ => rfl) ?_
  refine reduce_again (r := .sexprIexpr) (hTables _ _ _ rfl) rfl ?_
  exact .again (pass_shift (hTables _ _ _ rfl)) h

theorem reads_right_string (hTables : comparisonEntries.In tables) (hGrouped : e₂.Grouped)
    {s t : SExpr F} (hString : e₂.toSExpr = some t) {outcome : Outcome (List (Read F))}
    (h : CLoop.Returns (pass (syntaxGrammar F) tables)
      ⟨⟨.nonterminal .sexpr, t⟩ :: ⟨.terminal .opEq, ()⟩ :: ⟨.nonterminal .sexpr, s⟩ :: ifStack F,
        branches F, reads ++ t.reads⟩ outcome) :
    CLoop.Returns (pass (syntaxGrammar F) tables)
      ⟨⟨.terminal .opEq, ()⟩ :: ⟨.nonterminal .sexpr, s⟩ :: ifStack F, e₂.tokens ++ branches F,
        reads⟩ outcome := by
  rw [FExpr.toSExpr] at hString
  split at hString
  · rename_i a hWhole
    cases hString
    rw [SExpr.reads, ← List.append_assoc] at h
    refine reads_iexpr hTables hWhole hGrouped (.inl rfl) e₂.prec_pos rfl (fun _ _ => rfl) ?_
    exact reduce_again (r := .sexprIexpr) (hTables _ _ _ rfl) rfl h
  · split at hString
    · rename_i hStarts
      cases hString
      rw [SExpr.reads, ← List.append_assoc] at h
      refine reads_fexpr hTables hGrouped (.inr ⟨rfl, hStarts⟩) e₂.prec_pos rfl ?_
      exact reduce_again (r := .sexprFexpr) (hTables _ _ _ rfl) rfl h
    · cases hString

/-- Two strings are compared where the left side of `==` is an integer expression. -/
theorem reads_sexprEq (hTables : comparisonEntries.In tables) (hGrouped₁ : e₁.Grouped)
    (hGrouped₂ : e₂.Grouped) {a : IExpr} {t : SExpr F} (hLeft : e₁.toIExpr = some a)
    (hRight : e₂.toSExpr = some t) :
    Parses (syntaxGrammar F) tables (comparisonTokens e₁ .eq e₂) []
      (.accepted ((SExpr.iexpr a).reads ++ t.reads ++ [⟨.bexprSexprEq, (.iexpr a, (), t, ())⟩] ++
        branchReads (.sexprEq (.iexpr a) t))) := by
  refine shift_if hTables (reads_left_string hTables hGrouped₁ hLeft ?_)
  refine reads_right_string hTables hGrouped₂ hRight ?_
  refine reduce_again (r := .bexprSexprEq) (hTables _ _ _ rfl) rfl ?_
  exact reads_branches hTables _

/-- No comparison begins with an INT that a FLOAT follows. -/
theorem rejects_left (hTables : comparisonEntries.In tables) (hGrouped : e₁.Grouped)
    (hMixed : e₁.toIExpr = none) (hStarts : e₁.startsFloat = false) :
    Parses (syntaxGrammar F) tables (comparisonTokens e₁ op e₂) [] .syntaxError :=
  shift_if hTables (rejects_mixed hTables hMixed hGrouped (.inr ⟨rfl, hStarts⟩) e₁.prec_pos)

theorem rejects_right (hTables : comparisonEntries.In tables) (hGrouped₁ : e₁.Grouped)
    (hGrouped₂ : e₂.Grouped) {a : IExpr} (hLeft : e₁.toIExpr = some a)
    (hRight : e₂.toSExpr = none) :
    Parses (syntaxGrammar F) tables (comparisonTokens e₁ .eq e₂) [] .syntaxError := by
  rw [FExpr.toSExpr] at hRight
  split at hRight
  · cases hRight
  · rename_i hMixed
    split at hRight
    · cases hRight
    · rename_i hStarts
      refine shift_if hTables (reads_left_string hTables hGrouped₁ hLeft ?_)
      exact rejects_mixed hTables hMixed hGrouped₂ (.inr ⟨rfl, Bool.eq_false_iff.mpr hStarts⟩)
        e₂.prec_pos

/-- The condition ends in front of an ordering of an integer expression of more than one
literal. -/
theorem rejects_ordering (hTables : comparisonEntries.In tables) (hGrouped : e₁.Grouped)
    {a : IExpr} (hWhole : e₁.toIExpr = some a) (hMore : e₁.isInt = false) (hOrder : op ≠ .eq) :
    Parses (syntaxGrammar F) tables (comparisonTokens e₁ op e₂) [] .syntaxError := by
  refine shift_if hTables ?_
  refine reads_iexpr hTables hWhole hGrouped (.inl rfl) e₁.prec_pos (binds_relation _ op) ?_ ?_
  · intro hInt
    rw [hMore] at hInt
    cases hInt
  · have hCondition : comparisonEntries [.nonterminal .iexpr, .terminal .ifWord]
        (some op.token) = some (.reduce .bexprIexpr) := by
      cases op with
      | eq => exact absurd rfl hOrder
      | _ => rfl
    have hEmpty : comparisonEntries [.nonterminal .conditionalsStart] (some op.token) =
        some (.reduce .blocksEmpty) := by
      cases op with
      | eq => exact absurd rfl hOrder
      | _ => rfl
    have hError : comparisonEntries [.nonterminal .blocks, .nonterminal .conditionalsStart]
        (some op.token) = some .error := by
      cases op with
      | eq => exact absurd rfl hOrder
      | _ => rfl
    refine reduce_again (r := .bexprIexpr) (hTables _ _ _ hCondition) rfl ?_
    refine reduce_again (r := .startIf) (hTables _ _ _ rfl) rfl ?_
    refine reduce_again (r := .blocksEmpty) (hTables _ _ _ hEmpty) rfl ?_
    exact .leave (pass_error (hTables _ _ _ hError))

end Conditions

end MonitoringPlug.Template
