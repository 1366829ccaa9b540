import Mathlib.Computability.Language
import MonitoringPlug.Lib.Loop

/-! Parsers in the manner of bison: a stack of symbols with their semantic
values, the tokens still to come, and tables that say whether to shift, to reduce
by a rule and run its action, or to stop. The tables are arbitrary here, so what
is proved holds whatever conflicts a grammar has and however they are resolved. -/
namespace ShiftReduce

/-- The semantic values of the symbols on the right of a rule. -/
def Values {S : Type} (Value : S → Type) : List S → Type
  | [] => Unit
  | s :: rest => Value s × Values Value rest

/-- A symbol with its semantic value. -/
abbrev Entry {S : Type} (Value : S → Type) : Type := (s : S) × Value s

/-- The values of these entries if they are of these symbols. -/
def valuesOf {S : Type} [DecidableEq S] {Value : S → Type} :
    (symbols : List S) → List (Entry Value) → Option (Values Value symbols)
  | [], [] => some ()
  | s :: symbols, ⟨s', v⟩ :: entries =>
      if h : s' = s then (valuesOf symbols entries).map fun vs => (h ▸ v, vs) else none
  | _, _ => none

/-- A grammar with semantic actions. An action has no result where its code
faults. -/
structure Grammar (T N R State : Type) (Value : Symbol T N → Type) where
  start : N
  lhs : R → N
  rhs : R → List (Symbol T N)
  action : (r : R) → Values Value (rhs r) → State → Option (Value (.nonterminal (lhs r)) × State)

inductive Decision (R : Type) where
  | shift
  | reduce (rule : R)
  | accept
  | error

/-- What to do, from the symbols on the stack, its top first, and the token that
comes next. -/
abbrev Tables (T N R : Type) : Type := List (Symbol T N) → Option T → Decision R

/-- Some of the entries of the tables. -/
abbrev Entries (T N R : Type) : Type := List (Symbol T N) → Option T → Option (Decision R)

def Entries.In {T N R : Type} (entries : Entries T N R) (tables : Tables T N R) : Prop :=
  ∀ stack next decision, entries stack next = some decision → tables stack next = decision

inductive Outcome (State : Type) where
  | accepted (state : State)
  | syntaxError
  | fault

section Parser

variable {T N R State : Type} {Value : Symbol T N → Type}

/-- A terminal with its semantic value. -/
abbrev Token (Value : Symbol T N → Type) : Type := (t : T) × Value (.terminal t)

/-- The parser between two steps. -/
structure Config (State : Type) (Value : Symbol T N → Type) where
  stack : List (Entry Value)
  input : List (Token Value)
  state : State

variable [DecidableEq T] [DecidableEq N]

/-- One step. A table that asks for what the stack does not have is answered with
a syntax error. -/
def pass (g : Grammar T N R State Value) (tables : Tables T N R) (c : Config State Value) :
    CLoop.Pass (Config State Value) (Outcome State) :=
  match tables (c.stack.map Sigma.fst) (c.input.head?.map Sigma.fst) with
  | .shift =>
      match c.input with
      | [] => .leave .syntaxError
      | ⟨t, v⟩ :: input => .again { c with stack := ⟨.terminal t, v⟩ :: c.stack, input := input }
  | .reduce r =>
      let count := (g.rhs r).length
      match valuesOf (g.rhs r) (c.stack.take count).reverse with
      | none => .leave .syntaxError
      | some values =>
          match g.action r values c.state with
          | none => .leave .fault
          | some (v, state) =>
              .again { c with
                stack := ⟨.nonterminal (g.lhs r), v⟩ :: c.stack.drop count, state := state }
  | .accept =>
      if c.stack.map Sigma.fst = [.nonterminal g.start] ∧ c.input.isEmpty then
        .leave (.accepted c.state)
      else .leave .syntaxError
  | .error => .leave .syntaxError

/-- `yyparse`: how the parser stops on these tokens. -/
def Parses (g : Grammar T N R State Value) (tables : Tables T N R) (input : List (Token Value))
    (state : State) (outcome : Outcome State) : Prop :=
  CLoop.Returns (pass g tables) { stack := [], input := input, state := state } outcome

variable {g : Grammar T N R State Value} {tables : Tables T N R} {stack : List (Entry Value)}
  {input : List (Token Value)} {st st' : State}

theorem pass_shift {t : T} {v : Value (.terminal t)}
    (h : tables (stack.map Sigma.fst) (some t) = .shift) :
    pass g tables ⟨stack, ⟨t, v⟩ :: input, st⟩ = .again ⟨⟨.terminal t, v⟩ :: stack, input, st⟩ := by
  simp only [pass, List.head?_cons, Option.map_some, h]

theorem pass_reduce {r : R} {values : Values Value (g.rhs r)} {v : Value (.nonterminal (g.lhs r))}
    (h : tables (stack.map Sigma.fst) (input.head?.map Sigma.fst) = .reduce r)
    (hValues : valuesOf (g.rhs r) (stack.take (g.rhs r).length).reverse = some values)
    (hAction : g.action r values st = some (v, st')) :
    pass g tables ⟨stack, input, st⟩ =
      .again ⟨⟨.nonterminal (g.lhs r), v⟩ :: stack.drop (g.rhs r).length, input, st'⟩ := by
  simp only [pass, h, hValues, hAction]

theorem pass_accept {v : Value (.nonterminal g.start)}
    (h : tables [.nonterminal g.start] none = .accept) :
    pass g tables ⟨[⟨.nonterminal g.start, v⟩], [], st⟩ = .leave (.accepted st) := by
  simp [pass, h]

theorem pass_error {c : Config State Value}
    (h : tables (c.stack.map Sigma.fst) (c.input.head?.map Sigma.fst) = .error) :
    pass g tables c = .leave .syntaxError := by
  simp only [pass, h]

/-- The next step is a reduction by this rule, on these values. -/
structure Reduces (g : Grammar T N R State Value) (tables : Tables T N R) (c : Config State Value)
    (r : R) (values : Values Value (g.rhs r)) : Prop where
  decision : tables (c.stack.map Sigma.fst) (c.input.head?.map Sigma.fst) = .reduce r
  values : valuesOf (g.rhs r) (c.stack.take (g.rhs r).length).reverse = some values

/-- A step that does not stop shifts a token, or reduces and runs the action. -/
theorem pass_again {c next : Config State Value} (h : pass g tables c = .again next) :
    (∃ t v input, tables (c.stack.map Sigma.fst) (c.input.head?.map Sigma.fst) = .shift ∧
      c.input = ⟨t, v⟩ :: input ∧ next = ⟨⟨.terminal t, v⟩ :: c.stack, input, c.state⟩) ∨
    ∃ r values v st, Reduces g tables c r values ∧ g.action r values c.state = some (v, st) ∧
      next = ⟨⟨.nonterminal (g.lhs r), v⟩ :: c.stack.drop (g.rhs r).length, c.input, st⟩ := by
  rw [pass] at h
  split at h
  · rename_i hShift
    split at h
    · cases h
    · rename_i t v input hInput
      cases h
      exact .inl ⟨t, v, input, hShift, hInput, rfl⟩
  · rename_i r hReduce
    simp only at h
    split at h
    · cases h
    · rename_i values hValues
      split at h
      · cases h
      · rename_i v st hAction
        cases h
        exact .inr ⟨r, values, v, st, ⟨hReduce, hValues⟩, hAction, rfl⟩
  · split at h
    · cases h
    · cases h
  · cases h

end Parser

section Soundness

variable {T N R State : Type} {Value : Symbol T N → Type}

/-- A relation between a symbol, the tokens it stands for, and the states before
and after they were read. -/
abbrev Spec (State : Type) (Value : Symbol T N → Type) : Type :=
  (s : Symbol T N) → Value s → List (Token Value) → State → State → Prop

/-- Symbols one after the other. -/
def Chain (spec : Spec State Value) : (symbols : List (Symbol T N)) → Values Value symbols →
    List (Token Value) → State → State → Prop
  | [], _, tokens, st, st' => tokens = [] ∧ st' = st
  | s :: symbols, (v, values), tokens, st, st' =>
      ∃ front back middle, tokens = front ++ back ∧ spec s v front st middle ∧
        Chain spec symbols values back middle st'

/-- The entries of a stack one after the other, its top last. -/
def Stacked (spec : Spec State Value) (st : State) :
    List (Entry Value) → List (Token Value) → State → Prop
  | [], tokens, st' => tokens = [] ∧ st' = st
  | ⟨s, v⟩ :: below, tokens, st' =>
      ∃ front back middle, tokens = front ++ back ∧ Stacked spec st below front middle ∧
        spec s v back middle st'

/-- Every token and every rule of the grammar respects the relation. -/
structure Respects (g : Grammar T N R State Value) (spec : Spec State Value) : Prop where
  token : ∀ t v st, spec (.terminal t) v [⟨t, v⟩] st st
  rule : ∀ r values tokens st middle v st', Chain spec (g.rhs r) values tokens st middle →
    g.action r values middle = some (v, st') → spec (.nonterminal (g.lhs r)) v tokens st st'

variable [DecidableEq T] [DecidableEq N] {g : Grammar T N R State Value} {tables : Tables T N R}
  {spec : Spec State Value}

/-- The right side of a rule, taken off the stack, is a chain. -/
theorem Stacked.chain {st st' : State} {below entries : List (Entry Value)}
    {tokens : List (Token Value)} {symbols : List (Symbol T N)} {values : Values Value symbols}
    (hValues : valuesOf symbols entries = some values)
    (h : Stacked spec st (entries.reverse ++ below) tokens st') :
    ∃ front back middle, tokens = front ++ back ∧ Stacked spec st below front middle ∧
      Chain spec symbols values back middle st' := by
  induction symbols generalizing entries below with
  | nil =>
      cases entries with
      | nil => exact ⟨tokens, [], st', by simp, h, rfl, rfl⟩
      | cons entry entries => cases hValues
  | cons s symbols ih =>
      cases entries with
      | nil => cases hValues
      | cons entry entries =>
          obtain ⟨s', v⟩ := entry
          rw [valuesOf] at hValues
          split at hValues
          · rename_i hSymbol
            subst hSymbol
            obtain ⟨rest, hRest, rfl⟩ := Option.map_eq_some_iff.mp hValues
            rw [List.reverse_cons, List.append_assoc] at h
            obtain ⟨_, back, middle, rfl, ⟨front, own, first, rfl, hBelow, hSpec⟩, hChain⟩ :=
              ih hRest h
            exact ⟨front, own ++ back, first, List.append_assoc _ _ _, hBelow,
              own, back, middle, rfl, hSpec, hChain⟩
          · cases hValues

/-- What was read so far and what is still to come, with the relation on the stack. -/
def Invariant (spec : Spec State Value) (input : List (Token Value)) (st : State)
    (c : Config State Value) : Prop :=
  ∃ read, input = read ++ c.input ∧ Stacked spec st c.stack read c.state

theorem Respects.pass (hSpec : Respects g spec) {input : List (Token Value)} {st : State}
    {c next : Config State Value} (h : Invariant spec input st c)
    (hPass : pass g tables c = .again next) : Invariant spec input st next := by
  obtain ⟨read, hInput, hStacked⟩ := h
  rcases pass_again hPass with ⟨t, v, rest, _, hTokens, rfl⟩ |
    ⟨r, values, v, state, hReduces, hAction, rfl⟩
  · refine ⟨read ++ [⟨t, v⟩], ?_, read, [⟨t, v⟩], c.state, rfl, hStacked, hSpec.token _ _ _⟩
    rw [hInput, hTokens, List.append_assoc, List.singleton_append]
  · have hSplit := List.take_append_drop (g.rhs r).length c.stack
    rw [← hSplit, ← List.reverse_reverse (c.stack.take _)] at hStacked
    obtain ⟨front, back, middle, rfl, hBelow, hChain⟩ := hStacked.chain hReduces.values
    exact ⟨front ++ back, hInput, front, back, middle, rfl, hBelow,
      hSpec.rule r values back _ _ v _ hChain hAction⟩

theorem pass_accepted_iff {c : Config State Value} {st : State} :
    pass g tables c = .leave (.accepted st) ↔
      tables (c.stack.map Sigma.fst) (c.input.head?.map Sigma.fst) = .accept ∧
        c.stack.map Sigma.fst = [.nonterminal g.start] ∧ c.input = [] ∧ st = c.state := by
  rw [pass]
  split
  · rename_i hShift
    simp only [hShift, reduceCtorEq, false_and, iff_false]
    split <;> rintro ⟨⟩
  · rename_i hReduce
    simp only [hReduce, reduceCtorEq, false_and, iff_false]
    split
    · rintro ⟨⟩
    · split <;> rintro ⟨⟩
  · rename_i hAccept
    split
    · rename_i hStack
      constructor
      · rintro ⟨⟩
        exact ⟨hAccept, hStack.1, List.isEmpty_iff.mp hStack.2, rfl⟩
      · rintro ⟨_, _, _, rfl⟩
        rfl
    · rename_i hStack
      refine iff_of_false (by rintro ⟨⟩) ?_
      rintro ⟨_, hSymbols, hInput, _⟩
      exact hStack ⟨hSymbols, List.isEmpty_iff.mpr hInput⟩
  · rename_i hError
    simp only [hError, reduceCtorEq, false_and, iff_false]
    rintro ⟨⟩

/-- What a parser accepts stands in the relation of the start symbol to the states. -/
theorem Respects.accepted (hSpec : Respects g spec) {st st' : State}
    {input : List (Token Value)} (h : Parses g tables input st (.accepted st')) :
    ∃ v, spec (.nonterminal g.start) v input st st' := by
  obtain ⟨last, hReaches, hLeave⟩ := CLoop.Returns.exists_leave h
  have hInv : Invariant spec input st last :=
    hReaches.invariant (Invariant spec input st) ⟨[], rfl, rfl, rfl⟩
      fun _ _ _ hInv hPass => hSpec.pass hInv hPass
  obtain ⟨read, hInput, hStacked⟩ := hInv
  obtain ⟨_, hStack, hEnd, hState⟩ := pass_accepted_iff.mp hLeave
  subst hState
  rw [hEnd, List.append_nil] at hInput
  subst hInput
  cases hEntries : last.stack with
  | nil => simp [hEntries] at hStack
  | cons entry below =>
      rw [hEntries] at hStack hStacked
      obtain ⟨s, v⟩ := entry
      simp only [List.map_cons, List.cons.injEq, List.map_eq_nil_iff] at hStack
      obtain ⟨rfl, rfl⟩ := hStack
      obtain ⟨_, back, middle, rfl, ⟨rfl, rfl⟩, hStart⟩ := hStacked
      exact ⟨v, hStart⟩

end Soundness

end ShiftReduce
