import MonitoringPlug.Lib.ShiftReduce

/-! The reductions that a parser makes. The same grammar with trees for its values reads an
input without running any code. The code of the grammar is run on what was read, one
reduction after the other, up to the first that has no result. -/
namespace ShiftReduce

variable {T N R State Log : Type} {Value Tree : Symbol T N → Type}

section Reader

def mapValues (f : ∀ s, Tree s → Value s) :
    (symbols : List (Symbol T N)) → Values Tree symbols → Values Value symbols
  | [], _ => ()
  | s :: symbols, (v, values) => (f s v, mapValues f symbols values)

def mapEntry (f : ∀ s, Tree s → Value s) (entry : Entry Tree) : Entry Value :=
  ⟨entry.1, f entry.1 entry.2⟩

def mapToken (f : ∀ s, Tree s → Value s) (t : Token Tree) : Token Value :=
  ⟨t.1, f (.terminal t.1) t.2⟩

/-- The values of the trees, in a state of another grammar. -/
def Config.map (f : ∀ s, Tree s → Value s) (c : Config Log Tree) (st : State) :
    Config State Value :=
  ⟨c.stack.map (mapEntry f), c.input.map (mapToken f), st⟩

/-- A rule with the trees of its right side. -/
abbrev Reduction (g : Grammar T N R State Value) (Tree : Symbol T N → Type) : Type :=
  (r : R) × Values Tree (g.rhs r)

/-- A grammar that builds trees and writes down its reductions. -/
def Grammar.reader (g : Grammar T N R State Value)
    (build : (r : R) → Values Tree (g.rhs r) → Tree (.nonterminal (g.lhs r))) :
    Grammar T N R (List (Reduction g Tree)) Tree where
  start := g.start
  lhs := g.lhs
  rhs := g.rhs
  action r trees log := some (build r trees, log ++ [⟨r, trees⟩])

/-- The code of reductions, run one after the other. -/
def replay (g : Grammar T N R State Value) (f : ∀ s, Tree s → Value s) :
    List (Reduction g Tree) → State → Option State
  | [], st => some st
  | ⟨r, trees⟩ :: rest, st =>
      (g.action r (mapValues f (g.rhs r) trees) st).bind fun (_, st') => replay g f rest st'

/-- The value of a tree that is built is the one the code computes. -/
def Evaluates (g : Grammar T N R State Value) (f : ∀ s, Tree s → Value s)
    (build : (r : R) → Values Tree (g.rhs r) → Tree (.nonterminal (g.lhs r))) : Prop :=
  ∀ r trees st v st', g.action r (mapValues f (g.rhs r) trees) st = some (v, st') →
    v = f (.nonterminal (g.lhs r)) (build r trees)

theorem replay_append {g : Grammar T N R State Value} {f : ∀ s, Tree s → Value s}
    (front back : List (Reduction g Tree)) (st : State) :
    replay g f (front ++ back) st = (replay g f front st).bind (replay g f back) := by
  induction front generalizing st with
  | nil => rfl
  | cons reduction front ih =>
      rw [List.cons_append, replay, replay, Option.bind_assoc]
      exact Option.bind_congr fun next _ => ih next.2

theorem map_fst_mapEntry (f : ∀ s, Tree s → Value s) (stack : List (Entry Tree)) :
    (stack.map (mapEntry f)).map Sigma.fst = stack.map Sigma.fst := by
  rw [List.map_map]
  rfl

theorem head_mapToken (f : ∀ s, Tree s → Value s) (input : List (Token Tree)) :
    (input.map (mapToken f)).head?.map Sigma.fst = input.head?.map Sigma.fst := by
  cases input with
  | nil => rfl
  | cons t input => rfl

variable [DecidableEq T] [DecidableEq N]

theorem valuesOf_mapEntry (f : ∀ s, Tree s → Value s) (symbols : List (Symbol T N))
    (entries : List (Entry Tree)) :
    valuesOf symbols (entries.map (mapEntry f)) =
      (valuesOf symbols entries).map (mapValues f symbols) := by
  induction symbols generalizing entries with
  | nil =>
      cases entries with
      | nil => rfl
      | cons entry entries => rfl
  | cons s symbols ih =>
      cases entries with
      | nil => rfl
      | cons entry entries =>
          obtain ⟨s', v⟩ := entry
          rw [List.map_cons, mapEntry, valuesOf, valuesOf]
          split
          · rename_i hSymbol
            subst hSymbol
            rw [ih]
            cases valuesOf symbols entries with
            | none => rfl
            | some values => rfl
          · rfl

end Reader

section Run

variable [DecidableEq T] [DecidableEq N] {g : Grammar T N R State Value}
  {tables : Tables T N R} {f : ∀ s, Tree s → Value s}
  {build : (r : R) → Values Tree (g.rhs r) → Tree (.nonterminal (g.lhs r))}
  {c d next : Config (List (Reduction g Tree)) Tree} {input : List (Token Tree)} {st st' : State}

theorem Reduces.map {r : R} {trees : Values Tree (g.rhs r)}
    (h : Reduces (g.reader build) tables c r trees) (f : ∀ s, Tree s → Value s) (st : State) :
    Reduces g tables (c.map f st) r (mapValues f (g.rhs r) trees) := by
  constructor
  · rw [Config.map, map_fst_mapEntry, head_mapToken]
    exact h.decision
  · rw [Config.map, ← List.map_take, ← List.map_reverse, valuesOf_mapEntry]
    exact congrArg (Option.map (mapValues f (g.rhs r))) h.values

theorem Reduces.of_map {r : R} {values : Values Value (g.rhs r)}
    (h : Reduces g tables (c.map f st) r values) :
    ∃ trees : Values Tree (g.rhs r), Reduces (g.reader build) tables c r trees ∧
      values = mapValues f (g.rhs r) trees := by
  have hDecision := h.decision
  have hValues := h.values
  rw [Config.map, map_fst_mapEntry, head_mapToken] at hDecision
  rw [Config.map, ← List.map_take, ← List.map_reverse, valuesOf_mapEntry] at hValues
  obtain ⟨trees, hTrees, rfl⟩ := Option.map_eq_some_iff.mp hValues
  exact ⟨trees, ⟨hDecision, hTrees⟩, rfl⟩

/-- A step of the reader shifts, or reduces and writes that down. -/
theorem reader_pass (h : pass (g.reader build) tables c = .again next) :
    (∃ t v rest, tables (c.stack.map Sigma.fst) (c.input.head?.map Sigma.fst) = .shift ∧
      c.input = ⟨t, v⟩ :: rest ∧ next = ⟨⟨.terminal t, v⟩ :: c.stack, rest, c.state⟩) ∨
    ∃ (r : R) (trees : Values Tree (g.rhs r)), Reduces (g.reader build) tables c r trees ∧
      next = ⟨⟨.nonterminal (g.lhs r), build r trees⟩ :: c.stack.drop (g.rhs r).length, c.input,
        c.state ++ [⟨r, trees⟩]⟩ := by
  rcases pass_again h with hShift | ⟨r, trees, v, log, hReduces, hAction, rfl⟩
  · exact .inl hShift
  · cases hAction
    exact .inr ⟨r, trees, hReduces, rfl⟩

/-- The same token is shifted where the code is run. -/
theorem pass_shift_map {t : T} {v : Tree (.terminal t)} {rest : List (Token Tree)}
    (hShift : tables (c.stack.map Sigma.fst) (c.input.head?.map Sigma.fst) = .shift)
    (hInput : c.input = ⟨t, v⟩ :: rest) :
    pass g tables (c.map f st) =
      .again (Config.map f
        (⟨⟨.terminal t, v⟩ :: c.stack, rest, c.state⟩ : Config (List (Reduction g Tree)) Tree)
        st) := by
  rw [Config.map, hInput]
  refine pass_shift ?_
  rw [map_fst_mapEntry]
  rw [hInput] at hShift
  exact hShift

/-- The reader notes the reduction. -/
theorem Reduces.reads {r : R} {trees : Values Tree (g.rhs r)}
    (h : Reduces (g.reader build) tables c r trees) :
    pass (g.reader build) tables c = .again
      ⟨⟨.nonterminal (g.lhs r), build r trees⟩ :: c.stack.drop (g.rhs r).length, c.input,
        c.state ++ [⟨r, trees⟩]⟩ :=
  pass_reduce h.decision h.values rfl

/-- The same reduction, with the code run. -/
theorem Reduces.pass_map {r : R} {trees : Values Tree (g.rhs r)} (hEval : Evaluates g f build)
    (h : Reduces (g.reader build) tables c r trees) {v : Value (.nonterminal (g.lhs r))}
    (hAction : g.action r (mapValues f (g.rhs r) trees) st = some (v, st')) :
    pass g tables (c.map f st) = .again (Config.map f
      (⟨⟨.nonterminal (g.lhs r), build r trees⟩ :: c.stack.drop (g.rhs r).length, c.input,
        c.state ++ [⟨r, trees⟩]⟩ : Config (List (Reduction g Tree)) Tree) st') := by
  have hMap := h.map f st
  refine (pass_reduce hMap.decision hMap.values hAction).trans ?_
  rw [hEval r trees st v st' hAction, Config.map, Config.map, List.map_cons, List.map_drop]
  rfl

/-- Where the code of everything read so far has a result, the run gets as far. -/
theorem reaches_map (hEval : Evaluates g f build)
    (h : CLoop.Reaches (pass (g.reader build) tables) ⟨[], input, []⟩ c)
    (hReplay : replay g f c.state st = some st') :
    CLoop.Reaches (pass g tables) ⟨[], input.map (mapToken f), st⟩ (c.map f st') := by
  induction h generalizing st' with
  | start =>
      cases hReplay
      exact .start
  | pass prior last ih =>
      rcases reader_pass last with ⟨t, v, rest, hShift, hInput, rfl⟩ | ⟨r, trees, hReduces, rfl⟩
      · exact (ih hReplay).pass (pass_shift_map hShift hInput)
      · rw [replay_append] at hReplay
        obtain ⟨middle, hFront, hLast⟩ := Option.bind_eq_some_iff.mp hReplay
        obtain ⟨⟨v, after⟩, hAction, hDone⟩ := Option.bind_eq_some_iff.mp hLast
        cases hDone
        exact (ih hFront).pass (hReduces.pass_map hEval hAction)

/-- The run goes through nothing else. -/
theorem reaches_of_map (hEval : Evaluates g f build) {e : Config State Value}
    (h : CLoop.Reaches (pass g tables) ⟨[], input.map (mapToken f), st⟩ e) :
    ∃ c st', CLoop.Reaches (pass (g.reader build) tables) ⟨[], input, []⟩ c ∧
      replay g f c.state st = some st' ∧ e = c.map f st' := by
  induction h with
  | start => exact ⟨_, st, .start, rfl, rfl⟩
  | pass prior last ih =>
      obtain ⟨c, st', hReaches, hReplay, rfl⟩ := ih
      rcases pass_again last with ⟨t, v, rest, hShift, hTokens, rfl⟩ |
        ⟨r, values, v, after, hReduces, hAction, rfl⟩
      · obtain ⟨stack, tokens, log⟩ := c
        cases tokens with
        | nil => cases hTokens
        | cons token tokens =>
            cases hTokens
            rw [Config.map, map_fst_mapEntry] at hShift
            exact ⟨_, st', hReaches.pass (pass_shift hShift), hReplay, rfl⟩
      · obtain ⟨trees, hTrees, rfl⟩ : ∃ trees : Values Tree (g.rhs r),
            Reduces (g.reader build) tables c r trees ∧ values = mapValues f (g.rhs r) trees :=
          hReduces.of_map
        have hLast : replay g f [⟨r, trees⟩] st' = some after := by
          rw [replay]
          exact Option.bind_eq_some_iff.mpr ⟨_, hAction, rfl⟩
        refine ⟨_, after, hReaches.pass hTrees.reads, ?_, ?_⟩
        · rw [replay_append, hReplay, Option.bind_some, hLast]
        · exact CLoop.Pass.again.inj (last.symm.trans (hTrees.pass_map hEval hAction))

/-- What was read stays. -/
theorem reads_prefix (h : CLoop.Reaches (pass (g.reader build) tables) c d) :
    ∃ more, d.state = c.state ++ more := by
  induction h with
  | start => exact ⟨[], (List.append_nil _).symm⟩
  | pass prior last ih =>
      obtain ⟨more, hMore⟩ := ih
      rcases reader_pass last with ⟨t, v, rest, _, _, rfl⟩ | ⟨r, trees, _, rfl⟩
      · exact ⟨more, hMore⟩
      · exact ⟨more ++ [⟨r, trees⟩], by rw [hMore, List.append_assoc]⟩

/-- Everything that was read was the next reduction once, behind what was read before. -/
theorem reads_reduction {front back : List (Reduction g Tree)} {r : R}
    {trees : Values Tree (g.rhs r)}
    (h : CLoop.Reaches (pass (g.reader build) tables) ⟨[], input, []⟩ d)
    (hLog : d.state = front ++ ⟨r, trees⟩ :: back) :
    ∃ c, CLoop.Reaches (pass (g.reader build) tables) ⟨[], input, []⟩ c ∧ c.state = front ∧
      Reduces (g.reader build) tables c r trees := by
  induction h generalizing back with
  | start => exact absurd hLog.symm (List.append_ne_nil_of_right_ne_nil _ (List.cons_ne_nil _ _))
  | pass prior last ih =>
      rcases reader_pass last with ⟨t, v, rest, _, _, rfl⟩ | ⟨r', trees', hReduces, rfl⟩
      · exact ih hLog
      · rcases List.eq_nil_or_concat back with rfl | ⟨back, reduction, rfl⟩
        · obtain ⟨hFront, hLast⟩ := List.append_inj' hLog rfl
          cases hLast
          exact ⟨_, prior, hFront, hReduces⟩
        · rw [List.concat_eq_append, ← List.cons_append, ← List.append_assoc] at hLog
          exact ih (List.append_inj' hLog rfl).1

/-- An input is accepted when the reader accepts it and the code of all that is read has a
result. -/
theorem parses_accepted_iff (hEval : Evaluates g f build) :
    Parses g tables (input.map (mapToken f)) st (.accepted st') ↔
      ∃ log, Parses (g.reader build) tables input [] (.accepted log) ∧
        replay g f log st = some st' := by
  constructor
  · intro h
    obtain ⟨e, hReaches, hLeave⟩ := CLoop.Returns.exists_leave h
    obtain ⟨c, after, hReader, hReplay, rfl⟩ := reaches_of_map hEval hReaches
    obtain ⟨hAccept, hStack, hInput, rfl⟩ := pass_accepted_iff.mp hLeave
    rw [Config.map, map_fst_mapEntry, head_mapToken] at hAccept
    rw [Config.map, map_fst_mapEntry] at hStack
    have hEnd : pass (g.reader build) tables c = .leave (.accepted c.state) :=
      pass_accepted_iff.mpr ⟨hAccept, hStack, List.map_eq_nil_iff.mp hInput, rfl⟩
    exact ⟨c.state, hReader.returns_from (.leave hEnd), hReplay⟩
  · rintro ⟨log, hReads, hReplay⟩
    obtain ⟨c, hReader, hLeave⟩ := CLoop.Returns.exists_leave hReads
    obtain ⟨hAccept, hStack, hInput, rfl⟩ := pass_accepted_iff.mp hLeave
    have hEnd : pass g tables (c.map f st') = .leave (.accepted st') := by
      refine pass_accepted_iff.mpr ⟨?_, ?_, ?_, rfl⟩
      · rw [Config.map, map_fst_mapEntry, head_mapToken]
        exact hAccept
      · rw [Config.map, map_fst_mapEntry]
        exact hStack
      · rw [Config.map, hInput]
        rfl
    exact (reaches_map hEval hReader hReplay).returns_from (.leave hEnd)

/-- What an accepted run reduces, with the values of the trees, is what the reader reads, as
far as the code of what comes before has a result. -/
theorem reaches_reduction_iff (hEval : Evaluates g f build) {log : List (Reduction g Tree)}
    (hReads : Parses (g.reader build) tables input [] (.accepted log))
    (P : (r : R) → Values Value (g.rhs r) → Prop) :
    (∃ c r values, CLoop.Reaches (pass g tables) ⟨[], input.map (mapToken f), st⟩ c ∧
      Reduces g tables c r values ∧ P r values) ↔
    ∃ front r trees back, log = front ++ ⟨r, trees⟩ :: back ∧
      (replay g f front st).isSome ∧ P r (mapValues f (g.rhs r) trees) := by
  obtain ⟨last, hLast, hLeave⟩ := CLoop.Returns.exists_leave hReads
  obtain ⟨_, _, _, hLog⟩ := pass_accepted_iff.mp hLeave
  constructor
  · rintro ⟨e, r, values, hReaches, hReduces, hP⟩
    obtain ⟨c, st', hReader, hReplay, rfl⟩ := reaches_of_map hEval hReaches
    obtain ⟨trees, hTrees, rfl⟩ : ∃ trees : Values Tree (g.rhs r),
        Reduces (g.reader build) tables c r trees ∧ values = mapValues f (g.rhs r) trees :=
      hReduces.of_map
    obtain ⟨finish, hRest, hFinish⟩ :=
      CLoop.Returns.exists_leave ((hReader.pass hTrees.reads).returns hReads)
    obtain ⟨more, hMore⟩ := reads_prefix hRest
    obtain ⟨_, _, _, hState⟩ := pass_accepted_iff.mp hFinish
    refine ⟨c.state, r, trees, more, ?_, by rw [hReplay]; rfl, hP⟩
    rw [hState, hMore, List.append_assoc, List.singleton_append]
  · rintro ⟨front, r, trees, back, rfl, hSome, hP⟩
    obtain ⟨st', hReplay⟩ := Option.isSome_iff_exists.mp hSome
    obtain ⟨c, hReader, rfl, hReduces⟩ := reads_reduction hLast hLog.symm
    exact ⟨_, r, _, reaches_map hEval hReader hReplay, hReduces.map f st', hP⟩

end Run

end ShiftReduce
