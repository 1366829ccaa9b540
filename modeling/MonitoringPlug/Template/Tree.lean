import MonitoringPlug.Template.Actions

/-! Template trees in the shape of the grammar, the text they stand for, and
the proof that the actions of the parser produce this text. The trees carry the
values their conditions were evaluated to; evaluation itself is not modelled
here. -/
namespace MonitoringPlug.Template

open CMemory

/-- `conditionals_start` with the value of its boolean expression. -/
inductive CondStart where
  | ifExpr (bexpr : Int)
  | unlessExpr (bexpr : Int)

/-- The integer `mp_template_if` is called with. -/
def CondStart.expr : CondStart → Int
  | .ifExpr bexpr => bexpr
  | .unlessExpr bexpr => if bexpr = 0 then 1 else 0

mutual

/-- `block` and the statements below it. A value tag carries the string it
hands to `mp_template_append`: that of GET, of URL after encoding, or of a bare
expression. -/
inductive Item where
  | text (s : CString)
  | eol
  | value (s : Option CString)
  | cond (start : CondStart) (body : Blocks)
  | condElse (start : CondStart) (body orElse : Blocks)
  | switch (iexpr : Int) (cases : SwitchCases)

inductive Blocks where
  | empty
  | block (first : Item) (rest : Blocks)

inductive SwitchCases where
  | empty
  | case (iexpr : Int) (body : Blocks) (rest : SwitchCases)

end

def newline : CString := ⟨[10], by decide⟩

mutual

/-- The calls of the parser in document order. -/
def Item.actions : Item → List Action
  | .text s => [.append (some s)]
  | .eol => [.append (some newline)]
  | .value s => [.append s]
  | .cond start body => .ifInt start.expr :: (body.actions ++ [.endCond])
  | .condElse start body orElse =>
      .ifInt start.expr :: (body.actions ++ .orElse :: (orElse.actions ++ [.endCond]))
  | .switch iexpr cases => .switchInt iexpr :: (cases.actions ++ [.endCond])

def Blocks.actions : Blocks → List Action
  | .empty => []
  | .block first rest => first.actions ++ rest.actions

def SwitchCases.actions : SwitchCases → List Action
  | .empty => []
  | .case iexpr body rest => .caseInt iexpr :: (body.actions ++ rest.actions)

end

mutual

/-- The text a tree stands for: the chosen branches, in document order. -/
def Item.render : Item → List UInt8
  | .text s => s.bytes
  | .eol => newline.bytes
  | .value s => (s.map CString.bytes).getD []
  | .cond start body => if start.expr ≠ 0 then body.render else []
  | .condElse start body orElse => if start.expr ≠ 0 then body.render else orElse.render
  | .switch iexpr cases => cases.render iexpr

def Blocks.render : Blocks → List UInt8
  | .empty => []
  | .block first rest => first.render ++ rest.render

/-- Every part whose integer is the switched value is kept, in order. -/
def SwitchCases.render (value : Int) : SwitchCases → List UInt8
  | .empty => []
  | .case iexpr body rest => (if value = iexpr then body.render else []) ++ rest.render value

end

section Dropped

/-! A dropped part leaves every global as it was: constructs in it are counted
up and down again on the frame that drops it. -/

variable {st : State} {top : Conditional} {upper : List Conditional}

/-- The frame that drops the part with one more open construct in it. -/
def State.nested (st : State) (top : Conditional) (upper : List Conditional) : State :=
  { st with conditionals := { top with deep := top.deep + 1 } :: upper }

theorem deepen_eq (hStack : st.conditionals = top :: upper) :
    deepen st = some (st.nested top upper) := by
  simp [deepen, hStack, State.nested]

theorem mpTemplateIf_disabled (expr : Int) (hOff : st.outputDisable = true)
    (hStack : st.conditionals = top :: upper) :
    mpTemplateIf expr st = some (st.nested top upper) := by
  simp [mpTemplateIf, hOff, deepen_eq hStack]

theorem mpTemplateSwitchInt_disabled (i : Int) (hOff : st.outputDisable = true)
    (hStack : st.conditionals = top :: upper) :
    mpTemplateSwitchInt i st = some (st.nested top upper) := by
  simp [mpTemplateSwitchInt, hOff, deepen_eq hStack]

theorem mpTemplateElse_nested : mpTemplateElse (st.nested top upper) =
    some (st.nested top upper) := by
  simp [mpTemplateElse, State.nested]

theorem mpTemplateCaseInt_nested (i : Int) : mpTemplateCaseInt i (st.nested top upper) =
    some (st.nested top upper) := by
  simp [mpTemplateCaseInt, State.nested]

theorem mpTemplateEnd_nested (hStack : st.conditionals = top :: upper) :
    mpTemplateEnd (st.nested top upper) = some st := by
  cases st
  simp only [State.nested] at *
  subst hStack
  simp [mpTemplateEnd]

end Dropped

mutual

theorem Item.run_dropped (item : Item) {st : State} {top : Conditional}
    {upper : List Conditional} (hOff : st.outputDisable = true)
    (hStack : st.conditionals = top :: upper) :
    runActions item.actions st = some st := by
  -- Nested parts run on the same frame with `deep` raised, which is dropped too.
  have hNested : (st.nested top upper).outputDisable = true := hOff
  match item with
  | .text s => simp [Item.actions, runActions, Action.step, mpTemplateAppend_disabled _ hOff]
  | .eol => simp [Item.actions, runActions, Action.step, mpTemplateAppend_disabled _ hOff]
  | .value s => simp [Item.actions, runActions, Action.step, mpTemplateAppend_disabled _ hOff]
  | .cond start body =>
      have hBody := body.run_dropped hNested rfl
      simp [Item.actions, runActions, runActions_append, Action.step,
        mpTemplateIf_disabled _ hOff hStack, hBody, mpTemplateEnd_nested hStack]
  | .condElse start body orElse =>
      have hBody := body.run_dropped hNested rfl
      have hElse := orElse.run_dropped hNested rfl
      simp [Item.actions, runActions, runActions_append, Action.step,
        mpTemplateIf_disabled _ hOff hStack, hBody, mpTemplateElse_nested, hElse,
        mpTemplateEnd_nested hStack]
  | .switch iexpr cases =>
      have hCases := cases.run_dropped hOff hStack
      simp [Item.actions, runActions, runActions_append, Action.step,
        mpTemplateSwitchInt_disabled _ hOff hStack, hCases, mpTemplateEnd_nested hStack]

theorem Blocks.run_dropped (blocks : Blocks) {st : State} {top : Conditional}
    {upper : List Conditional} (hOff : st.outputDisable = true)
    (hStack : st.conditionals = top :: upper) :
    runActions blocks.actions st = some st := by
  match blocks with
  | .empty => rfl
  | .block first rest =>
      simp [Blocks.actions, runActions_append, first.run_dropped hOff hStack,
        rest.run_dropped hOff hStack]

/-- The cases of a dropped switch: its frame was never pushed, so CASE sees the
raised `deep` of the dropping frame and keeps the output off. -/
theorem SwitchCases.run_dropped (cases : SwitchCases) {st : State} {top : Conditional}
    {upper : List Conditional} (hOff : st.outputDisable = true)
    (hStack : st.conditionals = top :: upper) :
    runActions cases.actions (st.nested top upper) = some (st.nested top upper) := by
  match cases with
  | .empty => rfl
  | .case iexpr body rest =>
      have hNested : (st.nested top upper).outputDisable = true := hOff
      simp [SwitchCases.actions, runActions, runActions_append, Action.step,
        mpTemplateCaseInt_nested, body.run_dropped hNested rfl, rest.run_dropped hOff hStack]

end

/-- The state after a part was run: its text is appended, the stack is the old
one and the output is on or off as given. -/
structure State.After (st' : State) (conditionals : List Conditional) (out : List UInt8) :
    Prop where
  stack : st'.conditionals = conditionals
  rendered : st'.Rendered out

section Frame

variable {st : State} {out : List UInt8} {upper : List Conditional}

/-- END on the frame a kept construct pushed: the frame goes and output is on
again. -/
theorem mpTemplateEnd_frame {ival : Int} (h : st.After ({ deep := 0, ival := ival } :: upper) out) :
    ∃ st', mpTemplateEnd st = some st' ∧ st'.outputDisable = false ∧ st'.After upper out := by
  refine ⟨{ st with conditionals := upper, outputDisable := false }, ?_, rfl, rfl, ?_⟩
  · simp [mpTemplateEnd, h.stack]
  · exact ⟨h.rendered.holds, h.rendered.pos, h.rendered.len⟩

theorem mpTemplateElse_frame {ival : Int}
    (h : st.After ({ deep := 0, ival := ival } :: upper) out) :
    ∃ st', mpTemplateElse st = some st' ∧ st'.outputDisable = (ival != 0) ∧
      st'.After ({ deep := 0, ival := ival } :: upper) out := by
  refine ⟨{ st with outputDisable := ival != 0 }, ?_, rfl, h.stack, ?_⟩
  · simp [mpTemplateElse, h.stack]
  · exact ⟨h.rendered.holds, h.rendered.pos, h.rendered.len⟩

theorem mpTemplateCaseInt_frame {ival : Int} (i : Int)
    (h : st.After ({ deep := 0, ival := ival } :: upper) out) :
    ∃ st', mpTemplateCaseInt i st = some st' ∧ st'.outputDisable = (ival != i) ∧
      st'.After ({ deep := 0, ival := ival } :: upper) out := by
  refine ⟨{ st with outputDisable := ival != i }, ?_, rfl, h.stack, ?_⟩
  · simp [mpTemplateCaseInt, h.stack]
  · exact ⟨h.rendered.holds, h.rendered.pos, h.rendered.len⟩

theorem mpTemplateIf_enabled (expr : Int) (hOn : st.outputDisable = false)
    (h : st.After upper out) :
    ∃ st', mpTemplateIf expr st = some st' ∧ st'.outputDisable = (expr == 0) ∧
      st'.After ({ deep := 0, ival := expr } :: upper) out := by
  refine ⟨_, by simp [mpTemplateIf, hOn]; rfl, rfl, by simp [h.stack], ?_⟩
  exact ⟨h.rendered.holds, h.rendered.pos, h.rendered.len⟩

theorem mpTemplateSwitchInt_enabled (i : Int) (hOn : st.outputDisable = false)
    (h : st.After upper out) :
    ∃ st', mpTemplateSwitchInt i st = some st' ∧
      st'.After ({ deep := 0, ival := i } :: upper) out := by
  refine ⟨_, by simp [mpTemplateSwitchInt, hOn]; rfl, by simp [h.stack], ?_⟩
  exact ⟨h.rendered.holds, h.rendered.pos, h.rendered.len⟩

end Frame

/-- What running actions from an enabled output has to achieve. -/
def Refines (actions : List Action) (text : List UInt8) : Prop :=
  ∀ st conditionals out, st.After conditionals out → st.outputDisable = false →
    ∃ st', runActions actions st = some st' ∧ st'.outputDisable = false ∧
      st'.After conditionals (out ++ text)

theorem refines_append_string (s : Option CString) :
    Refines [.append s] ((s.map CString.bytes).getD []) := by
  intro st conditionals out h hOn
  obtain ⟨st', hStep, hText, hStack, hOn'⟩ := mpTemplateAppend_enabled s h.rendered hOn
  exact ⟨st', by simp [runActions, Action.step, hStep], hOn', hStack.trans h.stack, hText⟩

theorem Refines.append {front back : List Action} {first rest : List UInt8}
    (hFront : Refines front first) (hBack : Refines back rest) :
    Refines (front ++ back) (first ++ rest) := by
  intro st conditionals out h hOn
  obtain ⟨st₁, hRun₁, hOn₁, h₁⟩ := hFront st conditionals out h hOn
  obtain ⟨st₂, hRun₂, hOn₂, h₂⟩ := hBack st₁ conditionals _ h₁ hOn₁
  refine ⟨st₂, ?_, hOn₂, ?_⟩
  · rw [runActions_append, hRun₁, Option.bind_some, hRun₂]
  · rwa [List.append_assoc] at h₂

/-- A part below a pushed frame, kept or dropped by the output switch. -/
theorem Blocks.run_part {blocks : Blocks} (hKept : Refines blocks.actions blocks.render)
    {st : State} {frame : Conditional} {upper : List Conditional} {out : List UInt8}
    (h : st.After (frame :: upper) out) :
    ∃ st', runActions blocks.actions st = some st' ∧
      st'.After (frame :: upper) (out ++ if st.outputDisable then [] else blocks.render) := by
  cases hOff : st.outputDisable with
  | true => exact ⟨st, blocks.run_dropped hOff h.stack, by simpa using h⟩
  | false =>
      obtain ⟨st', hRun, _, h'⟩ := hKept st _ out h hOff
      exact ⟨st', hRun, by simpa using h'⟩

theorem refines_cond (start : CondStart) {body : Blocks}
    (hBody : Refines body.actions body.render) :
    Refines (Item.cond start body).actions (Item.cond start body).render := by
  intro st conditionals out h hOn
  obtain ⟨st₁, hIf, hOff₁, h₁⟩ := mpTemplateIf_enabled start.expr hOn h
  obtain ⟨st₂, hRun, h₂⟩ := Blocks.run_part hBody h₁
  obtain ⟨st₃, hEnd, hOn₃, h₃⟩ := mpTemplateEnd_frame h₂
  refine ⟨st₃, ?_, hOn₃, ?_⟩
  · simp [Item.actions, runActions, runActions_append, Action.step, hIf, hRun, hEnd]
  · by_cases hExpr : start.expr = 0
    · simpa [Item.render, hOff₁, hExpr] using h₃
    · simpa [Item.render, hOff₁, hExpr] using h₃

theorem refines_condElse (start : CondStart) {body orElse : Blocks}
    (hBody : Refines body.actions body.render)
    (hElse : Refines orElse.actions orElse.render) :
    Refines (Item.condElse start body orElse).actions
      (Item.condElse start body orElse).render := by
  intro st conditionals out h hOn
  obtain ⟨st₁, hIf, hOff₁, h₁⟩ := mpTemplateIf_enabled start.expr hOn h
  obtain ⟨st₂, hRun₂, h₂⟩ := Blocks.run_part hBody h₁
  obtain ⟨st₃, hSwap, hOff₃, h₃⟩ := mpTemplateElse_frame h₂
  obtain ⟨st₄, hRun₄, h₄⟩ := Blocks.run_part hElse h₃
  obtain ⟨st₅, hEnd, hOn₅, h₅⟩ := mpTemplateEnd_frame h₄
  refine ⟨st₅, ?_, hOn₅, ?_⟩
  · simp [Item.actions, runActions, runActions_append, Action.step, hIf, hRun₂, hSwap, hRun₄,
      hEnd]
  · by_cases hExpr : start.expr = 0
    · simpa [Item.render, hOff₁, hOff₃, hExpr] using h₅
    · simpa [Item.render, hOff₁, hOff₃, hExpr] using h₅

mutual

theorem Item.refines (item : Item) : Refines item.actions item.render := by
  match item with
  | .text s => exact refines_append_string (some s)
  | .eol => exact refines_append_string (some newline)
  | .value s => exact refines_append_string s
  | .cond start body => exact refines_cond start body.refines
  | .condElse start body orElse => exact refines_condElse start body.refines orElse.refines
  | .switch iexpr cases =>
      intro st conditionals out h hOn
      obtain ⟨st₁, hSwitch, h₁⟩ := mpTemplateSwitchInt_enabled iexpr hOn h
      obtain ⟨st₂, hRun, h₂⟩ := cases.run_frame h₁
      obtain ⟨st₃, hEnd, hOn₃, h₃⟩ := mpTemplateEnd_frame h₂
      refine ⟨st₃, ?_, hOn₃, h₃⟩
      simp [Item.actions, runActions, runActions_append, Action.step, hSwitch, hRun, hEnd]

theorem Blocks.refines (blocks : Blocks) : Refines blocks.actions blocks.render := by
  match blocks with
  | .empty =>
      intro st conditionals out h hOn
      exact ⟨st, rfl, hOn, by simpa [Blocks.render] using h⟩
  | .block first rest => exact first.refines.append rest.refines

/-- The cases run on the frame of their switch. Whether output is on between
two of them depends on the case before, so the text alone is tracked. -/
theorem SwitchCases.run_frame (cases : SwitchCases) {st : State} {value : Int}
    {upper : List Conditional} {out : List UInt8}
    (h : st.After ({ deep := 0, ival := value } :: upper) out) :
    ∃ st', runActions cases.actions st = some st' ∧
      st'.After ({ deep := 0, ival := value } :: upper) (out ++ cases.render value) := by
  match cases with
  | .empty => exact ⟨st, rfl, by simpa [SwitchCases.render] using h⟩
  | .case iexpr body rest =>
      obtain ⟨st₁, hCase, hOff₁, h₁⟩ := mpTemplateCaseInt_frame iexpr h
      obtain ⟨st₂, hBody, h₂⟩ := Blocks.run_part body.refines h₁
      obtain ⟨st₃, hRest, h₃⟩ := rest.run_frame h₂
      refine ⟨st₃, ?_, ?_⟩
      · simp [SwitchCases.actions, runActions, runActions_append, Action.step, hCase, hBody,
          hRest]
      · by_cases hValue : value = iexpr
        · simpa [SwitchCases.render, hOff₁, hValue] using h₃
        · simpa [SwitchCases.render, hOff₁, hValue] using h₃

end

/-- The actions that read the top frame whatever the output switch says. -/
def Action.ReadsFrame : Action → Prop
  | .orElse => True
  | .caseInt _ => True
  | .endCond => True
  | _ => False

theorem Action.ReadsFrame.stack_ne_nil {action : Action} (h : action.ReadsFrame) {st st' : State}
    (hStep : action.step st = some st') : st.conditionals ≠ [] := by
  intro hEmpty
  cases action with
  | append s => exact h
  | ifInt expr => exact h
  | switchInt i => exact h
  | orElse => simp [Action.step, mpTemplateElse, hEmpty] at hStep
  | caseInt i => simp [Action.step, mpTemplateCaseInt, hEmpty] at hStep
  | endCond => simp [Action.step, mpTemplateEnd, hEmpty] at hStep

/-- A run that succeeds reached each of its actions and took it. -/
theorem runActions_split {front back : List Action} {action : Action} {st st' : State}
    (h : runActions (front ++ action :: back) st = some st') :
    ∃ middle next, runActions front st = some middle ∧ action.step middle = some next := by
  rw [runActions_append, Option.bind_eq_some_iff] at h
  obtain ⟨middle, hFront, hRest⟩ := h
  rw [runActions, Option.bind_eq_some_iff] at hRest
  obtain ⟨next, hStep, _⟩ := hRest
  exact ⟨middle, next, hFront, hStep⟩

/-- Running the actions of a template from an enabled output, on top of any
conditional stack: all of them succeed, each one that reads the top frame finds
one, the text of the chosen branches is appended to the buffer with its NUL, and
the output switch and the whole stack are as before. -/
theorem runActions_render (template : Blocks) (st : State) (out : List UInt8)
    (hText : st.Rendered out) (hOn : st.outputDisable = false) :
    (∃ st', runActions template.actions st = some st' ∧
      st'.outputDisable = false ∧
      st'.conditionals = st.conditionals ∧
      st'.Rendered (out ++ template.render)) ∧
    ∀ front action back, template.actions = front ++ action :: back → action.ReadsFrame →
      ∃ middle, runActions front st = some middle ∧ middle.conditionals ≠ [] := by
  obtain ⟨st', hRun, hOn', h'⟩ := template.refines st st.conditionals out ⟨rfl, hText⟩ hOn
  refine ⟨⟨st', hRun, hOn', h'.stack, h'.rendered⟩, ?_⟩
  intro front action back hSplit hReads
  rw [hSplit] at hRun
  obtain ⟨middle, next, hFront, hStep⟩ := runActions_split hRun
  exact ⟨middle, hFront, hReads.stack_ne_nil hStep⟩

/-- A false IF whose dropped part nests a conditional and a switch, with an
ELSE part that switches, run on a stack with a counted frame on it. -/
theorem runActions_render_nested :
    let a : Item := .text ⟨[97], by decide⟩
    let b : Item := .text ⟨[98], by decide⟩
    let only (item : Item) : Blocks := .block item .empty
    let inner : Blocks := .block (.condElse (.ifExpr 1) (only a) (only b))
      (only (.switch 2 (.case 2 (only a) .empty)))
    let template : Blocks := only (.condElse (.ifExpr 0) inner
      (only (.switch 5 (.case 4 (only a) (.case 5 (only b) (.case 5 (only a) .empty))))))
    let st : State := initOutput ⟨false, [], 0, 0, [⟨3, 7⟩]⟩
    template.render = [98, 97] ∧
    ∃ st', runActions template.actions st = some st' ∧ st'.outputDisable = false ∧
      st'.conditionals = [⟨3, 7⟩] ∧ st'.Rendered [98, 97] := by
  intro a b only inner template st
  exact ⟨rfl, (runActions_render template st [] (initOutput_rendered _) rfl).1⟩

mutual

theorem Item.render_nulFree (item : Item) : 0 ∉ item.render := by
  match item with
  | .text s => exact s.nulFree
  | .eol => exact newline.nulFree
  | .value none => simp [Item.render]
  | .value (some s) => simpa [Item.render] using s.nulFree
  | .cond start body =>
      rw [Item.render]
      split
      · exact body.render_nulFree
      · simp
  | .condElse start body orElse =>
      rw [Item.render]
      split
      · exact body.render_nulFree
      · exact orElse.render_nulFree
  | .switch iexpr cases => exact cases.render_nulFree iexpr

theorem Blocks.render_nulFree (blocks : Blocks) : 0 ∉ blocks.render := by
  match blocks with
  | .empty => simp [Blocks.render]
  | .block first rest =>
      rw [Blocks.render, List.mem_append]
      exact not_or.mpr ⟨first.render_nulFree, rest.render_nulFree⟩

theorem SwitchCases.render_nulFree (cases : SwitchCases) (value : Int) :
    0 ∉ cases.render value := by
  match cases with
  | .empty => simp [SwitchCases.render]
  | .case iexpr body rest =>
      rw [SwitchCases.render, List.mem_append]
      refine not_or.mpr ⟨?_, rest.render_nulFree value⟩
      split
      · exact body.render_nulFree
      · simp

end

/-- The rendered text as the C string the caller of `mp_template_str` gets. -/
def Blocks.rendered (blocks : Blocks) : CString := ⟨blocks.render, blocks.render_nulFree⟩

/-- `mp_template_str` on a string the parser accepts as this template. -/
def mpTemplateStr (template : Blocks) (st : State) : Option State :=
  runActions template.actions (initOutput st)

/-- The returned buffer holds the rendered C string, and the globals other than
the buffer are ready for the next template. -/
theorem mpTemplateStr_rendered (template : Blocks) (st : State)
    (hOn : st.outputDisable = false) :
    ∃ st', mpTemplateStr template st = some st' ∧
      Holds st'.output template.rendered.terminated ∧
      st'.outputDisable = false ∧ st'.conditionals = st.conditionals := by
  obtain ⟨st', hRun, hOn', h'⟩ := template.refines (initOutput st) st.conditionals []
    ⟨rfl, initOutput_rendered st⟩ hOn
  exact ⟨st', hRun, h'.rendered.holds, hOn', h'.stack⟩

end MonitoringPlug.Template
