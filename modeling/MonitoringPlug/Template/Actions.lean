import MonitoringPlug.Lib.Block

/-! The output buffer and the conditional stack of the template engine, and the
functions the grammar actions call. A `none` result is a dereference of the
empty conditional stack or a write past the output buffer. -/
namespace MonitoringPlug.Template

open CMemory

/-- `struct mp_template_conditional_list`. The `upper` links are the list
structure of the stack, and every frame is pushed as `COND_INT`. -/
structure Conditional where
  deep : Nat
  ival : Int
deriving DecidableEq, Repr

/-- The globals of the engine. `output` is the allocated object itself;
`outputLen` is only what the engine believes its size to be. -/
structure State where
  outputDisable : Bool
  output : Block
  outputLen : Nat
  outputPos : Nat
  conditionals : List Conditional
deriving DecidableEq

def memblock : Nat := 64

/-- The `while` that raises `mp_template_output_len` block by block. Every
round adds a whole block, so `need` rounds are enough. -/
def growLen (need : Nat) : Nat → Nat → Nat
  | 0, len => len
  | rounds + 1, len => if len < need then growLen need rounds (len + memblock) else len

def resize (need : Nat) (st : State) : State :=
  if st.outputLen < need then
    let outputLen := growLen need need st.outputLen + memblock
    { st with outputLen := outputLen, output := realloc st.output outputLen }
  else st

/-- A NULL string is what `getenv` gives for an unset label. -/
def mpTemplateAppend (s : Option CString) (st : State) : Option State :=
  match s with
  | none => some st
  | some s =>
      if st.outputDisable then some st
      else
        let st := resize (st.outputPos + s.strlen + 1) st
        (store st.output st.outputPos s.terminated).map fun output =>
          { st with output := output, outputPos := st.outputPos + s.strlen }

/-- Inside a dropped part a construct is not pushed: it only raises `deep` of
the frame whose part is dropped. -/
def deepen (st : State) : Option State :=
  match st.conditionals with
  | [] => none
  | top :: upper => some { st with conditionals := { top with deep := top.deep + 1 } :: upper }

def mpTemplateIf (expr : Int) (st : State) : Option State :=
  if st.outputDisable then deepen st
  else
    some { st with
      conditionals := { deep := 0, ival := expr } :: st.conditionals
      outputDisable := expr == 0 }

def mpTemplateElse (st : State) : Option State :=
  match st.conditionals with
  | [] => none
  | top :: _ =>
      if 0 < top.deep then some st
      else some { st with outputDisable := top.ival != 0 }

def mpTemplateSwitchInt (i : Int) (st : State) : Option State :=
  if st.outputDisable then deepen st
  else
    some { st with
      conditionals := { deep := 0, ival := i } :: st.conditionals
      outputDisable := true }

def mpTemplateCaseInt (i : Int) (st : State) : Option State :=
  match st.conditionals with
  | [] => none
  | top :: _ =>
      if 0 < top.deep then some st
      else some { st with outputDisable := top.ival != i }

def mpTemplateEnd (st : State) : Option State :=
  match st.conditionals with
  | [] => none
  | top :: upper =>
      if 0 < top.deep then
        some { st with conditionals := { top with deep := top.deep - 1 } :: upper }
      else some { st with conditionals := upper, outputDisable := false }

/-- The globals as `mp_template` and `mp_template_str` leave them before they
start the parser: only the buffer is set up anew. -/
def initOutput (st : State) : State :=
  { st with output := zalloc memblock, outputLen := memblock, outputPos := 0 }

/-- The calls the grammar actions make. -/
inductive Action where
  | append (s : Option CString)
  | ifInt (expr : Int)
  | orElse
  | switchInt (i : Int)
  | caseInt (i : Int)
  | endCond

def Action.step : Action → State → Option State
  | .append s => mpTemplateAppend s
  | .ifInt expr => mpTemplateIf expr
  | .orElse => mpTemplateElse
  | .switchInt i => mpTemplateSwitchInt i
  | .caseInt i => mpTemplateCaseInt i
  | .endCond => mpTemplateEnd

def runActions : List Action → State → Option State
  | [], st => some st
  | action :: rest, st => (action.step st).bind (runActions rest)

theorem runActions_append (front back : List Action) (st : State) :
    runActions (front ++ back) st = (runActions front st).bind (runActions back) := by
  induction front generalizing st with
  | nil => rfl
  | cons action rest ih =>
      simp only [List.cons_append, runActions, Option.bind_assoc]
      exact Option.bind_congr fun next _ => ih next

/-- The buffer holds exactly `out` and its NUL, the position is that NUL, and
the believed size is the allocated one. -/
structure State.Rendered (st : State) (out : List UInt8) : Prop where
  holds : Holds st.output (out ++ [0])
  pos : st.outputPos = out.length
  len : st.outputLen = st.output.length

theorem initOutput_rendered (st : State) : (initOutput st).Rendered [] where
  holds := ⟨List.replicate 63 (some 0), rfl⟩
  pos := rfl
  len := rfl

theorem le_growLen (need rounds len : Nat) (h : need ≤ len + rounds) :
    need ≤ growLen need rounds len := by
  induction rounds generalizing len with
  | zero => simpa [growLen] using h
  | succ rounds ih =>
      rw [growLen]
      split
      · exact ih (len + memblock) (by simp only [memblock]; omega)
      · omega

section Resize

variable {st : State} {out : List UInt8}

theorem resize_rendered (need : Nat) (h : st.Rendered out) : (resize need st).Rendered out := by
  rw [resize]
  split
  · rename_i hShort
    refine ⟨h.holds.realloc ?_, h.pos, by simp⟩
    have hOld := h.holds.length_le
    have hGrow := le_growLen need need st.outputLen (by omega)
    rw [← h.len] at hOld
    omega
  · exact h

theorem resize_room (need : Nat) (h : st.Rendered out) :
    need ≤ (resize need st).output.length := by
  rw [resize]
  split
  · have hGrow := le_growLen need need st.outputLen (by omega)
    simp only [realloc_length]
    omega
  · have hLen := h.len
    omega

theorem resize_frame (need : Nat) (st : State) :
    (resize need st).conditionals = st.conditionals ∧
      (resize need st).outputDisable = st.outputDisable := by
  rw [resize]
  split <;> exact ⟨rfl, rfl⟩

/-- One append to an enabled output: it never leaves the buffer, extends the
rendered text by the string and touches nothing else. -/
theorem mpTemplateAppend_enabled (s : Option CString) (h : st.Rendered out)
    (hOn : st.outputDisable = false) :
    ∃ st', mpTemplateAppend s st = some st' ∧
      st'.Rendered (out ++ (s.map CString.bytes).getD []) ∧
      st'.conditionals = st.conditionals ∧ st'.outputDisable = false := by
  cases s with
  | none => exact ⟨st, rfl, by simpa using h, rfl, hOn⟩
  | some s =>
      have hGrown := resize_rendered (st.outputPos + s.strlen + 1) h
      have hRoom := resize_room (st.outputPos + s.strlen + 1) h
      have hFrame := resize_frame (st.outputPos + s.strlen + 1) st
      generalize hNew : resize (st.outputPos + s.strlen + 1) st = st₁ at hGrown hRoom hFrame
      have hText : Holds st₁.output out := hGrown.holds.of_append
      have hPos := hGrown.pos
      obtain ⟨output, hStore, hHolds, hLength⟩ :=
        hText.store s.terminated (by
          rw [CString.terminated_length]
          rw [h.pos] at hRoom
          omega)
      refine ⟨{ st₁ with output := output, outputPos := st₁.outputPos + s.strlen }, ?_, ?_,
        hFrame.1, hFrame.2.trans hOn⟩
      · simp [mpTemplateAppend, hOn, hNew, hPos, hStore]
      · refine ⟨?_, ?_, ?_⟩
        · simpa [CString.terminated] using hHolds
        · simp [hPos, CString.strlen]
        · simpa [hLength] using hGrown.len

theorem mpTemplateAppend_disabled (s : Option CString) (hOff : st.outputDisable = true) :
    mpTemplateAppend s st = some st := by
  cases s <;> simp [mpTemplateAppend, hOff]

end Resize

end MonitoringPlug.Template
