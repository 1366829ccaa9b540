import MonitoringPlug.Lib.Pipe

/-! `mp_subprocess`: a child whose standard input and standard output are the two ends of
one pipe, of which the plugin keeps both ends too. -/
namespace MonitoringPlug.Common

open Pipes

/-- What is looked at and called in front of the two processes. -/
structure Launch where
  access : Bool
  isReg : Option Bool
  pipe : Bool
  fork : Bool

/-- The pipe of a child that was started, or NULL. The descriptors that `dup2` was called
for are closed in the child, so that it holds one copy of each end. -/
def mpSubprocess (l : Launch) : Option Pipe :=
  if !l.access then none
  else
    match l.isReg with
    | none => none
    | some isReg =>
        if !isReg then none
        else if !l.pipe then none
        else if !l.fork then none
        else some Pipe.shared

theorem mpSubprocess_shared {l : Launch} {p : Pipe} (h : mpSubprocess l = some p) :
    p = Pipe.shared := by
  simp only [mpSubprocess] at h
  split at h
  · cases h
  · split at h
    · cases h
    · simp only [Option.ite_none_left_eq_some, Option.some.injEq] at h
      exact h.2.2.2.symm

/-- Nothing fails in front of it. -/
def Launch.started : Launch := ⟨true, some true, true, true⟩

theorem started_shared : mpSubprocess Launch.started = some Pipe.shared := rfl

/-- A plugin that closes `sp_stdin`, reads `sp_stdout` to its end and calls
`mp_subprocess_close`. -/
inductive Slurp where
  | opened
  | reading (got : List UInt8)
  | ended (got : List UInt8)
  | closed (got : List UInt8) (result : Int)

inductive Slurp.Does : Process Slurp where
  | closeStdin : Slurp.Does .opened .closeWrite (.reading [])
  | read {got chunk} : Slurp.Does (.reading got) (.read chunk) (.reading (got ++ chunk))
  | endOfFile {got} : Slurp.Does (.reading got) .endOfFile (.ended got)
  | close {got result} : Slurp.Does (.ended got) (.reap result) (.closed got result)

def Slurp.got : Slurp → List UInt8
  | .opened => []
  | .reading got => got
  | .ended got => got
  | .closed got _ => got

def Slurp.atEnd : Slurp → Prop
  | .opened => False
  | .reading _ => False
  | .ended _ => True
  | .closed _ _ => True

section Slurp

variable {Child : Type} {capacity : Nat} {child : Process Child} {start : Child}
  {c next : Config Slurp Child} {event : Side × Act} {events : List (Side × Act)}

/-- A child that leaves its standard input alone. -/
def Quiet (child : Process Child) : Prop :=
  ∀ s act next, child s act next → ∀ bytes, act ≠ .read bytes

/-- Behind the end of the file nobody can write any more. -/
structure Slurps (events : List (Side × Act)) (c : Config Slurp Child) : Prop where
  got : outflow events = c.parent.got
  ended : c.parent.atEnd →
    c.pipe.content = [] ∧ c.pipe.writer .parent = false ∧ c.pipe.writer .child = false

theorem Slurps.step (hQuiet : Quiet child) (h : Slurps events c)
    (hStep : Step capacity Slurp.Does child c event next) : Slurps (events ++ [event]) next := by
  obtain ⟨hGot, hEnded⟩ := h
  cases hStep with
  | @parent act after pipe does applies =>
      obtain ⟨p, parent, child⟩ := c
      cases does with
      | closeStdin =>
          exact ⟨by simpa [outflow_append, outflow, Slurp.got] using hGot, fun hEnd => hEnd.elim⟩
      | read =>
          exact ⟨by rw [outflow_append, hGot]; simp [outflow, Slurp.got], fun hEnd => hEnd.elim⟩
      | endOfFile =>
          obtain ⟨hParent, hChild, hEmpty, rfl⟩ := Act.apply_endOfFile applies
          exact ⟨by rw [outflow_append, hGot]; simp [outflow, Slurp.got],
            fun _ => ⟨hEmpty, hParent, hChild⟩⟩
      | close =>
          simp only [Act.apply, Option.ite_none_right_eq_some, Option.some.injEq] at applies
          obtain ⟨-, rfl⟩ := applies
          exact ⟨by rw [outflow_append, hGot]; simp [outflow, Slurp.got], fun _ => hEnded trivial⟩
  | @child act after pipe does applies =>
      refine ⟨?_, fun hEnd => ?_⟩
      · rw [outflow_append, hGot]
        cases act with
        | read bytes => exact absurd rfl (hQuiet _ _ _ does bytes)
        | _ => simp [outflow]
      · obtain ⟨hEmpty, hParent, hChild⟩ := hEnded hEnd
        cases act with
        | read bytes => exact absurd rfl (hQuiet _ _ _ does bytes)
        | write bytes => simp [Act.apply, hChild] at applies
        | endOfFile =>
            obtain ⟨-, -, -, rfl⟩ := Act.apply_endOfFile applies
            exact ⟨hEmpty, hParent, hChild⟩
        | closeRead =>
            cases applies
            exact ⟨hEmpty, hParent, hChild⟩
        | closeWrite =>
            cases applies
            exact ⟨hEmpty, by simpa [Pipe.release] using hParent, by simp [Pipe.release]⟩
        | exit status =>
            cases applies
            exact ⟨hEmpty, by simpa [Pipe.release] using hParent, by simp [Pipe.release]⟩
        | reap status =>
            simp only [Act.apply, Option.ite_none_right_eq_some, Option.some.injEq] at applies
            obtain ⟨-, rfl⟩ := applies
            exact ⟨hEmpty, hParent, hChild⟩

theorem slurps_run (hQuiet : Quiet child)
    (hRun : Run capacity Slurp.Does child ⟨Pipe.shared, .opened, start⟩ events c) :
    Slurps events c := by
  generalize hStart : (⟨Pipe.shared, .opened, start⟩ : Config Slurp Child) = first at hRun
  induction hRun with
  | start =>
      subst hStart
      exact ⟨rfl, fun hEnd => hEnd.elim⟩
  | step _ last ih => exact ih.step hQuiet last

/-- In every order of the steps: what was read is what the child has written. -/
theorem slurp_all (hQuiet : Quiet child)
    (hRun : Run capacity Slurp.Does child ⟨Pipe.shared, .opened, start⟩ events c)
    (hEnd : c.parent.atEnd) : c.parent.got = inflow events := by
  obtain ⟨hGot, hEnded⟩ := slurps_run hQuiet hRun
  have hFlow : [] ++ inflow events = outflow events ++ c.pipe.content := hRun.flow
  rw [(hEnded hEnd).1, List.append_nil, List.nil_append, hGot] at hFlow
  exact hFlow.symm

end Slurp

end MonitoringPlug.Common
