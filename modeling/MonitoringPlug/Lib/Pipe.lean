import Mathlib.Data.List.Basic
import Mathlib.Data.List.Infix

/-! A pipe that two processes share, as after a `fork`: each of them may hold its read end
and its write end. A process is any machine whose steps are labelled with what it does; the
steps of both are interleaved in any order. -/
namespace Pipes

inductive Side where
  | parent
  | child
deriving DecidableEq

/-- A step of a process. `reap` is the `waitpid` for the other one. -/
inductive Act where
  | write (bytes : List UInt8)
  | read (bytes : List UInt8)
  | endOfFile
  | closeRead
  | closeWrite
  | exit (status : Int)
  | reap (status : Int)
deriving DecidableEq

/-- What is in the pipe, who holds its ends, and how the processes have ended. -/
structure Pipe where
  content : List UInt8
  reader : Side → Bool
  writer : Side → Bool
  exited : Side → Option Int

/-- A new pipe, with both ends held by both. -/
def Pipe.shared : Pipe where
  content := []
  reader _ := true
  writer _ := true
  exited _ := none

def Side.other : Side → Side
  | .parent => .child
  | .child => .parent

def Pipe.release (ends : Side → Bool) (side : Side) : Side → Bool :=
  fun s => if s = side then false else ends s

/-- A step, where it does not block. A read blocks as long as the pipe is empty and has a
writer, a write as long as it does not fit; one without a reader is none of these steps. -/
def Act.apply (capacity : Nat) (side : Side) (p : Pipe) : Act → Option Pipe
  | .write bytes =>
      if p.writer side ∧ (p.reader .parent ∨ p.reader .child) ∧
          p.content.length + bytes.length ≤ capacity then
        some { p with content := p.content ++ bytes }
      else none
  | .read bytes =>
      if p.reader side ∧ bytes ≠ [] ∧ bytes <+: p.content then
        some { p with content := p.content.drop bytes.length }
      else none
  | .endOfFile =>
      if p.reader side ∧ p.content = [] ∧ ¬(p.writer .parent ∨ p.writer .child) then some p
      else none
  | .closeRead => some { p with reader := Pipe.release p.reader side }
  | .closeWrite => some { p with writer := Pipe.release p.writer side }
  | .exit status => some { p with
      reader := Pipe.release p.reader side
      writer := Pipe.release p.writer side
      exited := fun s => if s = side then some status else p.exited s }
  | .reap status => if p.exited side.other = some status then some p else none

abbrev Process (State : Type) : Type := State → Act → State → Prop

structure Config (Parent Child : Type) where
  pipe : Pipe
  parent : Parent
  child : Child

variable {Parent Child : Type}

/-- A step of one of the two. -/
inductive Step (capacity : Nat) (parent : Process Parent) (child : Process Child) :
    Config Parent Child → Side × Act → Config Parent Child → Prop where
  | parent {c act next pipe} (does : parent c.parent act next)
      (applies : act.apply capacity .parent c.pipe = some pipe) :
      Step capacity parent child c (.parent, act) ⟨pipe, next, c.child⟩
  | child {c act next pipe} (does : child c.child act next)
      (applies : act.apply capacity .child c.pipe = some pipe) :
      Step capacity parent child c (.child, act) ⟨pipe, c.parent, next⟩

/-- Any number of steps, in any order. -/
inductive Run (capacity : Nat) (parent : Process Parent) (child : Process Child) :
    Config Parent Child → List (Side × Act) → Config Parent Child → Prop where
  | start {c} : Run capacity parent child c [] c
  | step {c events middle event next} (prior : Run capacity parent child c events middle)
      (last : Step capacity parent child middle event next) :
      Run capacity parent child c (events ++ [event]) next

/-- What went into the pipe, and what came out of it. -/
def inflow (events : List (Side × Act)) : List UInt8 :=
  events.flatMap fun | (_, .write bytes) => bytes | _ => []

def outflow (events : List (Side × Act)) : List UInt8 :=
  events.flatMap fun | (_, .read bytes) => bytes | _ => []

section Flow

variable {front back : List (Side × Act)} {side : Side} {act : Act}

@[simp] theorem inflow_nil : inflow [] = [] := rfl
@[simp] theorem outflow_nil : outflow [] = [] := rfl

theorem inflow_append : inflow (front ++ back) = inflow front ++ inflow back :=
  List.flatMap_append

theorem outflow_append : outflow (front ++ back) = outflow front ++ outflow back :=
  List.flatMap_append

end Flow

section Steps

variable {capacity : Nat} {parent : Process Parent} {child : Process Child}
  {c middle next : Config Parent Child} {side : Side} {act : Act} {p q : Pipe}
  {event : Side × Act} {events later : List (Side × Act)}

/-- The bytes come out of the pipe in the order in which they went into it. -/
theorem Act.apply_flow (h : act.apply capacity side p = some q) :
    p.content ++ inflow [(side, act)] = outflow [(side, act)] ++ q.content := by
  cases act with
  | write bytes =>
      simp only [apply, Option.ite_none_right_eq_some, Option.some.injEq] at h
      obtain ⟨-, rfl⟩ := h
      simp [inflow, outflow]
  | read bytes =>
      simp only [apply, Option.ite_none_right_eq_some, Option.some.injEq] at h
      obtain ⟨⟨-, -, rest, hRest⟩, rfl⟩ := h
      simp [inflow, outflow, ← hRest]
  | endOfFile =>
      simp only [apply, Option.ite_none_right_eq_some, Option.some.injEq] at h
      obtain ⟨-, rfl⟩ := h
      simp [inflow, outflow]
  | closeRead =>
      cases h
      simp [inflow, outflow]
  | closeWrite =>
      cases h
      simp [inflow, outflow]
  | exit status =>
      cases h
      simp [inflow, outflow]
  | reap status =>
      simp only [apply, Option.ite_none_right_eq_some, Option.some.injEq] at h
      obtain ⟨-, rfl⟩ := h
      simp [inflow, outflow]

theorem Step.flow (h : Step capacity parent child c event next) :
    c.pipe.content ++ inflow [event] = outflow [event] ++ next.pipe.content := by
  cases h with
  | parent _ applies => exact Act.apply_flow applies
  | child _ applies => exact Act.apply_flow applies

/-- No byte is lost, made up or moved, whatever the two do. -/
theorem Run.flow (h : Run capacity parent child c events next) :
    c.pipe.content ++ inflow events = outflow events ++ next.pipe.content := by
  induction h with
  | start => simp
  | step _ last ih =>
      rw [inflow_append, outflow_append, ← List.append_assoc, ih, List.append_assoc, last.flow,
        List.append_assoc]

theorem Run.trans (h : Run capacity parent child c events middle)
    (hLater : Run capacity parent child middle later next) :
    Run capacity parent child c (events ++ later) next := by
  induction hLater with
  | start => rwa [List.append_nil]
  | step _ last ih =>
      rw [← List.append_assoc]
      exact ih.step last

theorem Run.single (h : Step capacity parent child c event next) :
    Run capacity parent child c [event] next :=
  Run.step .start h

/-- What is preserved by every step holds along every run. -/
theorem Run.induct {motive : Config Parent Child → Prop} (start : motive c)
    (step : ∀ middle event next, motive middle → Step capacity parent child middle event next →
      motive next) (h : Run capacity parent child c events next) : motive next := by
  induction h with
  | start => exact start
  | step _ last ih => exact step _ _ _ ih last

/-- A writer that is left keeps every read from ending. -/
theorem Act.apply_endOfFile (h : Act.endOfFile.apply capacity side p = some q) :
    p.writer .parent = false ∧ p.writer .child = false ∧ p.content = [] ∧ q = p := by
  simp only [apply, Option.ite_none_right_eq_some, Option.some.injEq] at h
  obtain ⟨⟨-, hEmpty, hWriters⟩, rfl⟩ := h
  simp only [not_or, Bool.not_eq_true] at hWriters
  exact ⟨hWriters.1, hWriters.2, hEmpty, rfl⟩

/-- And without one, behind the last byte, it does end. -/
theorem Act.endOfFile_apply (hReader : p.reader side = true) (hEmpty : p.content = [])
    (hParent : p.writer .parent = false) (hChild : p.writer .child = false) :
    Act.endOfFile.apply capacity side p = some p :=
  if_pos ⟨hReader, hEmpty, by simp [hParent, hChild]⟩

end Steps

/-- A process that reads until it has seen enough, or to the end of the file, and exits. -/
structure Consumer (State : Type) where
  start : State
  take : State → UInt8 → State
  enough : State → Option Int
  atEnd : State → Int

inductive Reading (State : Type) where
  | reading (s : State)
  | ending (status : Int)
  | gone

namespace Consumer

variable {State : Type} {m : Consumer State} {s : State} {bytes front back : List UInt8}

/-- It looks at no byte behind the one that was enough. -/
def feed (m : Consumer State) : State → List UInt8 → State
  | s, [] => s
  | s, byte :: bytes => if (m.enough s).isSome then s else m.feed (m.take s byte) bytes

inductive Does (m : Consumer State) : Process (Reading State) where
  | read {state chunk} (waits : m.enough state = none) :
      Does m (.reading state) (.read chunk) (.reading (m.feed state chunk))
  | endOfFile {state} (waits : m.enough state = none) :
      Does m (.reading state) .endOfFile (.ending (m.atEnd state))
  | enough {state status} (ends : m.enough state = some status) :
      Does m (.reading state) (.exit status) .gone
  | exit {status} : Does m (.ending status) (.exit status) .gone

theorem feed_enough (h : (m.enough s).isSome) (bytes : List UInt8) : m.feed s bytes = s := by
  cases bytes with
  | nil => rfl
  | cons byte bytes => rw [feed, if_pos h]

theorem feed_append : m.feed s (front ++ back) = m.feed (m.feed s front) back := by
  induction front generalizing s with
  | nil => rfl
  | cons byte front ih =>
      rw [List.cons_append, feed, feed]
      split
      · rename_i hEnough
        exact (feed_enough hEnough back).symm
      · exact ih

/-- What was enough stays enough. -/
theorem enough_append {status : Int} (h : m.enough (m.feed s front) = some status)
    (back : List UInt8) : m.enough (m.feed s (front ++ back)) = some status := by
  rw [feed_append, feed_enough (Option.isSome_of_eq_some h), h]

end Consumer

end Pipes
