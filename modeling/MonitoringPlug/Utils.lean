import Mathlib.Data.List.Basic

/-! The growing strings of `mp_utils.c`, over any type of characters. `none` is
a NULL pointer. -/
namespace MonitoringPlug.Utils

variable {α : Type*}

def mpStrcat (target source : Option (List α)) : Option (List α) :=
  match source, target with
  | none, _ => target
  | some source, none => some source
  | some source, some target => some (target ++ source)

def mpStrcatSpace (target source : Option (List Char)) : Option (List Char) :=
  match source, target with
  | none, _ => target
  | some source, none => some source
  | some source, some target => some (target ++ ' ' :: source)

def mpStrcatComma (target source : Option (List Char)) : Option (List Char) :=
  match source, target with
  | none, _ => target
  | some source, none => some source
  | some source, some target => some (target ++ ',' :: ' ' :: source)

@[simp] theorem mpStrcat_some (target source : List α) :
    mpStrcat (some target) (some source) = some (target ++ source) := rfl

@[simp] theorem mpStrcat_null (source : List α) : mpStrcat none (some source) = some source := rfl

/-- A NULL target counts as empty. -/
theorem mpStrcat_getD (target : Option (List α)) (source : List α) :
    mpStrcat target (some source) = some (target.getD [] ++ source) := by
  cases target with
  | none => rfl
  | some target => rfl

/-- `match[len-1] == '*'`. -/
def isPattern (pattern : List Char) : Bool := pattern.getLast? == some '*'

/-- The pattern must not be empty. -/
def mpStrmatch (string pattern : List Char) : Bool :=
  if isPattern pattern then pattern.dropLast.isPrefixOf string else string == pattern

theorem mpStrmatch_exact {string pattern : List Char} (h : isPattern pattern = false) :
    mpStrmatch string pattern = true ↔ string = pattern := by
  rw [mpStrmatch, h]
  simp

end MonitoringPlug.Utils
