import MonitoringPlug.Lib.Format
import MonitoringPlug.Lib.Slots

/-! What the XML parser makes of a document: the callbacks for the start and the
stop of its elements, in document order. -/
namespace MonitoringPlug.Rhcs

/-- Keys with their values, as they stand in `atts`. -/
abbrev Attributes := List (List Char × List Char)

inductive Event where
  | start (name : List Char) (atts : Attributes)
  | stop (name : List Char)
deriving DecidableEq

/-- Every element that starts stops again, behind the elements in it. -/
inductive Balanced : List Event → Prop where
  | none : Balanced []
  | element (name : List Char) (atts : Attributes) {inner rest : List Event}
      (within : Balanced inner) (behind : Balanced rest) :
      Balanced (.start name atts :: (inner ++ .stop name :: rest))

/-- A document by its events. -/
structure Document where
  events : List Event
  balanced : Balanced events

/-- `(unsigned int)` and `(unsigned short)` of a `long`. -/
def toUnsigned (width : Nat) (n : Int) : Nat := (n % 2 ^ width).toNat

/-- A loop that looks up a name among the first `count` entries. The last match
counts. No result where a name cannot be read. -/
def lookupName (nameOf : Nat → Option (List Char)) (wanted : List Char) (count : Nat)
    (found : Option Nat) : Option (Option Nat) :=
  (List.range count).foldlM
    (fun found i => (nameOf i).map fun name => if wanted = name then some i else found) found

/-- An element starts exactly when it stops. -/
theorem Balanced.mem_stop_iff {events : List Event} (h : Balanced events) (name : List Char) :
    .stop name ∈ events ↔ ∃ atts, .start name atts ∈ events := by
  induction h with
  | none => simp
  | element other atts within behind ihWithin ihBehind =>
      simp only [List.mem_cons, List.mem_append, reduceCtorEq, false_or, Event.stop.injEq,
        Event.start.injEq, ihWithin, ihBehind]
      constructor
      · rintro (⟨found, hFound⟩ | rfl | ⟨found, hFound⟩)
        · exact ⟨found, Or.inr (Or.inl hFound)⟩
        · exact ⟨atts, Or.inl ⟨rfl, rfl⟩⟩
        · exact ⟨found, Or.inr (Or.inr hFound)⟩
      · rintro ⟨found, ⟨rfl, rfl⟩ | hFound | hFound⟩
        · exact Or.inr (Or.inl rfl)
        · exact Or.inl ⟨found, hFound⟩
        · exact Or.inr (Or.inr ⟨found, hFound⟩)

/-- An element that starts, and the names of those around it, the innermost first. -/
structure Visit where
  path : List (List Char)
  name : List Char
  atts : Attributes

def visits (path : List (List Char)) : List Event → List Visit
  | [] => []
  | .start name atts :: events => ⟨path, name, atts⟩ :: visits (name :: path) events
  | .stop _ :: events => visits path.tail events

section Visits

variable {path : List (List Char)} {events inner rest : List Event} {name : List Char}

/-- Behind a balanced part the path is what it was. -/
theorem Balanced.visits_append (h : Balanced inner) (path : List (List Char)) (rest : List Event) :
    visits path (inner ++ rest) = visits path inner ++ visits path rest := by
  induction h generalizing path rest with
  | none => rfl
  | element name atts within behind ihWithin ihBehind =>
      simp only [List.cons_append, List.append_assoc, visits, ihWithin, List.tail_cons, ihBehind]

variable {State : Type} {step : State → Event → State}

/-- What the steps keep between the open elements, those seen and the state of the handlers
holds behind the document. -/
theorem Balanced.related (h : Balanced events)
    (Related : List (List Char) → List Visit → State → Prop)
    (hStart : ∀ path seen s name atts, Related path seen s →
      Related (name :: path) (seen ++ [⟨path, name, atts⟩]) (step s (.start name atts)))
    (hStop : ∀ path seen s name, Related (name :: path) seen s →
      Related path seen (step s (.stop name)))
    {seen : List Visit} {s : State} (hFirst : Related path seen s) :
    Related path (seen ++ visits path events) (events.foldl step s) := by
  induction h generalizing path seen s with
  | none => simpa [visits] using hFirst
  | element name atts within behind ihWithin ihBehind =>
      have hInner := hStop _ _ _ _ (ihWithin (hStart _ _ _ name atts hFirst))
      have hRest := ihBehind hInner
      rw [visits, within.visits_append]
      simpa [visits] using hRest

end Visits

end MonitoringPlug.Rhcs
