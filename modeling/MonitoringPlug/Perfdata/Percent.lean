import Mathlib.Data.Option.Basic
import MonitoringPlug.Perfdata.Report

/-! Percent bounds in a thresholds object that several values with maxima of
their own are reported with. The first report resolves the bounds and clears
their flags, so the later ones find plain bounds. This is no matter of rounding: nothing
is rounded here. -/
namespace MonitoringPlug.Perfdata

open CText Rounding MonitoringPlug.Args

/-- A report of a value with its maximum. -/
inductive MaxCall where
  | int2 (label : List Char) (value : Int) (unit : List Char) (haveMin : Bool) (min max : Int)
  | float2 (label : List Char) (value : ℚ) (unit : List Char) (haveMin : Bool) (min max : ℚ)

namespace MaxCall

def max : MaxCall → ℚ
  | .int2 _ _ _ _ _ max => max
  | .float2 _ _ _ _ _ max => max

/-- The call with `have_max` set, in exact arithmetic. -/
def step (showPerfdata : Bool) (before : Reported) : MaxCall → Option Reported
  | .int2 label value unit haveMin min max =>
      mpPerfdataInt2With .exact label value unit before.threshold haveMin min true max
        showPerfdata before.perfdata
  | .float2 label value unit haveMin min max =>
      mpPerfdataFloat2With .exact label value unit before.threshold haveMin min true max
        showPerfdata before.perfdata

/-- The item of a call rendered with these thresholds. -/
def item (threshold : Option Thresholds) (perfdata : Option (List Char)) :
    MaxCall → Option (List Char)
  | .int2 label value unit haveMin min max =>
      appendItem label (formatLong value) unit threshold
        (if haveMin then some (formatLong min) else none) (some (formatLong max)) perfdata
  | .float2 label value unit haveMin min max =>
      let precision := if 9999 ≤ value then 0 else if value = 0 then 0 else 3
      appendItem label (formatFixed precision value) unit threshold
        (if haveMin then some (formatFixed precision min) else none)
        (some (formatFixed precision max)) perfdata

def run (showPerfdata : Bool) (start : Reported) (calls : List MaxCall) : Option Reported :=
  calls.foldlM (step showPerfdata) start

end MaxCall

/-- A bound written `p%` is stored as `p / 100` with its flag set. Relative to a
maximum it stands for that part of it; any other bound stands for itself. -/
structure RelativeTo (max : ℚ) (written now : Range) : Prop where
  start : now.start = if written.startPercent then written.start * max else written.start
  end_ : now.end_ = if written.endPercent then written.end_ * max else written.end_
  absolute : now.startPercent = false ∧ now.endPercent = false

/-- The ranges in force are the written ones relative to this maximum. -/
def InForce (max : ℚ) (written : Thresholds) (threshold : Option Thresholds) : Prop :=
  ∃ now, threshold = some now ∧
    ∀ slot, Option.Rel (RelativeTo max) (written.get slot) (now.get slot)

/-- After every call the ranges are relative to the maximum of this very call,
and where performance data is shown they are the ones rendered. -/
def RelativeEachTime (showPerfdata : Bool) (perfdata : Option (List Char)) (written : Thresholds)
    (calls : List MaxCall) : Prop :=
  ∀ front call back, calls = front ++ call :: back →
    ∃ before after, MaxCall.run showPerfdata ⟨perfdata, some written⟩ front = some before ∧
      call.step showPerfdata before = some after ∧
      InForce call.max written after.threshold ∧
      (showPerfdata = true → after.perfdata = call.item after.threshold before.perfdata)

/-- No bound depends on a maximum: none is written in percent but `0%`. -/
def Absolute (range : Range) : Prop :=
  (range.startPercent = true → range.start = 0) ∧ (range.endPercent = true → range.end_ = 0)

section Resolve

variable (types : FloatTypes) (max other : ℚ) (range : Range)

@[simp] theorem percentResolvRange_again :
    percentResolvRangeWith types other (percentResolvRangeWith types max range) =
      percentResolvRangeWith types max range := by
  simp [percentResolvRangeWith]

@[simp] theorem mpPerfdataPercentResolvWith_again (threshold : Option Thresholds) :
    mpPerfdataPercentResolvWith types (mpPerfdataPercentResolvWith types threshold max) other =
      mpPerfdataPercentResolvWith types threshold max := by
  simp [mpPerfdataPercentResolvWith, Function.comp_def]

@[simp] theorem mpPerfdataPercentResolv_again (threshold : Option Thresholds) :
    mpPerfdataPercentResolv (mpPerfdataPercentResolv threshold max) other =
      mpPerfdataPercentResolv threshold max :=
  mpPerfdataPercentResolvWith_again .ieee max other threshold

theorem mpPerfdataPercentResolvWith_some (written : Thresholds) :
    ∃ now, mpPerfdataPercentResolvWith types (some written) max = some now ∧
      ∀ slot, now.get slot = (written.get slot).map (percentResolvRangeWith types max) := by
  refine ⟨_, rfl, fun slot => ?_⟩
  cases slot <;> rfl

theorem relativeTo_resolved : RelativeTo max range (percentResolvRangeWith .exact max range) :=
  ⟨rfl, rfl, rfl, rfl⟩

/-- A range resolved with one maximum is right for another one exactly when the
two agree or no bound depends on them. -/
theorem relativeTo_resolved_iff :
    RelativeTo other range (percentResolvRangeWith .exact max range) ↔
      Absolute range ∨ max = other := by
  have hBound : ∀ value : ℚ, value * max = value * other ↔ value = 0 ∨ max = other := by
    intro value
    rw [mul_eq_mul_left_iff, or_comm]
  constructor
  · intro h
    by_cases hMax : max = other
    · exact Or.inr hMax
    · refine Or.inl ⟨fun hPercent => ?_, fun hPercent => ?_⟩
      · have hStart := h.start
        simp only [percentResolvRangeWith, hPercent, if_true, FloatTypes.exact_part, hBound]
          at hStart
        exact hStart.resolve_right hMax
      · have hEnd := h.end_
        simp only [percentResolvRangeWith, hPercent, if_true, FloatTypes.exact_part, hBound]
          at hEnd
        exact hEnd.resolve_right hMax
  · rintro (hAbsolute | rfl)
    · refine ⟨?_, ?_, rfl, rfl⟩
      · cases hPercent : range.startPercent with
        | false => simp [percentResolvRangeWith, hPercent]
        | true => simp [percentResolvRangeWith, hPercent, hAbsolute.1 hPercent]
      · cases hPercent : range.endPercent with
        | false => simp [percentResolvRangeWith, hPercent]
        | true => simp [percentResolvRangeWith, hPercent, hAbsolute.2 hPercent]
    · exact relativeTo_resolved max range

end Resolve

/-- A call resolves what it was given and renders what it resolved. -/
theorem MaxCall.step_spec (call : MaxCall) (showPerfdata : Bool) (before : Reported) :
    ∃ after, call.step showPerfdata before = some after ∧
      after.threshold = mpPerfdataPercentResolvWith .exact before.threshold call.max ∧
      (showPerfdata = true → after.perfdata = call.item after.threshold before.perfdata) := by
  cases showPerfdata with
  | false =>
      cases call with
      | int2 label value unit haveMin min max => exact ⟨_, rfl, rfl, fun h => nomatch h⟩
      | float2 label value unit haveMin min max => exact ⟨_, rfl, rfl, fun h => nomatch h⟩
  | true =>
      obtain ⟨text, hText⟩ : ∃ text,
          call.item (mpPerfdataPercentResolvWith .exact before.threshold call.max)
            before.perfdata = some text := by
        cases call with
        | int2 label value unit haveMin min max => exact appendItem_stops _ _ _ _ _ _ _
        | float2 label value unit haveMin min max => exact appendItem_stops _ _ _ _ _ _ _
      refine ⟨⟨some text, mpPerfdataPercentResolvWith .exact before.threshold call.max⟩, ?_, rfl,
        ?_⟩
      · cases call with
        | int2 label value unit haveMin min max =>
            exact congrArg (Option.map fun text => Reported.mk (some text) _) hText
        | float2 label value unit haveMin min max =>
            exact congrArg (Option.map fun text => Reported.mk (some text) _) hText
      · exact fun _ => hText.symm

/-- The thresholds object after a run: resolved by the first call for good. -/
def resolvedByFirst (threshold : Option Thresholds) : List MaxCall → Option Thresholds
  | [] => threshold
  | first :: _ => mpPerfdataPercentResolvWith .exact threshold first.max

theorem resolvedByFirst_again (threshold : Option Thresholds) (max : ℚ) (calls : List MaxCall) :
    resolvedByFirst (mpPerfdataPercentResolvWith .exact threshold max) calls =
      mpPerfdataPercentResolvWith .exact threshold max := by
  cases calls with
  | nil => rfl
  | cons first rest => exact mpPerfdataPercentResolvWith_again .exact max first.max threshold

theorem MaxCall.run_spec (showPerfdata : Bool) (calls : List MaxCall) (start : Reported) :
    ∃ final, run showPerfdata start calls = some final ∧
      final.threshold = resolvedByFirst start.threshold calls := by
  induction calls generalizing start with
  | nil => exact ⟨start, rfl, rfl⟩
  | cons call rest ih =>
      obtain ⟨middle, hStep, hMiddle, _⟩ := call.step_spec showPerfdata start
      obtain ⟨final, hRun, hFinal⟩ := ih middle
      refine ⟨final, ?_, ?_⟩
      · rw [run, List.foldlM_cons, hStep]
        exact hRun
      · rw [hFinal, hMiddle, resolvedByFirst_again]
        rfl

/-- What the thresholds are after a call, and when these are the right ones. -/
theorem inForce_resolved_iff (written : Thresholds) (max other : ℚ) :
    InForce other written (mpPerfdataPercentResolvWith .exact (some written) max) ↔
      (∀ slot, ∀ range ∈ written.get slot, Absolute range) ∨ max = other := by
  obtain ⟨now, hNow, hSlots⟩ := mpPerfdataPercentResolvWith_some .exact max written
  have hEach : InForce other written (mpPerfdataPercentResolvWith .exact (some written) max) ↔
      ∀ slot, ∀ range ∈ written.get slot, Absolute range ∨ max = other := by
    rw [InForce, hNow]
    constructor
    · rintro ⟨now', hEq, hRel⟩ slot range hRange
      cases hEq
      have hSlot := hRel slot
      rw [hSlots slot, Option.mem_def.mp hRange, Option.map_some] at hSlot
      cases hSlot with
      | some h => exact (relativeTo_resolved_iff max other range).mp h
    · intro h
      refine ⟨now, rfl, fun slot => ?_⟩
      rw [hSlots slot]
      cases hRange : written.get slot with
      | none => exact Option.Rel.none
      | some range =>
          have hRelative := (relativeTo_resolved_iff max other range).mpr (h slot range hRange)
          exact Option.Rel.some hRelative
  rw [hEach]
  constructor
  · intro h
    by_cases hMax : max = other
    · exact Or.inr hMax
    · exact Or.inl fun slot range hRange => (h slot range hRange).resolve_right hMax
  · rintro (h | h) slot range hRange
    · exact Or.inl (h slot range hRange)
    · exact Or.inr h

/-- The maximum the bounds are resolved with when `call` comes behind `front`. -/
def firstMax (front : List MaxCall) (call : MaxCall) : ℚ :=
  match front with
  | [] => call.max
  | first :: _ => first.max

theorem firstMax_mem {front back calls : List MaxCall} {call : MaxCall}
    (hSplit : calls = front ++ call :: back) :
    ∃ first ∈ calls, firstMax front call = first.max := by
  cases front with
  | nil => exact ⟨call, by simp [hSplit], rfl⟩
  | cons first rest => exact ⟨first, by simp [hSplit], rfl⟩

/-- One call in a run, with the thresholds object it leaves. -/
theorem MaxCall.run_step (showPerfdata : Bool) (start : Reported) (front : List MaxCall)
    (call : MaxCall) :
    ∃ before after, run showPerfdata start front = some before ∧
      call.step showPerfdata before = some after ∧
      after.threshold = mpPerfdataPercentResolvWith .exact start.threshold (firstMax front call) ∧
      (showPerfdata = true → after.perfdata = call.item after.threshold before.perfdata) := by
  obtain ⟨before, hRun, hBefore⟩ := run_spec showPerfdata front start
  obtain ⟨after, hStep, hAfter, hItem⟩ := call.step_spec showPerfdata before
  refine ⟨before, after, hRun, hStep, ?_, hItem⟩
  rw [hAfter, hBefore]
  cases front with
  | nil => rfl
  | cons first rest =>
      exact mpPerfdataPercentResolvWith_again .exact first.max call.max start.threshold

theorem relativeEachTime_iff_first (showPerfdata : Bool) (perfdata : Option (List Char))
    (written : Thresholds) (calls : List MaxCall) :
    RelativeEachTime showPerfdata perfdata written calls ↔
      ∀ front call back, calls = front ++ call :: back →
        (∀ slot, ∀ range ∈ written.get slot, Absolute range) ∨ firstMax front call = call.max := by
  apply forall_congr'
  intro front
  apply forall_congr'
  intro call
  refine forall_congr' fun back => imp_congr_right fun _ => ?_
  obtain ⟨before, after, hRun, hStep, hAfter, hItem⟩ :=
    MaxCall.run_step showPerfdata ⟨perfdata, some written⟩ front call
  rw [← inForce_resolved_iff written (firstMax front call) call.max, ← hAfter]
  constructor
  · rintro ⟨before', after', hRun', hStep', hForce, _⟩
    rw [hRun] at hRun'
    cases hRun'
    rw [hStep] at hStep'
    cases hStep'
    exact hForce
  · intro hForce
    exact ⟨before, after, hRun, hStep, hForce, hItem⟩

/-- The ranges are relative to the maximum of each call, for every way of
showing and every earlier text, exactly when no bound depends on a maximum or
all maxima are the same: later calls find the bounds of the first one. -/
theorem relativeEachTime_iff (showPerfdata : Bool) (perfdata : Option (List Char))
    (written : Thresholds) (calls : List MaxCall) :
    RelativeEachTime showPerfdata perfdata written calls ↔
      (∀ slot, ∀ range ∈ written.get slot, Absolute range) ∨
        ∀ first ∈ calls, ∀ second ∈ calls, first.max = second.max := by
  rw [relativeEachTime_iff_first]
  constructor
  · intro h
    by_cases hAbsolute : ∀ slot, ∀ range ∈ written.get slot, Absolute range
    · exact Or.inl hAbsolute
    · cases calls with
      | nil => simp
      | cons head rest =>
          have hHead : ∀ call ∈ head :: rest, head.max = call.max := by
            intro call hCall
            obtain ⟨front, back, hSplit⟩ := List.append_of_mem hCall
            have hFirst := (h front call back hSplit).resolve_left hAbsolute
            cases front with
            | nil => rw [(List.cons.inj hSplit).1]
            | cons first middle => rwa [(List.cons.inj hSplit).1]
          exact Or.inr fun first hFirst second hSecond =>
            (hHead first hFirst).symm.trans (hHead second hSecond)
  · rintro (hAbsolute | hSame) front call back hSplit
    · exact Or.inl hAbsolute
    · obtain ⟨first, hFirst, hMax⟩ := firstMax_mem hSplit
      exact Or.inr (hMax.trans (hSame first hFirst call (by simp [hSplit])))

/-- A warning range of `90%`. -/
def ninetyPercent : Thresholds :=
  { warning := some { defaultRange with end_ := 9 / 10, endPercent := true }, critical := none }

/-- Reported with the maxima 100 and then 200, it stays at 90. -/
theorem relativeEachTime_two_maxima :
    ¬RelativeEachTime true none ninetyPercent
      [.int2 ['a'] 95 [] false 0 100, .int2 ['b'] 95 [] false 0 200] := by
  rw [relativeEachTime_iff_first]
  intro h
  rcases h [.int2 ['a'] 95 [] false 0 100] _ [] rfl with hAbsolute | hMax
  · have hEnd := (hAbsolute .warning _ rfl).2 rfl
    norm_num [defaultRange] at hEnd
  · norm_num [firstMax, MaxCall.max] at hMax

end MonitoringPlug.Perfdata
