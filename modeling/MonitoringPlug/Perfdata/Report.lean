import Mathlib.Logic.Function.Basic
import MonitoringPlug.Perfdata.Grammar

/-! The functions that report performance data. A thresholds object goes in and
comes out, because percent bounds in it are resolved on the way. -/
namespace MonitoringPlug.Perfdata

open CText Rounding MonitoringPlug.Args

/-- The performance data and the thresholds object after a report. -/
structure Reported where
  perfdata : Option (List Char)
  threshold : Option Thresholds

section Rounded

/-! Numbers that are passed as `float` are rounded, and so are the percent bounds. -/

variable (types : FloatTypes)

def mpPerfdataInt2With (label : List Char) (value : Int) (unit : List Char)
    (threshold : Option Thresholds) (haveMin : Bool) (min : Int) (haveMax : Bool) (max : Int)
    (showPerfdata : Bool) (perfdata : Option (List Char)) : Option Reported :=
  let threshold := mpPerfdataPercentResolvWith types threshold (if haveMax then max else 0)
  if !showPerfdata then some ⟨perfdata, threshold⟩
  else
    (appendItem label (formatLong value) unit threshold
      (if haveMin then some (formatLong min) else none)
      (if haveMax then some (formatLong max) else none) perfdata).map fun text =>
        ⟨some text, threshold⟩

def mpPerfdataFloat2With (label : List Char) (value : ℚ) (unit : List Char)
    (threshold : Option Thresholds) (haveMin : Bool) (min : ℚ) (haveMax : Bool) (max : ℚ)
    (showPerfdata : Bool) (perfdata : Option (List Char)) : Option Reported :=
  let value := types.float value
  let min := types.float min
  let max := types.float max
  let threshold := mpPerfdataPercentResolvWith types threshold (if haveMax then max else 0)
  if !showPerfdata then some ⟨perfdata, threshold⟩
  else
    let precision := if 9999 ≤ value then 0 else if value = 0 then 0 else 3
    (appendItem label (formatFixed precision value) unit threshold
      (if haveMin then some (formatFixed precision min) else none)
      (if haveMax then some (formatFixed precision max) else none) perfdata).map fun text =>
        ⟨some text, threshold⟩

end Rounded

def mpPerfdataInt2 := mpPerfdataInt2With .ieee

def mpPerfdataInt (label : List Char) (value : Int) (unit : List Char)
    (threshold : Option Thresholds) : Bool → Option (List Char) → Option Reported :=
  mpPerfdataInt2 label value unit threshold false 0 false 0

/-- A range that is zeroed, open at the start and ends at the given value. -/
def rangeUpTo (last : ℚ) : Range :=
  { defaultRange with startInfinity := true, end_ := last }

/-- The thresholds object `mp_perfdata_int3` and `mp_perfdata_float3` build. The bounds
are converted to `double`. -/
def builtThreshold (haveWarn : Bool) (warn : ℚ) (haveCrit : Bool) (crit : ℚ) :
    Option Thresholds :=
  if haveWarn || haveCrit then
    some { warning := if haveWarn then some (rangeUpTo (binary64.round warn)) else none
           critical := if haveCrit then some (rangeUpTo (binary64.round crit)) else none }
  else none

/-- The thresholds object is freed at the end, so only the text comes out. -/
def mpPerfdataInt3 (label : List Char) (value : Int) (unit : List Char) (haveWarn : Bool)
    (warn : Int) (haveCrit : Bool) (crit : Int) (haveMin : Bool) (min : Int) (haveMax : Bool)
    (max : Int) (showPerfdata : Bool) (perfdata : Option (List Char)) :
    Option (Option (List Char)) :=
  (mpPerfdataInt2 label value unit (builtThreshold haveWarn warn haveCrit crit) haveMin min
    haveMax max showPerfdata perfdata).map Reported.perfdata

def mpPerfdataFloat2 := mpPerfdataFloat2With .ieee

def mpPerfdataFloat (label : List Char) (value : ℚ) (unit : List Char)
    (threshold : Option Thresholds) : Bool → Option (List Char) → Option Reported :=
  mpPerfdataFloat2 label value unit threshold false 0 false 0

/-- The thresholds objects of a program by their addresses. Calls may share one. -/
abbrev Objects := Nat → Thresholds

def Objects.get (objects : Objects) (pointer : Option Nat) : Option Thresholds :=
  pointer.map objects

def Objects.set (objects : Objects) : Option Nat → Option Thresholds → Objects
  | some address, some threshold => Function.update objects address threshold
  | _, _ => objects

structure World where
  showPerfdata : Bool
  perfdata : Option (List Char)
  objects : Objects

/-- A label the grammar can carry. -/
structure Label where
  text : List Char
  ne_nil : text ≠ []
  quoteFree : '\'' ∉ text

/-- A unit of letters and percent signs. -/
structure MeasureUnit where
  text : List Char
  letters : ∀ c ∈ text, isUnitChar c = true

/-- One call that reports an integer, with the address of its thresholds object
where it takes one. -/
inductive IntCall where
  | int (label : Label) (value : Int) (unit : MeasureUnit) (threshold : Option Nat)
  | int2 (label : Label) (value : Int) (unit : MeasureUnit) (threshold : Option Nat)
      (haveMin : Bool) (min : Int) (haveMax : Bool) (max : Int)
  | int3 (label : Label) (value : Int) (unit : MeasureUnit) (haveWarn : Bool) (warn : Int)
      (haveCrit : Bool) (crit : Int) (haveMin : Bool) (min : Int) (haveMax : Bool) (max : Int)

/-- Store what a report gave back. -/
def World.after (world : World) (pointer : Option Nat) (reported : Reported) : World :=
  { world with
    perfdata := reported.perfdata
    objects := world.objects.set pointer reported.threshold }

def IntCall.step (world : World) : IntCall → Option World
  | .int label value unit threshold =>
      (mpPerfdataInt label.text value unit.text (world.objects.get threshold)
        world.showPerfdata world.perfdata).map (world.after threshold)
  | .int2 label value unit threshold haveMin min haveMax max =>
      (mpPerfdataInt2 label.text value unit.text (world.objects.get threshold) haveMin min
        haveMax max world.showPerfdata world.perfdata).map (world.after threshold)
  | .int3 label value unit haveWarn warn haveCrit crit haveMin min haveMax max =>
      (mpPerfdataInt3 label.text value unit.text haveWarn warn haveCrit crit haveMin min
        haveMax max world.showPerfdata world.perfdata).map fun perfdata =>
          { world with perfdata := perfdata }

def run (world : World) (calls : List IntCall) : Option World :=
  calls.foldlM (fun world call => call.step world) world

/-- `mp_showperfdata` set and nothing reported yet. -/
def showing (objects : Objects) : World :=
  { showPerfdata := true, perfdata := none, objects := objects }

/-- The objects with the percent bounds of one call resolved. -/
def IntCall.resolve (objects : Objects) : IntCall → Objects
  | .int _ _ _ threshold =>
      objects.set threshold (mpPerfdataPercentResolv (objects.get threshold) 0)
  | .int2 _ _ _ threshold _ _ haveMax max =>
      objects.set threshold
        (mpPerfdataPercentResolv (objects.get threshold) (if haveMax then max else 0))
  | .int3 .. => objects

/-- What a call reports, its thresholds object being resolved. -/
def IntCall.item (objects : Objects) : IntCall → Item
  | .int label value unit threshold =>
      { label := label.text, value := value, unit := unit.text
        warn := rangeText .warning (objects.get threshold)
        crit := rangeText .critical (objects.get threshold)
        min := none, max := none }
  | .int2 label value unit threshold haveMin min haveMax max =>
      { label := label.text, value := value, unit := unit.text
        warn := rangeText .warning (objects.get threshold)
        crit := rangeText .critical (objects.get threshold)
        min := if haveMin then some min else none
        max := if haveMax then some max else none }
  | .int3 label value unit haveWarn warn haveCrit crit haveMin min haveMax max =>
      { label := label.text, value := value, unit := unit.text
        warn := if haveWarn then some (strRange (some (rangeUpTo (binary64.round warn)))) else none
        crit := if haveCrit then some (strRange (some (rangeUpTo (binary64.round crit)))) else none
        min := if haveMin then some min else none
        max := if haveMax then some max else none }

/-- The items of a sequence of calls, each with the thresholds as its own
resolution leaves them. -/
def reportedItems : Objects → List IntCall → List Item
  | _, [] => []
  | objects, call :: rest =>
      call.item (call.resolve objects) :: reportedItems (call.resolve objects) rest

theorem Objects.get_set (objects : Objects) (pointer : Option Nat) (max : ℚ) :
    (objects.set pointer (mpPerfdataPercentResolv (objects.get pointer) max)).get pointer =
      mpPerfdataPercentResolv (objects.get pointer) max := by
  cases pointer with
  | none => rfl
  | some address =>
      simp [Objects.get, Objects.set, mpPerfdataPercentResolv, mpPerfdataPercentResolvWith]

/-- A range without percent bounds is left alone. -/
theorem percentResolvRange_rangeUpTo (types : FloatTypes) (max last : ℚ) :
    percentResolvRangeWith types max (rangeUpTo last) = rangeUpTo last := rfl

/-- The object that `mp_perfdata_int3` builds has no percent bounds to resolve. -/
theorem rangeText_built (max : ℚ) (haveWarn : Bool) (warn : ℚ) (haveCrit : Bool) (crit : ℚ) :
    let threshold := mpPerfdataPercentResolv (builtThreshold haveWarn warn haveCrit crit) max
    rangeText .warning threshold =
        (if haveWarn then some (strRange (some (rangeUpTo (binary64.round warn)))) else none) ∧
      rangeText .critical threshold =
        (if haveCrit then some (strRange (some (rangeUpTo (binary64.round crit)))) else none) := by
  cases haveWarn <;> cases haveCrit <;>
    simp [builtThreshold, mpPerfdataPercentResolv, mpPerfdataPercentResolvWith, rangeText,
      Thresholds.get, percentResolvRange_rangeUpTo]

theorem isField_ifLong (have_ : Bool) (n : Int) :
    ∀ text ∈ (if have_ then some (formatLong n) else none), IsField text := by
  cases have_ with
  | false => simp
  | true => simpa using isField_formatLong n

theorem solid_value_unit {value : List Char} (hValue : IsField value) (unit : MeasureUnit) :
    Solid (value ++ unit.text) := by
  cases hUnit : unit.text with
  | nil => simpa using hValue.solid
  | cons c rest =>
      have hSemicolon : isUnitChar ';' = false := by decide
      refine Solid.append ⟨(c :: rest).getLast (by simp), List.getLast?_eq_some_getLast _, ?_⟩ value
      intro hLast
      have hLetter := unit.letters _ (by rw [hUnit]; exact List.getLast_mem (by simp))
      rw [hLast, hSemicolon] at hLetter
      cases hLetter

/-- What a shown report appends: the item with the thresholds resolved. -/
theorem mpPerfdataInt2_showing (label : List Char) (value : Int) (unit : MeasureUnit)
    (threshold : Option Thresholds) (haveMin : Bool) (min : Int) (haveMax : Bool) (max : Int)
    (perfdata : Option (List Char)) :
    let resolved := mpPerfdataPercentResolv threshold (if haveMax then max else 0)
    let item : Item :=
      { label := label, value := value, unit := unit.text
        warn := rangeText .warning resolved, crit := rangeText .critical resolved
        min := if haveMin then some min else none, max := if haveMax then some max else none }
    mpPerfdataInt2 label value unit.text threshold haveMin min haveMax max true perfdata =
      some ⟨some (joinItem perfdata item.text), resolved⟩ := by
  intro resolved item
  have hAppend := appendItem_eq label (solid_value_unit (isField_formatLong value) unit) resolved
    (isField_ifLong haveMin min) (isField_ifLong haveMax max) perfdata
  have hItem : item.text = itemText label (formatLong value) unit.text
      (itemFields resolved (if haveMin then some (formatLong min) else none)
        (if haveMax then some (formatLong max) else none)) := by
    cases haveMin <;> cases haveMax <;> rfl
  rw [mpPerfdataInt2, mpPerfdataInt2With, hItem]
  simp only [Bool.not_true, Bool.false_eq_true, if_false]
  rw [show mpPerfdataPercentResolvWith .ieee threshold (if haveMax then max else 0) = resolved
    from rfl, hAppend, Option.map_some]

section Threshold

/-! Reporting never fails, and the object comes out resolved, shown or not. -/

variable (label unit : List Char) (threshold : Option Thresholds) (haveMin haveMax : Bool)
  (showPerfdata : Bool) (perfdata : Option (List Char))

theorem mpPerfdataInt2_threshold (value min max : Int) :
    ∃ reported, mpPerfdataInt2 label value unit threshold haveMin min haveMax max showPerfdata
        perfdata = some reported ∧
      reported.threshold = mpPerfdataPercentResolv threshold (if haveMax then max else 0) := by
  cases showPerfdata with
  | false => exact ⟨_, rfl, rfl⟩
  | true =>
      obtain ⟨text, hText⟩ := appendItem_stops label (formatLong value) unit
        (mpPerfdataPercentResolv threshold (if haveMax then max else 0))
        (if haveMin then some (formatLong min) else none)
        (if haveMax then some (formatLong max) else none) perfdata
      exact ⟨_, congrArg (Option.map fun text => Reported.mk (some text) _) hText, rfl⟩

theorem mpPerfdataFloat2_threshold (value min max : ℚ) :
    ∃ reported, mpPerfdataFloat2 label value unit threshold haveMin min haveMax max showPerfdata
        perfdata = some reported ∧
      reported.threshold =
        mpPerfdataPercentResolv threshold (if haveMax then binary32.round max else 0) := by
  cases showPerfdata with
  | false => exact ⟨_, rfl, rfl⟩
  | true =>
      let number := binary32.round value
      let precision := if 9999 ≤ number then 0 else if number = 0 then 0 else 3
      obtain ⟨text, hText⟩ := appendItem_stops label (formatFixed precision number) unit
        (mpPerfdataPercentResolv threshold (if haveMax then binary32.round max else 0))
        (if haveMin then some (formatFixed precision (binary32.round min)) else none)
        (if haveMax then some (formatFixed precision (binary32.round max)) else none) perfdata
      exact ⟨_, congrArg (Option.map fun text => Reported.mk (some text) _) hText, rfl⟩

end Threshold

/-- One call appends its item and resolves its own thresholds object. -/
theorem IntCall.step_showing (call : IntCall) {world : World} {items : List Item}
    (hShow : world.showPerfdata = true) (hText : world.perfdata = perfdataText items) :
    ∃ next, call.step world = some next ∧ next.showPerfdata = true ∧
      next.objects = call.resolve world.objects ∧
      next.perfdata = perfdataText (items ++ [call.item next.objects]) := by
  obtain ⟨showPerfdata, perfdata, objects⟩ := world
  cases hShow
  cases call with
  | int label value unit threshold =>
      have hCall := mpPerfdataInt2_showing label.text value unit (objects.get threshold)
        false 0 false 0 perfdata
      refine ⟨_, congrArg (Option.map (World.after _ threshold)) hCall, rfl, rfl, ?_⟩
      rw [perfdataText_append, ← hText]
      simp only [World.after, IntCall.item, Objects.get_set]
      rfl
  | int2 label value unit threshold haveMin min haveMax max =>
      have hCall := mpPerfdataInt2_showing label.text value unit (objects.get threshold)
        haveMin min haveMax max perfdata
      refine ⟨_, congrArg (Option.map (World.after _ threshold)) hCall, rfl, rfl, ?_⟩
      rw [perfdataText_append, ← hText]
      simp only [World.after, IntCall.item, Objects.get_set]
  | int3 label value unit haveWarn warn haveCrit crit haveMin min haveMax max =>
      have hCall := mpPerfdataInt2_showing label.text value unit
        (builtThreshold haveWarn warn haveCrit crit) haveMin min haveMax max perfdata
      have hRanges := rangeText_built (if haveMax then max else 0) haveWarn warn haveCrit crit
      simp only [hRanges] at hCall
      have hText3 := congrArg (Option.map Reported.perfdata) hCall
      refine ⟨_, congrArg (Option.map fun text => World.mk true text objects) hText3, rfl, rfl, ?_⟩
      rw [perfdataText_append, ← hText]
      rfl

/-- A whole run appends the items of its calls in order. -/
theorem run_showing (calls : List IntCall) {world : World} {items : List Item}
    (hShow : world.showPerfdata = true) (hText : world.perfdata = perfdataText items) :
    ∃ next, run world calls = some next ∧
      next.perfdata = perfdataText (items ++ reportedItems world.objects calls) := by
  induction calls generalizing world items with
  | nil => exact ⟨world, rfl, by rw [reportedItems, List.append_nil, hText]⟩
  | cons call rest ih =>
      obtain ⟨middle, hStep, hShow', hObjects, hText'⟩ := call.step_showing hShow hText
      obtain ⟨next, hRun, hNext⟩ := ih hShow' hText'
      refine ⟨next, ?_, ?_⟩
      · rw [run, List.foldlM_cons, hStep]
        exact hRun
      · rw [hNext, List.append_assoc, hObjects]
        rfl

theorem IntCall.item_wellFormed (call : IntCall) (objects : Objects) :
    (call.item objects).WellFormed := by
  cases call with
  | int label value unit threshold =>
      exact ⟨label.ne_nil, label.quoteFree, unit.letters, isField_rangeText _ _,
        isField_rangeText _ _⟩
  | int2 label value unit threshold haveMin min haveMax max =>
      exact ⟨label.ne_nil, label.quoteFree, unit.letters, isField_rangeText _ _,
        isField_rangeText _ _⟩
  | int3 label value unit haveWarn warn haveCrit crit haveMin min haveMax max =>
      have hRanges := rangeText_built 0 haveWarn warn haveCrit crit
      refine ⟨label.ne_nil, label.quoteFree, unit.letters, ?_, ?_⟩
      · rw [IntCall.item, ← hRanges.1]
        exact isField_rangeText _ _
      · rw [IntCall.item, ← hRanges.2]
        exact isField_rangeText _ _

theorem reportedItems_wellFormed (objects : Objects) (calls : List IntCall) :
    ∀ item ∈ reportedItems objects calls, item.WellFormed := by
  induction calls generalizing objects with
  | nil => simp [reportedItems]
  | cons call rest ih =>
      intro item hItem
      rcases List.mem_cons.mp hItem with rfl | hRest
      · exact call.item_wellFormed _
      · exact ih _ item hRest

theorem reportedItems_append (objects : Objects) (front back : List IntCall) :
    ∃ behind, reportedItems objects (front ++ back) = reportedItems objects front ++ behind := by
  induction front generalizing objects with
  | nil => exact ⟨_, rfl⟩
  | cons call rest ih =>
      obtain ⟨behind, hBehind⟩ := ih (call.resolve objects)
      exact ⟨behind, by simp [reportedItems, hBehind]⟩

theorem perfdataText_prefix (front back : List Item) :
    (perfdataText front).getD [] <+: (perfdataText (front ++ back)).getD [] := by
  cases front with
  | nil => exact List.nil_prefix
  | cons item rest => exact ⟨moreText back, by simp [perfdataText, moreText]⟩

/-- Whatever is reported in whatever order, with thresholds objects shared
between the calls or not: no read leaves the string, the text decodes to what
was reported, and at every call the text of the calls before it stays as it was. -/
theorem run_decodes (calls : List IntCall) (objects : Objects) :
    ∃ final, run (showing objects) calls = some final ∧
      decodePerfdata final.perfdata = some (reportedItems objects calls) ∧
      ∀ front back, calls = front ++ back →
        ∃ earlier, run (showing objects) front = some earlier ∧
          earlier.perfdata.getD [] <+: final.perfdata.getD [] := by
  have hStart : (showing objects).perfdata = perfdataText [] := rfl
  obtain ⟨final, hRun, hText⟩ := run_showing calls rfl hStart
  refine ⟨final, hRun, ?_, ?_⟩
  · rw [hText, List.nil_append]
    exact decodePerfdata_text _ (reportedItems_wellFormed _ _)
  · intro front back hSplit
    obtain ⟨earlier, hEarlier, hFront⟩ := run_showing front rfl hStart
    obtain ⟨behind, hBehind⟩ := reportedItems_append objects front back
    refine ⟨earlier, hEarlier, ?_⟩
    rw [hFront, hText, hSplit, List.nil_append, List.nil_append]
    rw [show (showing objects).objects = objects from rfl, hBehind]
    exact perfdataText_prefix _ _

/-- A warning at `50%`, whose bound the first call that takes it resolves. -/
def halfWarning : Thresholds where
  warning := some { defaultRange with end_ := 1 / 2, endPercent := true }
  critical := none

def noUnit : MeasureUnit where
  text := []
  letters := by simp

def kilobytes : MeasureUnit where
  text := ['k', 'B']
  letters := List.all_eq_true.mp rfl

def usedCall : IntCall :=
  .int2 ⟨"mem used".toList, by decide, by decide⟩ (-7) kilobytes (some 0) true 0 true 16777217

def sharedCall : IntCall := .int ⟨"swap".toList, by decide, by decide⟩ 3 kilobytes (some 0)

def builtCall : IntCall :=
  .int3 ⟨"users".toList, by decide, by decide⟩ 2 noUnit true 9007199254740993 false 0 false 0
    false 0

/-- The second call shares the object that the first one resolved, with its maximum as the
nearest `float`. -/
theorem run_decodes_shared :
    ∃ final, run (showing fun _ => halfWarning) [usedCall, sharedCall, builtCall] = some final ∧
      decodePerfdata final.perfdata = some
        [⟨"mem used".toList, -7, ['k', 'B'], some "8388608.000".toList, none, some 0,
            some 16777217⟩,
          ⟨"swap".toList, 3, ['k', 'B'], some "8388608.000".toList, none, none, none⟩,
          ⟨"users".toList, 2, [], some "~:9007199254740992.000".toList, none, none, none⟩] := by
  obtain ⟨final, hRun, hDecoded, -⟩ :=
    run_decodes [usedCall, sharedCall, builtCall] fun _ => halfWarning
  refine ⟨final, hRun, ?_⟩
  rw [hDecoded]
  decide +kernel

end MonitoringPlug.Perfdata
