import Mathlib.Data.Sym.Sym2
import MonitoringPlug.Args.RangeSyntax

/-! The size suffixes of a range: each stands for one step more than the one in front of it
in its family. -/
namespace MonitoringPlug.Args

open CText MonitoringPlug.Common

/-- The two families of `parse_multiplier_string`. -/
inductive Family where
  | si
  | binary
deriving DecidableEq

def Family.step : Family → ℚ
  | .si => 1000
  | .binary => 1024

/-- What may stand behind a number, in ascending order. -/
def Family.texts : Family → List (List Char)
  | .si => [[], ['k'], ['m'], ['g'], ['t'], ['p'], ['e']]
  | .binary => [[], ['K'], ['M'], ['G'], ['T'], ['P'], ['E']]

/-- The second suffix comes right behind the first one. -/
def Family.Consecutive (family : Family) (smaller larger : Tail .bisi) : Prop :=
  (smaller.text, larger.text) ∈ family.texts.zip family.texts.tail

/-- The rest of a range around one of its bounds. -/
inductive Place where
  | atStart (inside : Bool) (other : BoundText .bisi)
  | atEnd (inside : Bool) (other : Option (BoundText .bisi))

def Place.range (place : Place) (b : Bound .bisi) : RangeText .bisi :=
  match place with
  | .atStart inside other => { inside := inside, start := some (.bound b), end_ := other }
  | .atEnd inside other => { inside := inside, start := other, end_ := .bound b }

/-- A step up in a family multiplies by the step, unless it is one to `M` or from it. -/
theorem parseMultiplierString_step_iff {family : Family} {smaller larger : List Char}
    (h : (smaller, larger) ∈ family.texts.zip family.texts.tail) :
    parseMultiplierString larger = family.step * parseMultiplierString smaller ↔
      smaller ≠ ['M'] ∧ larger ≠ ['M'] := by
  have hAll : ∀ pair ∈ family.texts.zip family.texts.tail,
      parseMultiplierString pair.2 = family.step * parseMultiplierString pair.1 ↔
        pair.1 ≠ ['M'] ∧ pair.2 ≠ ['M'] := by
    cases family with
    | si => decide +kernel
    | binary => decide +kernel
  exact hAll _ h

theorem Family.percent_notMem (family : Family) : ['%'] ∉ family.texts := by
  cases family <;> decide

/-- A bound with such a suffix is its number times the factor of the suffix. -/
theorem Bound.written_eq {family : Family} {tail : Tail .bisi} (h : tail.text ∈ family.texts)
    (n : Decimal) :
    (⟨n, tail⟩ : Bound .bisi).written = n.value * parseMultiplierString tail.text ∧
      (⟨n, tail⟩ : Bound .bisi).isPercent = false := by
  cases tail with
  | plain => simp [Bound.written, Bound.isPercent, Tail.text, parseMultiplierString]
  | unit c known => exact ⟨rfl, rfl⟩
  | percent => exact absurd h family.percent_notMem

theorem Family.Consecutive.mem {family : Family} {smaller larger : Tail .bisi}
    (h : family.Consecutive smaller larger) :
    smaller.text ∈ family.texts ∧ larger.text ∈ family.texts :=
  ⟨(List.of_mem_zip h).1, List.mem_of_mem_tail (List.of_mem_zip h).2⟩

/-- Ordering the bounds loses neither of them. -/
theorem orderBounds_bounds (range : Range) :
    s((orderBounds range).start, (orderBounds range).end_) = s(range.start, range.end_) := by
  rw [orderBounds]
  split
  · rfl
  · exact Sym2.eq_swap

theorem orderBounds_start_inj (range : Range) (a b : ℚ) :
    orderBounds { range with start := a } = orderBounds { range with start := b } ↔ a = b := by
  constructor
  · intro h
    have hBounds := (orderBounds_bounds { range with start := a }).symm
    rw [h, orderBounds_bounds] at hBounds
    exact Sym2.congr_left.mp hBounds
  · rintro rfl
    rfl

theorem orderBounds_end_inj (range : Range) (a b : ℚ) :
    orderBounds { range with end_ := a } = orderBounds { range with end_ := b } ↔ a = b := by
  constructor
  · intro h
    have hBounds := (orderBounds_bounds { range with end_ := a }).symm
    rw [h, orderBounds_bounds] at hBounds
    exact Sym2.congr_right.mp hBounds
  · rintro rfl
    rfl

/-- Two ranges that differ in one bound are the same exactly if its value is. -/
theorem parseRangeString_place_iff (place : Place) (a b : Bound .bisi)
    (hPercent : a.isPercent = b.isPercent) :
    parseRangeString (place.range a).text .bisi = parseRangeString (place.range b).text .bisi ↔
      a.written = b.written := by
  rw [parseRangeString_text, parseRangeString_text, Prod.mk.injEq, and_iff_right rfl]
  cases place with
  | atStart inside other =>
      have hStored : ((Place.atStart inside other).range b).stored =
          { ((Place.atStart inside other).range a).stored with start := b.written } := by
        simp [Place.range, RangeText.stored, RangeText.lower, RangeText.upper,
          RangeText.startPercent, RangeText.endPercent, BoundText.isPercent, hPercent,
          RangeText.alertOn]
        rfl
      rw [hStored]
      exact orderBounds_start_inj ((Place.atStart inside other).range a).stored _ _
  | atEnd inside other =>
      have hStored : ((Place.atEnd inside other).range b).stored =
          { ((Place.atEnd inside other).range a).stored with end_ := b.written } := by
        simp [Place.range, RangeText.stored, RangeText.lower, RangeText.upper,
          RangeText.startPercent, RangeText.endPercent, BoundText.isPercent, hPercent,
          RangeText.alertOn]
        rfl
      rw [hStored]
      exact orderBounds_end_inj ((Place.atEnd inside other).range a).stored _ _

/-- At either end of a range a number with one suffix is the step times that number with the
suffix in front of it, exactly if neither is `M` or the number is zero. -/
theorem parseRangeString_suffixes_iff {family : Family} {smaller larger : Tail .bisi}
    (hPair : family.Consecutive smaller larger) {n scaled : Decimal}
    (hScaled : scaled.value = family.step * n.value) (place : Place) :
    parseRangeString (place.range ⟨n, larger⟩).text .bisi =
        parseRangeString (place.range ⟨scaled, smaller⟩).text .bisi ↔
      smaller.text ≠ ['M'] ∧ larger.text ≠ ['M'] ∨ n.value = 0 := by
  obtain ⟨hSmaller, hLarger⟩ := hPair.mem
  obtain ⟨hWritten, hPercent⟩ := Bound.written_eq hLarger n
  obtain ⟨hWritten', hPercent'⟩ := Bound.written_eq hSmaller scaled
  have hScale : family.step * n.value * parseMultiplierString smaller.text =
      n.value * (family.step * parseMultiplierString smaller.text) := by ring
  rw [parseRangeString_place_iff place _ _ (hPercent.trans hPercent'.symm), hWritten, hWritten',
    hScaled, hScale, mul_eq_mul_left_iff, parseMultiplierString_step_iff hPair]

/-- "2k" and "2000". -/
theorem parseRangeString_suffixes_iff_kilo :
    let two : Decimal := ⟨.none, [2], none, List.cons_ne_nil _ _⟩
    let twoThousand : Decimal := ⟨.none, [2, 0, 0, 0], none, List.cons_ne_nil _ _⟩
    let kilo : Tail .bisi := .unit 'k' (List.mem_cons_self ..)
    parseRangeString ((Place.atEnd false none).range ⟨two, kilo⟩).text .bisi =
        parseRangeString ((Place.atEnd false none).range ⟨twoThousand, .plain⟩).text .bisi ↔
      (Tail.plain : Tail .bisi).text ≠ ['M'] ∧ kilo.text ≠ ['M'] ∨ two.value = 0 := by
  intro two twoThousand kilo
  have hPair : Family.si.Consecutive .plain kilo := List.mem_cons_self ..
  have hScaled : twoThousand.value = Family.si.step * two.value := by decide +kernel
  exact parseRangeString_suffixes_iff hPair hScaled _

/-- A mebibyte is two more than 1024 kibibytes. -/
theorem parseRangeString_mebi :
    let one : Decimal := ⟨.none, [1], none, List.cons_ne_nil _ _⟩
    let step : Decimal := ⟨.none, [1, 0, 2, 4], none, List.cons_ne_nil _ _⟩
    let kibi : Tail .bisi := .unit 'K' (by decide)
    let mebi : Tail .bisi := .unit 'M' (by decide)
    let place := Place.atEnd false none
    Family.binary.Consecutive kibi mebi ∧ step.value = Family.binary.step * one.value ∧
      (place.range ⟨one, mebi⟩).text = ['1', 'M'] ∧
      (parseRangeString (place.range ⟨one, mebi⟩).text .bisi).2.end_ = 1048578 ∧
      (place.range ⟨step, kibi⟩).text = ['1', '0', '2', '4', 'K'] ∧
      (parseRangeString (place.range ⟨step, kibi⟩).text .bisi).2.end_ = 1048576 ∧
      parseRangeString (place.range ⟨one, mebi⟩).text .bisi ≠
        parseRangeString (place.range ⟨step, kibi⟩).text .bisi := by
  intro one step kibi mebi place
  have hPair : Family.binary.Consecutive kibi mebi :=
    List.mem_cons_of_mem _ (List.mem_cons_self ..)
  exact ⟨hPair, by decide +kernel, by decide, by decide +kernel, by decide, by decide +kernel,
    by decide +kernel⟩

end MonitoringPlug.Args
