import MonitoringPlug.Args.Range

/-! The documented range syntax `[@][START:]END` and what a range written in it
means as a set of values. The parser, the percent resolution and the check are
compared with this meaning. -/
namespace MonitoringPlug.Args

open CText MonitoringPlug.Common

/-- The unit suffixes of a multiplier mode. -/
def suffixes : Multiplier → List Char
  | .noext => []
  | .bisi => ['k', 'K', 'm', 'M', 'g', 'G', 't', 'T', 'p', 'P', 'e', 'E']
  | .time => ['m', 'h', 'd', 'w']

/-- What follows the digits of a bound. -/
inductive Tail (m : Multiplier) where
  | plain
  | unit (c : Char) (known : c ∈ suffixes m)
  | percent

def Tail.text {m : Multiplier} : Tail m → List Char
  | .plain => []
  | .unit c _ => [c]
  | .percent => ['%']

/-- A finite bound. -/
structure Bound (m : Multiplier) where
  number : Decimal
  tail : Tail m

namespace Bound

variable {m : Multiplier} (b : Bound m)

def text : List Char := b.number.text ++ b.tail.text

def isPercent : Bool :=
  match b.tail with
  | .percent => true
  | _ => false

/-- The value as written: the number times its unit, with `p%` as `p/100`. -/
def written : ℚ :=
  match b.tail with
  | .plain => b.number.value
  | .unit c _ => b.number.value * unitFactor m [c]
  | .percent => b.number.value / 100

end Bound

/-- The value once percentages are taken of `max`. -/
def Bound.resolved {m : Multiplier} (max : ℚ) (b : Bound m) : ℚ :=
  if b.isPercent then b.written * max else b.written

/-- START or END. An omitted START is no `BoundText` at all. -/
inductive BoundText (m : Multiplier) where
  | empty
  | infinity
  | bound (b : Bound m)

def BoundText.text {m : Multiplier} : BoundText m → List Char
  | .empty => []
  | .infinity => ['~']
  | .bound b => b.text

def BoundText.isPercent {m : Multiplier} : BoundText m → Bool
  | .bound b => b.isPercent
  | _ => false

/-- A range string by its parts. -/
structure RangeText (m : Multiplier) where
  inside : Bool
  start : Option (BoundText m)
  end_ : BoundText m

namespace RangeText

variable {m : Multiplier} (r : RangeText m)

def startText : List Char :=
  match r.start with
  | none => []
  | some start => start.text ++ [':']

def text : List Char := (if r.inside then ['@'] else []) ++ (r.startText ++ r.end_.text)

def alertOn : AlertOn := if r.inside then .inside else .outside

/-- The lower bound by a reading of finite bounds; `none` is minus infinity.
An empty or omitted START is zero. -/
def lower (value : Bound m → ℚ) : Option ℚ :=
  match r.start with
  | none => some 0
  | some .empty => some 0
  | some .infinity => none
  | some (.bound b) => some (value b)

/-- The upper bound; `none` is plus infinity, written `~` or not at all. -/
def upper (value : Bound m → ℚ) : Option ℚ :=
  match r.end_ with
  | .empty => none
  | .infinity => none
  | .bound b => some (value b)

def startPercent : Bool := r.start.any BoundText.isPercent

def endPercent : Bool := r.end_.isPercent

/-- Two finite bounds are written in ascending order. -/
def Ordered (value : Bound m → ℚ) : Prop :=
  ∀ a ∈ r.lower value, ∀ b ∈ r.upper value, a ≤ b

instance (value : Bound m → ℚ) : Decidable (r.Ordered value) :=
  inferInstanceAs (Decidable (∀ a ∈ r.lower value, ∀ b ∈ r.upper value, a ≤ b))

end RangeText

/-- The closed interval between two bounds, in whatever order they come. -/
def between : Option ℚ → Option ℚ → Set ℚ
  | some a, some b => Set.uIcc a b
  | some a, none => Set.Ici a
  | none, some b => Set.Iic b
  | none, none => Set.univ

instance : (lower upper : Option ℚ) → (v : ℚ) → Decidable (v ∈ between lower upper)
  | some a, some b, v => inferInstanceAs (Decidable (a ⊓ b ≤ v ∧ v ≤ a ⊔ b))
  | some a, none, v => inferInstanceAs (Decidable (a ≤ v))
  | none, some b, v => inferInstanceAs (Decidable (v ≤ b))
  | none, none, _ => isTrue trivial

/-- An alert on a set of good values, or on a set of bad ones. -/
def Alert (alertOn : AlertOn) (values : Set ℚ) (v : ℚ) : Prop :=
  match alertOn with
  | .outside => v ∉ values
  | .inside => v ∈ values

/-- What a range string promises for finite bounds read by `value`. -/
def RangeText.Alerts {m : Multiplier} (r : RangeText m) (value : Bound m → ℚ) (v : ℚ) : Prop :=
  Alert r.alertOn (between (r.lower value) (r.upper value)) v

instance (values : Set ℚ) (v : ℚ) [Decidable (v ∈ values)] :
    (alertOn : AlertOn) → Decidable (Alert alertOn values v)
  | .outside => inferInstanceAs (Decidable (v ∉ values))
  | .inside => inferInstanceAs (Decidable (v ∈ values))

instance {m : Multiplier} (r : RangeText m) (value : Bound m → ℚ) (v : ℚ) :
    Decidable (r.Alerts value v) :=
  inferInstanceAs (Decidable (Alert r.alertOn (between (r.lower value) (r.upper value)) v))

theorem alert_ext_iff (alertOn : AlertOn) (values values' : Set ℚ) :
    (∀ v, Alert alertOn values v ↔ Alert alertOn values' v) ↔ values = values' := by
  constructor
  · intro h
    ext v
    have hv := h v
    cases alertOn with
    | outside => exact not_iff_not.mp hv
    | inside => exact hv
  · rintro rfl v
    rfl

section Check

/-- The values a range object keeps between its bounds, as stored. -/
def Range.values (range : Range) : Set ℚ :=
  { v | (range.startInfinity = true ∨ range.start ≤ v) ∧
    (range.endInfinity = true ∨ v ≤ range.end_) }

theorem Range.mem_values_iff (v : ℚ) (range : Range) :
    v ∈ range.values ↔ ¬(v < range.start ∧ range.startInfinity = false) ∧
      ¬(v > range.end_ ∧ range.endInfinity = false) := by
  simp only [Range.values, Set.mem_ofPred_eq, not_and_or, not_lt, gt_iff_lt, Bool.not_eq_false,
    or_comm]

theorem checkRange_iff (v : ℚ) (range : Range) :
    checkRange v range = true ↔ Alert range.alertOn range.values v := by
  have hMem := Range.mem_values_iff v range
  rw [checkRange]
  split_ifs with hLow hHigh
  · have hOut : v ∉ range.values := fun h => (hMem.mp h).1 hLow
    cases hAlert : range.alertOn <;> simp [Alert, hOut]
  · have hOut : v ∉ range.values := fun h => (hMem.mp h).2 hHigh
    cases hAlert : range.alertOn <;> simp [Alert, hOut]
  · have hIn : v ∈ range.values := hMem.mpr ⟨hLow, hHigh⟩
    cases hAlert : range.alertOn <;> simp [Alert, hIn]

/-- The bounds of a range object; an infinite one is `none`. -/
def Range.lower (range : Range) : Option ℚ := if range.startInfinity then none else some range.start

def Range.upper (range : Range) : Option ℚ := if range.endInfinity then none else some range.end_

/-- Two finite bounds of the object are in ascending order. -/
def Range.Ordered (range : Range) : Prop :=
  ∀ a ∈ range.lower, ∀ b ∈ range.upper, a ≤ b

theorem Range.values_eq_between {range : Range} (h : range.Ordered) :
    range.values = between range.lower range.upper := by
  ext v
  cases hStart : range.startInfinity with
  | true =>
      cases hEnd : range.endInfinity <;>
        simp [Range.values, Range.lower, Range.upper, hStart, hEnd, between]
  | false =>
      cases hEnd : range.endInfinity with
      | true => simp [Range.values, Range.lower, Range.upper, hStart, hEnd, between]
      | false =>
          have hLe : range.start ≤ range.end_ :=
            h range.start (by simp [Range.lower, hStart]) range.end_ (by simp [Range.upper, hEnd])
          simp [Range.values, Range.lower, Range.upper, hStart, hEnd, between,
            Set.uIcc_of_le hLe]

theorem orderBounds_ordered (range : Range) : (orderBounds range).Ordered := by
  intro a ha b hb
  simp only [orderBounds, Range.lower, Range.upper] at ha hb
  cases hStart : range.startInfinity with
  | true => simp [hStart] at ha
  | false =>
      cases hEnd : range.endInfinity with
      | true => simp [hStart, hEnd] at hb
      | false =>
          by_cases hLe : range.start ≤ range.end_
          · simp [hStart, hEnd, hLe] at ha hb
            rwa [← ha, ← hb]
          · simp [hStart, hEnd, hLe] at ha hb
            rw [← ha, ← hb]
            exact (not_le.mp hLe).le

theorem orderBounds_between (range : Range) :
    between (orderBounds range).lower (orderBounds range).upper =
      between range.lower range.upper := by
  rw [orderBounds]
  split_ifs with h
  · rfl
  · simp only [not_or, Bool.not_eq_true] at h
    simp [Range.lower, Range.upper, h.1, h.2.1, between, Set.uIcc_comm]

theorem orderBounds_alertOn (range : Range) : (orderBounds range).alertOn = range.alertOn := by
  rw [orderBounds]
  split_ifs <;> rfl

end Check

section Parse

variable {m : Multiplier}

theorem suffix_endsNumber {c : Char} (h : c ∈ suffixes m) : EndsNumber [c] := by
  cases m with
  | noext => simp [suffixes] at h
  | bisi =>
      have hAll : (suffixes .bisi).all (fun x => !x.isDigit && x != '.') = true := by decide
      simpa [EndsNumber] using List.all_eq_true.mp hAll c h
  | time =>
      have hAll : (suffixes .time).all (fun x => !x.isDigit && x != '.') = true := by decide
      simpa [EndsNumber] using List.all_eq_true.mp hAll c h

theorem Tail.endsNumber (tail : Tail m) : EndsNumber tail.text := by
  cases tail with
  | plain => trivial
  | unit c known => exact suffix_endsNumber known
  | percent => exact ⟨by decide, by decide⟩

theorem suffix_special {c : Char} (h : c ∈ suffixes m) : c ≠ '%' ∧ c ≠ ':' := by
  cases m with
  | noext => simp [suffixes] at h
  | bisi =>
      have hAll : (suffixes .bisi).all (fun x => x != '%' && x != ':') = true := by decide
      simpa using List.all_eq_true.mp hAll c h
  | time =>
      have hAll : (suffixes .time).all (fun x => x != '%' && x != ':') = true := by decide
      simpa using List.all_eq_true.mp hAll c h

/-- `strtod` on a bound gives its number, and the multiplier code its value. -/
theorem scaleBound_strtod (b : Bound m) :
    strtod b.text = (b.number.value, b.tail.text) ∧
      scaleBound m b.number.value b.tail.text = (b.written, b.isPercent) := by
  refine ⟨strtod_decimal b.number b.tail.endsNumber, ?_⟩
  cases hTail : b.tail with
  | plain =>
      cases m <;> simp [scaleBound, Tail.text, Bound.written, Bound.isPercent, hTail, unitFactor,
        parseMultiplierString, parseTimeMultiplierString]
  | unit c known =>
      simp [scaleBound, Tail.text, Bound.written, Bound.isPercent, hTail, (suffix_special known).1]
  | percent =>
      cases m <;> simp [scaleBound, Tail.text, Bound.written, Bound.isPercent, hTail, unitFactor,
        parseMultiplierString, parseTimeMultiplierString]

/-- A bound starts with a character of a number. -/
theorem Bound.text_cons (b : Bound m) :
    ∃ c rest, b.text = c :: rest ∧ c ≠ '~' ∧ c ≠ '@' := by
  cases hText : b.number.text with
  | nil => exact absurd hText b.number.text_ne_nil
  | cons c rest =>
      refine ⟨c, rest ++ b.tail.text, by simp [Bound.text, hText], ?_⟩
      rcases b.number.text_chars c (by simp [hText]) with h | h | h | h
      · constructor <;> rintro rfl <;> simp [Char.isDigit] at h
      · subst h; decide
      · subst h; decide
      · subst h; decide

theorem BoundText.colon_notMem (t : BoundText m) : ':' ∉ t.text := by
  cases t with
  | empty => simp [BoundText.text]
  | infinity => simp [BoundText.text]
  | bound b =>
      intro hMem
      rcases List.mem_append.mp hMem with hNumber | hTail
      · rcases b.number.text_chars _ hNumber with h | h | h | h <;> revert h <;> decide
      · cases hCase : b.tail with
        | plain => simp [hCase, Tail.text] at hTail
        | unit c known =>
            rw [hCase, Tail.text, List.mem_singleton] at hTail
            exact (suffix_special known).2 hTail.symm
        | percent => simp [hCase, Tail.text] at hTail

/-- The fields the parser has filled in before it orders the bounds. -/
def RangeText.stored (r : RangeText m) : Range :=
  { start := (r.lower Bound.written).getD 0
    startInfinity := (r.lower Bound.written).isNone
    startPercent := r.startPercent
    end_ := (r.upper Bound.written).getD 0
    endInfinity := (r.upper Bound.written).isNone
    endPercent := r.endPercent
    alertOn := r.alertOn }

theorem parseStart_text (r : RangeText m) (offset : Nat) :
    parseStart strtod { defaultRange with alertOn := r.alertOn } (.argument, offset)
        (r.start.map BoundText.text) m =
      (.ok, { r.stored with end_ := 0, endInfinity := false, endPercent := false }) := by
  cases hStart : r.start with
  | none => simp [parseStart, RangeText.stored, RangeText.lower, RangeText.startPercent, hStart,
      defaultRange]
  | some start =>
      cases start with
      | empty =>
          have hRead : strtod [] = (0, []) := by simp [strtod, scanSign, scanFraction]
          simp [parseStart, RangeText.stored, RangeText.lower, RangeText.startPercent, hStart,
            defaultRange, BoundText.text, BoundText.isPercent, hRead, scaleBound]
      | infinity =>
          simp [parseStart, RangeText.stored, RangeText.lower, RangeText.startPercent, hStart,
            defaultRange, BoundText.text, BoundText.isPercent]
      | bound b =>
          obtain ⟨c, rest, hText, hTilde, _⟩ := b.text_cons
          have hHead : b.text.head? ≠ some '~' := by simpa [hText] using hTilde
          obtain ⟨hRead, hScale⟩ := scaleBound_strtod b
          simp [parseStart, RangeText.stored, RangeText.lower, RangeText.startPercent, hStart,
            defaultRange, BoundText.text, BoundText.isPercent, hHead, hRead, hScale]

theorem parseEnd_text (r : RangeText m) :
    parseEnd strtod { r.stored with end_ := 0, endInfinity := false, endPercent := false }
      r.end_.text m = (.ok, r.stored) := by
  cases hEnd : r.end_ with
  | empty =>
      simp [parseEnd, RangeText.stored, RangeText.upper, RangeText.endPercent, hEnd,
        BoundText.text, BoundText.isPercent]
  | infinity =>
      simp [parseEnd, RangeText.stored, RangeText.upper, RangeText.endPercent, hEnd,
        BoundText.text, BoundText.isPercent]
  | bound b =>
      obtain ⟨c, rest, hText, hTilde, _⟩ := b.text_cons
      have hHead : ¬(b.text.head? = some '~' ∨ b.text = []) := by simpa [hText] using hTilde
      have hLength : b.tail.text.length ≠ b.text.length := by
        have hDigits := List.length_pos_iff.mpr b.number.text_ne_nil
        simp only [Bound.text, List.length_append]
        omega
      obtain ⟨hRead, hScale⟩ := scaleBound_strtod b
      simp [parseEnd, RangeText.stored, RangeText.upper, RangeText.endPercent, hEnd,
        BoundText.text, BoundText.isPercent, hHead, hRead, hScale, hLength]

/-- The split at the colon gives back START and END. -/
theorem splitBounds_text (r : RangeText m) :
    splitBounds (r.startText ++ r.end_.text) = (r.start.map BoundText.text, r.end_.text) := by
  cases hStart : r.start with
  | none => simp [splitBounds, RangeText.startText, hStart, strsep_none r.end_.colon_notMem]
  | some start =>
      simp [splitBounds, RangeText.startText, hStart, strsep_append start.colon_notMem]

theorem startText_head (r : RangeText m) : (r.startText ++ r.end_.text).head? ≠ some '@' := by
  have hBound : ∀ (t : BoundText m) (tail : List Char), tail.head? ≠ some '@' →
      (t.text ++ tail).head? ≠ some '@' := by
    intro t tail hTail
    cases t with
    | empty => simpa [BoundText.text] using hTail
    | infinity => simp [BoundText.text]
    | bound b =>
        obtain ⟨c, rest, hText, _, hAt⟩ := b.text_cons
        simpa [BoundText.text, hText] using hAt
  rw [RangeText.startText]
  cases r.start with
  | none => simpa using hBound r.end_ [] (by simp)
  | some start => simpa using hBound start (':' :: r.end_.text) (by simp)

theorem scanAlertOn_text (r : RangeText m) :
    scanAlertOn r.text = (r.alertOn, (if r.inside then 1 else 0), r.startText ++ r.end_.text) := by
  rw [RangeText.text, RangeText.alertOn]
  cases r.inside with
  | true => rfl
  | false =>
      have hHead := startText_head r
      simp only [Bool.false_eq_true, if_false, List.nil_append]
      unfold scanAlertOn
      split
      · simp_all
      · rfl

theorem parseRangeStringWith_text (r : RangeText m) :
    parseRangeStringWith strtod r.text m = (.ok, orderBounds r.stored) := by
  simp only [parseRangeStringWith, scanAlertOn_text, splitBounds_text, parseStart_text,
    parseEnd_text]

theorem parseRangeString_text (r : RangeText m) :
    parseRangeString r.text m = (.ok, orderBounds r.stored) :=
  parseRangeStringWith_text r

theorem stored_lower (r : RangeText m) : r.stored.lower = r.lower Bound.written := by
  cases h : r.lower Bound.written <;> simp [RangeText.stored, Range.lower, h]

theorem stored_upper (r : RangeText m) : r.stored.upper = r.upper Bound.written := by
  cases h : r.upper Bound.written <;> simp [RangeText.stored, Range.upper, h]

/-- The check on a parsed range without percent resolution: a range string
alerts as its bounds, taken as written, promise. -/
theorem checkRange_parsed (r : RangeText m) (v : ℚ) :
    checkRange v (orderBounds r.stored) = true ↔ r.Alerts Bound.written v := by
  rw [checkRange_iff, Range.values_eq_between (orderBounds_ordered _), orderBounds_between,
    stored_lower, stored_upper, orderBounds_alertOn]
  rfl

end Parse

/-- Parsing and checking end to end. Every documented range string parses, its
check alerts exactly on the values outside the closed interval between the
bounds (inside it with `@`), and the status of a value is decided by the critical
string first and the warning string next. -/
theorem parseRangeString_checkRange :
    (∀ (m : Multiplier) (r : RangeText m) (v : ℚ),
      (parseRangeString r.text m).1 = .ok ∧
      (checkRange v (parseRangeString r.text m).2 = true ↔ r.Alerts Bound.written v)) ∧
    (∀ (mw mc : Multiplier) (w : RangeText mw) (c : RangeText mc) (v : ℚ),
      let t := (mpThresholdSetCritical (some (mpThresholdSetWarning none w.text mw).2) c.text mc).2
      (getStatus v (some t) = .critical ↔ c.Alerts Bound.written v) ∧
      (getStatus v (some t) = .warning ↔ ¬c.Alerts Bound.written v ∧ w.Alerts Bound.written v) ∧
      (getStatus v (some t) = .ok ↔ ¬c.Alerts Bound.written v ∧ ¬w.Alerts Bound.written v)) := by
  constructor
  · intro m r v
    rw [parseRangeString_text]
    exact ⟨rfl, checkRange_parsed r v⟩
  · intro mw mc w c v
    simp only [mpThresholdSetCritical, mpThresholdSetWarning, mpThresholdSet,
      mpThresholdSetWith, parseRangeStringWith_text, Option.getD_some, getStatus, Option.any_some,
      ← checkRange_parsed]
    split_ifs with hCritical hWarning
    · simp [hCritical]
    · simp [hCritical, hWarning]
    · simp [hCritical, hWarning]

/-- The first range of the manual with a unit on one bound, below, inside and
above. -/
example : (parseRangeString "2k:1m".toList .bisi).1 = .ok ∧
    [1999, 2000, 1000000, 1000001].map
      (fun v => checkRange v (parseRangeString "2k:1m".toList .bisi).2) =
      [true, false, false, true] := by
  decide +kernel

section Percent

variable {m : Multiplier}

theorem lower_resolved (r : RangeText m) (max : ℚ) : r.lower (Bound.resolved max) =
    (r.lower Bound.written).map fun a => if r.startPercent then a * max else a := by
  cases hStart : r.start with
  | none => simp [RangeText.lower, RangeText.startPercent, hStart]
  | some start =>
      cases start <;> simp [RangeText.lower, RangeText.startPercent, hStart, BoundText.isPercent,
        Bound.resolved]

theorem upper_resolved (r : RangeText m) (max : ℚ) : r.upper (Bound.resolved max) =
    (r.upper Bound.written).map fun b => if r.endPercent then b * max else b := by
  cases hEnd : r.end_ <;> simp [RangeText.upper, RangeText.endPercent, hEnd, BoundText.isPercent,
    Bound.resolved]

theorem percentResolvRange_lower (r : RangeText m) (max : ℚ) :
    (percentResolvRangeWith .exact max r.stored).lower = r.lower (Bound.resolved max) := by
  rw [lower_resolved]
  cases h : r.lower Bound.written <;>
    simp [Range.lower, percentResolvRangeWith, h, RangeText.stored]

theorem percentResolvRange_upper (r : RangeText m) (max : ℚ) :
    (percentResolvRangeWith .exact max r.stored).upper = r.upper (Bound.resolved max) := by
  rw [upper_resolved]
  cases h : r.upper Bound.written <;>
    simp [Range.upper, percentResolvRangeWith, h, RangeText.stored]

theorem orderBounds_of_ordered {range : Range} (h : range.Ordered) : orderBounds range = range := by
  rw [orderBounds]
  split_ifs with hSwap
  · rfl
  · simp only [not_or, Bool.not_eq_true] at hSwap
    exact absurd (h range.start (by simp [Range.lower, hSwap.1]) range.end_
      (by simp [Range.upper, hSwap.2.1])) hSwap.2.2

theorem Range.values_of_finite {range : Range} (hStart : range.startInfinity = false)
    (hEnd : range.endInfinity = false) : range.values = Set.Icc range.start range.end_ := by
  ext v
  simp [Range.values, hStart, hEnd]

/-- Exchanged bounds keep the percent flags of the other bound. Whichever flags
are set, the resolved lower bound is then not the one that was written. -/
theorem percentResolvRange_swapped {range : Range} {max : ℚ} (hMax : 0 < max)
    (hOrder : (percentResolvRangeWith .exact max range).Ordered) (hWritten : ¬range.Ordered) :
    (percentResolvRangeWith .exact max (orderBounds range)).values ≠
      (percentResolvRangeWith .exact max range).values := by
  have hFinite : range.startInfinity = false ∧ range.endInfinity = false ∧
      ¬range.start ≤ range.end_ := by
    simp only [Range.Ordered, Range.lower, Range.upper] at hWritten
    cases hStart : range.startInfinity <;> cases hEnd : range.endInfinity <;>
      simp_all
  obtain ⟨hStart, hEnd, hSwap⟩ := hFinite
  have hSwapped : orderBounds range = { range with start := range.end_, end_ := range.start } := by
    simp [orderBounds, hStart, hEnd, hSwap]
  have hLower : (percentResolvRangeWith .exact max range).start ≤
      (percentResolvRangeWith .exact max range).end_ :=
    hOrder _ (by simp [Range.lower, percentResolvRangeWith, hStart]) _
      (by simp [Range.upper, percentResolvRangeWith, hEnd])
  intro hEq
  have hFirst : (percentResolvRangeWith .exact max range).values = Set.Icc _ _ :=
    Range.values_of_finite hStart hEnd
  have hSecond : (percentResolvRangeWith .exact max
      { range with start := range.end_, end_ := range.start }).values = Set.Icc _ _ :=
    Range.values_of_finite hStart hEnd
  rw [hSwapped, hFirst, hSecond] at hEq
  have hLeft := ((Set.Icc_eq_Icc_iff hLower).mp hEq.symm).1
  have hSame : range.start = range.end_ := by
    simp only [percentResolvRangeWith] at hLeft
    split_ifs at hLeft
    · exact mul_right_cancel₀ hMax.ne' hLeft
    · exact hLeft
  exact hSwap hSame.le

/-- The range in a slot after parsing it into an empty thresholds object and
resolving percentages with `max`, nothing being rounded. -/
def resolvedRange (slot : Slot) (m : Multiplier) (str : List Char) (max : ℚ) : Option Range :=
  (mpPerfdataPercentResolvWith .exact (some (mpThresholdSet slot none str m).2) max).bind
    (·.get slot)

theorem resolvedRange_text (slot : Slot) (r : RangeText m) (max : ℚ) :
    resolvedRange slot m r.text max =
      some (percentResolvRangeWith .exact max (orderBounds r.stored)) := by
  cases slot <;>
    simp [resolvedRange, mpThresholdSet, mpThresholdSetWith, parseRangeStringWith_text,
      mpPerfdataPercentResolvWith, Thresholds.get]

end Percent

/-- A range whose resolved bounds are in ascending order, as the manual asks,
is checked against these bounds after resolution if and only if the parser did
not exchange them: its bounds are also in order as written, with `p%` read as
`p/100`. -/
theorem percentResolv_checkRange_iff {m : Multiplier} (r : RangeText m) (max : ℚ)
    (hMax : 0 < max) (hOrder : r.Ordered (Bound.resolved max)) :
    (∀ slot v, (resolvedRange slot m r.text max).any (checkRange v) = true ↔
      r.Alerts (Bound.resolved max) v) ↔ r.Ordered Bound.written := by
  have hStored : (percentResolvRangeWith .exact max r.stored).Ordered := by
    rw [Range.Ordered, percentResolvRange_lower, percentResolvRange_upper]
    exact hOrder
  have hWritten : r.stored.Ordered ↔ r.Ordered Bound.written := by
    simp only [Range.Ordered, RangeText.Ordered, stored_lower, stored_upper]
  have hMeaning : between (r.lower (Bound.resolved max)) (r.upper (Bound.resolved max)) =
      (percentResolvRangeWith .exact max r.stored).values := by
    rw [Range.values_eq_between hStored, percentResolvRange_lower, percentResolvRange_upper]
  have hAlertOn : (percentResolvRangeWith .exact max (orderBounds r.stored)).alertOn = r.alertOn :=
    orderBounds_alertOn r.stored
  simp only [resolvedRange_text, Option.any_some, checkRange_iff, hAlertOn, RangeText.Alerts,
    hMeaning, alert_ext_iff, ← hWritten]
  constructor
  · intro hEq
    by_contra hSwapped
    exact percentResolvRange_swapped hMax hStored hSwapped (hEq .warning)
  · intro hInOrder _
    rw [orderBounds_of_ordered hInOrder]

/-- `10%:50` of 200 is the interval from 20 to 50. -/
theorem percentResolv_checkRange_iff_mixed :
    let r : RangeText .noext :=
      { inside := false
        start := some (.bound ⟨⟨.none, [1, 0], none, by decide⟩, .percent⟩)
        end_ := .bound ⟨⟨.none, [5, 0], none, by decide⟩, .plain⟩ }
    r.text = "10%:50".toList ∧
    ∀ slot v, (resolvedRange slot .noext r.text 200).any (checkRange v) = true ↔
      r.Alerts (Bound.resolved 200) v := by
  intro r
  have hWritten : r.Ordered Bound.written := by decide +kernel
  have hResolved : r.Ordered (Bound.resolved 200) := by decide +kernel
  exact ⟨by decide, (percentResolv_checkRange_iff r 200 (by norm_num) hResolved).mpr hWritten⟩

/-- `10:50%` of 100 is the interval from 10 to 50, so 5 must alert. The parser
exchanges 10 and 0.5, and the percent flag then turns 10 into 1000. -/
theorem percentResolv_swapped_misses_alert :
    let r : RangeText .noext :=
      { inside := false
        start := some (.bound ⟨⟨.none, [1, 0], none, by decide⟩, .plain⟩)
        end_ := .bound ⟨⟨.none, [5, 0], none, by decide⟩, .percent⟩ }
    r.text = "10:50%".toList ∧ r.Ordered (Bound.resolved 100) ∧
    r.Alerts (Bound.resolved 100) 5 ∧
    (resolvedRange .warning .noext r.text 100).any (checkRange 5) = false := by
  intro r
  exact ⟨by decide, by decide +kernel, by decide +kernel, by decide +kernel⟩

end MonitoringPlug.Args
