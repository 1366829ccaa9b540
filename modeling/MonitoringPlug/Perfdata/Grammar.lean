import MonitoringPlug.Perfdata.Item

/-! The Nagios grammar of performance data, as a decoder: items parted by single
spaces, a label in quotes or without, an integer, a unit, and up to four fields
that a semicolon ends each. -/
namespace MonitoringPlug.Perfdata

open CText

structure Item where
  label : List Char
  value : Int
  unit : List Char
  warn : Option (List Char)
  crit : Option (List Char)
  min : Option Int
  max : Option Int
deriving DecidableEq, Repr

/-- The label and the text behind its equals sign. -/
def scanLabel (s : List Char) : Option (List Char × List Char) :=
  match s with
  | '\'' :: body =>
      match strsep '\'' body with
      | (label, some ('=' :: rest)) => some (label, rest)
      | _ => none
  | s =>
      match strsep '=' s with
      | (label, some rest) => some (label, rest)
      | (_, none) => none

def isUnitChar (c : Char) : Bool := c.isAlpha || c == '%'

def expectChar (expected : Char) : List Char → Option (List Char)
  | c :: rest => if c = expected then some rest else none
  | [] => none

/-- One field. At the end of the item it is missing, and an empty one is absent
too. -/
def scanField (s : List Char) : Option (Option (List Char) × List Char) :=
  if s.head? = none ∨ s.head? = some ' ' then some (none, s)
  else
    let field := s.takeWhile fun c => c != ';' && c != ' '
    (expectChar ';' (s.dropWhile fun c => c != ';' && c != ' ')).map fun rest =>
      (if field = [] then none else some field, rest)

/-- The integer in a field that is not absent. -/
def readBound : Option (List Char) → Option (Option Int)
  | none => some none
  | some field =>
      match scanInteger field with
      | some (n, []) => some (some n)
      | _ => none

def scanItem (s : List Char) : Option (Item × List Char) := do
  let (label, s) ← scanLabel s
  let (value, s) ← scanInteger s
  let unit := s.takeWhile isUnitChar
  let s ← expectChar ';' (s.dropWhile isUnitChar)
  let (warn, s) ← scanField s
  let (crit, s) ← scanField s
  let (minField, s) ← scanField s
  let (maxField, s) ← scanField s
  let min ← readBound minField
  let max ← readBound maxField
  some ({ label, value, unit, warn, crit, min, max }, s)

/-- At most `fuel` items. -/
def decodeItems : Nat → List Char → Option (List Item)
  | 0, _ => none
  | fuel + 1, s =>
      match scanItem s with
      | some (item, []) => some [item]
      | some (item, ' ' :: rest) => (decodeItems fuel rest).map (item :: ·)
      | _ => none

/-- Every item takes a character, so the length of the text is fuel enough. -/
def decodePerfdata : Option (List Char) → Option (List Item)
  | none => some []
  | some s => decodeItems s.length s

namespace Item

def fields (item : Item) : List (Option (List Char)) :=
  [item.warn, item.crit, item.min.map formatLong, item.max.map formatLong]

def text (item : Item) : List Char :=
  itemText item.label (formatLong item.value) item.unit item.fields

/-- Items the grammar can carry. -/
structure WellFormed (item : Item) : Prop where
  label_ne_nil : item.label ≠ []
  label_quoteFree : '\'' ∉ item.label
  unit : ∀ c ∈ item.unit, isUnitChar c = true
  warn : ∀ field ∈ item.warn, IsField field
  crit : ∀ field ∈ item.crit, IsField field

end Item

/-- What follows an item: nothing, or the space in front of the next one. -/
def EndsItem (tail : List Char) : Prop := tail.head? = none ∨ tail.head? = some ' '

theorem isUnitChar_not_digit {c : Char} (h : isUnitChar c = true) : c.isDigit = false := by
  have h9 : '9'.val.toNat = 57 := rfl
  have hA : 'A'.val.toNat = 65 := rfl
  have ha : 'a'.val.toNat = 97 := rfl
  rcases Bool.or_eq_true_iff.mp h with hAlpha | hPercent
  · have hRanges : (decide (c.val ≥ 'A'.val ∧ c.val ≤ 'Z'.val) ||
        (decide (c.val ≥ 'a'.val) && decide (c.val ≤ 'z'.val))) = true := hAlpha
    simp only [Bool.or_eq_true, Bool.and_eq_true, decide_eq_true_eq, UInt32.le_iff_toNat_le,
      ge_iff_le] at hRanges
    simp only [Char.isDigit, Bool.and_eq_false_iff, decide_eq_false_iff_not,
      UInt32.le_iff_toNat_le, ge_iff_le]
    omega
  · rw [beq_iff_eq.mp hPercent]
    rfl

section Scan

variable {tail : List Char}

theorem scanLabel_quoteLabel {label : List Char} (tail : List Char) (hSome : label ≠ [])
    (hQuote : '\'' ∉ label) :
    scanLabel (quoteLabel label ++ '=' :: tail) = some (label, tail) := by
  rw [quoteLabel]
  split
  · have hBody := strsep_append hQuote ('=' :: tail)
    simp [scanLabel, hBody]
  · rename_i hPlain
    have hEquals : '=' ∉ label := by
      intro hMem
      exact hPlain (List.any_eq_true.mpr ⟨'=', hMem, rfl⟩)
    have hSplit := strsep_append hEquals tail
    cases label with
    | nil => exact absurd rfl hSome
    | cons c rest =>
        have hFirst : c ≠ '\'' := fun hc => hQuote (hc ▸ List.mem_cons_self)
        unfold scanLabel
        split
        · rename_i body hBody
          exact absurd (List.cons.inj hBody).1 hFirst
        · rw [hSplit]

theorem scanField_fieldsText (h : EndsItem tail) {field : Option (List Char)}
    (hField : ∀ text ∈ field, IsField text) (rest : List (Option (List Char))) :
    scanField (fieldsText (field :: rest) ++ tail) = some (field, fieldsText rest ++ tail) := by
  have hStop : ∀ c ∈ (';' :: (fieldsText rest ++ tail)).head?, (c != ';' && c != ' ') = false := by
    simp
  rw [fieldsText]
  split
  · rename_i hAbsent
    rw [List.all_cons, Bool.and_eq_true] at hAbsent
    have hNone : field = none := Option.isNone_iff_eq_none.mp hAbsent.1
    rw [hNone, fieldsText_absent hAbsent.2]
    exact if_pos h
  · cases field with
    | none => simp [scanField, expectChar]
    | some text =>
        have hText : IsField text := hField text rfl
        have hPlain : ∀ c ∈ text, (c != ';' && c != ' ') = true := by
          intro c hc
          simpa using hText.plain c hc
        have hMore : ¬((text ++ ';' :: (fieldsText rest ++ tail)).head? = none ∨
            (text ++ ';' :: (fieldsText rest ++ tail)).head? = some ' ') := by
          cases hChars : text with
          | nil => exact absurd hChars hText.ne_nil
          | cons c chars => simpa using (hText.plain c (by simp [hChars])).2
        rw [Option.getD_some, List.append_assoc, List.cons_append, scanField, if_neg hMore,
          takeWhile_append_stop hPlain hStop, dropWhile_append_stop hPlain hStop]
        simp [expectChar, hText.ne_nil]

theorem readBound_formatLong (bound : Option Int) :
    readBound (bound.map formatLong) = some bound := by
  cases bound with
  | none => rfl
  | some n =>
      have hScan : scanInteger (formatLong n ++ []) = some (n, []) :=
        scanInteger_formatLong n (by simp)
      rw [List.append_nil] at hScan
      simp [readBound, hScan]

/-- The text of an item is read back whole, and the reading stops behind it. -/
theorem scanItem_text {item : Item} (hItem : item.WellFormed) (h : EndsItem tail) :
    scanItem (item.text ++ tail) = some (item, tail) := by
  have hLong : ∀ bound : Option Int, ∀ text ∈ bound.map formatLong, IsField text := by
    rintro bound text hText
    obtain ⟨n, _, rfl⟩ := Option.mem_map.mp hText
    exact isField_formatLong n
  have hSemicolon : ∀ c ∈ (';' :: (fieldsText item.fields ++ tail)).head?,
      isUnitChar c = false := by simp; decide
  have hUnitDigit : ∀ c ∈ (item.unit ++ ';' :: (fieldsText item.fields ++ tail)).head?,
      c.isDigit = false := by
    cases hUnit : item.unit with
    | nil => simp
    | cons c rest =>
        simpa using isUnitChar_not_digit (hItem.unit c (by simp [hUnit]))
  have hLabel := scanLabel_quoteLabel
    (formatLong item.value ++ (item.unit ++ ';' :: (fieldsText item.fields ++ tail)))
    hItem.label_ne_nil hItem.label_quoteFree
  have hValue := scanInteger_formatLong item.value hUnitDigit
  have hUnit := takeWhile_append_stop hItem.unit hSemicolon
  have hBehind := dropWhile_append_stop hItem.unit hSemicolon
  have hWarn := scanField_fieldsText h hItem.warn
    [item.crit, item.min.map formatLong, item.max.map formatLong]
  have hCrit := scanField_fieldsText h hItem.crit
    [item.min.map formatLong, item.max.map formatLong]
  have hMin := scanField_fieldsText h (hLong item.min) [item.max.map formatLong]
  have hMax : scanField (fieldsText [item.max.map formatLong] ++ tail) =
      some (item.max.map formatLong, tail) := scanField_fieldsText h (hLong item.max) []
  have hExpect : ∀ rest, expectChar ';' (';' :: rest) = some rest := fun _ => rfl
  have hSplit : item.text ++ tail = quoteLabel item.label ++ '=' ::
      (formatLong item.value ++ (item.unit ++ ';' :: (fieldsText item.fields ++ tail))) := by
    simp [Item.text, itemText]
  rw [Item.fields] at hLabel hValue hUnit hBehind hSplit
  rw [hSplit]
  simp only [scanItem, Option.bind_eq_bind, Option.bind_some, hLabel, hValue, hUnit, hBehind,
    hExpect, hWarn, hCrit, hMin, hMax, readBound_formatLong]

end Scan

/-- The items behind the first one. -/
def moreText (items : List Item) : List Char := items.flatMap fun item => ' ' :: item.text

theorem moreText_endsItem (items : List Item) : EndsItem (moreText items) := by
  cases items with
  | nil => exact Or.inl rfl
  | cons item rest => exact Or.inr rfl

theorem decodeItems_text (item : Item) (rest : List Item)
    (hItems : ∀ i ∈ item :: rest, i.WellFormed) {fuel : Nat} (hFuel : rest.length < fuel) :
    decodeItems fuel (item.text ++ moreText rest) = some (item :: rest) := by
  induction rest generalizing item fuel with
  | nil =>
      have hScan := scanItem_text (hItems item List.mem_cons_self) (moreText_endsItem [])
      cases fuel with
      | zero => cases hFuel
      | succ fuel => rw [decodeItems, hScan]; rfl
  | cons next rest ih =>
      have hScan := scanItem_text (hItems item List.mem_cons_self)
        (moreText_endsItem (next :: rest))
      have hRest : ∀ i ∈ next :: rest, i.WellFormed :=
        fun i hi => hItems i (List.mem_cons_of_mem _ hi)
      cases fuel with
      | zero => cases hFuel
      | succ fuel =>
          have hMore : moreText (next :: rest) = ' ' :: (next.text ++ moreText rest) := rfl
          have hNext := ih next hRest (show rest.length < fuel by simpa using hFuel)
          rw [decodeItems, hScan, hMore]
          simp only [hNext, Option.map_some]

/-- The performance data with these items on it. -/
def perfdataText : List Item → Option (List Char)
  | [] => none
  | item :: rest => some (item.text ++ moreText rest)

theorem perfdataText_append (items : List Item) (item : Item) :
    perfdataText (items ++ [item]) = some (joinItem (perfdataText items) item.text) := by
  cases items with
  | nil => simp [perfdataText, moreText, joinItem]
  | cons first rest => simp [perfdataText, moreText, joinItem]

theorem moreText_length (items : List Item) : items.length ≤ (moreText items).length := by
  induction items with
  | nil => rfl
  | cons item rest ih =>
      have hMore : moreText (item :: rest) = ' ' :: (item.text ++ moreText rest) := rfl
      rw [hMore]
      simp only [List.length_cons, List.length_append]
      omega

/-- Well-formed items are read back from their text, all of them and in order. -/
theorem decodePerfdata_text (items : List Item) (hItems : ∀ item ∈ items, item.WellFormed) :
    decodePerfdata (perfdataText items) = some items := by
  cases items with
  | nil => rfl
  | cons item rest =>
      have hLength := moreText_length rest
      have hItem : 0 < item.text.length := by simp [Item.text, itemText]
      apply decodeItems_text item rest hItems
      rw [List.length_append]
      omega

end MonitoringPlug.Perfdata
