import MonitoringPlug.Lib.Format
import MonitoringPlug.Args.Range
import MonitoringPlug.Utils

/-! One item of the performance data: the text the report functions append and
the loop that trims it. A `none` text is a read in front of the string. -/
namespace MonitoringPlug.Perfdata

open CText MonitoringPlug.Args MonitoringPlug.Utils

/-- `str_range`. A NULL range gives the empty text. -/
def strRange (range : Option Range) : List Char :=
  let precision := 3
  match range with
  | none => []
  | some range =>
      if range.startInfinity then
        if range.endInfinity then ['~', ':'] else '~' :: ':' :: formatFixed precision range.end_
      else if range.start = 0 then formatFixed precision range.end_
      else if range.endInfinity then formatFixed precision range.start ++ [':']
      else formatFixed precision range.start ++ ':' :: formatFixed precision range.end_

/-- The characters `strpbrk` looks for. -/
def needsQuote (label : List Char) : Bool :=
  label.any fun c => c == '\'' || c == '=' || c == ' ' || c == '+'

def quoteLabel (label : List Char) : List Char :=
  if needsQuote label then '\'' :: (label ++ ['\'']) else label

/-- The `for` loop over the trailing semicolons with `buf` as an offset into the
text. At offset 0 the read of `*(buf-1)` lies in front of the string. -/
def trimFrom : Nat → List Char → Option (List Char)
  | 0, _ => none
  | buf + 1, text =>
      if text[buf]? = some ';' then trimFrom buf (text.take (buf + 1)) else some text

def trim (text : List Char) : Option (List Char) :=
  match text.length with
  | 0 => none
  | last + 1 => trimFrom last text

/-- The texts of the two ranges of a thresholds object, NULL pointers skipped. -/
def rangeText (slot : Slot) (threshold : Option Thresholds) : Option (List Char) :=
  (threshold.bind (·.get slot)).map fun range => strRange (some range)

/-- Append a text under its `if`. -/
def appendIf (text perfdata : Option (List Char)) : Option (List Char) :=
  match text with
  | some text => mpStrcat perfdata (some text)
  | none => perfdata

/-- The body `mp_perfdata_int2` and `mp_perfdata_float2` share, with the value,
the minimum and the maximum as they are printed. -/
def appendItem (label value unit : List Char) (threshold : Option Thresholds)
    (min max : Option (List Char)) (perfdata : Option (List Char)) : Option (List Char) :=
  let perfdata :=
    mpStrcatSpace perfdata (some (quoteLabel label ++ '=' :: (value ++ unit ++ [';'])))
  let perfdata := appendIf (rangeText .warning threshold) perfdata
  let perfdata := mpStrcat perfdata (some [';'])
  let perfdata := appendIf (rangeText .critical threshold) perfdata
  let perfdata := mpStrcat perfdata (some [';'])
  let perfdata := appendIf min perfdata
  let perfdata := mpStrcat perfdata (some [';'])
  let perfdata := appendIf (max.map (· ++ [';'])) perfdata
  perfdata.bind trim

/-- What may stand between two semicolons. -/
structure IsField (field : List Char) : Prop where
  ne_nil : field ≠ []
  plain : ∀ c ∈ field, c ≠ ';' ∧ c ≠ ' '

/-- The text of the fields, each ended by a semicolon; absent fields at the end
are left out. -/
def fieldsText : List (Option (List Char)) → List Char
  | [] => []
  | field :: rest =>
      if (field :: rest).all Option.isNone then [] else field.getD [] ++ ';' :: fieldsText rest

def itemText (label value unit : List Char) (fields : List (Option (List Char))) : List Char :=
  quoteLabel label ++ '=' :: (value ++ unit ++ ';' :: fieldsText fields)

/-- An item behind what is there already. -/
def joinItem (perfdata : Option (List Char)) (item : List Char) : List Char :=
  match perfdata with
  | none => item
  | some earlier => earlier ++ ' ' :: item

theorem isNumberChar_plain {c : Char} (h : IsNumberChar c) : c ≠ ';' ∧ c ≠ ' ' := by
  rcases h with hDigit | rfl | rfl
  · constructor
    · rintro rfl
      cases hDigit
    · rintro rfl
      cases hDigit
  · decide
  · decide

theorem isField_formatLong (n : Int) : IsField (formatLong n) where
  ne_nil := formatLong_ne_nil n
  plain c hc := isNumberChar_plain (formatLong_chars n c hc)

theorem isField_formatFixed (precision : Nat) (q : ℚ) : IsField (formatFixed precision q) where
  ne_nil := formatFixed_ne_nil precision q
  plain c hc := isNumberChar_plain (formatFixed_chars precision q c hc)

theorem IsField.append_colon {front back : List Char} (hFront : ∀ c ∈ front, c ≠ ';' ∧ c ≠ ' ')
    (hBack : ∀ c ∈ back, c ≠ ';' ∧ c ≠ ' ') : IsField (front ++ ':' :: back) where
  ne_nil := by simp
  plain c hc := by
    rcases List.mem_append.mp hc with hc | hc
    · exact hFront c hc
    · rcases List.mem_cons.mp hc with rfl | hc
      · decide
      · exact hBack c hc

/-- A range is never rendered as an empty field. -/
theorem isField_strRange (range : Range) : IsField (strRange (some range)) := by
  have hStart := isField_formatFixed 3 range.start
  have hEnd := isField_formatFixed 3 range.end_
  have hTilde : ∀ c ∈ ['~'], c ≠ ';' ∧ c ≠ ' ' := by simp
  have hNil : ∀ c ∈ ([] : List Char), c ≠ ';' ∧ c ≠ ' ' := by simp
  simp only [strRange]
  split
  · split
    · exact IsField.append_colon hTilde hNil
    · exact IsField.append_colon hTilde hEnd.plain
  · split
    · exact hEnd
    · split
      · exact IsField.append_colon hStart.plain hNil
      · exact IsField.append_colon hStart.plain hEnd.plain

theorem isField_rangeText (slot : Slot) (threshold : Option Thresholds) :
    ∀ field ∈ rangeText slot threshold, IsField field := by
  intro field hField
  obtain ⟨range, _, rfl⟩ := Option.mem_map.mp hField
  exact isField_strRange range

section Trim

/-! The loop keeps exactly one of the semicolons at the end of a text. -/

variable {front : List Char}

/-- A text the loop cannot trim: it does not end in a semicolon. -/
def Solid (front : List Char) : Prop := ∃ c, front.getLast? = some c ∧ c ≠ ';'

theorem Solid.append (h : Solid front) (before : List Char) : Solid (before ++ front) := by
  obtain ⟨c, hLast, hSolid⟩ := h
  exact ⟨c, by rw [List.getLast?_append, hLast]; rfl, hSolid⟩

theorem IsField.solid {field : List Char} (h : IsField field) : Solid field :=
  ⟨field.getLast h.ne_nil, List.getLast?_eq_some_getLast h.ne_nil,
    (h.plain _ (List.getLast_mem h.ne_nil)).1⟩

theorem trimFrom_semicolons (h : Solid front) (extra : Nat) :
    trimFrom (front.length + extra) (front ++ List.replicate (extra + 1) ';') =
      some (front ++ [';']) := by
  -- Each round drops one semicolon; the character in front of the first one stops the loop.
  induction extra with
  | zero =>
      obtain ⟨c, hLast, hSolid⟩ := h
      cases hLength : front.length with
      | zero => simp [List.length_eq_zero_iff.mp hLength] at hLast
      | succ last =>
          have hRead : (front ++ [';'])[last]? = some c := by
            rw [List.getElem?_append_left (by omega), ← hLast, List.getLast?_eq_getElem?,
              hLength]
            rfl
          simp [trimFrom, hRead, hSolid]
  | succ extra ih =>
      have hRead : (front ++ List.replicate (extra + 1 + 1) ';')[front.length + extra]? =
          some ';' := by
        rw [List.getElem?_append_right (by omega), Nat.add_sub_cancel_left,
          List.getElem?_replicate_of_lt (by omega)]
      have hTake : (front ++ List.replicate (extra + 1 + 1) ';').take (front.length + extra + 1) =
          front ++ List.replicate (extra + 1) ';' := by
        rw [Nat.add_assoc, List.take_length_add_append]
        simp
      rw [← Nat.add_assoc, trimFrom, if_pos hRead, hTake, ih]

theorem trim_semicolons (h : Solid front) (extra : Nat) :
    trim (front ++ List.replicate (extra + 1) ';') = some (front ++ [';']) := by
  have hLength : (front ++ List.replicate (extra + 1) ';').length =
      front.length + extra + 1 := by
    simp [Nat.add_assoc]
  rw [trim, hLength]
  exact trimFrom_semicolons h extra

/-- The fields as they are appended, absent ones included. -/
def rawFields (fields : List (Option (List Char))) : List Char :=
  fields.flatMap fun field => field.getD [] ++ [';']

theorem fieldsText_absent {fields : List (Option (List Char))}
    (h : fields.all Option.isNone = true) : fieldsText fields = [] := by
  cases fields with
  | nil => rfl
  | cons _ _ => rw [fieldsText, if_pos h]

theorem fieldsText_append_none (fields : List (Option (List Char))) :
    fieldsText (fields ++ [none]) = fieldsText fields := by
  induction fields with
  | nil => rfl
  | cons field rest ih => simp [fieldsText, ih]

/-- Trimming takes away the absent fields at the end and nothing else, however
many fields in front of them are absent. -/
theorem trim_rawFields (fields : List (Option (List Char)))
    (hFields : ∀ field ∈ fields, ∀ text ∈ field, IsField text) (h : Solid front)
    (absent : Nat) :
    trim (front ++ List.replicate (absent + 1) ';' ++ rawFields fields) =
      some (if fields.all Option.isNone then front ++ [';']
        else front ++ List.replicate (absent + 1) ';' ++ fieldsText fields) := by
  induction fields generalizing front absent with
  | nil => simpa [rawFields] using trim_semicolons h absent
  | cons field rest ih =>
      have hRest : ∀ field ∈ rest, ∀ text ∈ field, IsField text :=
        fun field hField => hFields field (List.mem_cons_of_mem _ hField)
      cases field with
      | none =>
          have hStep := ih hRest h (absent + 1)
          have hMore : front ++ List.replicate (absent + 1) ';' ++ rawFields (none :: rest) =
              front ++ List.replicate (absent + 1 + 1) ';' ++ rawFields rest := by
            simp [rawFields, List.replicate_succ']
          rw [hMore, hStep]
          cases hAll : rest.all Option.isNone with
          | true => simp [hAll]
          | false => simp [hAll, fieldsText, List.replicate_succ']
      | some text =>
          have hText : IsField text := hFields (some text) List.mem_cons_self text rfl
          have hStep := ih hRest (hText.solid.append (front ++ List.replicate (absent + 1) ';')) 0
          have hMore : front ++ List.replicate (absent + 1) ';' ++ rawFields (some text :: rest) =
              front ++ List.replicate (absent + 1) ';' ++ text ++ List.replicate (0 + 1) ';' ++
                rawFields rest := by
            simp [rawFields]
          rw [hMore, hStep]
          cases hAll : rest.all Option.isNone with
          | true => simp [fieldsText, fieldsText_absent hAll]
          | false => simp [fieldsText]

theorem trim_fields (fields : List (Option (List Char)))
    (hFields : ∀ field ∈ fields, ∀ text ∈ field, IsField text) (h : Solid front) :
    trim (front ++ ';' :: rawFields fields) = some (front ++ ';' :: fieldsText fields) := by
  have hTrim := trim_rawFields fields hFields h 0
  have hOne : List.replicate (0 + 1) ';' = [';'] := rfl
  rw [hOne, List.append_assoc] at hTrim
  refine hTrim.trans (congrArg some ?_)
  split
  · rename_i hAll
    rw [fieldsText_absent hAll]
  · simp

end Trim

/-- The loop stays in the text as long as something other than a semicolon is
in front of its last character. -/
theorem trimFrom_stops {text : List Char} {buf index : Nat} (hIndex : index < buf)
    (h : text[index]? ≠ some ';') : ∃ trimmed, trimFrom buf text = some trimmed := by
  induction buf generalizing text with
  | zero => cases hIndex
  | succ buf ih =>
      rw [trimFrom]
      split
      · rename_i hRead
        have hBelow : index ≠ buf := fun he => h (he ▸ hRead)
        apply ih (by omega)
        rwa [List.getElem?_take_of_lt hIndex]
      · exact ⟨text, rfl⟩

theorem trim_stops (front : List Char) {c : Char} (h : c ≠ ';') {back : List Char}
    (hBack : back ≠ []) : ∃ trimmed, trim (front ++ c :: back) = some trimmed := by
  have hBackLength := List.length_pos_iff.mpr hBack
  have hLength : (front ++ c :: back).length = (front.length + back.length) + 1 := by
    simp only [List.length_append, List.length_cons]
    omega
  have hRead : (front ++ c :: back)[front.length]? ≠ some ';' := by simpa using h
  rw [trim, hLength]
  exact trimFrom_stops (by omega) hRead

/-- The fields of an item: both ranges, the minimum and the maximum. -/
def itemFields (threshold : Option Thresholds) (min max : Option (List Char)) :
    List (Option (List Char)) :=
  [rangeText .warning threshold, rangeText .critical threshold, min, max]

theorem itemFields_isField (threshold : Option Thresholds) {min max : Option (List Char)}
    (hMin : ∀ text ∈ min, IsField text) (hMax : ∀ text ∈ max, IsField text) :
    ∀ field ∈ itemFields threshold min max, ∀ text ∈ field, IsField text := by
  intro field hField
  simp only [itemFields, List.mem_cons, List.not_mem_nil, or_false] at hField
  rcases hField with rfl | rfl | rfl | rfl
  · exact isField_rangeText _ _
  · exact isField_rangeText _ _
  · exact hMin
  · exact hMax

theorem joinItem_append (perfdata : Option (List Char)) (front back : List Char) :
    joinItem perfdata (front ++ back) = joinItem perfdata front ++ back := by
  cases perfdata with
  | none => rfl
  | some earlier => simp [joinItem]

theorem appendIf_some (text : Option (List Char)) (perfdata : List Char) :
    appendIf text (some perfdata) = some (perfdata ++ text.getD []) := by
  cases text with
  | none => simp [appendIf]
  | some text => rfl

theorem appendItem_raw (label value unit : List Char) (threshold : Option Thresholds)
    (min max perfdata : Option (List Char)) :
    appendItem label value unit threshold min max perfdata =
      trim (joinItem perfdata (quoteLabel label ++ '=' :: (value ++ unit)) ++ ';' ::
        rawFields ([rangeText .warning threshold, rangeText .critical threshold, min] ++
          max.toList.map some)) := by
  have hHead : mpStrcatSpace perfdata (some (quoteLabel label ++ '=' :: (value ++ unit ++ [';']))) =
      some (joinItem perfdata (quoteLabel label ++ '=' :: (value ++ unit)) ++ [';']) := by
    rw [← joinItem_append]
    cases perfdata <;> simp [joinItem, mpStrcatSpace]
  simp only [appendItem, hHead, appendIf_some, mpStrcat_some, Option.bind_some]
  cases max <;> simp [rawFields]

/-- Trimming ends whatever the label and the unit are: an item has an equals sign. -/
theorem appendItem_stops (label value unit : List Char) (threshold : Option Thresholds)
    (min max perfdata : Option (List Char)) :
    ∃ text, appendItem label value unit threshold min max perfdata = some text := by
  have hEquals : '=' ≠ ';' := by decide
  rw [appendItem_raw, joinItem_append, List.append_assoc]
  exact trim_stops _ hEquals (by simp)

/-- Whatever was reported before, an item is appended behind it, whole and with
nothing trimmed but its absent fields at the end. -/
theorem appendItem_eq (label : List Char) {value unit : List Char}
    (hSolid : Solid (value ++ unit)) (threshold : Option Thresholds)
    {min max : Option (List Char)} (hMin : ∀ text ∈ min, IsField text)
    (hMax : ∀ text ∈ max, IsField text) (perfdata : Option (List Char)) :
    appendItem label value unit threshold min max perfdata =
      some (joinItem perfdata (itemText label value unit (itemFields threshold min max))) := by
  have hFront : Solid (joinItem perfdata (quoteLabel label ++ '=' :: (value ++ unit))) := by
    cases perfdata with
    | none => simpa [joinItem] using hSolid.append (quoteLabel label ++ ['='])
    | some earlier =>
        simpa [joinItem] using hSolid.append (earlier ++ ' ' :: (quoteLabel label ++ ['=']))
  have hItem : joinItem perfdata (itemText label value unit (itemFields threshold min max)) =
      joinItem perfdata (quoteLabel label ++ '=' :: (value ++ unit)) ++
        ';' :: fieldsText (itemFields threshold min max) := by
    rw [← joinItem_append]
    simp [itemText]
  have hFields := itemFields_isField threshold hMin hMax
  rw [appendItem_raw, hItem]
  cases max with
  | some max => exact trim_fields _ hFields hFront
  | none =>
      -- An absent maximum appends nothing, not even its semicolon.
      have hShort := fieldsText_append_none
        [rangeText .warning threshold, rangeText .critical threshold, min]
      rw [show itemFields threshold min none = [_, _, _] ++ [none] from rfl, hShort]
      refine trim_fields _ (fun field hField => hFields field ?_) hFront
      exact List.mem_append_left [none] hField

end MonitoringPlug.Perfdata
