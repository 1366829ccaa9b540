import MonitoringPlug.Sms.Encode
import Mathlib.Data.Bool.AllAny

/-! The default alphabet of 3GPP TS 23.038 with its extension table, and which texts
a reader that goes by the standard gets back from the septets of `sms_encode_text`. -/
namespace MonitoringPlug.Sms

/-- The septet that leads to the extension table. -/
def escape : Char := '\x1b'

/-- The characters of the default alphabet at their codes, sixteen a row. -/
def defaultAlphabet : List Char :=
  ['@', '£', '$', '¥', 'è', 'é', 'ù', 'ì', 'ò', 'Ç', '\n', 'Ø', 'ø', '\r', 'Å', 'å',
    'Δ', '_', 'Φ', 'Γ', 'Λ', 'Ω', 'Π', 'Ψ', 'Σ', 'Θ', 'Ξ', '\x1b', 'Æ', 'æ', 'ß', 'É',
    ' ', '!', '\x22', '#', '¤', '%', '&', '\'', '(', ')', '*', '+', ',', '-', '.', '/',
    '0', '1', '2', '3', '4', '5', '6', '7', '8', '9', ':', ';', '<', '=', '>', '?',
    '¡', 'A', 'B', 'C', 'D', 'E', 'F', 'G', 'H', 'I', 'J', 'K', 'L', 'M', 'N', 'O',
    'P', 'Q', 'R', 'S', 'T', 'U', 'V', 'W', 'X', 'Y', 'Z', 'Ä', 'Ö', 'Ñ', 'Ü', '§',
    '¿', 'a', 'b', 'c', 'd', 'e', 'f', 'g', 'h', 'i', 'j', 'k', 'l', 'm', 'n', 'o',
    'p', 'q', 'r', 's', 't', 'u', 'v', 'w', 'x', 'y', 'z', 'ä', 'ö', 'ñ', 'ü', 'à']

/-- The extension table: the code behind the escape septet, and its character. -/
def extensionTable : List (Nat × Char) :=
  [(0x0A, '\x0c'), (0x14, '^'), (0x28, '\x7b'), (0x29, '\x7d'), (0x2F, '\\'), (0x3C, '['),
    (0x3D, '~'), (0x3E, ']'), (0x40, '|'), (0x65, '€')]

/-- What can be written in the standard. -/
def alphabet : List Char :=
  defaultAlphabet.filter (· != escape) ++ extensionTable.map Prod.snd

/-- The text of septets by the tables of the standard. -/
def decodeSeptets : List Nat → Option (List Char)
  | [] => some []
  | 0x1B :: code :: rest =>
      (extensionTable.lookup code).bind fun c => (decodeSeptets rest).map (c :: ·)
  | code :: rest => (defaultAlphabet[code]?).bind fun c => (decodeSeptets rest).map (c :: ·)

/-- The characters whose place in the source's tables is not that of the standard. -/
def misplaced : List Char := ['G', 'H', 'Z', 'i', 'ö', 'ü', '¤', '\x0c']

/-- What the standard reads for one character of the source. -/
def received (c : Char) : List Char := (decodeSeptets (charSeptets c)).getD []

/-- The septets of one character: none, one that is not the escape, or the escape and
one more. -/
def Whole (septets : List Nat) : Prop :=
  septets = [] ∨ (∃ code, code ≠ 0x1B ∧ septets = [code]) ∨ ∃ code, septets = [0x1B, code]

theorem decodeSeptets_append {front : List Nat} (h : Whole front) (back : List Nat) :
    decodeSeptets (front ++ back) =
      (decodeSeptets front).bind fun text => (decodeSeptets back).map (text ++ ·) := by
  rcases h with rfl | ⟨code, hCode, rfl⟩ | ⟨code, rfl⟩
  · simp [decodeSeptets]
  · have hOne : ∀ rest, decodeSeptets (code :: rest) =
        (defaultAlphabet[code]?).bind fun c => (decodeSeptets rest).map (c :: ·) := by
      intro rest
      rw [decodeSeptets]
      intro _ _ hEscape
      exact absurd hEscape hCode
    rw [List.singleton_append, hOne, hOne]
    cases defaultAlphabet[code]? with
    | none => rfl
    | some c => simp [decodeSeptets]
  · simp only [List.cons_append, List.nil_append, decodeSeptets]
    cases extensionTable.lookup code with
    | none => rfl
    | some c => simp

/-- The tables of the source against those of the standard, character by character. -/
theorem received_alphabet : ∀ c ∈ alphabet, charSeptets c ≠ [0x1B] ∧
    decodeSeptets (charSeptets c) = some (received c) ∧ (received c).length ≤ 1 ∧
    (received c = [c] ↔ c ∉ misplaced) := by
  unfold received charSeptets
  rw [smsGsm7_eq, smsGsm7Ext_eq, ← List.all_iff_forall_prop]
  decide +kernel

theorem charSeptets_whole {c : Char} (h : charSeptets c ≠ [0x1B]) : Whole (charSeptets c) := by
  rcases encodeChar_cases c with ⟨pos, _, hSeptets, _⟩ | ⟨pos, _, hSeptets, _⟩ | ⟨hSeptets, _⟩
  · refine Or.inr (Or.inl ⟨pos, ?_, hSeptets⟩)
    rintro rfl
    exact h hSeptets
  · exact Or.inr (Or.inr ⟨pos, hSeptets⟩)
  · exact Or.inl hSeptets

/-- A text is read character by character. -/
theorem decodeSeptets_text {text : List Char} (h : ∀ c ∈ text, c ∈ alphabet) :
    decodeSeptets (textSeptets text) = some (text.flatMap received) := by
  induction text with
  | nil => rfl
  | cons c text ih =>
      obtain ⟨hEscape, hRead, _, _⟩ := received_alphabet c (h c List.mem_cons_self)
      have hRest := ih fun d hd => h d (List.mem_cons_of_mem _ hd)
      calc
        decodeSeptets (textSeptets (c :: text)) =
            decodeSeptets (charSeptets c ++ textSeptets text) := rfl
        _ = (decodeSeptets (charSeptets c)).bind fun front =>
            (decodeSeptets (textSeptets text)).map (front ++ ·) :=
          decodeSeptets_append (charSeptets_whole hEscape) _
        _ = some (received c ++ text.flatMap received) := by rw [hRead, hRest]; rfl
        _ = some ((c :: text).flatMap received) := by rw [List.flatMap_cons]

theorem length_flatMap_le {α : Type*} {f : α → List α} {l : List α}
    (h : ∀ a ∈ l, (f a).length ≤ 1) : (l.flatMap f).length ≤ l.length := by
  induction l with
  | nil => simp
  | cons a l ih =>
      have hHere := h a List.mem_cons_self
      have hRest := ih fun b hb => h b (List.mem_cons_of_mem _ hb)
      simp only [List.flatMap_cons, List.length_append, List.length_cons]
      omega

/-- Where each element becomes at most one, a list is kept only if each of its elements
is. -/
theorem flatMap_eq_self_iff {α : Type*} {f : α → List α} {l : List α}
    (h : ∀ a ∈ l, (f a).length ≤ 1) : l.flatMap f = l ↔ ∀ a ∈ l, f a = [a] := by
  induction l with
  | nil => simp
  | cons a l ih =>
      have hRest : ∀ b ∈ l, (f b).length ≤ 1 := fun b hb => h b (List.mem_cons_of_mem _ hb)
      have hTailIff := ih hRest
      rw [List.flatMap_cons, List.forall_mem_cons]
      constructor
      · intro hSame
        cases hHere : f a with
        | nil =>
            -- Nothing for the first element: the rest is too short.
            rw [hHere, List.nil_append] at hSame
            have hShort := length_flatMap_le hRest
            rw [hSame, List.length_cons] at hShort
            omega
        | cons b more =>
            have hOne := h a List.mem_cons_self
            rw [hHere, List.length_cons] at hOne
            have hNone : more = [] := List.eq_nil_of_length_eq_zero (by omega)
            rw [hHere, hNone] at hSame
            obtain ⟨rfl, hTail⟩ := List.cons.inj hSame
            exact ⟨by rw [hNone], hTailIff.mp hTail⟩
      · rintro ⟨hHere, hTail⟩
        rw [hHere, hTailIff.mpr hTail]
        rfl

/-- A text of the alphabet is read back by the tables of the standard if and only if
no misplaced character is in it. -/
theorem decodeSeptets_text_iff (text : List Char) (h : ∀ c ∈ text, c ∈ alphabet) :
    decodeSeptets (textSeptets text) = some text ↔ ∀ c ∈ text, c ∉ misplaced := by
  rw [decodeSeptets_text h, Option.some_inj,
    flatMap_eq_self_iff fun c hc => (received_alphabet c (h c hc)).2.2.1]
  constructor
  · intro hSame c hc
    exact (received_alphabet c (h c hc)).2.2.2.mp (hSame c hc)
  · intro hPlaced c hc
    exact (received_alphabet c (h c hc)).2.2.2.mpr (hPlaced c hc)

theorem decodeSeptets_text_iff_plain :
    decodeSeptets (textSeptets "a€".toList) = some "a€".toList := by
  have hAlphabet : ∀ c ∈ "a€".toList, c ∈ alphabet := List.all_iff_forall_prop.mp (by decide)
  have hPlaced : ∀ c ∈ "a€".toList, c ∉ misplaced := List.all_iff_forall_prop.mp (by decide)
  exact (decodeSeptets_text_iff "a€".toList hAlphabet).mpr hPlaced

/-- A transposed pair, and a letter that comes out as another one. -/
theorem decodeSeptets_text_misplaced :
    decodeSeptets (textSeptets "GHi".toList) ≠ some "GHi".toList := by
  unfold textSeptets charSeptets
  rw [smsGsm7_eq, smsGsm7Ext_eq]
  decide +kernel

end MonitoringPlug.Sms
