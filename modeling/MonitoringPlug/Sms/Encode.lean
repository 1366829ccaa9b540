import MonitoringPlug.Lib.Octets

/-! Encoding of a short message as the hexadecimal text of a PDU. Texts are
wide strings, as `mbstowcs` delivers them. The strings are what the code writes;
the sizes of the buffers it writes them to are not tracked here. -/
namespace MonitoringPlug.Sms

open Octets

/-- The GSM 7-bit table of the source, sixteen characters a row. -/
def smsGsm7 : List Char :=
  ("@£$¥èéùìòÇ\nØø\rÅå" ++
   "Δ_ΦΓΛΩΠΨΣΘΞ@ÆæßÉ" ++
   " !\"# %&'()*+,-./" ++
   "0123456789:;<=>?" ++
   "¡ABCDEFHGIJKLMNO" ++
   "PQRSTUVWXYiÄÖÑÜ§" ++
   "¿abcdefghijklmno" ++
   "pqrstuvwxyzäüñüà").toList

/-- The extension table, reached through the escape septet. -/
def smsGsm7Ext : List Char :=
  ("          \n     " ++
   "    ^           " ++
   "        \x7b\x7d     \\" ++
   "            [~] " ++
   "|               " ++
   "                " ++
   "     €          " ++
   "                ").toList

-- The tables are evaluated by the kernel only, not by every attempt to unify.
attribute [irreducible] smsGsm7 smsGsm7Ext

/-- The index of the first occurrence. -/
def wcschr (table : List Char) (c : Char) : Option Nat := table.findIdx? (· == c)

/-- Digits in pairs with the two of a pair exchanged, and `F` for a missing
second one. -/
def semiOctets : List Char → List Char
  | [] => []
  | [first] => ['F', first]
  | first :: second :: rest => second :: first :: semiOctets rest

def smsEncodeNumber (number : List Char) : List Char :=
  match number with
  | '+' :: n => ['9', '1'] ++ semiOctets n
  | n => ['8', '1'] ++ semiOctets n

/-- The locals of `sms_encode_text`: the septet count, the accumulator and the
octets printed so far. -/
structure TextState where
  len : Nat
  packer : Packer
deriving DecidableEq, Repr

/-- Width of `unsigned int`. -/
def wordBits : Nat := 32

def pushSeptet (septet : Nat) (st : TextState) : TextState :=
  { len := st.len + 1, packer := st.packer.push wordBits 7 septet }

/-- The `while (bits >= 8)` that prints full octets. -/
def printOctets (st : TextState) : TextState :=
  { st with packer := st.packer.drain st.packer.bits }

/-- One round of the loop. A character in neither table is skipped. -/
def encodeChar (st : TextState) (c : Char) : TextState :=
  match wcschr smsGsm7 c with
  | some pos => printOctets (pushSeptet pos st)
  | none =>
      match wcschr smsGsm7Ext c with
      | none => st
      | some pos => printOctets (pushSeptet pos (pushSeptet 0x1B st))

def smsEncodeText (text : List Char) : List Char :=
  let st := text.foldl encodeChar { len := 0, packer := Packer.empty }
  -- The two length digits replace the "XX" the string was started with.
  (hex02 st.len).take 2 ++ st.packer.finish.flatMap hex02

/-- The string that `sms_encode_pdu` prints. -/
def printPdu (smsc : Option (List Char)) (number encText : List Char) : List Char :=
  let encNumber := smsEncodeNumber number
  let submit := hex02 (encNumber.length - 2) ++ encNumber ++ "0000".toList ++ encText
  match smsc with
  | some smsc =>
      let encSmsc := smsEncodeNumber smsc
      hex02 (encSmsc.length / 2) ++ encSmsc ++ "0500".toList ++ submit
  | none => "000500".toList ++ submit

def smsEncodePdu (smsc : Option (List Char)) (number text : List Char) : List Char :=
  printPdu smsc number (smsEncodeText text)

/-- The septets the tables give for a character. -/
def charSeptets (c : Char) : List Nat :=
  match wcschr smsGsm7 c with
  | some pos => [pos]
  | none =>
      match wcschr smsGsm7Ext c with
      | none => []
      | some pos => [0x1B, pos]

def textSeptets (text : List Char) : List Nat := text.flatMap charSeptets

/-- The tables by their characters, as they are searched. -/
theorem smsGsm7_eq : smsGsm7 =
    ['@', '£', '$', '¥', 'è', 'é', 'ù', 'ì', 'ò', 'Ç', '\n', 'Ø', 'ø', '\r', 'Å', 'å',
      'Δ', '_', 'Φ', 'Γ', 'Λ', 'Ω', 'Π', 'Ψ', 'Σ', 'Θ', 'Ξ', '@', 'Æ', 'æ', 'ß', 'É',
      ' ', '!', '\x22', '#', ' ', '%', '&', '\'', '(', ')', '*', '+', ',', '-', '.', '/',
      '0', '1', '2', '3', '4', '5', '6', '7', '8', '9', ':', ';', '<', '=', '>', '?',
      '¡', 'A', 'B', 'C', 'D', 'E', 'F', 'H', 'G', 'I', 'J', 'K', 'L', 'M', 'N', 'O',
      'P', 'Q', 'R', 'S', 'T', 'U', 'V', 'W', 'X', 'Y', 'i', 'Ä', 'Ö', 'Ñ', 'Ü', '§',
      '¿', 'a', 'b', 'c', 'd', 'e', 'f', 'g', 'h', 'i', 'j', 'k', 'l', 'm', 'n', 'o',
      'p', 'q', 'r', 's', 't', 'u', 'v', 'w', 'x', 'y', 'z', 'ä', 'ü', 'ñ', 'ü', 'à'] := by
  decide +kernel

theorem smsGsm7Ext_eq : smsGsm7Ext =
    List.replicate 10 ' ' ++ '\n' :: List.replicate 9 ' ' ++ '^' :: List.replicate 19 ' ' ++
      ['\x7b', '\x7d', ' ', ' ', ' ', ' ', ' ', '\\'] ++ List.replicate 12 ' ' ++
      ['[', '~', ']', ' ', '|'] ++ List.replicate 36 ' ' ++ '€' :: List.replicate 26 ' ' := by
  decide +kernel

theorem wcschr_lt {table : List Char} {c : Char} {pos : Nat} (h : wcschr table c = some pos) :
    pos < table.length := by
  obtain ⟨hLt, _⟩ := List.findIdx?_eq_some_iff_getElem.mp h
  exact hLt

/-- What a round does with a character of the one table, of the other, and of neither. -/
theorem encodeChar_cases (c : Char) :
    (∃ pos < 2 ^ 7, charSeptets c = [pos] ∧
      ∀ st, encodeChar st c = printOctets (pushSeptet pos st)) ∨
    (∃ pos < 2 ^ 7, charSeptets c = [0x1B, pos] ∧
      ∀ st, encodeChar st c = printOctets (pushSeptet pos (pushSeptet 0x1B st))) ∨
    (charSeptets c = [] ∧ ∀ st, encodeChar st c = st) := by
  have hTable : smsGsm7.length = 2 ^ 7 ∧ smsGsm7Ext.length = 2 ^ 7 := by
    rw [smsGsm7_eq, smsGsm7Ext_eq]
    decide +kernel
  unfold charSeptets encodeChar
  cases hDefault : wcschr smsGsm7 c with
  | some pos => exact Or.inl ⟨pos, hTable.1 ▸ wcschr_lt hDefault, rfl, fun _ => rfl⟩
  | none =>
      cases hExt : wcschr smsGsm7Ext c with
      | some pos => exact Or.inr (Or.inl ⟨pos, hTable.2 ▸ wcschr_lt hExt, rfl, fun _ => rfl⟩)
      | none => exact Or.inr (Or.inr ⟨rfl, fun _ => rfl⟩)

theorem charSeptets_lt (c : Char) : ∀ x ∈ charSeptets c, x < 2 ^ 7 := by
  intro x hx
  rcases encodeChar_cases c with ⟨pos, hPos, hSeptets, _⟩ | ⟨pos, hPos, hSeptets, _⟩ | ⟨hSeptets, _⟩
  · rw [hSeptets] at hx
    rwa [List.mem_singleton.mp hx]
  · rw [hSeptets] at hx
    rcases List.mem_cons.mp hx with rfl | hx
    · decide
    · rwa [List.mem_singleton.mp hx]
  · rw [hSeptets] at hx
    cases hx

/-- The state after these septets, between two characters or in one. -/
structure TextState.Holds (st : TextState) (septets : List Nat) : Prop where
  tidy : st.packer.Tidy
  value : st.packer.value = Nat.ofDigits (2 ^ 7) septets
  width : st.packer.width = 7 * septets.length
  len : st.len = septets.length

section Loop

variable {st : TextState} {septets : List Nat}

theorem pushSeptet_holds {septet : Nat} (h : st.Holds septets) (hSeptet : septet < 2 ^ 7)
    (hRoom : st.packer.bits + 7 ≤ wordBits) :
    (pushSeptet septet st).Holds (septets ++ [septet]) where
  tidy := Packer.push_tidy h.tidy hSeptet hRoom
  value := by
    have hPow : 2 ^ st.packer.width = (2 ^ 7) ^ septets.length := by
      rw [h.width, pow_mul]
    rw [pushSeptet, Packer.push_value h.tidy hSeptet hRoom, h.value, hPow, Nat.ofDigits_append,
      Nat.ofDigits_singleton]
  width := by
    rw [pushSeptet, Packer.push_width, h.width, List.length_append, List.length_singleton]
    omega
  len := by simp [pushSeptet, h.len]

theorem printOctets_holds (h : st.Holds septets) :
    (printOctets st).Holds septets ∧ (printOctets st).packer.bits < 8 := by
  obtain ⟨hTidy, hValue, hWidth, hBits⟩ :=
    Packer.drain_spec st.packer.bits h.tidy (by omega)
  exact ⟨⟨hTidy, hValue.trans h.value, hWidth.trans h.width, h.len⟩, hBits⟩

theorem encodeChar_holds (c : Char) (h : st.Holds septets) (hBits : st.packer.bits < 8) :
    (encodeChar st c).Holds (septets ++ charSeptets c) ∧
      (encodeChar st c).packer.bits < 8 := by
  rcases encodeChar_cases c with ⟨pos, hPos, hSeptets, hRound⟩ | ⟨pos, hPos, hSeptets, hRound⟩ |
    ⟨hSeptets, hRound⟩
  · rw [hSeptets, hRound]
    apply printOctets_holds (pushSeptet_holds h hPos _)
    simp only [wordBits]
    omega
  · rw [hSeptets, hRound]
    have hEscape : (pushSeptet 0x1B st).Holds (septets ++ [0x1B]) :=
      pushSeptet_holds h (by decide) (by
        simp only [wordBits]
        omega)
    have hSecond := pushSeptet_holds hEscape hPos (by
      simp only [pushSeptet, Packer.push, wordBits]
      omega)
    rw [List.append_assoc] at hSecond
    exact printOctets_holds hSecond
  · rw [hSeptets, hRound, List.append_nil]
    exact ⟨h, hBits⟩

theorem foldl_encodeChar_holds (text : List Char) (h : st.Holds septets)
    (hBits : st.packer.bits < 8) :
    (text.foldl encodeChar st).Holds (septets ++ textSeptets text) ∧
      (text.foldl encodeChar st).packer.bits < 8 := by
  induction text generalizing st septets with
  | nil => exact ⟨by simpa [textSeptets] using h, hBits⟩
  | cons c rest ih =>
      obtain ⟨hStep, hStepBits⟩ := encodeChar_holds c h hBits
      have hRest := ih hStep hStepBits
      simpa [textSeptets] using hRest

end Loop

/-- The packed octets of a text as a number, their count, and the two length
digits: what a reader of the user data needs. -/
theorem smsEncodeText_eq (text : List Char) : ∃ octets : List Nat,
    smsEncodeText text =
      (hex02 (textSeptets text).length).take 2 ++ octets.flatMap hex02 ∧
    Nat.ofDigits 256 octets = Nat.ofDigits (2 ^ 7) (textSeptets text) ∧
    octets.length = (7 * (textSeptets text).length + 7) / 8 ∧
    ∀ n ∈ octets, n < 256 := by
  have hStart : TextState.Holds { len := 0, packer := Packer.empty } [] :=
    ⟨Packer.empty_tidy, rfl, rfl, rfl⟩
  obtain ⟨hEnd, hBits⟩ := foldl_encodeChar_holds text hStart (by decide)
  rw [List.nil_append] at hEnd
  refine ⟨_, ?_, (Packer.finish_value hEnd.tidy hBits).trans hEnd.value, ?_,
    Packer.finish_octet_lt hEnd.tidy⟩
  · rw [smsEncodeText, hEnd.len]
  · rw [Packer.finish_length hBits, hEnd.width]

end MonitoringPlug.Sms
