import MonitoringPlug.Lib.Scanner
import MonitoringPlug.Lib.Text
import MonitoringPlug.Sms.Buffer

/-! The SMS-SUBMIT layout of GSM 03.40 as a reader of hexadecimal text, and how
far it gives back what `sms_encode_pdu` was called with. The reader is written
from the layout, not from the encoder. -/
namespace MonitoringPlug.Sms

open CMemory CText Octets Scanner

/-- A number as an address field carries it: the type of address and the
significant digits. -/
structure Address where
  plus : Bool
  digits : List (Fin 10)
deriving DecidableEq, Repr

/-- A telephone number of one to twenty digits. -/
structure PhoneNumber extends Address where
  count : 1 ≤ digits.length ∧ digits.length ≤ 20

/-- The number as the caller writes it. -/
def PhoneNumber.text (n : PhoneNumber) : List Char :=
  (if n.plus then ['+'] else []) ++ digitText n.digits

/-- What an SMS-SUBMIT carries. -/
structure Submit where
  smsc : Option Address
  number : Address
  septets : List Nat
deriving DecidableEq, Repr

def readDigit (c : Char) : Option (Fin 10) :=
  if h : c.toNat - '0'.toNat < 10 ∧ c.isDigit = true then some ⟨c.toNat - '0'.toNat, h.1⟩ else none

/-- `count` digits in exchanged pairs. An odd count has an `F` filler in place
of the last second digit, an even one has none. -/
def readSemiOctets : Nat → List Char → Option (List (Fin 10) × List Char)
  | 0, text => some ([], text)
  | 1, filler :: first :: rest =>
      if filler = 'F' then (readDigit first).map fun d => ([d], rest) else none
  | count + 2, second :: first :: rest =>
      (readDigit first).bind fun d =>
        (readDigit second).bind fun e =>
          (readSemiOctets count rest).map fun (digits, rest) => (d :: e :: digits, rest)
  | _, _ => none

/-- Type of address: international or unknown. -/
def readTypeOfAddress (text : List Char) : Option (Bool × List Char) :=
  (readOctet text).bind fun (octet, rest) =>
    if octet = 0x91 then some (true, rest)
    else if octet = 0x81 then some (false, rest)
    else none

/-- The SMSC address: its length counts octets, so the filler tells whether the
last octet has one digit or two. -/
def readSmsc (text : List Char) : Option (Option Address × List Char) :=
  (readOctet text).bind fun (octets, rest) =>
    if octets = 0 then some (none, rest)
    else
      (readTypeOfAddress rest).bind fun (plus, rest) =>
        let count := if rest[2 * (octets - 1) - 2]? = some 'F' then 2 * (octets - 1) - 1
          else 2 * (octets - 1)
        (readSemiOctets count rest).map fun (digits, rest) => (some ⟨plus, digits⟩, rest)

/-- The destination address: its length counts significant digits. -/
def readDestination (text : List Char) : Option (Address × List Char) :=
  (readOctet text).bind fun (count, rest) =>
    (readTypeOfAddress rest).bind fun (plus, rest) =>
      (readSemiOctets count rest).map fun (digits, rest) => (⟨plus, digits⟩, rest)

/-- The user data: its length counts septets. -/
def readUserData (text : List Char) : Option (List Nat × List Char) :=
  (readOctet text).bind fun (count, rest) =>
    (readOctets ((7 * count + 7) / 8) rest).map fun (octets, rest) =>
      (unpack 7 count (Nat.ofDigits 256 octets), rest)

/-- One octet with a fixed value. -/
def expectOctet (octet : Nat) (text : List Char) : Option (List Char) :=
  (readOctet text).bind fun (found, rest) => if found = octet then some rest else none

/-- SMSC, first octet 05, message reference 00, destination, PID 00, DCS 00 and
user data, with nothing left over. -/
def decodeSubmit (pdu : List Char) : Option Submit :=
  (readSmsc pdu).bind fun (smsc, rest) =>
    (expectOctet 0x05 rest).bind fun rest =>
      (expectOctet 0x00 rest).bind fun rest =>
        (readDestination rest).bind fun (number, rest) =>
          (expectOctet 0x00 rest).bind fun rest =>
            (expectOctet 0x00 rest).bind fun rest =>
              (readUserData rest).bind fun (septets, rest) =>
                if rest = [] then some ⟨smsc, number, septets⟩ else none

section Digits

theorem readDigit_digitChar (d : Fin 10) :
    readDigit (digitChar d) = some d := by
  decide +revert

theorem semiOctets_length (n : List Char) :
    (semiOctets n).length = n.length + n.length % 2 := by
  match n with
  | [] => rfl
  | [_] => rfl
  | _ :: _ :: rest =>
      have ih := semiOctets_length rest
      simp only [semiOctets, List.length_cons, ih]
      omega

/-- Reading back as many digits as were encoded. -/
theorem readSemiOctets_semiOctets (digits : List (Fin 10)) (rest : List Char) :
    readSemiOctets digits.length (semiOctets (digitText digits) ++ rest) =
      some (digits, rest) := by
  match digits with
  | [] => rfl
  | [d] => simp [digitText, semiOctets, readSemiOctets, readDigit_digitChar]
  | d :: e :: digits =>
      have ih := readSemiOctets_semiOctets digits rest
      simp [digitText_cons, semiOctets, readSemiOctets, readDigit_digitChar, ih]

/-- Reading one digit too many runs into the filler. -/
theorem readSemiOctets_filler (digits : List (Fin 10)) (rest : List Char)
    (hOdd : digits.length % 2 = 1) :
    readSemiOctets (digits.length + 1) (semiOctets (digitText digits) ++ rest) = none := by
  match digits with
  | [] => simp at hOdd
  | [d] =>
      have hFiller : readDigit 'F' = none := by decide
      simp [digitText, semiOctets, readSemiOctets, readDigit_digitChar, hFiller]
  | d :: e :: digits =>
      have hRest : digits.length % 2 = 1 := by
        simp only [List.length_cons] at hOdd
        omega
      have ih := readSemiOctets_filler digits rest hRest
      simp [digitText_cons, semiOctets, readSemiOctets, readDigit_digitChar, ih]

/-- The second place of the last pair: the filler exactly for odd counts. -/
theorem semiOctets_last (digits : List (Fin 10)) (rest : List Char) (hSome : digits ≠ []) :
    ((semiOctets (digitText digits) ++ rest)[digits.length + digits.length % 2 - 2]? = some 'F') ↔
      digits.length % 2 = 1 := by
  have hDigit : ∀ d : Fin 10, digitChar d ≠ 'F' := by decide
  match digits with
  | [] => exact absurd rfl hSome
  | [d] => simp [digitText, semiOctets]
  | [d, e] => simp [digitText, semiOctets, hDigit]
  | d :: e :: f :: digits =>
      have ih := semiOctets_last (f :: digits) rest (by simp)
      have hIndex : (d :: e :: f :: digits).length + (d :: e :: f :: digits).length % 2 - 2 =
          (f :: digits).length + (f :: digits).length % 2 - 2 + 2 := by
        simp only [List.length_cons]
        omega
      have hParity : (d :: e :: f :: digits).length % 2 = (f :: digits).length % 2 := by
        simp only [List.length_cons]
        omega
      rw [hIndex, hParity, ← ih, digitText_cons, digitText_cons, semiOctets]
      simp

end Digits

section Fields

/-- The two digits of a type of address. -/
def typeOfAddressText (plus : Bool) : List Char := if plus then ['9', '1'] else ['8', '1']

theorem readTypeOfAddress_text (plus : Bool) (rest : List Char) :
    readTypeOfAddress (typeOfAddressText plus ++ rest) = some (plus, rest) := by
  cases plus <;> rfl

theorem smsEncodeNumber_text (n : PhoneNumber) :
    smsEncodeNumber n.text = typeOfAddressText n.plus ++ semiOctets (digitText n.digits) := by
  have hDigit : ∀ d : Fin 10, digitChar d ≠ '+' := by decide
  cases hPlus : n.plus with
  | true => simp [PhoneNumber.text, hPlus, smsEncodeNumber, typeOfAddressText]
  | false =>
      cases hDigits : n.digits with
      | nil => simp [PhoneNumber.text, hPlus, hDigits, digitText, smsEncodeNumber,
          typeOfAddressText]
      | cons d digits =>
          simp only [PhoneNumber.text, hPlus, hDigits, digitText_cons, Bool.false_eq_true,
            if_false, List.nil_append, typeOfAddressText]
          unfold smsEncodeNumber
          split
          · rename_i hHead
            exact absurd (List.cons.inj hHead).1 (hDigit d)
          · rfl

theorem smsEncodeNumber_length (n : PhoneNumber) :
    (smsEncodeNumber n.text).length = 2 + (n.digits.length + n.digits.length % 2) := by
  rw [smsEncodeNumber_text, List.length_append, semiOctets_length, digitText_length]
  cases n.plus <;> rfl

/-- The SMSC address is read back for every digit count. -/
theorem readSmsc_encoded (n : PhoneNumber) (rest : List Char) :
    readSmsc (hex02 ((smsEncodeNumber n.text).length / 2) ++ (smsEncodeNumber n.text ++ rest)) =
      some (some n.toAddress, rest) := by
  obtain ⟨hLow, hHigh⟩ := n.count
  have hSome : n.digits ≠ [] := List.ne_nil_of_length_pos hLow
  have hOctets : (smsEncodeNumber n.text).length / 2 =
      (n.digits.length + n.digits.length % 2) / 2 + 1 := by
    rw [smsEncodeNumber_length]
    omega
  have hIndex : 2 * ((n.digits.length + n.digits.length % 2) / 2 + 1 - 1) - 2 =
      n.digits.length + n.digits.length % 2 - 2 := by omega
  have hCount : (if (semiOctets (digitText n.digits) ++ rest)[n.digits.length +
        n.digits.length % 2 - 2]? = some 'F' then
        2 * ((n.digits.length + n.digits.length % 2) / 2 + 1 - 1) - 1
      else 2 * ((n.digits.length + n.digits.length % 2) / 2 + 1 - 1)) = n.digits.length := by
    simp only [semiOctets_last n.digits rest hSome]
    split <;> omega
  have hByte : (n.digits.length + n.digits.length % 2) / 2 + 1 < 256 := by omega
  have hRead := readOctet_hex02 hByte
    (typeOfAddressText n.plus ++ (semiOctets (digitText n.digits) ++ rest))
  rw [hOctets, smsEncodeNumber_text, List.append_assoc, readSmsc, hRead]
  simp only [Option.bind_some, Nat.succ_ne_zero, if_false, readTypeOfAddress_text, hIndex, hCount,
    readSemiOctets_semiOctets, Option.map_some]

/-- The destination address is read back for an even digit count, and not at
all for an odd one: its length then counts the filler. -/
theorem readDestination_encoded (n : PhoneNumber) (rest : List Char) :
    readDestination
        (hex02 ((smsEncodeNumber n.text).length - 2) ++ (smsEncodeNumber n.text ++ rest)) =
      if n.digits.length % 2 = 0 then some (n.toAddress, rest) else none := by
  obtain ⟨hLow, hHigh⟩ := n.count
  have hCount : (smsEncodeNumber n.text).length - 2 =
      n.digits.length + n.digits.length % 2 := by
    rw [smsEncodeNumber_length]
    omega
  have hRead := readOctet_hex02 (show n.digits.length + n.digits.length % 2 < 256 by omega)
    (typeOfAddressText n.plus ++ (semiOctets (digitText n.digits) ++ rest))
  rw [hCount, smsEncodeNumber_text, List.append_assoc, readDestination, hRead]
  simp only [Option.bind_some, readTypeOfAddress_text]
  split
  · rename_i hEven
    rw [hEven, Nat.add_zero, readSemiOctets_semiOctets]
    rfl
  · have hOdd : n.digits.length % 2 = 1 := by omega
    rw [hOdd, readSemiOctets_filler _ _ hOdd]
    rfl

theorem readUserData_encoded (text : List Char) (h : (textSeptets text).length < 256) :
    readUserData (smsEncodeText text) = some (textSeptets text, []) := by
  obtain ⟨octets, hText, hValue, hLength, hOctet⟩ := smsEncodeText_eq text
  have hTwo : (hex02 (textSeptets text).length).take 2 = hex02 (textSeptets text).length :=
    List.take_of_length_le (hex02_length h).le
  have hSeptet : ∀ x ∈ textSeptets text, x < 2 ^ 7 := by
    intro x hx
    obtain ⟨c, _, hc⟩ := List.mem_flatMap.mp hx
    exact charSeptets_lt c x hc
  have hRead := readOctets_flatMap hOctet []
  rw [List.append_nil] at hRead
  rw [hText, hTwo, readUserData, readOctet_hex02 h]
  simp only [Option.bind_some, ← hLength, hRead, Option.map_some, hValue, unpack_ofDigits hSeptet]

theorem expectOctet_zero (rest : List Char) : expectOctet 0x00 ('0' :: '0' :: rest) = some rest :=
  rfl

theorem expectOctet_five (rest : List Char) : expectOctet 0x05 ('0' :: '5' :: rest) = some rest :=
  rfl

end Fields

/-- Everything behind the SMSC address. -/
def submitText (number : PhoneNumber) (text : List Char) : List Char :=
  "0500".toList ++ (hex02 ((smsEncodeNumber number.text).length - 2) ++
    (smsEncodeNumber number.text ++ ("0000".toList ++ smsEncodeText text)))

theorem readSmsc_pdu (smsc : Option PhoneNumber) (number : PhoneNumber) (text : List Char) :
    readSmsc (smsEncodePdu (smsc.map PhoneNumber.text) number.text text) =
      some (smsc.map PhoneNumber.toAddress, submitText number text) := by
  cases smsc with
  | none =>
      show readSmsc ("000500".toList ++ (hex02 ((smsEncodeNumber number.text).length - 2) ++
        smsEncodeNumber number.text ++ "0000".toList ++ smsEncodeText text)) = _
      simp only [submitText, List.append_assoc]
      rfl
  | some smsc =>
      show readSmsc (hex02 ((smsEncodeNumber smsc.text).length / 2) ++ smsEncodeNumber smsc.text ++
        "0500".toList ++ (hex02 ((smsEncodeNumber number.text).length - 2) ++
          smsEncodeNumber number.text ++ "0000".toList ++ smsEncodeText text)) = _
      simp only [submitText, List.append_assoc]
      exact readSmsc_encoded smsc _

/-- What is printed is read back as the SMSC, the number and the septets it was made from
if and only if the destination number has an even digit count. -/
theorem decodeSubmit_smsEncodePdu_iff (smsc : Option PhoneNumber) (number : PhoneNumber)
    (text : List Char) (hText : (textSeptets text).length ≤ 160) :
    decodeSubmit (smsEncodePdu (smsc.map PhoneNumber.text) number.text text) =
        some { smsc := smsc.map PhoneNumber.toAddress, number := number.toAddress,
               septets := textSeptets text } ↔
      number.digits.length % 2 = 0 := by
  have hHead : submitText number text = '0' :: '5' :: '0' :: '0' ::
      (hex02 ((smsEncodeNumber number.text).length - 2) ++
        (smsEncodeNumber number.text ++ ('0' :: '0' :: '0' :: '0' :: smsEncodeText text))) := rfl
  have hData := readUserData_encoded text (by omega)
  rw [decodeSubmit, readSmsc_pdu, Option.bind_some, hHead]
  simp only [expectOctet_five, expectOctet_zero, Option.bind_some, readDestination_encoded]
  by_cases hEven : number.digits.length % 2 = 0
  · simp only [hEven, if_true, Option.bind_some, expectOctet_zero, hData]
  · simp only [hEven, if_false, Option.bind_none, reduceCtorEq]

/-- `sms_encode_pdu` with the object of its text. No result where that is written past. -/
def smsEncodePduInto (smsc : Option (List Char)) (number text : List Char) :
    Option (List Char) := do
  let encText ← smsEncodeTextInto text
  let encText ← loadString encText
  some (printPdu smsc number (characters encText))

section Object

variable {text : List Char}

theorem smsEncodeText_ascii (h : (textSeptets text).length < 256) :
    ∀ c ∈ smsEncodeText text, 0 < c.toNat ∧ c.toNat < 128 := by
  obtain ⟨octets, hText, -, -, hOctets⟩ := smsEncodeText_eq text
  intro c hMem
  rw [hText] at hMem
  rcases List.mem_append.mp hMem with hLength | hPacked
  · exact hex02_ascii h c (List.mem_of_mem_take hLength)
  · obtain ⟨octet, hOctet, hDigit⟩ := List.mem_flatMap.mp hPacked
    exact hex02_ascii (hOctets octet hOctet) c hDigit

theorem characters_stored (h : ∀ c ∈ text, c.toNat < 128) : characters (stored text) = text := by
  rw [characters, stored, List.map_map, List.map_congr_left (g := id), List.map_id]
  intro c hMem
  have hByte : c.toNat.toUInt8.toNat = c.toNat := Nat.mod_eq_of_lt (by have := h c hMem; omega)
  show Char.ofNat c.toNat.toUInt8.toNat = c
  rw [hByte, Char.ofNat_toNat]

theorem stored_nulFree (h : ∀ c ∈ text, 0 < c.toNat ∧ c.toNat < 128) : 0 ∉ stored text := by
  intro hMem
  obtain ⟨c, hChar, hZero⟩ := List.mem_map.mp hMem
  have hByte : c.toNat.toUInt8.toNat = c.toNat :=
    Nat.mod_eq_of_lt (by have := (h c hChar).2; omega)
  rw [hZero] at hByte
  exact (h c hChar).1.ne hByte

/-- The object is the string, as far as there is one. -/
theorem smsEncodePduInto_eq (smsc : Option (List Char)) (number : List Char)
    (hText : (textSeptets text).length < 256) :
    smsEncodePduInto smsc number text =
      if (smsEncodeTextInto text).isSome then some (smsEncodePdu smsc number text) else none := by
  have hAscii := smsEncodeText_ascii hText
  obtain ⟨hFits, hFails⟩ := smsEncodeTextInto_cases text
  rw [smsEncodePduInto]
  simp only [smsEncodeTextInto_isSome_iff]
  by_cases hRoom : (textState text).finished.need ≤ pduSize text.length
  · obtain ⟨pdu, hResult, hHolds⟩ := hFits hRoom
    have hLoad : loadString pdu = some (stored (smsEncodeText text)) :=
      Holds.loadString (s := ⟨stored (smsEncodeText text), stored_nulFree hAscii⟩) hHolds
    simp only [if_pos hRoom, hResult, hLoad, Option.bind_eq_bind, Option.bind_some,
      characters_stored fun c hMem => (hAscii c hMem).2]
    rfl
  · rw [hFails (Nat.lt_of_not_le hRoom), if_neg hRoom]
    rfl

end Object

/-- An encoded PDU is read back as the SMSC, the number and the septets it was made from
if and only if the destination number has an even digit count and the text is written
inside of its object. Of a text with characters of both tables only, that is none of the
extension table, and a length that is a multiple of eight. -/
theorem smsEncodePduInto_decode_iff (smsc : Option PhoneNumber) (number : PhoneNumber)
    (text : List Char) (hText : (textSeptets text).length ≤ 160) :
    (smsEncodePduInto (smsc.map PhoneNumber.text) number.text text).bind decodeSubmit =
        some { smsc := smsc.map PhoneNumber.toAddress, number := number.toAddress,
               septets := textSeptets text } ↔
      number.digits.length % 2 = 0 ∧
        (text.countP isExtension < text.countP isUnmapped ∨
          (text.countP isExtension = text.countP isUnmapped ∧ 8 ∣ text.length)) := by
  rw [← need_le_pduSize_iff, ← smsEncodeTextInto_isSome_iff, smsEncodePduInto_eq _ _ (by omega)]
  by_cases hSome : (smsEncodeTextInto text).isSome
  · rw [if_pos hSome, Option.bind_some, decodeSubmit_smsEncodePdu_iff smsc number text hText]
    simp [hSome]
  · rw [if_neg hSome]
    simp [hSome]

/-- Twelve digits and eight letters, without an SMSC. -/
theorem smsEncodePduInto_decode_iff_even :
    let number : PhoneNumber := ⟨⟨true, [4, 9, 1, 7, 2, 1, 2, 3, 4, 5, 6, 7]⟩, by decide⟩
    let text := "Testtext".toList
    smsEncodePduInto none number.text text =
      some "0005000C91947112325476000008D4F29C4E2FE3E9".toList ∧
    (smsEncodePduInto none number.text text).bind decodeSubmit =
      some { smsc := none, number := number.toAddress, septets := textSeptets text } := by
  intro number text
  have hCounts : text.countP isExtension = 0 ∧ text.countP isUnmapped = 0 := by
    unfold isExtension isUnmapped
    rw [smsGsm7_eq, smsGsm7Ext_eq]
    decide +kernel
  have hText : (textSeptets text).length ≤ 160 := by
    unfold textSeptets charSeptets
    rw [smsGsm7_eq, smsGsm7Ext_eq]
    decide +kernel
  refine ⟨?_, (smsEncodePduInto_decode_iff none number text hText).mpr ⟨by decide, .inr ?_⟩⟩
  · unfold smsEncodePduInto smsEncodeTextInto writeChar
    rw [smsGsm7_eq, smsGsm7Ext_eq]
    decide +kernel
  · exact ⟨hCounts.1.trans hCounts.2.symm, by decide⟩

/-- One digit less: the address length says twelve where there are eleven digits and a
filler, and the layout cannot be read. And with the text of the project's own test the
number with twelve digits gets no PDU. -/
theorem smsEncodePduInto_decode_odd :
    let number : PhoneNumber := ⟨⟨true, [4, 9, 1, 7, 2, 1, 2, 3, 4, 5, 6]⟩, by decide⟩
    let even : PhoneNumber := ⟨⟨true, [4, 9, 1, 7, 2, 1, 2, 3, 4, 5, 6, 7]⟩, by decide⟩
    smsEncodePduInto none number.text "Testtext".toList =
      some "0005000C919471123254F6000008D4F29C4E2FE3E9".toList ∧
    (smsEncodePduInto none number.text "Testtext".toList).bind decodeSubmit = none ∧
    smsEncodePduInto none even.text "Testtext:€".toList = none := by
  intro number even
  have hPdu : smsEncodePduInto none number.text "Testtext".toList =
      some "0005000C919471123254F6000008D4F29C4E2FE3E9".toList := by
    unfold smsEncodePduInto smsEncodeTextInto writeChar
    rw [smsGsm7_eq, smsGsm7Ext_eq]
    decide +kernel
  refine ⟨hPdu, ?_, ?_⟩
  · rw [hPdu]
    decide +kernel
  · unfold smsEncodePduInto smsEncodeTextInto writeChar
    rw [smsGsm7_eq, smsGsm7Ext_eq]
    decide +kernel

end MonitoringPlug.Sms
