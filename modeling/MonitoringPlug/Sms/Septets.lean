import MonitoringPlug.Sms.Encode

/-! The packing of `sms_encode_text` bit by bit: the octets that are printed, and the
accumulator at every point of the run. -/
namespace MonitoringPlug.Sms

open Octets

/-- The locals between the rounds of the `while` that prints full octets. -/
def printStates (st : TextState) : List TextState :=
  (st.packer.drainStates st.packer.bits).map fun packer => { st with packer := packer }

/-- The locals after each assignment in one round of the loop: the septets of the
character are pushed one by one, and full octets are printed behind the last. -/
def charStates (st : TextState) (c : Char) : List TextState :=
  match charSeptets c with
  | [pos] => printStates (pushSeptet pos st)
  | [escape, pos] =>
      pushSeptet escape st :: printStates (pushSeptet pos (pushSeptet escape st))
  | _ => []

/-- The locals at every point of the run, the start and the end of each round
included. -/
def textStates (st : TextState) : List Char → List TextState
  | [] => [st]
  | c :: text => st :: (charStates st c ++ textStates (encodeChar st c) text)

section Accumulator

variable {st : TextState} {septets : List Nat}

theorem bit_lt_of_bits_le {p : Packer} (h : p.Tidy) {width : Nat} (hBits : p.bits ≤ width) :
    p.bit < 2 ^ width :=
  h.bit_lt.trans_le (Nat.pow_le_pow_right (by decide) hBits)

theorem printStates_bit_lt (h : st.Holds septets) {width : Nat} (hBits : st.packer.bits ≤ width) :
    ∀ st' ∈ printStates st, st'.packer.bit < 2 ^ width := by
  intro st' hst
  obtain ⟨p, hp, rfl⟩ := List.mem_map.mp hst
  exact (Packer.drainStates_bit_le _ _ p hp).trans_lt (bit_lt_of_bits_le h.tidy hBits)

/-- At most seven pending bits and two septets are in the accumulator. -/
theorem charStates_bit_lt (c : Char) (h : st.Holds septets) (hBits : st.packer.bits < 8) :
    ∀ st' ∈ charStates st c, st'.packer.bit < 2 ^ 21 := by
  rcases encodeChar_cases c with ⟨pos, hPos, hSeptets, _⟩ | ⟨pos, hPos, hSeptets, _⟩ | ⟨hSeptets, _⟩
  · have hPushed := pushSeptet_holds h hPos (by
      simp only [wordBits]
      omega)
    simp only [charStates, hSeptets]
    apply printStates_bit_lt hPushed
    simp only [pushSeptet, Packer.push]
    omega
  · have hEscaped : (pushSeptet 0x1B st).Holds (septets ++ [0x1B]) :=
      pushSeptet_holds h (by decide) (by
        simp only [wordBits]
        omega)
    have hPushed := pushSeptet_holds hEscaped hPos (by
      simp only [pushSeptet, Packer.push, wordBits]
      omega)
    intro st' hst
    simp only [charStates, hSeptets] at hst
    rcases List.mem_cons.mp hst with rfl | hPrinted
    · apply bit_lt_of_bits_le hEscaped.tidy
      simp only [pushSeptet, Packer.push]
      omega
    · apply printStates_bit_lt hPushed _ st' hPrinted
      simp only [pushSeptet, Packer.push]
      omega
  · intro st' hst
    simp only [charStates, hSeptets] at hst
    cases hst

theorem textStates_bit_lt (text : List Char) (h : st.Holds septets) (hBits : st.packer.bits < 8) :
    ∀ st' ∈ textStates st text, st'.packer.bit < 2 ^ 21 := by
  have hHere : st.packer.bit < 2 ^ 21 := bit_lt_of_bits_le h.tidy (by omega)
  induction text generalizing st septets with
  | nil =>
      intro st' hst
      rwa [List.mem_singleton.mp hst]
  | cons c text ih =>
      obtain ⟨hNext, hNextBits⟩ := encodeChar_holds c h hBits
      have hThere : (encodeChar st c).packer.bit < 2 ^ 21 := bit_lt_of_bits_le hNext.tidy (by omega)
      intro st' hst
      rcases List.mem_cons.mp hst with rfl | hLater
      · exact hHere
      · rcases List.mem_append.mp hLater with hRound | hRest
        · exact charStates_bit_lt c h hBits st' hRound
        · exact ih hNext hNextBits hThere st' hRest

end Accumulator

theorem textSeptets_lt (text : List Char) : ∀ x ∈ textSeptets text, x < 2 ^ 7 := by
  intro x hx
  obtain ⟨c, _, hc⟩ := List.mem_flatMap.mp hx
  exact charSeptets_lt c x hc

theorem smsEncodeText_octets (text : List Char) :
    smsEncodeText text = (hex02 (textSeptets text).length).take 2 ++
        (packedOctets 7 (textSeptets text)).flatMap hex02 ∧
      Nat.ofDigits 256 (packedOctets 7 (textSeptets text)) =
        Nat.ofDigits (2 ^ 7) (textSeptets text) := by
  obtain ⟨octets, hText, hValue, hLength, hOctets⟩ := smsEncodeText_eq text
  have hPacked := eq_packedOctets (by decide) (textSeptets_lt text) hOctets hLength hValue
  rw [← hPacked]
  exact ⟨hText, hValue⟩

/-- Every text is packed exactly: the digits behind the length are those of its
septets laid out bit by bit, the septets are unpacked from them again, the length is
the count of the septets while it fits two digits, and no bit leaves the accumulator.
Whether the digits fit into their object is another matter, see `smsEncodeTextInto_cases`. -/
theorem smsEncodeText_packed (text : List Char) :
    smsEncodeText text = (hex02 (textSeptets text).length).take 2 ++
        (packedOctets 7 (textSeptets text)).flatMap hex02 ∧
      unpack 7 (textSeptets text).length
        (Nat.ofDigits 256 (packedOctets 7 (textSeptets text))) = textSeptets text ∧
      ((textSeptets text).length ≤ 255 →
        readOctet (smsEncodeText text) = some ((textSeptets text).length,
          (packedOctets 7 (textSeptets text)).flatMap hex02)) ∧
      ∀ st ∈ textStates { len := 0, packer := Packer.empty } text, st.packer.bit < 2 ^ 21 := by
  obtain ⟨hText, hValue⟩ := smsEncodeText_octets text
  refine ⟨hText, ?_, ?_, ?_⟩
  · rw [hValue]
    exact unpack_ofDigits (textSeptets_lt text)
  · intro hShort
    have hDigits : (hex02 (textSeptets text).length).take 2 = hex02 (textSeptets text).length :=
      List.take_of_length_le (hex02_length (by omega)).le
    rw [hText, hDigits]
    exact readOctet_hex02 (by omega) _
  · have hStart : TextState.Holds { len := 0, packer := Packer.empty } [] :=
      ⟨Packer.empty_tidy, rfl, rfl, rfl⟩
    exact textStates_bit_lt text hStart (by decide)

/-- A character of the extension table takes two septets. -/
theorem smsEncodeText_packed_euro :
    readOctet (smsEncodeText ['€']) = some (2, "9B32".toList) := by
  have hSeptets : textSeptets ['€'] = [0x1B, 0x65] := by
    unfold textSeptets charSeptets
    rw [smsGsm7_eq, smsGsm7Ext_eq]
    decide +kernel
  have hLength := (smsEncodeText_packed ['€']).2.2.1
  rw [hSeptets] at hLength
  rw [hLength (by decide)]
  decide +kernel

end MonitoringPlug.Sms
