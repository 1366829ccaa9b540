import MonitoringPlug.Lib.Block
import MonitoringPlug.Sms.Septets

/-! `sms_encode_text` on the buffer it allocates. A `none` result is a write past that
buffer; every `sprintf` writes its NUL as well. -/
namespace MonitoringPlug.Sms

open CMemory Octets

/-- Characters as they are stored. -/
def stored (text : List Char) : List UInt8 := text.map fun c => c.toNat.toUInt8

/-- The locals of `sms_encode_text` with the object behind `pdu`; `ptr` is an offset
into it. -/
structure Writer where
  pdu : Block
  ptr : Nat
  len : Nat
  bit : Nat
  bits : Nat

/-- `sprintf(ptr, "%02X", bit & 0xFF)`, and the pointer moved on by two. -/
def printOctet (w : Writer) : Option Writer :=
  (store w.pdu w.ptr (stored (hex02 (w.bit % 256)) ++ [0])).map fun pdu =>
    { w with pdu := pdu, ptr := w.ptr + 2 }

/-- The `while (bits >= 8)`, at most `rounds` times. -/
def printFull : Nat → Writer → Option Writer
  | 0, w => some w
  | rounds + 1, w =>
      if 8 ≤ w.bits then
        (printOctet w).bind fun w =>
          printFull rounds { w with bit := w.bit >>> 8, bits := w.bits - 8 }
      else some w

/-- `bit |= septet << bits`, with the two counts. -/
def addSeptet (septet : Nat) (w : Writer) : Writer :=
  { w with bit := (w.bit ||| septet <<< w.bits) % 2 ^ wordBits, bits := w.bits + 7,
           len := w.len + 1 }

/-- One round of the loop over the characters. -/
def writeChar (w : Writer) (c : Char) : Option Writer :=
  match wcschr smsGsm7 c with
  | some pos =>
      let w := addSeptet pos w
      printFull w.bits w
  | none =>
      match wcschr smsGsm7Ext c with
      | none => some w
      | some pos =>
          let w := addSeptet pos (addSeptet 0x1B w)
          printFull w.bits w

/-- The size of the buffer for a text of `i` wide characters. -/
def pduSize (i : Nat) : Nat := i * 7 / 4 + 3

/-- The object that is returned. -/
def smsEncodeTextInto (text : List Char) : Option Block :=
  (store (zalloc (pduSize text.length)) 0 (stored ['X', 'X'] ++ [0])).bind fun pdu =>
    (text.foldlM writeChar { pdu := pdu, ptr := 2, len := 0, bit := 0, bits := 0 }).bind fun w =>
      (if 0 < w.bits then printOctet w else some w).bind fun w =>
        store w.pdu 0 (stored ((hex02 w.len).take 2))

/-- The characters of the extension table, as the code looks for them. -/
def isExtension (c : Char) : Bool := (wcschr smsGsm7 c).isNone && (wcschr smsGsm7Ext c).isSome

/-- The characters of neither table. -/
def isUnmapped (c : Char) : Bool := (wcschr smsGsm7 c).isNone && (wcschr smsGsm7Ext c).isNone

/-- The text in front of the NUL so far. -/
def TextState.shown (st : TextState) : List Char :=
  ['X', 'X'] ++ st.packer.octets.flatMap hex02

/-- How large the buffer has to be for what was printed so far. -/
def TextState.need (st : TextState) : Nat := 2 * st.packer.octets.length + 3

/-- The locals are those of the run without a buffer, and the buffer has the text. -/
structure Writer.Follows (w : Writer) (st : TextState) (size : Nat) : Prop where
  len : w.len = st.len
  bit : w.bit = st.packer.bit
  bits : w.bits = st.packer.bits
  ptr : w.ptr = st.shown.length
  holds : Holds w.pdu (stored st.shown ++ [0])
  size : w.pdu.length = size

/-- The writer follows exactly as far as the buffer is large enough. -/
def Tracks (size : Nat) (result : Option Writer) (st : TextState) : Prop :=
  (st.need ≤ size → ∃ w, result = some w ∧ w.Follows st size) ∧ (size < st.need → result = none)

section Writing

variable {size : Nat} {w : Writer} {st st' : TextState} {septets : List Nat}

theorem shown_length (h : ∀ n ∈ st.packer.octets, n < 256) :
    st.shown.length = 2 * st.packer.octets.length + 2 := by
  simp only [TextState.shown, List.length_append, flatMap_hex02_length h, List.length_cons,
    List.length_nil]
  omega

theorem Writer.Follows.tracks (h : w.Follows st size) (hOctets : ∀ n ∈ st.packer.octets, n < 256) :
    Tracks size (some w) st := by
  refine ⟨fun _ => ⟨w, rfl, h⟩, fun hShort => ?_⟩
  have hFits := h.holds.length_le
  rw [List.length_append, stored, List.length_map, shown_length hOctets, h.size,
    List.length_singleton] at hFits
  simp only [TextState.need] at hShort
  omega

/-- Steps one after the other, each of which needs no less than the one before. -/
theorem Tracks.bind {result : Option Writer} {f : Writer → Option Writer}
    (h : Tracks size result st) (hGrows : st.need ≤ st'.need)
    (hNext : ∀ w, w.Follows st size → Tracks size (f w) st') : Tracks size (result.bind f) st' := by
  constructor
  · intro hFits
    obtain ⟨w, hResult, hFollows⟩ := h.1 (by omega)
    rw [hResult]
    exact (hNext w hFollows).1 hFits
  · intro hShort
    by_cases hSoFar : st.need ≤ size
    · obtain ⟨w, hResult, hFollows⟩ := h.1 hSoFar
      rw [hResult]
      exact (hNext w hFollows).2 hShort
    · rw [h.2 (by omega)]
      rfl

theorem Writer.Follows.addSeptet (h : w.Follows st size) (septet : Nat) :
    (Sms.addSeptet septet w).Follows (pushSeptet septet st) size where
  len := congrArg (· + 1) h.len
  bit := by simp only [Sms.addSeptet, pushSeptet, Packer.push, h.bit, h.bits]
  bits := congrArg (· + 7) h.bits
  ptr := h.ptr
  holds := h.holds
  size := h.size

/-- The state behind one more octet. -/
def TextState.emitted (st : TextState) : TextState := { st with packer := st.packer.emit }

def TextState.drained (rounds : Nat) (st : TextState) : TextState :=
  { st with packer := st.packer.drain rounds }

theorem need_drained (rounds : Nat) (st : TextState) : st.need ≤ (st.drained rounds).need := by
  have hLength := Packer.drain_octets_length rounds st.packer
  simp only [TextState.need, TextState.drained]
  omega

theorem emitted_octets (h : ∀ n ∈ st.packer.octets, n < 256) :
    ∀ n ∈ st.emitted.packer.octets, n < 256 := by
  intro n hn
  rcases List.mem_append.mp hn with hOld | hNew
  · exact h n hOld
  · rw [List.mem_singleton.mp hNew]
    exact Nat.mod_lt _ (by decide)

/-- The text with one more octet and its NUL. -/
theorem stored_shown_emitted (st : TextState) : stored st.emitted.shown ++ [0] =
    stored st.shown ++ (stored (hex02 (st.packer.bit % 256)) ++ [0]) := by
  simp [TextState.shown, TextState.emitted, Packer.emit, stored]

/-- One octet is printed where the buffer has room for it and a NUL. -/
theorem printOctet_tracks (h : w.Follows st size) (hOctets : ∀ n ∈ st.packer.octets, n < 256) :
    Tracks size ((printOctet w).map fun w => { w with bit := w.bit >>> 8, bits := w.bits - 8 })
      st.emitted := by
  have hDigits : (hex02 (st.packer.bit % 256)).length = 2 := hex02_length (Nat.mod_lt _ (by decide))
  have hPtr : w.ptr = (stored st.shown).length := by rw [h.ptr, stored, List.length_map]
  have hShown := shown_length hOctets
  have hNeed : st.emitted.need = st.shown.length + 3 := by
    rw [hShown]
    simp only [TextState.need, TextState.emitted, Packer.emit, List.length_append,
      List.length_singleton]
    omega
  have hBytes : (stored (hex02 (st.packer.bit % 256)) ++ [0]).length = 3 := by
    rw [List.length_append, stored, List.length_map, hDigits]
    rfl
  rw [printOctet, h.bit]
  constructor
  · intro hFits
    obtain ⟨pdu, hStore, hHolds, hSize⟩ := h.holds.of_append.store
      (stored (hex02 (st.packer.bit % 256)) ++ [0]) (by rw [hBytes, ← hPtr, h.ptr, h.size]; omega)
    rw [hPtr, hStore]
    refine ⟨_, rfl, h.len, ?_, ?_, ?_, ?_, hSize.trans h.size⟩
    · rfl
    · exact congrArg (· - 8) h.bits
    · have hMore := congrArg List.length (stored_shown_emitted st)
      simp only [List.length_append, stored, List.length_map, hDigits, List.length_singleton]
        at hMore
      simp only [stored, List.length_map]
      omega
    · rwa [stored_shown_emitted]
  · intro hShort
    rw [store, if_neg (by rw [hBytes, h.ptr, h.size]; omega)]
    rfl

/-- Printing full octets follows the draining of the accumulator. -/
theorem printFull_tracks (rounds : Nat) (h : w.Follows st size)
    (hOctets : ∀ n ∈ st.packer.octets, n < 256) :
    Tracks size (printFull rounds w) (st.drained rounds) := by
  induction rounds generalizing w st with
  | zero => exact h.tracks hOctets
  | succ rounds ih =>
      rw [printFull, h.bits]
      by_cases hFull : 8 ≤ st.packer.bits
      · have hDrained : st.drained (rounds + 1) = st.emitted.drained rounds := by
          simp [TextState.drained, TextState.emitted, Packer.drain, hFull]
        have hRest := (printOctet_tracks h hOctets).bind (need_drained rounds _)
          (f := printFull rounds) fun w' hw' => ih hw' (emitted_octets hOctets)
        rw [if_pos hFull, hDrained]
        rwa [Option.bind_map] at hRest
      · have hDrained : st.drained (rounds + 1) = st := by
          simp [TextState.drained, Packer.drain, hFull]
        rw [if_neg hFull, hDrained]
        exact h.tracks hOctets

/-- A round by the septets of its character. -/
theorem writeChar_eq (w : Writer) (c : Char) : writeChar w c =
    match charSeptets c with
    | [pos] => printFull (addSeptet pos w).bits (addSeptet pos w)
    | [escape, pos] => printFull (addSeptet pos (addSeptet escape w)).bits
        (addSeptet pos (addSeptet escape w))
    | _ => some w := by
  unfold writeChar charSeptets
  cases wcschr smsGsm7 c with
  | some pos => rfl
  | none =>
      cases wcschr smsGsm7Ext c with
      | some pos => rfl
      | none => rfl

/-- No round takes back what was printed. -/
theorem encodeChar_need (st : TextState) (c : Char) : st.need ≤ (encodeChar st c).need := by
  rcases encodeChar_cases c with ⟨pos, _, _, hRound⟩ | ⟨pos, _, _, hRound⟩ | ⟨_, hRound⟩
  · rw [hRound]
    exact need_drained _ (pushSeptet pos st)
  · rw [hRound]
    exact need_drained _ (pushSeptet pos (pushSeptet 0x1B st))
  · rw [hRound]

theorem foldl_encodeChar_need (st : TextState) (text : List Char) :
    st.need ≤ (text.foldl encodeChar st).need := by
  induction text generalizing st with
  | nil => exact Nat.le_refl _
  | cons c text ih => exact (encodeChar_need st c).trans (ih (encodeChar st c))

/-- One round follows the run without a buffer. -/
theorem writeChar_tracks (c : Char) (h : w.Follows st size)
    (hOctets : ∀ n ∈ st.packer.octets, n < 256) :
    Tracks size (writeChar w c) (encodeChar st c) := by
  have hPrint : ∀ {w' : Writer} {st' : TextState}, w'.Follows st' size →
      (∀ n ∈ st'.packer.octets, n < 256) →
      Tracks size (printFull w'.bits w') (printOctets st') := by
    intro w' st' h' hOctets'
    rw [h'.bits]
    exact printFull_tracks _ h' hOctets'
  rcases encodeChar_cases c with ⟨pos, _, hSeptets, hRound⟩ | ⟨pos, _, hSeptets, hRound⟩ |
    ⟨hSeptets, hRound⟩
  · rw [writeChar_eq, hSeptets, hRound]
    exact hPrint (h.addSeptet pos) hOctets
  · rw [writeChar_eq, hSeptets, hRound]
    exact hPrint ((h.addSeptet 0x1B).addSeptet pos) hOctets
  · rw [writeChar_eq, hSeptets, hRound]
    exact h.tracks hOctets

/-- The loop follows the run without a buffer. -/
theorem foldlM_writeChar_tracks (text : List Char) (h : w.Follows st size)
    (hHolds : st.Holds septets) (hBits : st.packer.bits < 8) :
    Tracks size (text.foldlM writeChar w) (text.foldl encodeChar st) := by
  induction text generalizing w st septets with
  | nil => exact h.tracks hHolds.tidy.octet_lt
  | cons c text ih =>
      obtain ⟨hNext, hNextBits⟩ := encodeChar_holds c hHolds hBits
      rw [List.foldlM_cons, List.foldl_cons]
      apply (writeChar_tracks c h hHolds.tidy.octet_lt).bind (foldl_encodeChar_need _ text)
      intro w' hw'
      exact ih hw' hNext hNextBits

/-- The state behind the octet that is left over, if there is one. -/
def TextState.finished (st : TextState) : TextState := if 0 < st.packer.bits then st.emitted else st

theorem finished_octets (st : TextState) : st.finished.packer.octets = st.packer.finish := by
  rw [TextState.finished, Packer.finish]
  split <;> rfl

theorem finished_need (st : TextState) : st.need ≤ st.finished.need := by
  rw [TextState.finished]
  split
  · simp [TextState.need, TextState.emitted, Packer.emit]
  · exact Nat.le_refl _

/-- The last octet leaves accumulator and count behind as they are. -/
theorem finish_tracks (h : w.Follows st size) (hOctets : ∀ n ∈ st.packer.octets, n < 256) :
    (st.finished.need ≤ size →
      ∃ w', (if 0 < w.bits then printOctet w else some w) = some w' ∧ w'.len = st.len ∧
        Holds w'.pdu (stored st.finished.shown ++ [0]) ∧ w'.pdu.length = size) ∧
      (size < st.finished.need → (if 0 < w.bits then printOctet w else some w) = none) := by
  rw [h.bits, TextState.finished]
  by_cases hLeft : 0 < st.packer.bits
  · simp only [if_pos hLeft]
    obtain ⟨hFits, hFails⟩ := printOctet_tracks h hOctets
    constructor
    · intro hRoom
      obtain ⟨w', hPrint, hFollows⟩ := hFits hRoom
      obtain ⟨printed, hPrinted, rfl⟩ := Option.map_eq_some_iff.mp hPrint
      exact ⟨printed, hPrinted, hFollows.len, hFollows.holds, hFollows.size⟩
    · intro hShort
      exact Option.map_eq_none_iff.mp (hFails hShort)
  · simp only [if_neg hLeft]
    obtain ⟨hFits, hFails⟩ := h.tracks hOctets
    constructor
    · intro hRoom
      exact ⟨w, rfl, h.len, h.holds, h.size⟩
    · exact hFails

end Writing

/-- The state at the end of the loop over a text. -/
def textState (text : List Char) : TextState :=
  text.foldl encodeChar { len := 0, packer := Packer.empty }

theorem textState_holds (text : List Char) :
    (textState text).Holds (textSeptets text) ∧ (textState text).packer.bits < 8 := by
  have hStart : TextState.Holds { len := 0, packer := Packer.empty } [] :=
    ⟨Packer.empty_tidy, rfl, rfl, rfl⟩
  exact foldl_encodeChar_holds text hStart (by decide)

theorem finished_need_eq (text : List Char) :
    (textState text).finished.need = 2 * ((7 * (textSeptets text).length + 7) / 8) + 3 := by
  obtain ⟨hHolds, hBits⟩ := textState_holds text
  rw [TextState.need, finished_octets, Packer.finish_length hBits, hHolds.width]

/-- At the start the buffer holds the two characters that the length replaces. -/
theorem start_follows (size : Nat) (hSize : 3 ≤ size) :
    ∃ pdu, store (zalloc size) 0 (stored ['X', 'X'] ++ [0]) = some pdu ∧
      Writer.Follows { pdu := pdu, ptr := 2, len := 0, bit := 0, bits := 0 }
        { len := 0, packer := Packer.empty } size := by
  obtain ⟨pdu, hStore, hHolds, hLength⟩ := (Holds.nil (zalloc size)).store
    (stored ['X', 'X'] ++ [0]) (by simpa [stored] using hSize)
  exact ⟨pdu, hStore, rfl, rfl, rfl, rfl, hHolds, by rw [hLength, zalloc_length]⟩

/-- The text is written where the buffer has room for its octets, the two digits of
the length and a NUL, and then it is the text without a buffer. -/
theorem smsEncodeTextInto_cases (text : List Char) :
    ((textState text).finished.need ≤ pduSize text.length →
      ∃ pdu, smsEncodeTextInto text = some pdu ∧
        Holds pdu (stored (smsEncodeText text) ++ [0])) ∧
    (pduSize text.length < (textState text).finished.need → smsEncodeTextInto text = none) := by
  obtain ⟨start, hStore, hStart⟩ := start_follows (pduSize text.length) (by
    rw [pduSize]
    omega)
  have hEmpty : TextState.Holds { len := 0, packer := Packer.empty } [] :=
    ⟨Packer.empty_tidy, rfl, rfl, rfl⟩
  have hTracks : Tracks (pduSize text.length) _ (textState text) :=
    foldlM_writeChar_tracks text hStart hEmpty (by decide)
  obtain ⟨hFits, hFails⟩ := hTracks
  have hOctets : ∀ n ∈ (textState text).packer.octets, n < 256 :=
    (textState_holds text).1.tidy.octet_lt
  have hNeed := finished_need (textState text)
  rw [smsEncodeTextInto, hStore, Option.bind_some]
  constructor
  · intro hRoom
    obtain ⟨w, hLoop, hFollows⟩ := hFits (hNeed.trans hRoom)
    obtain ⟨w', hFinish, hLen, hHolds, _⟩ := (finish_tracks hFollows hOctets).1 hRoom
    have hText : stored (textState text).finished.shown ++ [0] = stored ['X', 'X'] ++
        (stored ((textState text).packer.finish.flatMap hex02) ++ [0]) := by
      simp [TextState.shown, finished_octets, stored]
    rw [hText] at hHolds
    have hDigits : (stored ((hex02 (textState text).len).take 2)).length =
        (stored ['X', 'X']).length := by
      rw [stored, List.length_map, hex02_take_length]
      rfl
    obtain ⟨pdu, hLength, hWritten⟩ := hHolds.overwrite hDigits
    refine ⟨pdu, ?_, ?_⟩
    · rw [hLoop, Option.bind_some, hFinish, Option.bind_some, hLen]
      exact hLength
    · have hWhole : stored (smsEncodeText text) = stored ((hex02 (textState text).len).take 2) ++
          stored ((textState text).packer.finish.flatMap hex02) := by
        rw [stored, smsEncodeText, List.map_append]
        rfl
      rwa [hWhole, List.append_assoc]
  · intro hShort
    by_cases hLoop : (textState text).need ≤ pduSize text.length
    · obtain ⟨w, hRun, hFollows⟩ := hFits hLoop
      rw [hRun, Option.bind_some, (finish_tracks hFollows hOctets).2 hShort]
      rfl
    · rw [hFails (not_le.mp hLoop)]
      rfl

theorem charSeptets_count (c : Char) :
    (charSeptets c).length + (if isUnmapped c then 1 else 0) =
      1 + if isExtension c then 1 else 0 := by
  unfold charSeptets isUnmapped isExtension
  cases wcschr smsGsm7 c with
  | some pos => rfl
  | none =>
      cases wcschr smsGsm7Ext c with
      | some pos => rfl
      | none => rfl

/-- An unmapped character saves a septet, and one of the extension table takes one
more. -/
theorem textSeptets_count (text : List Char) :
    (textSeptets text).length + text.countP isUnmapped = text.length + text.countP isExtension := by
  induction text with
  | nil => rfl
  | cons c text ih =>
      have hHere := charSeptets_count c
      have hSplit : textSeptets (c :: text) = charSeptets c ++ textSeptets text := rfl
      rw [hSplit, List.length_append, List.countP_cons, List.countP_cons, List.length_cons]
      omega

/-- The octets of `s` septets fit a buffer for `i` characters. -/
theorem octets_fit_iff (s i : Nat) :
    2 * ((7 * s + 7) / 8) + 3 ≤ pduSize i ↔ s < i ∨ (s = i ∧ 8 ∣ i) := by
  rw [pduSize]
  rcases Nat.lt_trichotomy s i with hLess | rfl | hMore
  · omega
  · have hExact : 2 * ((7 * s + 7) / 8) + 3 ≤ s * 7 / 4 + 3 → 8 * ((7 * s + 7) / 8) = 7 * s := by
      omega
    omega
  · omega

/-- The buffer is large enough for the text. -/
theorem need_le_pduSize_iff (text : List Char) :
    (textState text).finished.need ≤ pduSize text.length ↔
      text.countP isExtension < text.countP isUnmapped ∨
        (text.countP isExtension = text.countP isUnmapped ∧ 8 ∣ text.length) := by
  have hCount := textSeptets_count text
  rw [finished_need_eq text, octets_fit_iff]
  omega

theorem smsEncodeTextInto_isSome_iff (text : List Char) :
    (smsEncodeTextInto text).isSome ↔ (textState text).finished.need ≤ pduSize text.length := by
  obtain ⟨hFits, hFails⟩ := smsEncodeTextInto_cases text
  constructor
  · intro hSome
    by_contra hShort
    rw [hFails (by omega)] at hSome
    cases hSome
  · intro hInside
    obtain ⟨pdu, hResult, _⟩ := hFits hInside
    rw [hResult]
    rfl

/-- Every write stays inside the buffer if and only if more characters are unmapped
than in the extension table, or as many and the length of the text is a multiple of
eight. -/
theorem smsEncodeTextInto_inside_iff (text : List Char) :
    (smsEncodeTextInto text).isSome ↔
      text.countP isExtension < text.countP isUnmapped ∨
        (text.countP isExtension = text.countP isUnmapped ∧ 8 ∣ text.length) := by
  rw [smsEncodeTextInto_isSome_iff, need_le_pduSize_iff]

/-- A single letter: four bytes are allocated and five are written. -/
theorem smsEncodeTextInto_letter : smsEncodeTextInto ['a'] = none := by
  unfold smsEncodeTextInto writeChar
  rw [smsGsm7_eq, smsGsm7Ext_eq]
  decide +kernel

end MonitoringPlug.Sms
