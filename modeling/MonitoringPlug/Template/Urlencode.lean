import MonitoringPlug.Lib.Block
import MonitoringPlug.Lib.Octets
import MonitoringPlug.Lib.Scanner

/-! The encoding of a URL tag. A `none` result is a write past the allocated
string. -/
namespace MonitoringPlug.Template

open CMemory Scanner

/-- `isalnum` or one of the four marks that are kept. -/
def isUnreserved (c : UInt8) : Bool :=
  (Char.ofNat c.toNat).isAlphanum || c ∈ ascii "-_.~"

/-- `%%%02X` of a signed `char`, which is widened with its sign. -/
def percent (c : UInt8) : List UInt8 :=
  let widened := if c < 128 then c.toNat else 2 ^ 32 - 256 + c.toNat
  ascii "%" ++ (Octets.hex02 widened).map fun digit => digit.toNat.toUInt8

/-- The second loop. Whatever was written, the pointer moves on by three. -/
def encodeLoop : List UInt8 → Block → Nat → Option Block
  | [], out, _ => some out
  | c :: rest, out, optr =>
      if isUnreserved c then
        (store out optr [c]).bind fun out => encodeLoop rest out (optr + 1)
      else
        (store out optr (percent c ++ [0])).bind fun out => encodeLoop rest out (optr + 3)

def mpTemplateUrlencode (s : Option CString) : Option (Option CString) :=
  match s with
  | none => some none
  | some s =>
      let len := 2 * s.bytes.countP (!isUnreserved ·)
      if len = 0 then some (some s)
      else
        (encodeLoop s.bytes (zalloc (len + s.strlen + 1)) 0).bind fun out =>
          (loadString out).map fun bytes => some (.ofBytes bytes)

/-- Read an encoded text back. Only unreserved bytes and `%XX` with two upper case
digits are accepted. -/
def percentDecode : List UInt8 → Option (List UInt8)
  | [] => some []
  | 0x25 :: high :: low :: rest =>
      (Octets.hexVal (Char.ofNat high.toNat)).bind fun h =>
        (Octets.hexVal (Char.ofNat low.toNat)).bind fun l =>
          (percentDecode rest).map ((16 * h + l).toUInt8 :: ·)
  | c :: rest => if isUnreserved c then (percentDecode rest).map (c :: ·) else none

/-- Three bytes for every escaped one. -/
def encodedLength (bytes : List UInt8) : Nat :=
  bytes.length + 2 * bytes.countP (!isUnreserved ·)

/-- `out` is the percent-encoding of `s`, in the length that was allocated for it. -/
structure Encodes (s out : CString) : Prop where
  length : out.strlen = encodedLength s.bytes
  decode : percentDecode out.bytes = some s.bytes

/-- What one byte leaves in the output once the bytes behind it are written: of the
nine digits of a negative `char` the first two. -/
def shown (c : UInt8) : List UInt8 := if isUnreserved c then [c] else (percent c).take 3

/-- The byte that is read back where `c` was encoded. -/
def readBack (c : UInt8) : UInt8 := if c < 128 then c else 255

/-- The digits of every negative `char` stay inside the output, over the bytes that are
still to be written. -/
def Fits : List UInt8 → Prop
  | [] => True
  | c :: rest => (128 ≤ c → 6 ≤ encodedLength rest) ∧ Fits rest

/-- Something holds at every place of a list if it holds at the first one and behind it. -/
theorem forall_split_cons {p : UInt8 → List UInt8 → Prop} (c : UInt8) (bytes : List UInt8) :
    (∀ front d back, c :: bytes = front ++ d :: back → p d back) ↔
      p c bytes ∧ ∀ front d back, bytes = front ++ d :: back → p d back := by
  constructor
  · intro hAll
    exact ⟨hAll [] c bytes rfl, fun front d back hSplit =>
      hAll (c :: front) d back (congrArg (c :: ·) hSplit)⟩
  · rintro ⟨hHere, hRest⟩ front d back hSplit
    cases front with
    | nil =>
        cases hSplit
        exact hHere
    | cons e front =>
        cases hSplit
        exact hRest front d back rfl

theorem fits_iff (bytes : List UInt8) : Fits bytes ↔
    ∀ front c back, bytes = front ++ c :: back → 128 ≤ c → 6 ≤ encodedLength back := by
  induction bytes with
  | nil => simp [Fits]
  | cons c bytes ih =>
      rw [forall_split_cons (p := fun d back => 128 ≤ d → 6 ≤ encodedLength back), Fits, ih]

theorem readBack_eq_self_iff (c : UInt8) : readBack c = c ↔ (128 ≤ c → c = 255) := by
  rw [readBack]
  by_cases hSmall : c < 128
  · simp [hSmall, UInt8.not_le.mpr hSmall]
  · simp [hSmall, UInt8.not_lt.mp hSmall, eq_comm]

theorem map_readBack_eq_iff (bytes : List UInt8) : bytes.map readBack = bytes ↔
    ∀ front c back, bytes = front ++ c :: back → 128 ≤ c → c = 255 := by
  induction bytes with
  | nil => simp
  | cons c bytes ih =>
      rw [forall_split_cons (p := fun d _ => 128 ≤ d → d = 255), List.map_cons, List.cons.injEq,
        ih, readBack_eq_self_iff]

/-- Every byte is one of 256. -/
theorem forall_byte {p : UInt8 → Prop} (h : ∀ n < 256, p n.toUInt8) (c : UInt8) : p c := by
  have hByte := h c.toNat c.toNat_lt
  rwa [Nat.toUInt8_eq, UInt8.ofNat_toNat] at hByte

theorem isUnreserved_lt {c : UInt8} (h : isUnreserved c) : c < 128 := by
  revert h
  exact forall_byte (p := fun c => isUnreserved c → c < 128) (by decide +kernel) c

theorem percent_length (c : UInt8) : (percent c).length = if c < 128 then 3 else 9 :=
  forall_byte (p := fun c => (percent c).length = if c < 128 then 3 else 9) (by decide +kernel) c

theorem shown_length (c : UInt8) : (shown c).length = if isUnreserved c then 1 else 3 := by
  rw [shown]
  by_cases hKept : isUnreserved c
  · simp [hKept]
  · have hLength := percent_length c
    simp only [hKept, Bool.false_eq_true, if_false, List.length_take, hLength]
    split <;> rfl

theorem encodedLength_cons (c : UInt8) (rest : List UInt8) :
    encodedLength (c :: rest) = (shown c).length + encodedLength rest := by
  rw [shown_length, encodedLength, encodedLength, List.countP_cons, List.length_cons]
  by_cases hKept : isUnreserved c
  · simp only [hKept, Bool.not_true, Bool.false_eq_true, if_false, if_true]
    omega
  · simp only [hKept, Bool.not_false, Bool.false_eq_true, if_false, if_true]
    omega

theorem zero_not_mem_shown {c : UInt8} (h : c ≠ 0) : 0 ∉ shown c := by
  revert h
  exact forall_byte (p := fun c => c ≠ 0 → 0 ∉ shown c) (by decide +kernel) c

theorem percentDecode_unreserved {c : UInt8} (h : isUnreserved c) (rest : List UInt8) :
    percentDecode (c :: rest) = (percentDecode rest).map (c :: ·) := by
  rw [percentDecode, if_pos h]
  rintro high low tail rfl _
  exact absurd h (by decide)

/-- What was read of the front is kept when more follows. -/
theorem percentDecode_append {front bytes : List UInt8} (h : percentDecode front = some bytes)
    (rest : List UInt8) :
    percentDecode (front ++ rest) = (percentDecode rest).map (bytes ++ ·) := by
  induction front using percentDecode.induct generalizing bytes with
  | case1 =>
      cases h
      simp
  | case2 high low front ih =>
      simp only [percentDecode, Option.bind_eq_some_iff, Option.map_eq_some_iff] at h
      obtain ⟨h', hHigh, l', hLow, tail, hTail, rfl⟩ := h
      simp only [List.cons_append, percentDecode, hHigh, hLow, Option.bind_some, ih hTail,
        Option.map_map]
      rfl
  | case3 c front _ hKept ih =>
      rw [percentDecode_unreserved hKept, Option.map_eq_some_iff] at h
      obtain ⟨tail, hTail, rfl⟩ := h
      rw [List.cons_append, percentDecode_unreserved hKept, ih hTail, Option.map_map]
      rfl
  | case4 c front hOther hEscaped =>
      rw [percentDecode, if_neg hEscaped] at h
      · cases h
      · exact hOther

theorem percentDecode_shown (c : UInt8) : percentDecode (shown c) = some [readBack c] :=
  forall_byte (p := fun c => percentDecode (shown c) = some [readBack c]) (by decide +kernel) c

theorem percentDecode_flatMap_shown (bytes : List UInt8) :
    percentDecode (bytes.flatMap shown) = some (bytes.map readBack) := by
  induction bytes with
  | nil => rfl
  | cons c bytes ih =>
      rw [List.flatMap_cons, percentDecode_append (percentDecode_shown c), ih]
      rfl

theorem flatMap_shown_length (bytes : List UInt8) :
    (bytes.flatMap shown).length = encodedLength bytes := by
  induction bytes with
  | nil => rfl
  | cons c bytes ih => rw [List.flatMap_cons, List.length_append, ih, encodedLength_cons]

/-- The bytes one round of the second loop writes. -/
def written (c : UInt8) : List UInt8 := if isUnreserved c then [c] else percent c ++ [0]

theorem encodeLoop_cons (c : UInt8) (rest : List UInt8) (out : Block) (optr : Nat) :
    encodeLoop (c :: rest) out optr =
      (store out optr (written c)).bind fun out =>
        encodeLoop rest out (optr + (shown c).length) := by
  rw [encodeLoop, written, shown_length]
  split
  · rfl
  · rfl

/-- A round writes what stays of it, and behind that, unless the byte is kept, digits and
a NUL. -/
theorem written_eq (c : UInt8) :
    written c = shown c ∧ c < 128 ∨ ∃ digits, written c = shown c ++ digits ++ [0] ∧
      digits.length = if c < 128 then 0 else 6 := by
  by_cases hKept : isUnreserved c
  · exact .inl ⟨by simp [written, shown, hKept], isUnreserved_lt hKept⟩
  · refine .inr ⟨(percent c).drop 3, ?_, ?_⟩
    · simp [written, shown, hKept]
    · rw [List.length_drop, percent_length]
      split <;> rfl

section Loop

variable {b : Block} {front rest : List UInt8} {c : UInt8}

/-- A round that stays inside appends what stays of it, and the NUL that ends the
output is still there. -/
theorem round_fits (hHolds : Holds b front)
    (hSize : b.length = front.length + encodedLength (c :: rest) + 1)
    (hEnd : load b (front.length + encodedLength (c :: rest)) = some 0)
    (hFits : 128 ≤ c → 6 ≤ encodedLength rest) :
    ∃ b', store b front.length (written c) = some b' ∧ Holds b' (front ++ shown c) ∧
      b'.length = b.length ∧ load b' (front.length + encodedLength (c :: rest)) = some 0 := by
  rw [encodedLength_cons] at hSize hEnd ⊢
  rcases written_eq c with ⟨hWritten, _⟩ | ⟨digits, hWritten, hDigits⟩
  · obtain ⟨b', hStore, hHolds', hLength⟩ := hHolds.store (written c) (by rw [hWritten]; omega)
    refine ⟨b', hStore, hWritten ▸ hHolds', hLength, ?_⟩
    rw [load_store hStore (by rw [hWritten]; omega), hEnd]
  · have hRoom : digits.length ≤ encodedLength rest := by
      rw [hDigits]
      split
      · omega
      · exact hFits (UInt8.not_lt.mp ‹_›)
    have hLengthWritten : (written c).length = (shown c).length + digits.length + 1 := by
      rw [hWritten, List.length_append, List.length_append, List.length_singleton]
    obtain ⟨b', hStore, hHolds', hLength⟩ := hHolds.store (written c) (by omega)
    have hAll : Holds b' ((front ++ shown c ++ digits) ++ [0]) := by
      rw [hWritten] at hHolds'
      simpa using hHolds'
    refine ⟨b', hStore, hAll.of_append.of_append, hLength, ?_⟩
    by_cases hLast : digits.length = encodedLength rest
    · have hIndex : front.length + ((shown c).length + encodedLength rest) =
          (front ++ shown c ++ digits).length := by
        simp only [List.length_append]
        omega
      rw [hIndex]
      exact hAll.load_last
    · rw [load_store hStore (by omega), hEnd]

theorem round_overruns (hSize : b.length = front.length + encodedLength (c :: rest) + 1)
    (hByte : 128 ≤ c) (hShort : encodedLength rest < 6) :
    store b front.length (written c) = none := by
  rw [encodedLength_cons] at hSize
  have hNeg : ¬c < 128 := UInt8.not_lt.mpr hByte
  rcases written_eq c with ⟨_, hLess⟩ | ⟨digits, hWritten, hDigits⟩
  · exact (hNeg hLess).elim
  · rw [if_neg hNeg] at hDigits
    have hLengthWritten : (written c).length = (shown c).length + digits.length + 1 := by
      rw [hWritten, List.length_append, List.length_append, List.length_singleton]
    rw [store, if_neg (by omega)]

end Loop

/-- The output is what stays of every byte, if all rounds stay inside. -/
theorem encodeLoop_fits (bytes : List UInt8) {b : Block} {front : List UInt8}
    (hHolds : Holds b front) (hSize : b.length = front.length + encodedLength bytes + 1)
    (hEnd : load b (front.length + encodedLength bytes) = some 0) (hFits : Fits bytes) :
    ∃ out, encodeLoop bytes b front.length = some out ∧
      Holds out (front ++ bytes.flatMap shown ++ [0]) := by
  induction bytes generalizing b front with
  | nil =>
      rw [List.flatMap_nil, List.append_nil]
      exact ⟨b, rfl, hHolds.snoc hEnd⟩
  | cons c bytes ih =>
      obtain ⟨b', hStore, hHolds', hLength, hEnd'⟩ := round_fits hHolds hSize hEnd hFits.1
      rw [encodedLength_cons, ← Nat.add_assoc, ← List.length_append] at hEnd'
      rw [encodedLength_cons, ← Nat.add_assoc, ← List.length_append, ← hLength] at hSize
      obtain ⟨out, hLoop, hOut⟩ := ih hHolds' hSize hEnd' hFits.2
      refine ⟨out, ?_, ?_⟩
      · rw [encodeLoop_cons, hStore, Option.bind_some, ← List.length_append]
        exact hLoop
      · rw [List.flatMap_cons, ← List.append_assoc]
        exact hOut

theorem encodeLoop_overruns (bytes : List UInt8) {b : Block} {front : List UInt8}
    (hHolds : Holds b front) (hSize : b.length = front.length + encodedLength bytes + 1)
    (hEnd : load b (front.length + encodedLength bytes) = some 0) (hOver : ¬Fits bytes) :
    encodeLoop bytes b front.length = none := by
  induction bytes generalizing b front with
  | nil => exact (hOver trivial).elim
  | cons c bytes ih =>
      rw [encodeLoop_cons]
      by_cases hHere : 128 ≤ c → 6 ≤ encodedLength bytes
      · obtain ⟨b', hStore, hHolds', hLength, hEnd'⟩ := round_fits hHolds hSize hEnd hHere
        rw [encodedLength_cons, ← Nat.add_assoc, ← List.length_append] at hEnd'
        rw [encodedLength_cons, ← Nat.add_assoc, ← List.length_append, ← hLength] at hSize
        rw [hStore, Option.bind_some, ← List.length_append]
        exact ih hHolds' hSize hEnd' fun hRest => hOver ⟨hHere, hRest⟩
      · obtain ⟨hByte, hShort⟩ := Classical.not_imp.mp hHere
        rw [round_overruns hSize hByte (not_le.mp hShort), Option.bind_none]

/-- The bytes that are left in the output for a string, without a NUL inside. -/
def shownString (s : CString) : CString where
  bytes := s.bytes.flatMap shown
  nulFree := by
    intro hMem
    obtain ⟨c, hIn, hZero⟩ := List.mem_flatMap.mp hMem
    exact zero_not_mem_shown (fun hNul => s.nulFree (hNul ▸ hIn)) hZero

theorem shown_of_unreserved {bytes : List UInt8} (h : bytes.countP (!isUnreserved ·) = 0) :
    bytes.flatMap shown = bytes := by
  induction bytes with
  | nil => rfl
  | cons c bytes ih =>
      rw [List.countP_cons] at h
      have hKept : isUnreserved c := by
        by_contra hEscaped
        simp [hEscaped] at h
      rw [List.flatMap_cons, ih (by omega), shown, if_pos hKept]
      rfl

theorem fits_of_unreserved {bytes : List UInt8} (h : bytes.countP (!isUnreserved ·) = 0) :
    Fits bytes := by
  induction bytes with
  | nil => trivial
  | cons c bytes ih =>
      rw [List.countP_cons] at h
      refine ⟨fun hByte => ?_, ih (by omega)⟩
      have hKept : isUnreserved c := by
        by_contra hEscaped
        simp [hEscaped] at h
      exact absurd (isUnreserved_lt hKept) (UInt8.not_lt.mpr hByte)

/-- The whole call: what stays of every byte where all digits stay inside, and a write
past the output otherwise. -/
theorem mpTemplateUrlencode_cases (s : CString) :
    (Fits s.bytes → mpTemplateUrlencode (some s) = some (some (shownString s))) ∧
      (¬Fits s.bytes → mpTemplateUrlencode (some s) = none) := by
  by_cases hPlain : s.bytes.countP (!isUnreserved ·) = 0
  · have hSame : shownString s = s := by
      obtain ⟨bytes, hFree⟩ := s
      simp only [shownString, shown_of_unreserved hPlain]
    refine ⟨fun _ => ?_, fun hOver => (hOver (fits_of_unreserved hPlain)).elim⟩
    rw [mpTemplateUrlencode, hPlain, hSame]
    rfl
  · have hLen : ¬2 * s.bytes.countP (!isUnreserved ·) = 0 := by omega
    have hSize : 2 * s.bytes.countP (!isUnreserved ·) + s.strlen + 1 =
        ([] : List UInt8).length + encodedLength s.bytes + 1 := by
      rw [encodedLength, CString.strlen, List.length_nil]
      omega
    have hEnd : load (zalloc (([] : List UInt8).length + encodedLength s.bytes + 1))
        (([] : List UInt8).length + encodedLength s.bytes) = some 0 := by
      simp [load, zalloc]
    simp only [mpTemplateUrlencode, hLen, if_false, hSize]
    constructor
    · intro hFits
      obtain ⟨out, hLoop, hHolds⟩ := encodeLoop_fits s.bytes (Holds.nil _) (zalloc_length _)
        hEnd hFits
      have hString : Holds out (shownString s).terminated := hHolds
      have hRun : encodeLoop s.bytes (zalloc _) 0 = some out := hLoop
      rw [hRun, Option.bind_some, hString.loadString, Option.map_some, CString.ofBytes_bytes]
    · intro hOver
      have hRun : encodeLoop s.bytes (zalloc _) 0 = none :=
        encodeLoop_overruns s.bytes (Holds.nil _) (zalloc_length _) hEnd hOver
      rw [hRun, Option.bind_none]

/-- A string is percent-encoded if and only if it has no byte from `0x80` on, except for
`0xFF` where the encoding of what follows has six bytes or more. -/
theorem mpTemplateUrlencode_encodes_iff (s : CString) :
    (∃ out, mpTemplateUrlencode (some s) = some (some out) ∧ Encodes s out) ↔
      ∀ front c back, s.bytes = front ++ c :: back → 128 ≤ c →
        c = 255 ∧ 6 ≤ encodedLength back := by
  obtain ⟨hInside, hPast⟩ := mpTemplateUrlencode_cases s
  have hLength : (shownString s).strlen = encodedLength s.bytes := flatMap_shown_length s.bytes
  have hDecode : percentDecode (shownString s).bytes = some (s.bytes.map readBack) :=
    percentDecode_flatMap_shown s.bytes
  constructor
  · rintro ⟨out, hResult, _, hRead⟩ front c back hSplit hByte
    have hFits : Fits s.bytes := by
      by_contra hOver
      rw [hPast hOver] at hResult
      cases hResult
    rw [hInside hFits] at hResult
    cases hResult
    rw [hDecode, Option.some_inj] at hRead
    exact ⟨(map_readBack_eq_iff s.bytes).mp hRead front c back hSplit hByte,
      (fits_iff s.bytes).mp hFits front c back hSplit hByte⟩
  · intro hAll
    have hFits := (fits_iff s.bytes).mpr fun front c back hSplit hByte =>
      (hAll front c back hSplit hByte).2
    have hSame := (map_readBack_eq_iff s.bytes).mpr fun front c back hSplit hByte =>
      (hAll front c back hSplit hByte).1
    exact ⟨shownString s, hInside hFits, hLength, by rw [hDecode, hSame]⟩

/-- One byte `0xE4`: ten bytes are written where four were allocated. -/
theorem mpTemplateUrlencode_umlaut :
    ¬∃ out, mpTemplateUrlencode (some ⟨[0xE4], by decide⟩) = some (some out) ∧
      Encodes ⟨[0xE4], by decide⟩ out := by
  rintro ⟨out, hResult, _⟩
  have hPast : mpTemplateUrlencode (some ⟨[0xE4], by decide⟩) = none := by decide +kernel
  rw [hPast] at hResult
  cases hResult

end MonitoringPlug.Template
