import Mathlib.Data.Nat.Bitwise
import MonitoringPlug.Lib.Block

/-! FastCGI parameters: `mp_fcgi_putkv`, and the rule by which a server reads the
name-value pairs back. -/
namespace MonitoringPlug.Fcgi

open CMemory

/-- `FCGX_PutStr`: what it returns for these bytes, and the stream behind them. -/
abbrev PutStr := List UInt8 → List UInt8 → Int × List UInt8

/-- All bytes end up in the stream, and their number is returned. -/
structure WritesFully (putStr : PutStr) : Prop where
  whole : ∀ bytes stream, putStr bytes stream = ((bytes.length : Int), stream ++ bytes)

/-- The low byte of an `int`. -/
def lowByte (n : BitVec 32) : UInt8 := UInt8.ofBitVec (n.setWidth 8)

/-- A length in the header. -/
def lengthBytes (length : BitVec 32) : List UInt8 :=
  if length.toInt < 0x80 then [lowByte length]
  else
    [lowByte (length.sshiftRight 24 ||| 0x80), lowByte (length.sshiftRight 16),
      lowByte (length.sshiftRight 8), lowByte length]

/-- Put `length` bytes, or exit if they are not all taken. -/
def putChecked (putStr : PutStr) (bytes : List UInt8) (length : Int) (stream : List UInt8) :
    Option (List UInt8) :=
  let (ret, stream) := putStr (bytes.take length.toNat) stream
  if ret ≠ length then none else some stream

def mpFcgiPutkv (putStr : PutStr) (stream : List UInt8) (key value : CString) :
    Option (List UInt8) := do
  let keyLength : BitVec 32 := BitVec.ofNat 32 key.strlen
  let valueLength : BitVec 32 := BitVec.ofNat 32 value.strlen
  let header := lengthBytes keyLength ++ lengthBytes valueLength
  let stream ← putChecked putStr header header.length stream
  let stream ← putChecked putStr key.bytes keyLength.toInt stream
  putChecked putStr value.bytes valueLength.toInt stream

/-- A length in four bytes, the top bit of the first one masked. -/
def readLong (b₃ : UInt8) : List UInt8 → Option (Nat × List UInt8)
  | b₂ :: b₁ :: b₀ :: rest =>
      some (b₃.toNat % 128 * 16777216 + b₂.toNat * 65536 + b₁.toNat * 256 + b₀.toNat, rest)
  | _ => none

/-- A length by the rule of FastCGI: in one byte when its top bit is clear, else in four. -/
def readLength : List UInt8 → Option (Nat × List UInt8)
  | [] => none
  | b :: rest => if b.toNat < 128 then some (b.toNat, rest) else readLong b rest

/-- The two lengths, the name and the value. -/
def readPair (stream : List UInt8) : Option ((List UInt8 × List UInt8) × List UInt8) := do
  let (nameLength, stream) ← readLength stream
  let (valueLength, stream) ← readLength stream
  if stream.length < nameLength + valueLength then none
  else
    some ((stream.take nameLength, (stream.drop nameLength).take valueLength),
      stream.drop (nameLength + valueLength))

theorem readLong_length {b : UInt8} {stream rest : List UInt8} {length : Nat}
    (h : readLong b stream = some (length, rest)) : rest.length < stream.length := by
  unfold readLong at h
  split at h
  · cases h
    simp only [List.length_cons]
    omega
  · cases h

theorem readLength_length {stream rest : List UInt8} {length : Nat}
    (h : readLength stream = some (length, rest)) : rest.length < stream.length := by
  cases stream with
  | nil => cases h
  | cons b stream =>
      rw [readLength] at h
      split_ifs at h with hShort
      · cases h
        exact Nat.lt_succ_self _
      · exact Nat.lt_succ_of_lt (readLong_length h)

theorem readPair_length {stream rest : List UInt8} {pair : List UInt8 × List UInt8}
    (h : readPair stream = some (pair, rest)) : rest.length < stream.length := by
  obtain ⟨⟨nameLength, stream₁⟩, hName, h⟩ := Option.bind_eq_some_iff.mp h
  obtain ⟨⟨valueLength, stream₂⟩, hValue, h⟩ := Option.bind_eq_some_iff.mp h
  have hFirst := readLength_length hName
  have hSecond := readLength_length hValue
  dsimp only at h
  split_ifs at h with hShort
  cases h
  rw [List.length_drop]
  omega

/-- All pairs of a stream. There is no result if it ends inside of one. -/
def readPairs (stream : List UInt8) : Option (List (List UInt8 × List UInt8)) :=
  if stream = [] then some []
  else
    match _h : readPair stream with
    | none => none
    | some (pair, rest) => (readPairs rest).map (pair :: ·)
termination_by stream.length
decreasing_by exact readPair_length _h

/-- A name and a value whose lengths fit into an `int`. -/
structure Param where
  key : CString
  value : CString
  keyFits : key.strlen < 2147483648
  valueFits : value.strlen < 2147483648

def Param.pair (param : Param) : List UInt8 × List UInt8 := (param.key.bytes, param.value.bytes)

/-- All parameters are put, one after the other. -/
def putParams (putStr : PutStr) (params : List Param) (stream : List UInt8) :
    Option (List UInt8) :=
  params.foldlM (fun stream param => mpFcgiPutkv putStr stream param.key param.value) stream

section Length

variable {n : Nat}

theorem lowByte_toNat (n : BitVec 32) : (lowByte n).toNat = n.toNat % 256 := by
  simp [lowByte]

theorem toInt_ofNat (h : n < 2147483648) : (BitVec.ofNat 32 n).toInt = n := by
  have hMod : n % 4294967296 = n := Nat.mod_eq_of_lt (by omega)
  have hNat : (BitVec.ofNat 32 n).toNat = n := hMod
  rw [BitVec.toInt_eq_toNat_of_lt (by omega), hNat]

/-- Of a length that fits into an `int` the shifts are divisions. -/
theorem sshiftRight_toNat (h : n < 2147483648) (shift : Nat) :
    ((BitVec.ofNat 32 n).sshiftRight shift).toNat = n / 2 ^ shift := by
  have hMod : n % 4294967296 = n := Nat.mod_eq_of_lt (by omega)
  have hSign : (BitVec.ofNat 32 n).msb = false := by
    rw [BitVec.msb_eq_decide, BitVec.toNat_ofNat]
    simp only [decide_eq_false_iff_not, not_le]
    omega
  rw [BitVec.sshiftRight_eq_of_msb_false hSign, BitVec.toNat_ushiftRight, BitVec.toNat_ofNat,
    Nat.shiftRight_eq_div_pow]
  exact congrArg (· / 2 ^ shift) hMod

theorem toNat_or_topBit {m : Nat} (h : m < 128) : m ||| 128 = m + 128 := by
  have hOr := Nat.two_pow_add_eq_or_of_lt (i := 7) h 1
  rw [Nat.or_comm, ← hOr]
  exact Nat.add_comm _ _

/-- A length is read back from the bytes it is written in. -/
theorem readLength_lengthBytes (h : n < 2147483648) (rest : List UInt8) :
    readLength (lengthBytes (BitVec.ofNat 32 n) ++ rest) = some (n, rest) := by
  have hMod : n % 4294967296 = n := Nat.mod_eq_of_lt (by omega)
  rw [lengthBytes, toInt_ofNat h]
  by_cases hShort : n < 128
  · have hByte : (lowByte (BitVec.ofNat 32 n)).toNat = n := by
      rw [lowByte_toNat, BitVec.toNat_ofNat]
      omega
    rw [if_pos (by omega), List.singleton_append, readLength, hByte, if_pos hShort]
  · have hTop : (lowByte ((BitVec.ofNat 32 n).sshiftRight 24 ||| 0x80)).toNat =
        n / 16777216 + 128 := by
      rw [lowByte_toNat, BitVec.toNat_or, sshiftRight_toNat h]
      have hOr := toNat_or_topBit (m := n / 16777216) (by omega)
      show (n / 16777216 ||| 128) % 256 = _
      omega
    have hSecond : (lowByte ((BitVec.ofNat 32 n).sshiftRight 16)).toNat = n / 65536 % 256 := by
      rw [lowByte_toNat, sshiftRight_toNat h]
      rfl
    have hThird : (lowByte ((BitVec.ofNat 32 n).sshiftRight 8)).toNat = n / 256 % 256 := by
      rw [lowByte_toNat, sshiftRight_toNat h]
      rfl
    have hLast : (lowByte (BitVec.ofNat 32 n)).toNat = n % 256 := by
      rw [lowByte_toNat, BitVec.toNat_ofNat]
      omega
    have hValue : (n / 16777216 + 128) % 128 * 16777216 + n / 65536 % 256 * 65536 +
        n / 256 % 256 * 256 + n % 256 = n := by omega
    rw [if_neg (by omega)]
    simp only [List.cons_append, List.nil_append, readLength, readLong, hTop, hSecond, hThird,
      hLast, hValue]
    rw [if_neg (by omega)]

end Length

section Params

variable {putStr : PutStr} (hPut : WritesFully putStr)

/-- What one parameter is in the stream. -/
def Param.encode (param : Param) : List UInt8 :=
  lengthBytes (BitVec.ofNat 32 param.key.strlen) ++
    lengthBytes (BitVec.ofNat 32 param.value.strlen) ++ param.key.bytes ++ param.value.bytes

include hPut in
theorem putChecked_eq (bytes stream : List UInt8) :
    putChecked putStr bytes bytes.length stream = some (stream ++ bytes) := by
  have hAll : bytes.take (bytes.length : Int).toNat = bytes := by
    rw [Int.toNat_natCast, List.take_length]
  rw [putChecked, hAll, hPut.whole]
  simp

include hPut in
theorem mpFcgiPutkv_eq (stream : List UInt8) (param : Param) :
    mpFcgiPutkv putStr stream param.key param.value = some (stream ++ param.encode) := by
  have hKey : (BitVec.ofNat 32 param.key.strlen).toInt = param.key.bytes.length :=
    toInt_ofNat param.keyFits
  have hValue : (BitVec.ofNat 32 param.value.strlen).toInt = param.value.bytes.length :=
    toInt_ofNat param.valueFits
  simp only [mpFcgiPutkv, hKey, hValue, putChecked_eq hPut, Option.bind_eq_bind, Option.bind_some,
    Param.encode, List.append_assoc]

include hPut in
theorem putParams_eq (params : List Param) (stream : List UInt8) :
    putParams putStr params stream = some (stream ++ params.flatMap Param.encode) := by
  induction params generalizing stream with
  | nil => simp [putParams]
  | cons param params ih =>
      rw [putParams, List.foldlM_cons, mpFcgiPutkv_eq hPut]
      show putParams putStr params (stream ++ param.encode) = _
      rw [ih, List.flatMap_cons, List.append_assoc]

theorem readPair_encode (param : Param) (rest : List UInt8) :
    readPair (param.encode ++ rest) = some (param.pair, rest) := by
  have hKey : readLength (param.encode ++ rest) = some (param.key.strlen,
      lengthBytes (BitVec.ofNat 32 param.value.strlen) ++
        (param.key.bytes ++ (param.value.bytes ++ rest))) := by
    simp only [Param.encode, List.append_assoc]
    exact readLength_lengthBytes param.keyFits _
  rw [readPair, hKey]
  simp only [Option.bind_eq_bind, Option.bind_some, readLength_lengthBytes param.valueFits]
  have hEnough : ¬(param.key.bytes ++ (param.value.bytes ++ rest)).length <
      param.key.strlen + param.value.strlen := by
    simp only [List.length_append, CString.strlen]
    omega
  have hRest : (param.key.bytes ++ (param.value.bytes ++ rest)).drop
      (param.key.strlen + param.value.strlen) = rest := by
    rw [← List.append_assoc]
    exact List.drop_left' List.length_append
  rw [if_neg hEnough, hRest]
  simp [Param.pair, CString.strlen]

theorem encode_ne_nil (param : Param) (rest : List UInt8) : param.encode ++ rest ≠ [] := by
  intro hNil
  have hRead := readPair_encode param rest
  rw [hNil] at hRead
  cases hRead

theorem readPairs_encode (params : List Param) :
    readPairs (params.flatMap Param.encode) = some (params.map Param.pair) := by
  induction params with
  | nil => simp [readPairs]
  | cons param params ih =>
      rw [List.flatMap_cons, readPairs, if_neg (encode_ne_nil param _)]
      split
      · next hNone =>
          rw [readPair_encode] at hNone
          cases hNone
      · next pair rest hSome =>
          rw [readPair_encode] at hSome
          cases hSome
          rw [ih]
          rfl

/-- What is put for a list of parameters is read back as that list. -/
theorem putParams_readPairs {putStr : PutStr} (hPut : WritesFully putStr) (params : List Param) :
    ∃ stream, putParams putStr params [] = some stream ∧
      readPairs stream = some (params.map Param.pair) :=
  ⟨_, putParams_eq hPut params [], readPairs_encode params⟩

end Params

/-- A stream that takes everything. -/
def takesAll : PutStr := fun bytes stream => (bytes.length, stream ++ bytes)

theorem letters_nulFree (n : Nat) : 0 ∉ List.replicate n (65 : UInt8) := by
  intro h
  have hSame := List.eq_of_mem_replicate h
  exact absurd hSame (by decide)

def letters (n : UInt8) : CString := ⟨List.replicate n.toNat 65, letters_nulFree n.toNat⟩

theorem letters_fit (n : UInt8) : (letters n).strlen < 2147483648 := by
  have hSmall := n.toNat_lt
  rw [letters, CString.strlen, List.length_replicate]
  omega

/-- An empty name, and a value as long as the first length that needs four bytes. -/
def longParam : Param where
  key := letters 0
  value := letters 128
  keyFits := letters_fit 0
  valueFits := letters_fit 128

theorem putParams_readPairs_long :
    ∃ stream, putParams takesAll [longParam, longParam] [] = some stream ∧
      readPairs stream = some ([longParam, longParam].map Param.pair) :=
  putParams_readPairs ⟨fun _ _ => rfl⟩ _

end MonitoringPlug.Fcgi
