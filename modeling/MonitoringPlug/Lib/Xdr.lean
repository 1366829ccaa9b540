import Mathlib.Algebra.Group.Nat.Defs
import Mathlib.Data.List.Basic

/-! External Data Representation: words of four bytes, booleans, and strings that are
filled up to whole words. -/
namespace Xdr

abbrev Bytes := List UInt8

/-- A number in four bytes, the highest one first. -/
def word (n : Nat) : Bytes :=
  [UInt8.ofNat (n / 2 ^ 24), UInt8.ofNat (n / 2 ^ 16), UInt8.ofNat (n / 2 ^ 8), UInt8.ofNat n]

def readWord : Bytes → Option (Nat × Bytes)
  | a :: b :: c :: d :: rest =>
      some (2 ^ 24 * a.toNat + 2 ^ 16 * b.toNat + 2 ^ 8 * c.toNat + d.toNat, rest)
  | _ => none

def encodeBool (b : Bool) : Bytes := word (if b then 1 else 0)

/-- How many bytes fill up the last word. -/
def padding (length : Nat) : Nat := (4 - length % 4) % 4

def encodeString (s : Bytes) : Bytes :=
  word s.length ++ (s ++ List.replicate (padding s.length) 0)

/-- Any word but zero is true. -/
def readBool (stream : Bytes) : Option (Bool × Bytes) :=
  (readWord stream).map fun r => (r.1 ≠ 0, r.2)

/-- A string of at most so many bytes. What fills up its last word is skipped. -/
def readString (max : Nat) (stream : Bytes) : Option (Bytes × Bytes) :=
  (readWord stream).bind fun (length, rest) =>
    if length ≤ max ∧ length + padding length ≤ rest.length then
      some (rest.take length, rest.drop (length + padding length))
    else none

theorem readWord_word {n : Nat} (h : n < 2 ^ 32) (rest : Bytes) :
    readWord (word n ++ rest) = some (n, rest) := by
  have hValue : 2 ^ 24 * (n / 2 ^ 24 % 2 ^ 8) + 2 ^ 16 * (n / 2 ^ 16 % 2 ^ 8) +
      2 ^ 8 * (n / 2 ^ 8 % 2 ^ 8) + n % 2 ^ 8 = n := by omega
  rw [word]
  show some (_, rest) = _
  rw [UInt8.toNat_ofNat', UInt8.toNat_ofNat', UInt8.toNat_ofNat', UInt8.toNat_ofNat', hValue]

theorem readWord_short {front : Bytes} (h : front.length < 4) : readWord front = none := by
  match front with
  | [] => rfl
  | [_] => rfl
  | [_, _] => rfl
  | [_, _, _] => rfl
  | _ :: _ :: _ :: _ :: _ =>
      simp only [List.length_cons] at h
      omega

@[simp] theorem length_encodeBool (b : Bool) : (encodeBool b).length = 4 := rfl

theorem readBool_encodeBool (b : Bool) (rest : Bytes) :
    readBool (encodeBool b ++ rest) = some (b, rest) := by
  cases b with
  | false => rfl
  | true => rfl

theorem readString_encodeString {max : Nat} (hMax : max < 2 ^ 32) {s : Bytes}
    (h : s.length ≤ max) (rest : Bytes) :
    readString max (encodeString s ++ rest) = some (s, rest) := by
  have hFits : s.length + padding s.length ≤
      (s ++ (List.replicate (padding s.length) 0 ++ rest)).length := by
    simp only [List.length_append, List.length_replicate]
    omega
  rw [readString, encodeString, List.append_assoc, readWord_word (Nat.lt_of_le_of_lt h hMax),
    Option.bind_some, List.append_assoc]
  simp only [if_pos (And.intro h hFits), List.take_left]
  rw [← List.drop_drop, List.drop_left]
  have hDrop : (List.replicate (padding s.length) (0 : UInt8) ++ rest).drop
      (List.replicate (padding s.length) (0 : UInt8)).length = rest := List.drop_left
  rw [List.length_replicate] at hDrop
  rw [hDrop]

/-- What is read is taken off the stream, and no longer string is read. -/
theorem readWord_rest {stream rest : Bytes} {n : Nat} (h : readWord stream = some (n, rest)) :
    rest.length < stream.length := by
  match stream with
  | [] => cases h
  | [_] => cases h
  | [_, _] => cases h
  | [_, _, _] => cases h
  | _ :: _ :: _ :: _ :: behind =>
      cases h
      simp only [List.length_cons]
      omega

theorem readBool_rest {stream rest : Bytes} {b : Bool} (h : readBool stream = some (b, rest)) :
    rest.length < stream.length := by
  obtain ⟨⟨n, behind⟩, hWord, hSame⟩ := Option.map_eq_some_iff.mp h
  cases hSame
  exact readWord_rest hWord

theorem readString_rest {max : Nat} {stream s rest : Bytes}
    (h : readString max stream = some (s, rest)) :
    s.length ≤ max ∧ rest.length ≤ stream.length := by
  rw [readString, Option.bind_eq_some_iff] at h
  obtain ⟨⟨length, behind⟩, hWord, hRead⟩ := h
  simp only [Option.ite_none_right_eq_some, Option.some.injEq, Prod.mk.injEq] at hRead
  obtain ⟨⟨hMax, -⟩, rfl, rfl⟩ := hRead
  have hBehind := readWord_rest hWord
  constructor
  · exact Nat.le_trans (List.length_take_le _ _) hMax
  · rw [List.length_drop]
    omega

/-- Inside of a value the stream is too short for it. -/
theorem readBool_cut {b : Bool} {front : Bytes} (h : front <+: encodeBool b)
    (hProper : front ≠ encodeBool b) : readBool front = none := by
  have hShort : front.length < 4 := by
    have hLength := h.length_le
    have hOther : front.length ≠ 4 := fun hSame => hProper (h.eq_of_length hSame)
    rw [length_encodeBool] at hLength
    omega
  rw [readBool, readWord_short hShort]
  rfl

theorem readString_cut {max : Nat} (hMax : max < 2 ^ 32) {s front : Bytes} (h : s.length ≤ max)
    (hPrefix : front <+: encodeString s) (hProper : front ≠ encodeString s) :
    readString max front = none := by
  by_cases hShort : front.length < 4
  · rw [readString, readWord_short hShort]
    rfl
  · have hWord : word s.length <+: front :=
      List.prefix_of_prefix_length_le (List.prefix_append _ _) hPrefix (Nat.le_of_not_lt hShort)
    obtain ⟨back, rfl⟩ := hWord
    have hBack : back.length < s.length + padding s.length := by
      have hLength := hPrefix.length_le
      have hOther : (word s.length ++ back).length ≠ (encodeString s).length :=
        fun hSame => hProper (hPrefix.eq_of_length hSame)
      simp only [encodeString, List.length_append, List.length_replicate] at hLength hOther
      omega
    rw [readString, readWord_word (Nat.lt_of_le_of_lt h hMax), Option.bind_some]
    simp only [if_neg fun hFits : s.length ≤ max ∧ _ => Nat.not_le_of_lt hBack hFits.2]

/-- What is left of the pointer to a string that is freed. A string longer than it could
have been read is refused. -/
def freeString (max : Nat) : Option Bytes → Option (Option Bytes)
  | none => some none
  | some s => if max < s.length then none else some none

theorem freeString_read (max : Nat) (s : Option Bytes) (h : ∀ text ∈ s, text.length ≤ max) :
    freeString max s = some none := by
  cases s with
  | none => rfl
  | some text => exact if_neg (Nat.not_lt_of_le (h text rfl))

/-- Functions of a library that read booleans and strings, as the standard has it, and free
the strings. -/
structure Library where
  bool : Bytes → Option (Bool × Bytes)
  string : Nat → Bytes → Option (Bytes × Bytes)
  free : Nat → Option Bytes → Option (Option Bytes)
  bool_reads : ∀ b rest, bool (encodeBool b ++ rest) = some (b, rest)
  bool_cut : ∀ b front, front <+: encodeBool b → front ≠ encodeBool b → bool front = none
  string_reads : ∀ max s rest, max < 2 ^ 32 → s.length ≤ max →
    string max (encodeString s ++ rest) = some (s, rest)
  string_cut : ∀ max s front, max < 2 ^ 32 → s.length ≤ max → front <+: encodeString s →
    front ≠ encodeString s → string max front = none
  free_read : ∀ max s, (∀ text ∈ s, text.length ≤ max) → free max s = some none

/-- On any stream, also one that was not encoded so. -/
structure Library.Bounded (xdr : Library) : Prop where
  bool : ∀ stream b rest, xdr.bool stream = some (b, rest) → rest.length < stream.length
  string : ∀ max stream s rest, xdr.string max stream = some (s, rest) →
    s.length ≤ max ∧ rest.length ≤ stream.length

/-- The functions of this module are such functions. -/
def standard : Library where
  bool := readBool
  string := readString
  free := freeString
  bool_reads := readBool_encodeBool
  bool_cut _ _ := readBool_cut
  string_reads _ _ rest hMax h := readString_encodeString hMax h rest
  string_cut _ _ _ hMax h := readString_cut hMax h
  free_read := freeString_read

theorem standard_bounded : standard.Bounded where
  bool _ _ _ := readBool_rest
  string _ _ _ _ := readString_rest

end Xdr
