import Mathlib.Data.List.Basic
import Mathlib.Data.List.TakeWhile

/-! One allocated object of a C program as its list of bytes. Every write is
checked against the size of the object, so a write that leaves the object has
no result. This is independent of where the object lies in the address space. -/
namespace CMemory

/-- A C string: its bytes without the terminating NUL. -/
structure CString where
  bytes : List UInt8
  nulFree : 0 ∉ bytes
deriving DecidableEq

namespace CString

def strlen (s : CString) : Nat := s.bytes.length

/-- The bytes `strcpy` moves, terminating NUL included. -/
def terminated (s : CString) : List UInt8 := s.bytes ++ [0]

/-- The string that is read from bytes with a NUL behind them. -/
def ofBytes (bytes : List UInt8) : CString :=
  ⟨bytes.takeWhile (· != 0), fun h => by simpa using List.mem_takeWhile_imp h⟩

@[simp] theorem ofBytes_bytes (s : CString) : ofBytes s.bytes = s := by
  obtain ⟨bytes, hFree⟩ := s
  have hAll : ∀ c ∈ bytes, (c != 0) = true := fun c hc => bne_iff_ne.mpr fun hZero =>
    hFree (hZero ▸ hc)
  simp only [ofBytes, List.takeWhile_eq_self_iff.mpr hAll]

@[simp] theorem terminated_length (s : CString) : s.terminated.length = s.strlen + 1 := by
  simp [terminated, strlen]

end CString

/-- The bytes of one allocated object. `none` stands for a byte that was
allocated but never written. -/
abbrev Block := List (Option UInt8)

def malloc (size : Nat) : Block := List.replicate size none

/-- `malloc` followed by `memset` with zero over the whole object. -/
def zalloc (size : Nat) : Block := List.replicate size (some 0)

/-- The common prefix is kept; bytes past the old size are indeterminate. -/
def realloc (b : Block) (size : Nat) : Block :=
  b.take size ++ List.replicate (size - b.length) none

/-- Write `bytes` from `offset` on, refused when one of them falls outside. -/
def store (b : Block) (offset : Nat) (bytes : List UInt8) : Option Block :=
  if offset + bytes.length ≤ b.length then
    some (b.take offset ++ bytes.map some ++ b.drop (offset + bytes.length))
  else none

/-- Read one byte, refused outside the object and on an indeterminate byte. -/
def load (b : Block) (index : Nat) : Option UInt8 := b[index]?.join

/-- The C string at the front of an object, if it ends inside of what was written. -/
def loadString : Block → Option (List UInt8)
  | some c :: rest => if c = 0 then some [] else (loadString rest).map (c :: ·)
  | _ => none

/-- The object starts with these bytes. -/
def Holds (b : Block) (bytes : List UInt8) : Prop := bytes.map some <+: b

@[simp] theorem malloc_length (size : Nat) : (malloc size).length = size := by
  simp [malloc]

@[simp] theorem zalloc_length (size : Nat) : (zalloc size).length = size := by
  simp [zalloc]

@[simp] theorem realloc_length (b : Block) (size : Nat) : (realloc b size).length = size := by
  simp only [realloc, List.length_append, List.length_take, List.length_replicate]
  omega

theorem Holds.length_le {b : Block} {bytes : List UInt8} (h : Holds b bytes) :
    bytes.length ≤ b.length := by
  simpa using List.IsPrefix.length_le h

theorem Holds.nil (b : Block) : Holds b [] := List.nil_prefix

theorem Holds.of_append {b : Block} {front back : List UInt8} (h : Holds b (front ++ back)) :
    Holds b front := by
  refine List.IsPrefix.trans ?_ h
  rw [List.map_append]
  exact List.prefix_append _ _

/-- Growing or shrinking an object keeps the bytes that still fit. -/
theorem Holds.realloc {b : Block} {bytes : List UInt8} (h : Holds b bytes) {size : Nat}
    (hSize : bytes.length ≤ size) : Holds (realloc b size) bytes := by
  obtain ⟨rest, hRest⟩ := h
  subst hRest
  refine ⟨rest.take (size - bytes.length) ++
    List.replicate (size - (bytes.map some ++ rest).length) none, ?_⟩
  have hMap : (bytes.map some).take size = bytes.map some :=
    List.take_of_length_le (by simpa using hSize)
  simp [CMemory.realloc, List.take_append, hMap]

/-- Appending right behind the bytes an object holds, within its size. -/
theorem Holds.store {b : Block} {front : List UInt8} (h : Holds b front)
    (bytes : List UInt8) (hSize : front.length + bytes.length ≤ b.length) :
    ∃ b', store b front.length bytes = some b' ∧ Holds b' (front ++ bytes) ∧
      b'.length = b.length := by
  obtain ⟨rest, rfl⟩ := h
  refine ⟨(front ++ bytes).map some ++ rest.drop bytes.length, ?_, List.prefix_append _ _, ?_⟩
  · have hDrop : (front.map some ++ rest).drop (front.length + bytes.length) =
        rest.drop bytes.length := by
      simp [List.drop_append]
    rw [CMemory.store, if_pos hSize, hDrop]
    simp
  · simp only [List.length_append, List.length_map, List.length_drop] at hSize ⊢
    omega

/-- Writing over the front of an object keeps what is behind. -/
theorem Holds.overwrite {b : Block} {front back bytes : List UInt8} (h : Holds b (front ++ back))
    (hLength : bytes.length = front.length) :
    ∃ b', CMemory.store b 0 bytes = some b' ∧ Holds b' (bytes ++ back) := by
  obtain ⟨rest, rfl⟩ := h
  refine ⟨(bytes ++ back).map some ++ rest, ?_, List.prefix_append _ _⟩
  rw [CMemory.store, if_pos (by simp [hLength])]
  simp [hLength]

theorem Holds.load {b : Block} {bytes : List UInt8} (h : Holds b bytes) {index : Nat}
    (hIndex : index < bytes.length) : load b index = some bytes[index] := by
  obtain ⟨rest, rfl⟩ := h
  have hFront : index < (bytes.map some).length := by simpa using hIndex
  rw [CMemory.load, List.getElem?_append_left hFront, List.getElem?_eq_getElem hFront]
  simp

/-- The byte right behind what an object holds in front. -/
theorem Holds.load_last {b : Block} {front : List UInt8} {c : UInt8} (h : Holds b (front ++ [c])) :
    CMemory.load b front.length = some c := by
  obtain ⟨rest, rfl⟩ := h
  simp [CMemory.load]

theorem Holds.snoc {b : Block} {front : List UInt8} {c : UInt8} (h : Holds b front)
    (hNext : CMemory.load b front.length = some c) : Holds b (front ++ [c]) := by
  obtain ⟨rest, rfl⟩ := h
  cases rest with
  | nil => simp [CMemory.load] at hNext
  | cons d rest =>
      have hEq : d = some c := by simpa [CMemory.load] using hNext
      exact ⟨rest, by simp [hEq]⟩

/-- A write leaves what is behind it as it was. -/
theorem load_store {b b' : Block} {offset index : Nat} {bytes : List UInt8}
    (h : store b offset bytes = some b') (hIndex : offset + bytes.length ≤ index) :
    load b' index = load b index := by
  rw [store, Option.ite_none_right_eq_some] at h
  obtain ⟨hSize, hEq⟩ := h
  cases hEq
  have hFront : (b.take offset ++ bytes.map some).length = offset + bytes.length := by
    simp only [List.length_append, List.length_take, List.length_map]
    omega
  rw [load, List.getElem?_append_right (by omega), hFront, List.getElem?_drop,
    Nat.add_sub_cancel' hIndex, load]

theorem store_cell (front : Block) (old : Option UInt8) (c : UInt8) (back : Block) :
    store (front ++ old :: back) front.length [c] = some (front ++ some c :: back) := by
  rw [store, if_pos (by simp), List.take_left, List.drop_append]
  simp

/-- A part of what an object holds, read from its own offset. -/
theorem Holds.drop {b : Block} {front middle back : List UInt8}
    (h : Holds b (front ++ (middle ++ back))) : Holds (b.drop front.length) middle := by
  obtain ⟨rest, rfl⟩ := h
  refine ⟨back.map some ++ rest, ?_⟩
  simp

/-- Behind the bytes that were written no string ends. -/
theorem loadString_written (bytes : List UInt8) (rest : Block) :
    loadString (bytes.map some ++ none :: rest) =
      if 0 ∈ bytes then some (bytes.takeWhile (· != 0)) else none := by
  induction bytes with
  | nil => rfl
  | cons c bytes ih =>
      by_cases hZero : c = 0
      · simp [loadString, hZero]
      · have hMem : 0 ∈ c :: bytes ↔ 0 ∈ bytes := by simp [Ne.symm hZero]
        simp only [List.map_cons, List.cons_append, loadString, hZero, if_false, ih, hMem]
        split
        · simp [hZero]
        · rfl

/-- The string an object holds is the one at its front. -/
theorem Holds.loadString {b : Block} {s : CString} (h : Holds b s.terminated) :
    loadString b = some s.bytes := by
  obtain ⟨rest, rfl⟩ := h
  obtain ⟨bytes, hFree⟩ := s
  rw [CString.terminated]
  induction bytes with
  | nil => rfl
  | cons c bytes ih =>
      obtain ⟨hFirst, hRest⟩ := not_or.mp (mt List.mem_cons.mpr hFree)
      have hTail := ih hRest
      simp only [List.cons_append, List.map_cons, CMemory.loadString, Ne.symm hFirst, if_false]
      rw [hTail]
      rfl

/-- Bytes with a NUL behind them are read up to the first NUL. -/
theorem Holds.loadString_ofBytes {b : Block} {bytes : List UInt8} (h : Holds b (bytes ++ [0])) :
    CMemory.loadString b = some (CString.ofBytes bytes).bytes := by
  obtain ⟨rest, rfl⟩ := h
  induction bytes with
  | nil => rfl
  | cons c bytes ih =>
      simp only [List.cons_append, List.map_cons, CMemory.loadString, CString.ofBytes]
      by_cases hZero : c = 0
      · simp [hZero]
      · rw [if_neg hZero, ih]
        simp [CString.ofBytes, hZero]

theorem load_eq_none_of_length_le {b : Block} {index : Nat} (h : b.length ≤ index) :
    load b index = none := by
  simp [load, List.getElem?_eq_none h]

/-- How many bytes there are in front of the first NUL or byte of `reject`. No result
when the object, or what was written of it, ends before. -/
def strcspn (reject : List UInt8) : Block → Option Nat
  | some c :: rest => if c = 0 ∨ c ∈ reject then some 0 else (strcspn reject rest).map (· + 1)
  | _ => none

theorem Holds.strcspn {b : Block} {front : List UInt8} {c : UInt8} {reject : List UInt8}
    (h : Holds b (front ++ [c])) (hFront : ∀ d ∈ front, d ≠ 0 ∧ d ∉ reject) (hStop : c ∈ reject) :
    CMemory.strcspn reject b = some front.length := by
  obtain ⟨rest, rfl⟩ := h
  induction front with
  | nil => simp [CMemory.strcspn, hStop]
  | cons d front ih =>
      obtain ⟨hNul, hReject⟩ := hFront d (List.mem_cons_self ..)
      have hTail := ih fun e he => hFront e (List.mem_cons_of_mem _ he)
      simp only [List.cons_append, List.map_cons, CMemory.strcspn, hNul, hReject, or_self,
        if_false]
      rw [hTail]
      rfl

/-- Read a run of bytes. No result when one of them lies outside or was never written. -/
def loadBytes (b : Block) (offset count : Nat) : Option (List UInt8) :=
  if offset + count ≤ b.length then ((b.drop offset).take count).mapM id else none

theorem Holds.loadBytes {b : Block} {front middle back : List UInt8}
    (h : Holds b (front ++ (middle ++ back))) :
    CMemory.loadBytes b front.length middle.length = some middle := by
  obtain ⟨rest, rfl⟩ := h
  have hAll (bytes : List UInt8) : (bytes.map some).mapM id = some bytes := by
    induction bytes with
    | nil => rfl
    | cons c bytes ih =>
        rw [List.map_cons, List.mapM_cons, ih]
        rfl
  rw [CMemory.loadBytes, if_pos (by simp)]
  simpa using hAll middle

end CMemory
