import Mathlib.Data.Nat.Digits.Defs
import Mathlib.Tactic.Ring
import Mathlib.Tactic.Linarith

/-! Octets as upper case hexadecimal text, and bit fields packed into octets
from the least significant bit on, through an accumulator that is emptied octet
by octet. -/
namespace Octets

/-- `%02X`: at least two upper case hexadecimal digits. -/
def hex02 (n : Nat) : List Char :=
  let digits := (Nat.toDigits 16 n).map Char.toUpper
  List.replicate (2 - digits.length) '0' ++ digits

def hexVal (c : Char) : Option Nat :=
  if '0' ≤ c ∧ c ≤ '9' then some (c.toNat - '0'.toNat)
  else if 'A' ≤ c ∧ c ≤ 'F' then some (c.toNat - 'A'.toNat + 10)
  else none

/-- Read one octet off the front of a hexadecimal text. -/
def readOctet : List Char → Option (Nat × List Char)
  | high :: low :: rest =>
      (hexVal high).bind fun h => (hexVal low).map fun l => (16 * h + l, rest)
  | _ => none

def readOctets : Nat → List Char → Option (List Nat × List Char)
  | 0, text => some ([], text)
  | count + 1, text =>
      (readOctet text).bind fun (octet, rest) =>
        (readOctets count rest).map fun (octets, rest) => (octet :: octets, rest)

theorem readOctet_append {text rest : List Char} {n : Nat} (h : readOctet text = some (n, rest))
    (more : List Char) : readOctet (text ++ more) = some (n, rest ++ more) := by
  match text with
  | [] => simp [readOctet] at h
  | [_] => simp [readOctet] at h
  | high :: low :: tail =>
      simp only [readOctet, Option.bind_eq_some_iff, Option.map_eq_some_iff] at h
      obtain ⟨h', hHigh, l', hLow, hEq⟩ := h
      cases hEq
      simp [readOctet, hHigh, hLow]

theorem readOctet_hex02 {n : Nat} (h : n < 256) (rest : List Char) :
    readOctet (hex02 n ++ rest) = some (n, rest) := by
  have hAll : ∀ k < 256, readOctet (hex02 k) = some (k, []) := by decide +kernel
  exact readOctet_append (hAll n h) rest

theorem hex02_length {n : Nat} (h : n < 256) : (hex02 n).length = 2 := by
  have hAll : ∀ k < 256, (hex02 k).length = 2 := by decide +kernel
  exact hAll n h

theorem hex02_ascii {n : Nat} (h : n < 256) : ∀ c ∈ hex02 n, 0 < c.toNat ∧ c.toNat < 128 := by
  have hAll : ∀ k < 256, (hex02 k).all fun c => decide (0 < c.toNat) && decide (c.toNat < 128) := by
    decide +kernel
  intro c hc
  simpa using List.all_eq_true.mp (hAll n h) c hc

theorem hex02_take_length (n : Nat) : ((hex02 n).take 2).length = 2 := by
  simp only [hex02, List.length_take, List.length_append, List.length_replicate]
  omega

theorem flatMap_hex02_length {octets : List Nat} (h : ∀ n ∈ octets, n < 256) :
    (octets.flatMap hex02).length = 2 * octets.length := by
  induction octets with
  | nil => rfl
  | cons n octets ih =>
      have hHere := hex02_length (h n List.mem_cons_self)
      have hRest := ih fun k hk => h k (List.mem_cons_of_mem _ hk)
      simp only [List.flatMap_cons, List.length_append, List.length_cons]
      omega

theorem readOctets_flatMap {octets : List Nat} (h : ∀ n ∈ octets, n < 256) (rest : List Char) :
    readOctets octets.length (octets.flatMap hex02 ++ rest) = some (octets, rest) := by
  induction octets with
  | nil => rfl
  | cons n octets ih =>
      have hTail := ih fun k hk => h k (List.mem_cons_of_mem _ hk)
      simp only [List.flatMap_cons, List.append_assoc, List.length_cons, readOctets,
        readOctet_hex02 (h n List.mem_cons_self), Option.bind_some, hTail, Option.map_some]

/-- Octets already emitted, and the pending bits that do not fill one yet. -/
structure Packer where
  octets : List Nat
  bit : Nat
  bits : Nat
deriving DecidableEq, Repr

namespace Packer

/-- `bit |= value << bits; bits += width` on an accumulator of `word` bits. -/
def push (word width value : Nat) (p : Packer) : Packer :=
  { p with bit := (p.bit ||| value <<< p.bits) % 2 ^ word, bits := p.bits + width }

/-- Emit the low octet. -/
def emit (p : Packer) : Packer :=
  { octets := p.octets ++ [p.bit % 256], bit := p.bit >>> 8, bits := p.bits - 8 }

/-- Emit while a whole octet is pending, at most `rounds` times. -/
def drain : Nat → Packer → Packer
  | 0, p => p
  | rounds + 1, p => if 8 ≤ p.bits then drain rounds p.emit else p

/-- The octets with the last, partly filled one. -/
def finish (p : Packer) : List Nat :=
  if 0 < p.bits then p.octets ++ [p.bit % 256] else p.octets

/-- The number all bits pushed so far stand for. -/
def value (p : Packer) : Nat := Nat.ofDigits 256 p.octets + 256 ^ p.octets.length * p.bit

/-- How many bits were pushed so far. -/
def width (p : Packer) : Nat := 8 * p.octets.length + p.bits

/-- No bit is set above the pending ones, and only octets were emitted. -/
structure Tidy (p : Packer) : Prop where
  bit_lt : p.bit < 2 ^ p.bits
  octet_lt : ∀ n ∈ p.octets, n < 256

def empty : Packer := { octets := [], bit := 0, bits := 0 }

theorem empty_tidy : empty.Tidy := ⟨by decide, by simp [empty]⟩

section Push

variable {word width value : Nat} {p : Packer}

/-- A field right above the bits of the accumulator. -/
theorem pushed_lt (h : p.Tidy) (hValue : value < 2 ^ width) :
    p.bit + 2 ^ p.bits * value < 2 ^ (p.bits + width) := by
  calc
    p.bit + 2 ^ p.bits * value < 2 ^ p.bits + 2 ^ p.bits * value := by
      have := h.bit_lt
      omega
    _ = 2 ^ p.bits * (value + 1) := by ring
    _ ≤ 2 ^ p.bits * 2 ^ width := Nat.mul_le_mul_left _ hValue
    _ = 2 ^ (p.bits + width) := (pow_add 2 p.bits width).symm

theorem push_bit (h : p.Tidy) (hValue : value < 2 ^ width) (hWord : p.bits + width ≤ word) :
    (p.push word width value).bit = p.bit + 2 ^ p.bits * value := by
  have hOr : p.bit ||| value <<< p.bits = p.bit + 2 ^ p.bits * value := by
    rw [Nat.or_comm, ← Nat.shiftLeft_add_eq_or_of_lt h.bit_lt, Nat.shiftLeft_eq]
    ring
  have hLt : p.bit + 2 ^ p.bits * value < 2 ^ word :=
    (pushed_lt h hValue).trans_le (Nat.pow_le_pow_right (by decide) hWord)
  simp only [push, hOr, Nat.mod_eq_of_lt hLt]

theorem push_tidy (h : p.Tidy) (hValue : value < 2 ^ width) (hWord : p.bits + width ≤ word) :
    (p.push word width value).Tidy := by
  refine ⟨?_, h.octet_lt⟩
  rw [push_bit h hValue hWord]
  exact pushed_lt h hValue

/-- Pushing a field puts it right above all bits pushed before. -/
theorem push_value (h : p.Tidy) (hValue : value < 2 ^ width) (hWord : p.bits + width ≤ word) :
    (p.push word width value).value = p.value + 2 ^ p.width * value := by
  have hBit := push_bit h hValue hWord
  have hPow : 2 ^ p.width = 256 ^ p.octets.length * 2 ^ p.bits := by
    rw [Packer.width, pow_add, pow_mul]
    norm_num
  rw [Packer.value, hBit, hPow, Packer.value]
  simp only [push]
  ring

theorem push_width : (p.push word width value).width = p.width + width := by
  simp only [Packer.width, push]
  omega

end Push

section Drain

variable {p : Packer}

theorem emit_value : p.emit.value = p.value := by
  have hSplit : p.bit % 256 + 256 * (p.bit >>> 8) = p.bit := by
    rw [Nat.shiftRight_eq_div_pow]
    omega
  simp only [Packer.value, emit, Nat.ofDigits_append, Nat.ofDigits_singleton, List.length_append,
    List.length_singleton, pow_succ]
  calc
    _ = Nat.ofDigits 256 p.octets +
        256 ^ p.octets.length * (p.bit % 256 + 256 * (p.bit >>> 8)) := by ring
    _ = _ := by rw [hSplit]

theorem emit_width (h : 8 ≤ p.bits) : p.emit.width = p.width := by
  simp only [Packer.width, emit, List.length_append, List.length_singleton]
  omega

theorem emit_tidy (h : p.Tidy) (hBits : 8 ≤ p.bits) : p.emit.Tidy := by
  constructor
  · have hPow : 2 ^ p.bits = 2 ^ 8 * 2 ^ (p.bits - 8) := by
      rw [← pow_add]
      congr 1
      omega
    have hLt := h.bit_lt
    rw [hPow] at hLt
    simp only [emit, Nat.shiftRight_eq_div_pow]
    exact Nat.div_lt_of_lt_mul hLt
  · intro n hn
    simp only [emit, List.mem_append, List.mem_singleton] at hn
    rcases hn with hOld | hNew
    · exact h.octet_lt n hOld
    · omega

/-- Draining moves octets out of the accumulator and changes nothing else. -/
theorem drain_spec (rounds : Nat) (h : p.Tidy) (hRounds : p.bits ≤ 8 * rounds + 7) :
    (drain rounds p).Tidy ∧ (drain rounds p).value = p.value ∧
      (drain rounds p).width = p.width ∧ (drain rounds p).bits < 8 := by
  induction rounds generalizing p with
  | zero => exact ⟨h, rfl, rfl, by simp only [drain]; omega⟩
  | succ rounds ih =>
      rw [drain]
      split
      · rename_i hBits
        obtain ⟨hTidy, hValue, hWidth, hLast⟩ := ih (emit_tidy h hBits) (by simp only [emit]; omega)
        exact ⟨hTidy, hValue.trans emit_value, hWidth.trans (emit_width hBits), hLast⟩
      · exact ⟨h, rfl, rfl, by omega⟩

/-- Octets are only added. -/
theorem drain_octets_length (rounds : Nat) (p : Packer) :
    p.octets.length ≤ (drain rounds p).octets.length := by
  induction rounds generalizing p with
  | zero => exact Nat.le_refl _
  | succ rounds ih =>
      rw [drain]
      split
      · calc
          p.octets.length ≤ p.emit.octets.length := by simp [emit]
          _ ≤ (drain rounds p.emit).octets.length := ih p.emit
      · exact Nat.le_refl _

/-- The accumulator between the rounds of a draining, first and last included. -/
def drainStates : Nat → Packer → List Packer
  | 0, p => [p]
  | rounds + 1, p => p :: if 8 ≤ p.bits then drainStates rounds p.emit else []

/-- Draining only takes bits out of the accumulator. -/
theorem drainStates_bit_le (rounds : Nat) (p : Packer) :
    ∀ q ∈ drainStates rounds p, q.bit ≤ p.bit := by
  induction rounds generalizing p with
  | zero =>
      intro q hq
      rw [List.mem_singleton.mp hq]
  | succ rounds ih =>
      intro q hq
      rcases List.mem_cons.mp hq with rfl | hLater
      · exact Nat.le_refl _
      · split at hLater
        · calc
            q.bit ≤ p.emit.bit := ih p.emit q hLater
            _ = p.bit / 2 ^ 8 := Nat.shiftRight_eq_div_pow _ _
            _ ≤ p.bit := Nat.div_le_self _ _
        · cases hLater

end Drain

section Finish

variable {p : Packer}

theorem finish_value (h : p.Tidy) (hBits : p.bits < 8) :
    Nat.ofDigits 256 p.finish = p.value := by
  have hBit := h.bit_lt
  rw [finish]
  split
  · have hSmall : p.bit < 256 := hBit.trans_le (by
      calc
        2 ^ p.bits ≤ 2 ^ 8 := Nat.pow_le_pow_right (by decide) hBits.le
        _ = 256 := by norm_num)
    rw [Nat.ofDigits_append, Nat.ofDigits_singleton, Nat.mod_eq_of_lt hSmall, Packer.value]
  · have hNone : p.bits = 0 := by omega
    rw [hNone] at hBit
    have hZero : p.bit = 0 := by simpa using hBit
    simp [Packer.value, hZero]

theorem finish_length (hBits : p.bits < 8) : p.finish.length = (p.width + 7) / 8 := by
  rw [finish, Packer.width]
  split
  · simp only [List.length_append, List.length_singleton]
    omega
  · omega

theorem finish_octet_lt (h : p.Tidy) : ∀ n ∈ p.finish, n < 256 := by
  intro n hn
  rw [finish] at hn
  split at hn
  · rcases List.mem_append.mp hn with hOld | hNew
    · exact h.octet_lt n hOld
    · rw [List.mem_singleton.mp hNew]
      omega
  · exact h.octet_lt n hn

end Finish

end Packer

/-- The low `count` fields of `width` bits of a number. -/
def unpack (width : Nat) : Nat → Nat → List Nat
  | 0, _ => []
  | count + 1, value => value % 2 ^ width :: unpack width count (value / 2 ^ width)

theorem unpack_ofDigits {width : Nat} {fields : List Nat} (h : ∀ x ∈ fields, x < 2 ^ width) :
    unpack width fields.length (Nat.ofDigits (2 ^ width) fields) = fields := by
  induction fields with
  | nil => rfl
  | cons x fields ih =>
      have hx := h x List.mem_cons_self
      have hPos : 0 < 2 ^ width := Nat.two_pow_pos width
      have hMod : (x + 2 ^ width * Nat.ofDigits (2 ^ width) fields) % 2 ^ width = x := by
        rw [Nat.add_mul_mod_self_left, Nat.mod_eq_of_lt hx]
      have hDiv : (x + 2 ^ width * Nat.ofDigits (2 ^ width) fields) / 2 ^ width =
          Nat.ofDigits (2 ^ width) fields := by
        rw [Nat.add_mul_div_left _ _ hPos, Nat.div_eq_of_lt hx, Nat.zero_add]
      simp only [List.length_cons, unpack, Nat.ofDigits_cons, hMod, hDiv]
      rw [ih fun y hy => h y (List.mem_cons_of_mem _ hy)]

section Bits

variable {width : Nat} {fields octets : List Nat}

/-- Bit `k` of fields that are laid out one behind the other, from their least
significant bits on. Behind the last field all bits are zero. -/
def fieldBit (width : Nat) (fields : List Nat) (k : Nat) : Bool :=
  (fields.getD (k / width) 0).testBit (k % width)

theorem testBit_ofDigits (hWidth : 0 < width) (h : ∀ x ∈ fields, x < 2 ^ width) (k : Nat) :
    (Nat.ofDigits (2 ^ width) fields).testBit k = fieldBit width fields k := by
  induction fields generalizing k with
  | nil => simp [fieldBit]
  | cons x fields ih =>
      have hTail := ih fun y hy => h y (List.mem_cons_of_mem _ hy)
      rw [Nat.ofDigits_cons, Nat.add_comm,
        Nat.testBit_two_pow_mul_add _ (h x List.mem_cons_self)]
      split
      · rename_i hHere
        simp [fieldBit, Nat.div_eq_of_lt hHere, Nat.mod_eq_of_lt hHere]
      · rename_i hLater
        have hBehind : k = (k - width) + width := by omega
        have hIndex : k / width = (k - width) / width + 1 := by
          conv_lhs => rw [hBehind]
          exact Nat.add_div_right _ hWidth
        have hOffset : k % width = (k - width) % width := by
          conv_lhs => rw [hBehind]
          exact Nat.add_mod_right _ _
        rw [hTail, fieldBit, fieldBit, hIndex, hOffset, List.getD_cons_succ]

theorem fieldBit_octet {j i : Nat} (hj : j < octets.length) (hi : i < 8) :
    fieldBit 8 octets (8 * j + i) = octets[j].testBit i := by
  have hIndex : (8 * j + i) / 8 = j := by omega
  have hOffset : (8 * j + i) % 8 = i := by omega
  simp [fieldBit, hIndex, hOffset, hj]

/-- The octets that fields fill. The bits of the last one that are left over are
zero. -/
def packedOctets (width : Nat) (fields : List Nat) : List Nat :=
  (List.range ((width * fields.length + 7) / 8)).map fun j =>
    Nat.ofBits fun i : Fin 8 => fieldBit width fields (8 * j + i)

@[simp] theorem packedOctets_length (width : Nat) (fields : List Nat) :
    (packedOctets width fields).length = (width * fields.length + 7) / 8 := by
  simp [packedOctets]

theorem packedOctets_lt : ∀ n ∈ packedOctets width fields, n < 256 := by
  intro n hn
  obtain ⟨j, _, rfl⟩ := List.mem_map.mp hn
  exact Nat.ofBits_lt_two_pow _

/-- As many octets with the same value as the fields are the packed ones. -/
theorem eq_packedOctets (hWidth : 0 < width) (hFields : ∀ x ∈ fields, x < 2 ^ width)
    (hOctets : ∀ n ∈ octets, n < 256) (hLength : octets.length = (width * fields.length + 7) / 8)
    (hValue : Nat.ofDigits 256 octets = Nat.ofDigits (2 ^ width) fields) :
    octets = packedOctets width fields := by
  apply List.ext_getElem
  · rw [hLength, packedOctets_length]
  · intro j hj hj'
    apply Nat.eq_of_testBit_eq
    intro i
    have hOctet := hOctets _ (List.getElem_mem hj)
    have hPacked := packedOctets_lt _ (List.getElem_mem hj')
    by_cases hBit : i < 8
    · calc
        octets[j].testBit i = fieldBit 8 octets (8 * j + i) := (fieldBit_octet hj hBit).symm
        _ = (Nat.ofDigits (2 ^ 8) octets).testBit (8 * j + i) :=
          (testBit_ofDigits (by decide) hOctets _).symm
        _ = (Nat.ofDigits (2 ^ width) fields).testBit (8 * j + i) := by rw [← hValue]; rfl
        _ = fieldBit width fields (8 * j + i) := testBit_ofDigits hWidth hFields _
        _ = (packedOctets width fields)[j].testBit i := by
          simp [packedOctets, Nat.testBit_ofBits_lt _ _ hBit]
    · have hHigh : 256 ≤ 2 ^ i := by
        calc
          256 = 2 ^ 8 := rfl
          _ ≤ 2 ^ i := Nat.pow_le_pow_right (by decide) (by omega)
      rw [Nat.testBit_lt_two_pow (by omega), Nat.testBit_lt_two_pow (by omega)]

end Bits

end Octets
