import Mathlib.Data.Nat.ModEq
import Mathlib.Algebra.BigOperators.Group.List.Basic

/-! The one's-complement sum of 16-bit words: addition with the carry added back at the
low end. Modulo 65535 it is the ordinary sum, so it does not depend on the order of the
bytes in the words. -/
namespace Checksum

/-- Addition with end-around carry. -/
def endAround (sum word : Nat) : Nat := (sum + word) % 65536 + (sum + word) / 65536

def onesSum (words : List Nat) : Nat := words.foldl endAround 0

/-- The same word with its two bytes exchanged. -/
def swap (word : Nat) : Nat := word % 256 * 256 + word / 256

theorem endAround_lt {sum word : Nat} (hSum : sum < 65536) (hWord : word < 65536) :
    endAround sum word < 65536 := by
  rw [endAround]
  omega

theorem endAround_modEq (sum word : Nat) : endAround sum word ≡ sum + word [MOD 65535] := by
  have hSplit := Nat.mod_add_div (sum + word) 65536
  rw [endAround, Nat.ModEq]
  omega

theorem endAround_eq_zero {sum word : Nat} : endAround sum word = 0 ↔ sum = 0 ∧ word = 0 := by
  rw [endAround]
  omega

/-- A run of additions: the result is a word, it is the sum modulo 65535, and it is zero only
if there was nothing to add. -/
theorem foldl_endAround {words : List Nat} (hWords : ∀ w ∈ words, w < 65536) {sum : Nat}
    (hSum : sum < 65536) :
    words.foldl endAround sum < 65536 ∧
      words.foldl endAround sum ≡ sum + words.sum [MOD 65535] ∧
      (words.foldl endAround sum = 0 ↔ sum + words.sum = 0) := by
  induction words generalizing sum with
  | nil => exact ⟨hSum, by rw [List.foldl_nil, List.sum_nil, Nat.add_zero], by simp⟩
  | cons word words ih =>
      have hWord := hWords word List.mem_cons_self
      obtain ⟨hLess, hMod, hZero⟩ :=
        ih (fun w hw => hWords w (List.mem_cons_of_mem _ hw)) (endAround_lt hSum hWord)
      rw [List.foldl_cons, List.sum_cons, ← Nat.add_assoc]
      refine ⟨hLess, hMod.trans ((endAround_modEq sum word).add_right _), ?_⟩
      have hFirst : endAround sum word = 0 ↔ sum = 0 ∧ word = 0 := endAround_eq_zero
      omega

theorem onesSum_eq_iff {words : List Nat} (hWords : ∀ w ∈ words, w < 65536) :
    onesSum words = 65535 ↔ words.sum ≡ 0 [MOD 65535] ∧ words.sum ≠ 0 := by
  have hStart : 0 < 65536 := by decide
  obtain ⟨hLess, hMod, hZero⟩ := foldl_endAround hWords hStart
  rw [Nat.zero_add] at hMod hZero
  rw [onesSum]
  rw [Nat.ModEq] at hMod ⊢
  omega

theorem swap_modEq (word : Nat) : swap word ≡ 256 * word [MOD 65535] := by
  have hSplit := Nat.mod_add_div word 256
  rw [swap, Nat.ModEq]
  omega

theorem sum_swap_modEq (words : List Nat) :
    (words.map swap).sum ≡ 256 * words.sum [MOD 65535] := by
  induction words with
  | nil => rfl
  | cons word words ih =>
      rw [List.map_cons, List.sum_cons, List.sum_cons, Nat.mul_add]
      exact (swap_modEq word).add ih

theorem sum_swap_eq_zero (words : List Nat) : (words.map swap).sum = 0 ↔ words.sum = 0 := by
  induction words with
  | nil => rfl
  | cons word words ih =>
      have hWord : swap word = 0 ↔ word = 0 := by
        rw [swap]
        omega
      rw [List.map_cons, List.sum_cons, List.sum_cons, Nat.add_eq_zero_iff, Nat.add_eq_zero_iff,
        hWord, ih]

/-- Words that sum to 65535 do so in either order of their bytes. -/
theorem onesSum_swap {words : List Nat} (hWords : ∀ w ∈ words, w < 65536)
    (h : onesSum words = 65535) : onesSum (words.map swap) = 65535 := by
  have hSwapped : ∀ w ∈ words.map swap, w < 65536 := by
    intro w hw
    obtain ⟨word, hMem, rfl⟩ := List.mem_map.mp hw
    have hWord := hWords word hMem
    rw [swap]
    omega
  rw [onesSum_eq_iff hWords] at h
  rw [onesSum_eq_iff hSwapped]
  refine ⟨(sum_swap_modEq words).trans (h.1.mul_left 256), ?_⟩
  rw [ne_eq, sum_swap_eq_zero]
  exact h.2

end Checksum
