import MonitoringPlug.Dhcp.Send

/-! `mp_ip_csum` in the arithmetic of `int`, for any buffer. -/
namespace MonitoringPlug.Net

open Checksum MonitoringPlug.Dhcp

/-- The result of an operation on `int`. There is none when it overflows. -/
def asInt (n : Int) : Option Int :=
  if -2147483648 ≤ n ∧ n ≤ 2147483647 then some n else none

/-- The loop of `mp_ip_csum`, with each sum as an `int`. -/
def csumLoopInt (sum len : Int) : List UInt16 → Option Int
  | [] => some sum
  | w :: rest =>
      if 0 < len then (asInt (sum + w.toNat)).bind fun sum => csumLoopInt sum (len - 2) rest
      else some sum

def mpIpCsumInt (addr : List UInt16) (len : Int) : Option UInt16 := do
  let sum ← csumLoopInt 0 len addr
  let sum ← asInt (sum / 2 ^ 16 + sum % 2 ^ 16)
  let sum ← asInt (sum + sum / 2 ^ 16)
  some (UInt16.ofInt (-sum - 1))

theorem asInt_eq {n : Int} (hLow : 0 ≤ n) (hHigh : n ≤ 2147483647) : asInt n = some n :=
  if_pos ⟨by omega, hHigh⟩

/-- Each step of the loop adds at most 65535, so a sum that leaves room for the words to come
never overflows. -/
theorem csumLoopInt_eq {words : List UInt16} {sum : Int} (len : Int) (hLow : 0 ≤ sum)
    (hRoom : sum + words.length * 65535 ≤ 2147483647) :
    csumLoopInt sum len words = some (csumLoop sum len words) := by
  induction words generalizing sum len with
  | nil => rfl
  | cons w words ih =>
      have hWord := w.toNat_lt
      rw [List.length_cons] at hRoom
      push_cast at hRoom
      rw [csumLoopInt, csumLoop]
      by_cases hLen : 0 < len
      · rw [if_pos hLen, if_pos hLen, asInt_eq (by omega) (by omega), Option.bind_some]
        exact ih (len - 2) (by omega) (by omega)
      · rw [if_neg hLen, if_neg hLen]

/-- No sum of up to 32768 words overflows, and neither does its fold. -/
theorem mpIpCsumInt_eq {words : List UInt16} (h : words.length ≤ 32768) :
    mpIpCsumInt words (2 * words.length) = some (mpIpCsum words (2 * words.length)) := by
  have hRoom : (0 : Int) + words.length * 65535 ≤ 2147483647 := by omega
  have hLoop := csumLoopInt_eq (2 * words.length) (Int.le_refl 0) hRoom
  have hAll : 2 * (words.length : Int) ≤ 2 * words.length + 1 := by omega
  have hSum := csumLoop_all hAll 0
  have hBound := wordSum_le words
  have hPower : (2 : Int) ^ 16 = 65536 := rfl
  rw [mpIpCsumInt, mpIpCsum, hLoop, hSum, hPower]
  simp only [Option.bind_eq_bind, Option.bind_some]
  rw [asInt_eq (by omega) (by omega), Option.bind_some, asInt_eq (by omega) (by omega)]
  rfl

/-- For up to 32768 words: nothing overflows, and the result in place of a zero word makes the
words sum to 0xFFFF. -/
theorem mpIpCsumInt_completes (words : List UInt16) (h : words.length ≤ 32768) :
    ∃ csum, mpIpCsumInt words (2 * words.length) = some csum ∧
      ∀ front back, words = front ++ 0 :: back →
        onesSum ((front ++ csum :: back).map UInt16.toNat) = 0xFFFF := by
  refine ⟨_, mpIpCsumInt_eq h, ?_⟩
  rintro front back rfl
  exact mpIpCsum_verifies (by omega) h

theorem mpIpCsumInt_completes_three :
    ∃ csum, mpIpCsumInt [0xFFFF, 0, 0x0003] (2 * [(0xFFFF : UInt16), 0, 0x0003].length) =
        some csum ∧
      ∀ front back, [0xFFFF, 0, 0x0003] = front ++ 0 :: back →
        onesSum ((front ++ csum :: back).map UInt16.toNat) = 0xFFFF :=
  mpIpCsumInt_completes [0xFFFF, 0, 0x0003] (by decide)

end MonitoringPlug.Net
