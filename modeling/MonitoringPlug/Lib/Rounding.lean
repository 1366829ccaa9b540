import Mathlib.Data.Int.Log
import Mathlib.Data.Rat.Floor
import Mathlib.Tactic.NormNum
import MonitoringPlug.Lib.Format

/-! Rounding to the nearest number of a binary floating point format, as a function
on exact rationals. A format has no largest number here. -/
namespace Rounding

/-- The count of binary digits, and the exponent of the last digit of the smallest
numbers. -/
structure Format where
  digits : Nat
  minExponent : Int
deriving DecidableEq

def binary32 : Format := ⟨24, -149⟩

def binary64 : Format := ⟨53, -1074⟩

namespace Format

variable {f : Format} {x : ℚ}

/-- The exponent of the last digit that is kept of a number. -/
def lastExponent (f : Format) (x : ℚ) : Int := max (Int.log 2 |x| + 1 - f.digits) f.minExponent

/-- The nearest number, of two the one with the even last digit. -/
def round (f : Format) (x : ℚ) : ℚ :=
  CText.roundHalfEven (x / 2 ^ f.lastExponent x) * 2 ^ f.lastExponent x

/-- The numbers of the format. -/
def Represents (f : Format) (x : ℚ) : Prop :=
  ∃ m e : Int, x = m * 2 ^ e ∧ |m| < 2 ^ f.digits ∧ f.minExponent ≤ e

theorem round_zero : f.round 0 = 0 := by
  have hRound : CText.roundHalfEven (0 / 2 ^ f.lastExponent 0) = 0 := by
    rw [zero_div]
    exact CText.roundHalfEven_intCast 0
  rw [round, hRound, Int.cast_zero, zero_mul]

/-- Of a number of the format no digit is cut off. -/
theorem lastExponent_le {m e : Int} (hm : m ≠ 0) (hDigits : |m| < 2 ^ f.digits)
    (hMin : f.minExponent ≤ e) : f.lastExponent (m * 2 ^ e) ≤ e := by
  have hPower : (0 : ℚ) < 2 ^ e := zpow_pos (by norm_num) e
  have hPositive : (0 : ℚ) < |(m : ℚ) * 2 ^ e| :=
    abs_pos.mpr (mul_ne_zero (Int.cast_ne_zero.mpr hm) hPower.ne')
  have hBelow : |(m : ℚ) * 2 ^ e| < 2 ^ ((f.digits : Int) + e) := by
    have hCast : |(m : ℚ)| < 2 ^ f.digits := by exact_mod_cast hDigits
    rw [abs_mul, abs_of_pos hPower, zpow_add₀ (by norm_num), zpow_natCast]
    exact mul_lt_mul_of_pos_right hCast hPower
  have hLog : Int.log 2 |(m : ℚ) * 2 ^ e| < f.digits + e :=
    (Int.lt_zpow_iff_log_lt (by decide) hPositive).mp (by exact_mod_cast hBelow)
  rw [lastExponent]
  omega

/-- A number of the format is left as it is. -/
theorem round_eq_self (h : f.Represents x) : f.round x = x := by
  obtain ⟨m, e, rfl, hDigits, hMin⟩ := h
  by_cases hm : m = 0
  · rw [hm, Int.cast_zero, zero_mul, round_zero]
  · have hLast := lastExponent_le hm hDigits hMin
    have hPower : (2 : ℚ) ^ f.lastExponent (m * 2 ^ e) ≠ 0 := zpow_ne_zero _ (by norm_num)
    obtain ⟨n, hn⟩ := Int.le.dest hLast
    have hWhole : (m : ℚ) * 2 ^ e / 2 ^ f.lastExponent (m * 2 ^ e) = ((m * 2 ^ n : Int) : ℚ) := by
      rw [div_eq_iff hPower]
      conv_lhs => rw [← hn]
      rw [zpow_add₀ (by norm_num), zpow_natCast]
      push_cast
      ring
    rw [round, hWhole, CText.roundHalfEven_intCast, ← hWhole, div_mul_cancel₀ _ hPower]

end Format

/-- What is stored of a number in the two floating point types of C. -/
structure FloatTypes where
  float : ℚ → ℚ
  double : ℚ → ℚ
  float_zero : float 0 = 0
  double_zero : double 0 = 0

namespace FloatTypes

/-- The types as IEEE 754 has them. -/
def ieee : FloatTypes := ⟨binary32.round, binary64.round, Format.round_zero, Format.round_zero⟩

/-- Types that store every number. -/
def exact : FloatTypes := ⟨id, id, rfl, rfl⟩

variable (types : FloatTypes)

/-- A `double` multiplied by a number that is passed as a `float`. -/
def part (whole x : ℚ) : ℚ := types.double (x * types.float whole)

@[simp] theorem part_zero (x : ℚ) : types.part 0 x = 0 := by
  rw [part, types.float_zero, mul_zero, types.double_zero]

@[simp] theorem exact_part (whole x : ℚ) : exact.part whole x = x * whole := rfl

/-- Of a number that is a `float` a part that is a `double` is stored as it is. -/
theorem ieee_part {whole x : ℚ} (hWhole : binary32.Represents whole)
    (hPart : binary64.Represents (x * whole)) : ieee.part whole x = exact.part whole x := by
  have hFloat : ieee.float whole = whole := Format.round_eq_self hWhole
  rw [part, hFloat, exact_part]
  exact Format.round_eq_self hPart

end FloatTypes

end Rounding
