import AnchorScan.Proofs.DecimalText
import AnchorScan.Proofs.FloatingPoint
import Mathlib.Algebra.Order.Field.Basic
import Mathlib.Tactic.Linarith

/-!
# AnchorScan.Proofs.RoundingError

How far a rounded number is from the exact one.

* `abs_roundDiv_sub_le`: a rounded quotient, by at most half;
* `Binary64.abs_value_nearest_sub_le`: a floating-point number below a power of two, by at most
  the `2 ^ 54`-th part of that power;
* `Binary64.le_grains_nearest`: rounding does not go below a multiple of the spacing;
* `Binary64.exists_readDecimal_fixedText`: decimal text, by at most half of its last place.
-/

namespace AnchorScan

/-- A rounded quotient is at most half away from the exact one. -/
theorem abs_roundDiv_sub_le {den : Nat} (h : 0 < den) (num : Nat) :
    |(roundDiv num den : ℚ) - num / den| ≤ 1 / 2 := by
  have hden : (0 : ℚ) < den := by exact_mod_cast h
  have hupper : 2 * ((roundDiv num den : ℚ) * den) ≤ 2 * num + den := by
    exact_mod_cast two_mul_roundDiv_mul_le h num
  have hlower : 2 * (num : ℚ) ≤ 2 * (roundDiv num den * den) + den := by
    exact_mod_cast le_two_mul_roundDiv_mul h num
  have hscaled : (roundDiv num den : ℚ) - num / den = (roundDiv num den * den - num) / den := by
    field_simp
  rw [hscaled, abs_div, abs_of_pos hden, div_le_iff₀ hden, abs_le]
  constructor <;> linarith

/-- A number of so many bits has a smaller logarithm, zero included. -/
theorem log2_lt_of_lt {n bits : Nat} (hbits : 0 < bits) (h : n < 2 ^ bits) : Nat.log2 n < bits := by
  by_cases hzero : n = 0
  · rw [hzero, Nat.log2_zero]
    exact hbits
  · exact (Nat.log2_lt hzero).mpr h

namespace Binary64

/-- The number that the grains make up. -/
def value (x : Binary64) : ℚ := x.grains / one

theorem cast_one_pos : (0 : ℚ) < one := by exact_mod_cast one_pos

theorem value_mul_one (x : Binary64) : x.value * one = x.grains :=
  div_mul_cancel₀ _ cast_one_pos.ne'

/-- The number one has more than 53 bits of grains. -/
theorem exists_one_eq : ∃ exponent, 53 ≤ exponent ∧ one = 2 ^ exponent := by
  unfold one
  generalize h : 1074 = exponent
  exact ⟨exponent, by omega, rfl⟩

/-! ## the nearest number -/

/-- The spacing of numbers below a power of two. -/
theorem spacing_mul_le {grains bits : Nat} (h : grains < 2 ^ bits * one) :
    spacing grains * 2 ^ 53 ≤ 2 ^ bits * one := by
  obtain ⟨exponent, hexponent, hone⟩ := exists_one_eq
  rw [hone, ← Nat.pow_add] at h ⊢
  have hlog := log2_lt_of_lt (by omega) h
  have hspacing : spacing grains = 2 ^ (Nat.log2 grains - 52) := rfl
  rw [hspacing, ← Nat.pow_add]
  exact Nat.pow_le_pow_right (by decide) (by omega)

/-- Natural numbers are multiples of the spacing of numbers of at most 53 bits. -/
theorem spacing_dvd_mul_one {grains : Nat} (h : grains < 2 ^ 53 * one) (n : Nat) :
    spacing grains ∣ n * one := by
  obtain ⟨exponent, hexponent, hone⟩ := exists_one_eq
  rw [hone, ← Nat.pow_add] at h
  have hlog := log2_lt_of_lt (by omega) h
  rw [hone]
  exact Nat.dvd_mul_left_of_dvd (spacing_dvd (by omega)) n

section

variable {num den : Nat}

theorem grains_nearest (num den : Nat) : (nearest num den).grains =
    roundDiv (num * one) (den * spacing (num * one / den)) * spacing (num * one / den) := rfl

/-- Rounding does not go below a multiple of the spacing. -/
theorem le_grains_nearest {bound : Nat} (hden : 0 < den)
    (hdvd : spacing (num * one / den) ∣ bound) (hle : bound * den ≤ num * one) :
    bound ≤ (nearest num den).grains := by
  rw [grains_nearest]
  obtain ⟨m, rfl⟩ := hdvd
  rw [Nat.mul_comm] at hle ⊢
  refine Nat.mul_le_mul_right _ (le_roundDiv (Nat.mul_pos hden (spacing_pos _)) ?_)
  calc m * (den * spacing (num * one / den)) = den * (spacing (num * one / den) * m) := by ring
    _ ≤ num * one := hle

/-- The nearest number is at most half a spacing away. -/
theorem abs_value_nearest_sub_le {bits : Nat} (hden : 0 < den) (h : num < 2 ^ bits * den) :
    |(nearest num den).value - num / den| ≤ 2 ^ bits / 2 ^ 54 := by
  have hgrains : num * one / den < 2 ^ bits * one := by
    rw [Nat.div_lt_iff_lt_mul hden, Nat.mul_right_comm]
    exact Nat.mul_lt_mul_of_pos_right h one_pos
  have hspacing : (spacing (num * one / den) : ℚ) * 2 ^ 53 ≤ 2 ^ bits * one := by
    exact_mod_cast spacing_mul_le hgrains
  have herror := abs_roundDiv_sub_le (Nat.mul_pos hden (spacing_pos (num * one / den))) (num * one)
  have hpos : (0 : ℚ) < spacing (num * one / den) := by exact_mod_cast spacing_pos _
  rw [value, grains_nearest]
  have hone := cast_one_pos
  have hden' : (den : ℚ) ≠ 0 := by exact_mod_cast hden.ne'
  push_cast at herror ⊢
  generalize (roundDiv (num * one) (den * spacing (num * one / den)) : ℚ) = rounded at herror ⊢
  generalize (spacing (num * one / den) : ℚ) = spacing at herror hspacing hpos ⊢
  generalize (one : ℚ) = one at herror hspacing hone ⊢
  have hscaled : rounded * spacing / one - num / den =
      (rounded - num * one / (den * spacing)) * (spacing / one) := by field_simp
  rw [hscaled, abs_mul, abs_of_pos (div_pos hpos hone)]
  calc |rounded - num * one / (den * spacing)| * (spacing / one) ≤ 1 / 2 * (spacing / one) :=
        mul_le_mul_of_nonneg_right herror (div_pos hpos hone).le
    _ = spacing * 2 ^ 53 / one / 2 ^ 54 := by ring
    _ ≤ 2 ^ bits * one / one / 2 ^ 54 := by gcongr
    _ = 2 ^ bits / 2 ^ 54 := by rw [mul_div_cancel_right₀ _ hone.ne']

end

/-! ## remainders and decimal text -/

/-- What is left of a number after taking another away so many times. -/
theorem value_modNat {x : Binary64} {n count : Nat} (hle : (count * n : ℚ) ≤ x.value)
    (hlt : x.value < (count + 1) * n) : (x.modNat n).value = x.value - count * n := by
  have hone := cast_one_pos
  have hlower : count * (n * one) ≤ x.grains := by
    have hgrains := mul_le_mul_of_nonneg_right hle hone.le
    rw [value_mul_one, mul_assoc] at hgrains
    exact_mod_cast hgrains
  have hupper : x.grains < (count + 1) * (n * one) := by
    have hgrains := mul_lt_mul_of_pos_right hlt hone
    rw [value_mul_one, mul_assoc] at hgrains
    exact_mod_cast hgrains
  have hquotient : x.grains / (n * one) = count := Nat.div_eq_of_lt_le hlower hupper
  have hgrains : (x.modNat n).grains + count * (n * one) = x.grains := by
    rw [modNat, ← hquotient]
    exact Nat.mod_add_div' x.grains (n * one)
  have hgrains' : ((x.modNat n).grains : ℚ) + count * (n * one) = x.grains := by
    exact_mod_cast hgrains
  rw [value, value, ← hgrains']
  field_simp
  ring

/-- Decimal text is at most half of its last place away from the number. -/
theorem exists_readDecimal_fixedText {places : Nat} (h : 0 < places) (x : Binary64) :
    ∃ shown : Nat, readDecimal (x.fixedText places 1).toList = (shown : ℚ) / 10 ^ places ∧
      |(shown : ℚ) - 10 ^ places * x.value| ≤ 1 / 2 := by
  refine ⟨roundDiv (x.grains * Nat.pow 10 places) (1 * one), ?_, ?_⟩
  · rw [fixedText, readDecimal_fixedText h, Nat.pow_eq, Nat.cast_pow, Nat.cast_ofNat]
  · have herror := abs_roundDiv_sub_le (Nat.mul_pos Nat.one_pos one_pos)
      (x.grains * Nat.pow 10 places)
    have hvalue : 10 ^ places * x.value =
        ((x.grains * Nat.pow 10 places : Nat) : ℚ) / ((1 * one : Nat) : ℚ) := by
      rw [value, Nat.pow_eq]
      push_cast
      ring
    rw [hvalue]
    exact herror

end Binary64

end AnchorScan
