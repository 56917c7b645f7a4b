import AnchorScan.Number.Binary64
import Mathlib.Algebra.Ring.Nat
import Mathlib.Data.Nat.Log

/-!
# AnchorScan.Proofs.FloatingPoint

Rounding to floating-point numbers keeps the order of natural numbers, and below `2 ^ 53` it
changes nothing.

* `roundDiv_le` and `le_roundDiv`: a rounded quotient stays within natural bounds;
* `Binary64.grains_ofNat_mono`: a larger number never gives a smaller one;
* `Binary64.grains_ofNat_of_lt`: numbers of at most 53 bits are kept.
-/

namespace AnchorScan

/-! ## rounded quotients -/

theorem roundDiv_mul_self {den : Nat} (h : 0 < den) (m : Nat) : roundDiv (m * den) den = m := by
  simp [roundDiv, h, Nat.mul_div_cancel m h]

/-- A quotient below a natural number is rounded to no more than that. -/
theorem roundDiv_le {m num den : Nat} (h : 0 < den) (hle : num ≤ m * den) : roundDiv num den ≤ m :=
  (roundDiv_mono hle).trans (roundDiv_mul_self h m).le

theorem le_roundDiv {m num den : Nat} (h : 0 < den) (hle : m * den ≤ num) : m ≤ roundDiv num den :=
  (roundDiv_mul_self h m).ge.trans (roundDiv_mono hle)

/-! ## the nearest number -/

namespace Binary64

theorem one_pos : 0 < one := by
  unfold one
  generalize 1074 = exponent
  exact Nat.two_pow_pos exponent

/-- How far numbers lie apart, next to one with some grains. -/
def spacing (grains : Nat) : Nat := Nat.pow 2 (Nat.log2 grains - 52)

theorem spacing_pos (grains : Nat) : 0 < spacing grains := Nat.two_pow_pos _

/-- Powers of two that are large enough are multiples of the spacing. -/
theorem spacing_dvd {grains exponent : Nat} (h : Nat.log2 grains - 52 ≤ exponent) :
    spacing grains ∣ 2 ^ exponent := Nat.pow_dvd_pow 2 h

theorem grains_ofNat (n : Nat) :
    (ofNat n).grains = roundDiv (n * one) (spacing (n * one)) * spacing (n * one) := by
  simp only [ofNat, nearest, spacing, Nat.div_one, Nat.one_mul]

/-- Rounding to multiples does not go past one of them. -/
theorem roundDiv_mul_le {grains bound : Nat} (h : spacing grains ∣ bound) (hle : grains ≤ bound) :
    roundDiv grains (spacing grains) * spacing grains ≤ bound := by
  obtain ⟨m, rfl⟩ := h
  rw [Nat.mul_comm] at hle ⊢
  exact Nat.mul_le_mul_left _ (roundDiv_le (spacing_pos grains) hle)

theorem le_roundDiv_mul {grains bound : Nat} (h : spacing grains ∣ bound) (hle : bound ≤ grains) :
    bound ≤ roundDiv grains (spacing grains) * spacing grains := by
  obtain ⟨m, rfl⟩ := h
  rw [Nat.mul_comm] at hle ⊢
  exact Nat.mul_le_mul_right _ (le_roundDiv (spacing_pos grains) hle)

/-- **A larger number never gives a smaller one.**  Where the spacing changes, there is a power of
two in between, which is a multiple of both. -/
theorem grains_ofNat_mono {a b : Nat} (h : a ≤ b) : (ofNat a).grains ≤ (ofNat b).grains := by
  have hle : a * one ≤ b * one := Nat.mul_le_mul_right one h
  rw [grains_ofNat, grains_ofNat]
  generalize a * one = x at hle
  generalize b * one = y at hle
  by_cases heq : Nat.log2 x = Nat.log2 y
  · have hspacing : spacing x = spacing y := by rw [spacing, spacing, heq]
    rw [hspacing]
    exact Nat.mul_le_mul_right _ (roundDiv_mono hle)
  · have hlog : Nat.log2 x ≤ Nat.log2 y := by
      rw [Nat.log2_eq_log_two, Nat.log2_eq_log_two]
      exact Nat.log_mono_right hle
    have hne : y ≠ 0 := by
      rintro rfl
      exact heq (congrArg Nat.log2 (Nat.le_zero.mp hle))
    have hpivot : x ≤ 2 ^ Nat.log2 y :=
      Nat.lt_log2_self.le.trans (Nat.pow_le_pow_right (by decide) (by omega))
    exact (roundDiv_mul_le (spacing_dvd (by omega)) hpivot).trans
      (le_roundDiv_mul (spacing_dvd (by omega)) (Nat.log2_self_le hne))

/-- A number of so many bits is a multiple of the spacing that it has behind as many zeros as
there are before the smallest spacing. -/
theorem spacing_dvd_mul {n : Nat} (h : n < 2 ^ 53) (exponent : Nat) :
    spacing (n * Nat.pow 2 exponent) ∣ n * Nat.pow 2 exponent := by
  by_cases hzero : n = 0
  · rw [hzero, Nat.zero_mul]
    exact Nat.dvd_zero _
  · have hlt : n * 2 ^ exponent < 2 ^ (53 + exponent) := by
      rw [Nat.pow_add]
      exact Nat.mul_lt_mul_of_pos_right h (Nat.two_pow_pos exponent)
    have hne : n * 2 ^ exponent ≠ 0 := Nat.mul_ne_zero hzero (Nat.two_pow_pos exponent).ne'
    have hlog : Nat.log2 (n * 2 ^ exponent) < 53 + exponent := (Nat.log2_lt hne).mpr hlt
    have hexponent : Nat.log2 (n * 2 ^ exponent) - 52 ≤ exponent := by omega
    exact Nat.dvd_mul_left_of_dvd (spacing_dvd hexponent) n

/-- **Numbers of at most 53 bits are kept.** -/
theorem grains_ofNat_of_lt {n : Nat} (h : n < 2 ^ 53) : (ofNat n).grains = n * one := by
  have hdvd : spacing (n * one) ∣ n * one := by
    unfold one
    generalize 1074 = exponent
    exact spacing_dvd_mul h exponent
  rw [grains_ofNat]
  exact Nat.le_antisymm (roundDiv_mul_le hdvd le_rfl) (le_roundDiv_mul hdvd le_rfl)

end Binary64

end AnchorScan
