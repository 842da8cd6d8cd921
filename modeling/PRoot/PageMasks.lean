import Mathlib.Data.Nat.Bitwise
import Mathlib.Order.Bounds.Defs

/-!
# Masks for multiples of a power of two

Words are cut to multiples of `2 ^ k` by masks.

* `and_not_sub_one`: the mask without the bits below bit `k`;
* `and_not_twoPow_eq_iff`: what the mask without bit `k` alone makes the same of;
* `roundedUp_isLeast`: rounding up, without overflow.
-/

namespace PageMasks

variable {w k : Nat}

/-- The mask without the low bits. -/
def above (w k : Nat) : BitVec w := ~~~(BitVec.twoPow w k - 1)

theorem toNat_twoPow_sub_one (hk : k < w) : (BitVec.twoPow w k - 1).toNat = 2 ^ k - 1 := by
  have hone : (1 : BitVec w).toNat = 1 := BitVec.toNat_one (Nat.zero_lt_of_lt hk)
  have hle : (1 : BitVec w).toNat ≤ (BitVec.twoPow w k).toNat := by
    rw [BitVec.toNat_twoPow_of_lt hk, hone]
    exact Nat.two_pow_pos k
  rw [BitVec.toNat_sub_of_le hle, BitVec.toNat_twoPow_of_lt hk, hone]

theorem getLsbD_twoPow_sub_one (hk : k < w) (i : Nat) :
    (BitVec.twoPow w k - 1).getLsbD i = decide (i < k) := by
  rw [← BitVec.testBit_toNat, toNat_twoPow_sub_one hk, Nat.testBit_two_pow_sub_one]

theorem getLsbD_and_above (hk : k < w) (x : BitVec w) (i : Nat) :
    (x &&& above w k).getLsbD i = (decide (k ≤ i) && x.getLsbD i) := by
  rw [above, BitVec.getLsbD_and, BitVec.getLsbD_not, getLsbD_twoPow_sub_one hk]
  by_cases hi : i < w
  · by_cases hik : i < k
    · simp [hik, Nat.not_le.mpr hik]
    · simp [hi, hik, Nat.not_lt.mp hik]
  · simp [BitVec.getLsbD_of_ge x i (Nat.not_lt.mp hi)]

/-- **The low bits go.** -/
theorem toNat_and_above (hk : k < w) (x : BitVec w) :
    (x &&& above w k).toNat = x.toNat / 2 ^ k * 2 ^ k := by
  have hshift : x &&& above w k = (x >>> k) <<< k := by
    refine BitVec.eq_of_getLsbD_eq fun i hi => ?_
    rw [getLsbD_and_above hk, BitVec.getLsbD_shiftLeft, BitVec.getLsbD_ushiftRight]
    by_cases hik : i < k
    · simp [hik, Nat.not_le.mpr hik]
    · have hle := Nat.not_lt.mp hik
      simp [hi, hik, hle, Nat.add_sub_cancel' hle]
  have hlt : x.toNat / 2 ^ k * 2 ^ k < 2 ^ w :=
    Nat.lt_of_le_of_lt (Nat.div_mul_le_self _ _) x.isLt
  rw [hshift, BitVec.toNat_shiftLeft, BitVec.toNat_ushiftRight, Nat.shiftRight_eq_div_pow,
    Nat.shiftLeft_eq, Nat.mod_eq_of_lt hlt]

theorem dvd_iff_getLsbD {m : Nat} (x : BitVec w) :
    2 ^ m ∣ x.toNat ↔ ∀ i < m, x.getLsbD i = false := by
  constructor
  · intro hdvd i hi
    have hzero : (x.toNat % 2 ^ m).testBit i = false := by
      rw [Nat.mod_eq_zero_of_dvd hdvd, Nat.zero_testBit]
    rw [Nat.testBit_mod_two_pow] at hzero
    rw [← BitVec.testBit_toNat]
    simpa [hi] using hzero
  · intro hbits
    refine Nat.dvd_of_mod_eq_zero (Nat.zero_of_testBit_eq_false fun i => ?_)
    rw [Nat.testBit_mod_two_pow, BitVec.testBit_toNat]
    by_cases hi : i < m
    · rw [hbits i hi, Bool.and_false]
    · simp [hi]

/-- **Bit `k` alone goes**: that is the same for what has no bit up to it. -/
theorem and_not_twoPow_eq_iff (hk : k < w) (x : BitVec w) :
    x &&& ~~~BitVec.twoPow w k = x &&& above w k ↔ 2 ^ (k + 1) ∣ x.toNat := by
  rw [dvd_iff_getLsbD]
  constructor
  · intro heq i hi
    have hbit := congrArg (fun y => BitVec.getLsbD y i) heq
    simp only [getLsbD_and_above hk, BitVec.getLsbD_and, BitVec.getLsbD_not,
      BitVec.getLsbD_twoPow] at hbit
    have hiw : i < w := by omega
    by_cases hik : i = k
    · subst hik
      simpa [hk] using hbit.symm
    · have hlt : ¬ k ≤ i := by omega
      simpa [hiw, hlt, Ne.symm hik] using hbit
  · intro hbits
    refine BitVec.eq_of_getLsbD_eq fun i hi => ?_
    rw [getLsbD_and_above hk, BitVec.getLsbD_and, BitVec.getLsbD_not, BitVec.getLsbD_twoPow]
    by_cases hik : i < k + 1
    · rw [hbits i hik]
      simp
    · have hle : k ≤ i := by omega
      have hne : k ≠ i := by omega
      simp [hi, hle, hne]

/-- **Rounding up gives the least multiple** that is not below. -/
theorem roundedUp_isLeast {p : Nat} (hp : 0 < p) (n : Nat) :
    IsLeast {m | p ∣ m ∧ n ≤ m} ((n + (p - 1)) / p * p) := by
  constructor
  · refine ⟨Nat.dvd_mul_left _ _, ?_⟩
    have hmod := Nat.mod_lt (n + (p - 1)) hp
    have hsplit := Nat.div_add_mod (n + (p - 1)) p
    rw [Nat.mul_comm]
    omega
  · rintro m ⟨⟨c, rfl⟩, hle⟩
    rw [Nat.mul_comm p c]
    refine Nat.mul_le_mul_right p ?_
    have hlt : (n + (p - 1)) / p < c + 1 := by
      rw [Nat.div_lt_iff_lt_mul hp, Nat.succ_mul, Nat.mul_comm c]
      omega
    exact Nat.le_of_lt_succ hlt

end PageMasks
