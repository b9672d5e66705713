/-
  GigabitTcp.Hw.OnesComplement — sums with end-around carry, as numbers.

  A one's-complement sum of `w`-bit words is folded by adding the carry back in at the low
  end.  Folding keeps the value modulo `2 ^ w - 1`, and it never makes a positive sum zero; so
  the folded sum is the representative `wrap w` of the plain sum.

  Main results:
    * `wrap_round`       — one round of carry keeps the representative,
    * `wrap_complement`  — a sum and the complement of its fold make all ones,
    * `wrap_eq_ones_iff` — the sums that fold to all ones.
-/
import Mathlib.Data.Nat.ModEq

namespace Hw.OnesComplement

variable {w : Nat}

/-- The representative of `n` in `0, 1, …, 2 ^ w - 1`; only zero itself is mapped to zero. -/
def wrap (w n : Nat) : Nat := if n = 0 then 0 else (n - 1) % (2 ^ w - 1) + 1

theorem wrap_zero : wrap w 0 = 0 := rfl

theorem wrap_pos {n : Nat} (hn : n ≠ 0) : wrap w n = (n - 1) % (2 ^ w - 1) + 1 := if_neg hn

theorem one_lt_two_pow {w : Nat} (hw : 0 < w) : 2 ≤ 2 ^ w := by
  have h : 2 ^ 1 ≤ 2 ^ w := Nat.pow_le_pow_right (by omega) hw
  omega

theorem wrap_le (hw : 0 < w) (n : Nat) : wrap w n ≤ 2 ^ w - 1 := by
  have hpow := one_lt_two_pow hw
  by_cases hn : n = 0
  · rw [hn, wrap_zero]
    omega
  · have hlt : (n - 1) % (2 ^ w - 1) < 2 ^ w - 1 := Nat.mod_lt _ (by omega)
    rw [wrap_pos hn]
    omega

/-- A word is its own representative. -/
theorem wrap_of_lt (hw : 0 < w) {n : Nat} (h : n < 2 ^ w) : wrap w n = n := by
  have hpow := one_lt_two_pow hw
  by_cases hn : n = 0
  · rw [hn, wrap_zero]
  · rw [wrap_pos hn, Nat.mod_eq_of_lt (by omega)]
    omega

/-- Positive numbers that agree modulo `2 ^ w - 1` have one representative. -/
theorem wrap_congr {m n : Nat} (hm : m ≠ 0) (hn : n ≠ 0) (h : m ≡ n [MOD 2 ^ w - 1]) :
    wrap w m = wrap w n := by
  have hpred : m - 1 ≡ n - 1 [MOD 2 ^ w - 1] := by
    apply Nat.ModEq.add_right_cancel' 1
    rwa [Nat.sub_add_cancel (by omega), Nat.sub_add_cancel (by omega)]
  rw [wrap_pos hm, wrap_pos hn]
  exact congrArg (· + 1) hpred

/-- **One round of carry**: the part above the word is added at its low end. -/
theorem wrap_round (hw : 0 < w) (n : Nat) : wrap w (n % 2 ^ w + n / 2 ^ w) = wrap w n := by
  have hpow := one_lt_two_pow hw
  have hsplit := Nat.mod_add_div n (2 ^ w)
  generalize n / 2 ^ w = q at *
  generalize n % 2 ^ w = r at *
  -- `2 ^ w` is one more than the modulus
  obtain ⟨m, hm⟩ : ∃ m, 2 ^ w = m + 1 := ⟨2 ^ w - 1, by omega⟩
  rw [hm, Nat.add_mul, Nat.one_mul] at hsplit
  by_cases hn : n = 0
  · rw [hn, show r + q = 0 by omega]
  · have hzero : r + q ≠ 0 := by
      intro hzero
      rw [show q = 0 by omega, Nat.mul_zero] at hsplit
      omega
    apply wrap_congr hzero hn
    rw [hm, Nat.add_sub_cancel]
    show (r + q) % m = n % m
    rw [← hsplit, show r + (m * q + q) = r + q + m * q by omega, Nat.add_mul_mod_self_left]

/-- A sum and the complement of its fold make all ones. -/
theorem wrap_complement (hw : 0 < w) (n : Nat) :
    wrap w (n + (2 ^ w - 1 - wrap w n)) = 2 ^ w - 1 := by
  have hpow := one_lt_two_pow hw
  have hle := wrap_le hw n
  have hall : wrap w (2 ^ w - 1) = 2 ^ w - 1 := wrap_of_lt hw (by omega)
  by_cases hn : n = 0
  · rw [hn, wrap_zero, Nat.zero_add, Nat.sub_zero, hall]
  · have hmod : wrap w n ≡ n [MOD 2 ^ w - 1] := by
      rw [wrap_pos hn]
      have hround := (Nat.mod_modEq (n - 1) (2 ^ w - 1)).add_right 1
      rwa [Nat.sub_add_cancel (by omega)] at hround
    have hsum : n + (2 ^ w - 1 - wrap w n) ≡ 2 ^ w - 1 [MOD 2 ^ w - 1] := by
      have h := (hmod.symm).add_right (2 ^ w - 1 - wrap w n)
      rwa [Nat.add_sub_cancel' hle] at h
    rw [wrap_congr (by omega) (by omega) hsum, hall]

/-- **All ones** is what the positive multiples of `2 ^ w - 1` fold to. -/
theorem wrap_eq_ones_iff (hw : 0 < w) (n : Nat) : wrap w n = 2 ^ w - 1 ↔ 0 < n ∧ (2 ^ w - 1) ∣ n := by
  have hpow := one_lt_two_pow hw
  obtain ⟨m, hm⟩ : ∃ m, 2 ^ w - 1 = m + 1 := ⟨2 ^ w - 2, by omega⟩
  rw [hm]
  by_cases hn : n = 0
  · rw [hn, wrap_zero]
    constructor
    · intro h
      omega
    · rintro ⟨h, -⟩
      omega
  · rw [wrap_pos hn, hm]
    obtain ⟨k, rfl⟩ : ∃ k, n = k + 1 := ⟨n - 1, by omega⟩
    rw [Nat.add_sub_cancel]
    have hsplit := Nat.mod_add_div k (m + 1)
    constructor
    · intro h
      refine ⟨by omega, k / (m + 1) + 1, ?_⟩
      rw [Nat.mul_add, Nat.mul_one]
      omega
    · rintro ⟨-, q, hq⟩
      -- one less than a multiple leaves the largest rest
      obtain ⟨p, rfl⟩ : ∃ p, q = p + 1 := by
        cases q with
        | zero => omega
        | succ p => exact ⟨p, rfl⟩
      have hk : k = m + (m + 1) * p := by
        rw [Nat.mul_add, Nat.mul_one] at hq
        omega
      rw [hk, Nat.add_mul_mod_self_left, Nat.mod_eq_of_lt (Nat.lt_succ_self m)]

end Hw.OnesComplement
