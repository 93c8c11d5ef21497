import Mathlib

/-!
# Numbers with a scale

A number is coded by a mantissa of a bounded size and the power of a base. Dividing until the
mantissa fits finds the nearest number that has a code: the greatest one below where each division
rounds down, and the least one above where it rounds up.
-/

namespace Sidewalk.Lib.Scaled

variable {b M m k v : ℕ}

/-- The numbers whose mantissa is at most `M`. -/
def Coded (b M v : ℕ) : Prop := ∃ mant ≤ M, ∃ e, v = mant * b ^ e

/-- It takes `k` divisions by `b` to bring `m` down to `M`. -/
structure Takes (div : ℕ → ℕ → ℕ) (b M m k : ℕ) : Prop where
  fits : div m (b ^ k) ≤ M
  first : ∀ j < k, M < div m (b ^ j)

theorem coded_mul_pow (hfits : m ≤ M) : Coded b M (m * b ^ k) := ⟨m, hfits, k, rfl⟩

/-! ## Rounding down -/

theorem Takes.floor_zero (h : m ≤ M) : Takes (· / ·) b M m 0 where
  fits := by simpa using h
  first := by
    intro j hj
    cases hj

theorem Takes.floor_succ (h : M < m) (hnext : Takes (· / ·) b M (m / b) k) :
    Takes (· / ·) b M m (k + 1) where
  fits := by
    have hfits := hnext.fits
    rwa [Nat.div_div_eq_div_mul, ← Nat.pow_succ'] at hfits
  first := by
    intro j hj
    cases j with
    | zero => simpa using h
    | succ j =>
      have hfirst := hnext.first j (by omega)
      rwa [Nat.div_div_eq_div_mul, ← Nat.pow_succ'] at hfirst

/-- A smaller exponent codes less: `M + 1` is a multiple of the base. -/
theorem Takes.greatest (hb : 0 < b) (hM : b ∣ M + 1) (h : Takes (· / ·) b M m k) :
    IsGreatest {v | Coded b M v ∧ v ≤ m} (m / b ^ k * b ^ k) := by
  refine ⟨⟨coded_mul_pow h.fits, Nat.div_mul_le_self m (b ^ k)⟩, ?_⟩
  rintro v ⟨⟨mant, hmant, e, rfl⟩, hle⟩
  obtain hke | hek := le_or_gt k e
  · obtain ⟨d, rfl⟩ := Nat.exists_eq_add_of_le hke
    rw [Nat.pow_add, Nat.mul_comm (b ^ k), ← Nat.mul_assoc] at hle ⊢
    exact Nat.mul_le_mul_right _ ((Nat.le_div_iff_mul_le (pow_pos hb k)).mpr hle)
  · obtain ⟨j, rfl⟩ := Nat.exists_eq_add_of_lt hek
    have hlarge : (M + 1) * b ^ (e + j) ≤ m :=
      (Nat.le_div_iff_mul_le (pow_pos hb _)).mp (h.first (e + j) (by omega))
    obtain ⟨q, hq⟩ := hM
    have hquotient : q ≤ m / b ^ (e + j + 1) := by
      rw [Nat.le_div_iff_mul_le (pow_pos hb _), Nat.pow_succ', ← Nat.mul_assoc, Nat.mul_comm q,
        ← hq]
      exact hlarge
    calc mant * b ^ e
        ≤ (M + 1) * b ^ (e + j) :=
          Nat.mul_le_mul (by omega) (Nat.pow_le_pow_right hb (Nat.le_add_right e j))
      _ = q * b ^ (e + j + 1) := by rw [hq, Nat.pow_succ', ← Nat.mul_assoc, Nat.mul_comm b]
      _ ≤ m / b ^ (e + j + 1) * b ^ (e + j + 1) := Nat.mul_le_mul_right _ hquotient

/-! ## Rounding up -/

/-- One more than the quotient where the division leaves something. -/
theorem ceilDiv_eq_ite (hb : 0 < b) :
    m ⌈/⌉ b = if b * (m / b) < m then m / b + 1 else m / b := by
  have hmod := Nat.div_add_mod m b
  have hlt := Nat.mod_lt m hb
  apply eq_of_forall_ge_iff
  intro c
  rw [ceilDiv_le_iff_le_mul hb]
  split
  · rw [Nat.succ_le_iff, Nat.div_lt_iff_lt_mul hb, Nat.mul_comm c]
    constructor
    · intro hle
      refine lt_of_le_of_ne hle ?_
      rintro rfl
      rw [Nat.mul_div_cancel_left c hb] at *
      omega
    · exact le_of_lt
  · have hexact : b * (m / b) = m := by omega
    nth_rewrite 1 [← hexact]
    exact Nat.mul_le_mul_left_iff hb

theorem ceilDiv_le_self (hb : 0 < b) : m ⌈/⌉ b ≤ m := by
  rw [ceilDiv_le_iff_le_mul hb]
  exact Nat.le_mul_of_pos_left m hb

theorem ceilDiv_ceilDiv (hb : 0 < b) : m ⌈/⌉ b ⌈/⌉ b ^ k = m ⌈/⌉ b ^ (k + 1) := by
  apply eq_of_forall_ge_iff
  intro c
  rw [ceilDiv_le_iff_le_mul (pow_pos hb k), ceilDiv_le_iff_le_mul hb,
    ceilDiv_le_iff_le_mul (pow_pos hb (k + 1)), Nat.pow_succ', Nat.mul_assoc]

theorem Takes.ceil_zero (h : m ≤ M) : Takes (· ⌈/⌉ ·) b M m 0 where
  fits := by simpa using h
  first := by
    intro j hj
    cases hj

theorem Takes.ceil_succ (hb : 0 < b) (h : M < m) (hnext : Takes (· ⌈/⌉ ·) b M (m ⌈/⌉ b) k) :
    Takes (· ⌈/⌉ ·) b M m (k + 1) where
  fits := by
    have hfits := hnext.fits
    rwa [ceilDiv_ceilDiv hb] at hfits
  first := by
    intro j hj
    cases j with
    | zero => simpa using h
    | succ j =>
      have hfirst := hnext.first j (by omega)
      rwa [ceilDiv_ceilDiv hb] at hfirst

theorem Takes.least (hb : 0 < b) (h : Takes (· ⌈/⌉ ·) b M m k) :
    IsLeast {v | Coded b M v ∧ m ≤ v} (m ⌈/⌉ b ^ k * b ^ k) := by
  refine ⟨⟨coded_mul_pow h.fits, ?_⟩, ?_⟩
  · rw [Nat.mul_comm]
    exact (ceilDiv_le_iff_le_mul (pow_pos hb k)).mp le_rfl
  rintro v ⟨⟨mant, hmant, e, rfl⟩, hle⟩
  obtain hke | hek := le_or_gt k e
  · obtain ⟨d, rfl⟩ := Nat.exists_eq_add_of_le hke
    rw [Nat.pow_add, Nat.mul_comm (b ^ k), ← Nat.mul_assoc] at hle ⊢
    apply Nat.mul_le_mul_right
    rw [ceilDiv_le_iff_le_mul (pow_pos hb k), Nat.mul_comm]
    exact hle
  · -- A smaller exponent does not reach `m`.
    have hshort := h.first e hek
    rw [← not_le, ceilDiv_le_iff_le_mul (pow_pos hb e), Nat.mul_comm] at hshort
    exact absurd (hle.trans (Nat.mul_le_mul_right _ hmant)) hshort

end Sidewalk.Lib.Scaled
