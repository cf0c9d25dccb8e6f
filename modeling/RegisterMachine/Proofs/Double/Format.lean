import RegisterMachine.Double.Format
import Mathlib.Algebra.Order.Field.Power
import Mathlib.Algebra.Order.Field.Rat
import Mathlib.Data.Rat.Lemmas
import Mathlib.Tactic.Linarith
import Mathlib.Tactic.Positivity
import Mathlib.Tactic.FieldSimp
import Mathlib.Tactic.Ring

/-! # Rounding of representable numbers

Every finite code stands for a count of units, the unit being a power of two that the exponent field
gives. Rounding finds unit and count again, so it maps the value of a code to the code.

* `scaleTwo_eq` — scaling by a power of two is multiplication by it.
* `floorLogTwo_eq` — the binary exponent of a rational is the only one between whose powers it lies.
* `BinaryFormat.exists_count` — a finite code as a count of units.
* `BinaryFormat.round_value` — rounding the value of a code.
-/

namespace RegisterMachine

/-! ## Powers of two -/

/-- Scaling by a power of two is multiplication by it. -/
theorem scaleTwo_eq (n : Nat) (k : Int) : scaleTwo n k = (n : ℚ) * (2 : ℚ) ^ k := by
  cases k with
  | ofNat k => simp [scaleTwo, Nat.shiftLeft_eq]
  | negSucc k =>
    rw [scaleTwo, Rat.mkRat_eq_div, zpow_negSucc, Nat.shiftLeft_eq, div_eq_mul_inv]
    push_cast
    rw [one_mul]

/-- A positive natural number lies between the powers of two of its binary exponent. -/
theorem two_zpow_log2 {n : Nat} (hn : 0 < n) :
    (2 : ℚ) ^ (n.log2 : ℤ) ≤ n ∧ (n : ℚ) < (2 : ℚ) ^ ((n.log2 : ℤ) + 1) := by
  constructor
  · rw [zpow_natCast]
    exact_mod_cast Nat.log2_self_le hn.ne'
  · rw [← Nat.cast_succ, zpow_natCast]
    exact_mod_cast @Nat.lt_log2_self n

/-- A positive rational lies between the powers of two of its binary exponent. -/
theorem floorLogTwo_spec {q : ℚ} (hq : 0 < q) :
    (2 : ℚ) ^ floorLogTwo q ≤ q ∧ q < (2 : ℚ) ^ (floorLogTwo q + 1) := by
  have hnum : 0 < q.num.toNat := by
    have := Rat.num_pos.2 hq
    omega
  have hq' : q = (q.num.toNat : ℚ) / (q.den : ℚ) := by
    have hcast : ((q.num.toNat : ℤ) : ℚ) = (q.num : ℚ) := by
      rw [Int.toNat_of_nonneg (Rat.num_pos.2 hq).le]
    rw [Int.cast_natCast] at hcast
    rw [hcast, Rat.num_div_den]
  obtain ⟨hnlo, hnhi⟩ := two_zpow_log2 hnum
  obtain ⟨hdlo, hdhi⟩ := two_zpow_log2 q.den_pos
  have hden : (0 : ℚ) < q.den := by exact_mod_cast q.den_pos
  set k : ℤ := (q.num.toNat.log2 : ℤ) - (q.den.log2 : ℤ) with hk
  -- The quotient of the two numbers is within one binary exponent of the difference of theirs.
  have hlo : (2 : ℚ) ^ (k - 1) ≤ q := by
    rw [hq', le_div_iff₀ hden]
    calc (2 : ℚ) ^ (k - 1) * q.den ≤ (2 : ℚ) ^ (k - 1) * (2 : ℚ) ^ ((q.den.log2 : ℤ) + 1) := by
          gcongr
      _ = (2 : ℚ) ^ (q.num.toNat.log2 : ℤ) := by
          rw [← zpow_add₀ two_ne_zero]
          congr 1
          omega
      _ ≤ _ := hnlo
  have hhi : q < (2 : ℚ) ^ (k + 1) := by
    rw [hq', div_lt_iff₀ hden]
    calc (q.num.toNat : ℚ) < (2 : ℚ) ^ ((q.num.toNat.log2 : ℤ) + 1) := hnhi
      _ = (2 : ℚ) ^ (k + 1) * (2 : ℚ) ^ (q.den.log2 : ℤ) := by
          rw [← zpow_add₀ two_ne_zero]
          congr 1
          omega
      _ ≤ _ := by gcongr
  simp only [floorLogTwo, scaleTwo_eq, Nat.cast_one, one_mul, ← hk]
  by_cases hlt : q < (2 : ℚ) ^ k
  · rw [if_pos hlt, sub_add_cancel]
    exact ⟨hlo, hlt⟩
  · rw [if_neg hlt]
    exact ⟨not_lt.1 hlt, hhi⟩

/-- There is only one exponent between whose powers of two a rational lies. -/
theorem floorLogTwo_eq {q : ℚ} {k : ℤ} (hlo : (2 : ℚ) ^ k ≤ q) (hhi : q < (2 : ℚ) ^ (k + 1)) :
    floorLogTwo q = k := by
  -- Either exponent is below the successor of the other.
  obtain ⟨hlo', hhi'⟩ := floorLogTwo_spec (lt_of_lt_of_le (by positivity) hlo)
  have h₁ := (zpow_lt_zpow_iff_right₀ (one_lt_two (α := ℚ))).1 (lt_of_le_of_lt hlo hhi')
  have h₂ := (zpow_lt_zpow_iff_right₀ (one_lt_two (α := ℚ))).1 (lt_of_le_of_lt hlo' hhi)
  omega

/-- The binary exponent of a count of units. -/
theorem floorLogTwo_natCast_mul {n : Nat} (hn : 0 < n) (k : ℤ) :
    floorLogTwo ((n : ℚ) * (2 : ℚ) ^ k) = n.log2 + k := by
  obtain ⟨hlo, hhi⟩ := two_zpow_log2 hn
  have hpos : (0 : ℚ) < (2 : ℚ) ^ k := by positivity
  refine floorLogTwo_eq ?_ ?_
  · rw [zpow_add₀ two_ne_zero]
    exact mul_le_mul_of_nonneg_right hlo hpos.le
  · rw [add_right_comm, zpow_add₀ two_ne_zero]
    exact mul_lt_mul_of_pos_right hhi hpos

/-- A natural number is the nearest one to itself. -/
theorem nearestEven_natCast (n : Nat) : nearestEven (n : ℚ) = n := by
  simp [nearestEven, Nat.mod_one]

/-! ## Codes as counts of units -/

namespace BinaryFormat

variable {f : BinaryFormat} {n code : Nat} {k : ℤ}

/-- The unit of a count is neither below the unit of subnormal numbers, nor finer than the count
needs. -/
structure IsUnit (f : BinaryFormat) (n : Nat) (k : ℤ) : Prop where
  /-- A count has one bit more than the fraction at most. -/
  lt : n < 2 ^ (f.fractionBits + 1)
  /-- There is no finer unit than that of subnormal numbers. -/
  le : f.minExponent ≤ k
  /-- A count of coarser units has a bit more than the fraction. -/
  normal : k = f.minExponent ∨ 2 ^ f.fractionBits ≤ n

/-- A count of its proper units is rounded to itself, in the binade of the unit. -/
theorem IsUnit.round_eq (h : f.IsUnit n k) :
    f.round ((n : ℚ) * (2 : ℚ) ^ k) =
      min ((k - f.minExponent).toNat <<< f.fractionBits + n) f.infinity := by
  have hpos : (0 : ℚ) < (2 : ℚ) ^ k := by positivity
  rcases Nat.eq_zero_or_pos n with rfl | hn
  · -- Only subnormal numbers are counted by zero.
    have hk : k = f.minExponent := by
      apply h.normal.resolve_right
      intro hle
      have := Nat.two_pow_pos f.fractionBits
      omega
    simp [round, hk]
  · have hq : ¬ (n : ℚ) * (2 : ℚ) ^ k ≤ 0 := not_le.2 (by positivity)
    have hlog : n.log2 ≤ f.fractionBits := Nat.lt_succ_iff.1 ((Nat.log2_lt hn.ne').2 h.lt)
    -- Rounding counts in the same unit.
    have hunit : max (floorLogTwo ((n : ℚ) * (2 : ℚ) ^ k) - f.fractionBits) f.minExponent = k := by
      rw [floorLogTwo_natCast_mul hn]
      rcases h.normal with hk | hle
      · omega
      · have := (Nat.le_log2 hn.ne').2 hle
        have := h.le
        omega
    have hcount : (n : ℚ) * (2 : ℚ) ^ k * scaleTwo 1 (-k) = (n : ℚ) := by
      rw [scaleTwo_eq, zpow_neg, Nat.cast_one, one_mul, mul_assoc, mul_inv_cancel₀ hpos.ne',
        mul_one]
    simp only [round, if_neg hq, hunit, hcount, nearestEven_natCast]

/-- A code is a count of units: the exponent field gives the unit, and the fraction field and the
implicit bit the count. -/
theorem exists_count (f : BinaryFormat) (code : Nat) :
    ∃ n k, f.IsUnit n k ∧ f.value code = (n : ℚ) * (2 : ℚ) ^ k ∧
      code = (k - f.minExponent).toNat <<< f.fractionBits + n := by
  have hsplit := Nat.div_add_mod' code (2 ^ f.fractionBits)
  have hfraction := Nat.mod_lt code (Nat.two_pow_pos f.fractionBits)
  rw [← Nat.shiftRight_eq_div_pow] at hsplit
  have hpow : 2 ^ (f.fractionBits + 1) = 2 ^ f.fractionBits * 2 := Nat.pow_succ ..
  simp only [value, scaleTwo_eq, Nat.shiftLeft_eq, one_mul]
  cases he : code >>> f.fractionBits with
  | zero =>
    -- A subnormal number is its fraction.
    rw [he, Nat.zero_mul, Nat.zero_add] at hsplit
    refine ⟨code % 2 ^ f.fractionBits, f.minExponent, ⟨by omega, le_refl _, .inl rfl⟩, rfl, ?_⟩
    rw [sub_self, Int.toNat_zero, Nat.zero_mul, Nat.zero_add, hsplit]
  | succ e =>
    -- A normal number has one bit more than its fraction.
    rw [he] at hsplit
    refine ⟨2 ^ f.fractionBits + code % 2 ^ f.fractionBits, f.minExponent + e,
      ⟨by omega, by omega, .inr (Nat.le_add_right ..)⟩, rfl, ?_⟩
    rw [add_sub_cancel_left, Int.toNat_natCast, ← Nat.add_assoc, ← Nat.succ_mul, hsplit]

/-- Rounding the value of a finite code gives the code. -/
theorem round_value (h : code < f.infinity) : f.round (f.value code) = code := by
  obtain ⟨n, k, hunit, hvalue, hcode⟩ := f.exists_count code
  rw [hvalue, hunit.round_eq, ← hcode, Nat.min_eq_left h.le]

end BinaryFormat

end RegisterMachine
