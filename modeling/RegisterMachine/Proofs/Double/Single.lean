import RegisterMachine.Proofs.Double.RoundTrip

/-! # Single precision within double precision

Every number of single precision is one of double precision: its count of units, shifted up to the
53 bits of the wider format, is a count of units there, and neither the unit nor the code is out of
range. So widening a single-precision pattern is exact, and narrowing the result gives the pattern
back. Not-a-number is different, since widening makes it quiet.

* `BinaryFormat.IsUnit.value_eq` — the code of a count of units.
* `BinaryFormat.exists_value_binary64` — the value of a single-precision code as that of another.
* `Double.code_ofCode`, `Double.isNegative_ofCode` — the code and the sign of a double.
* `Double.ofSingle_cases` — what single-precision patterns are widened to.
* `Double.toSingle_ofSingle` — narrowing what has been widened.
-/

namespace RegisterMachine

namespace BinaryFormat

variable {f : BinaryFormat} {n code : Nat} {k : ℤ}

/-- A count of its proper units is the value of the code that has the unit in its exponent field and
the count, less the implicit bit, in its fraction field. -/
theorem IsUnit.value_eq (h : f.IsUnit n k) :
    f.value ((k - f.minExponent).toNat <<< f.fractionBits + n) = (n : ℚ) * (2 : ℚ) ^ k := by
  have hpos := Nat.two_pow_pos f.fractionBits
  simp only [value, scaleTwo_eq, Nat.shiftLeft_eq, Nat.shiftRight_eq_div_pow, one_mul]
  by_cases hn : n < 2 ^ f.fractionBits
  · -- A count with fewer bits is that of a subnormal number.
    have hk : k = f.minExponent := h.normal.resolve_right (Nat.not_le.2 hn)
    rw [hk, sub_self, Int.toNat_zero, Nat.zero_mul, Nat.zero_add, Nat.div_eq_of_lt hn,
      Nat.mod_eq_of_lt hn]
  · obtain ⟨fraction, rfl⟩ := Nat.exists_eq_add_of_le (Nat.not_lt.1 hn)
    have hfraction : fraction < 2 ^ f.fractionBits := by
      have hlt := h.lt
      rw [Nat.pow_succ] at hlt
      omega
    have hcode : (k - f.minExponent).toNat * 2 ^ f.fractionBits + (2 ^ f.fractionBits + fraction) =
        fraction + ((k - f.minExponent).toNat + 1) * 2 ^ f.fractionBits := by
      rw [Nat.add_one_mul]
      omega
    have hk : f.minExponent + ((k - f.minExponent).toNat : ℤ) = k := by
      have hle := h.le
      omega
    rw [hcode, Nat.add_mul_div_right _ _ hpos, Nat.add_mul_mod_self_right,
      Nat.div_eq_of_lt hfraction, Nat.mod_eq_of_lt hfraction, Nat.zero_add]
    simp only [hk]

/-- A positive number is shifted up to a number of bits that it does not exceed. -/
theorem shift_bounds (hn : 0 < n) {b : Nat} (hb : n.log2 ≤ b) :
    2 ^ b ≤ n * 2 ^ (b - n.log2) ∧ n * 2 ^ (b - n.log2) < 2 ^ (b + 1) := by
  have hpow : 2 ^ n.log2 * 2 ^ (b - n.log2) = 2 ^ b := by
    rw [← Nat.pow_add, Nat.add_sub_cancel' hb]
  constructor
  · rw [← hpow]
    exact Nat.mul_le_mul_right _ (Nat.log2_self_le hn.ne')
  · rw [Nat.pow_succ, ← hpow, Nat.mul_right_comm, ← Nat.pow_succ]
    exact Nat.mul_lt_mul_of_pos_right Nat.lt_log2_self (Nat.two_pow_pos _)

/-- The value of a finite code of single precision is that of one of double precision. -/
theorem exists_value_binary64 (h : code < binary32.infinity) :
    ∃ code' < binary64.infinity, binary64.value code' = binary32.value code := by
  obtain ⟨n, k, hunit, hvalue, hcode⟩ := binary32.exists_count code
  have hmin : binary32.minExponent = -149 := by decide
  have hmin' : binary64.minExponent = -1074 := by decide
  have hinfinity : binary32.infinity = 255 * 2 ^ 23 := by decide
  have hinfinity' : binary64.infinity = 2047 * 2 ^ 52 := by decide
  have hlt : n < 2 ^ 24 := hunit.lt
  have hle := hunit.le
  rw [hmin] at hle
  rw [hmin, show binary32.fractionBits = 23 from rfl, Nat.shiftLeft_eq] at hcode
  rcases Nat.eq_zero_or_pos n with rfl | hn
  · refine ⟨0, by rw [hinfinity']; decide, ?_⟩
    rw [hvalue]
    simp [value, scaleTwo_eq]
  · -- Shifted up the count has 53 bits, and the unit is finer by as many powers of two.
    set j := 52 - n.log2 with hj
    have hlog : n.log2 < 24 := (Nat.log2_lt hn.ne').2 hlt
    have hbits : 2 ^ 52 ≤ n * 2 ^ j ∧ n * 2 ^ j < 2 ^ 53 := shift_bounds hn (by omega)
    have hunit' : binary64.IsUnit (n * 2 ^ j) (k - j) :=
      ⟨hbits.2, by rw [hmin']; omega, .inr hbits.1⟩
    refine ⟨_, ?_, hunit'.value_eq.trans ?_⟩
    · rw [hmin', show binary64.fractionBits = 52 from rfl, Nat.shiftLeft_eq, hinfinity']
      omega
    · rw [hvalue, Nat.cast_mul, Nat.cast_pow, Nat.cast_ofNat, mul_assoc, ← zpow_natCast,
        ← zpow_add₀ two_ne_zero, add_sub_cancel]

end BinaryFormat

namespace Double

open BinaryFormat

variable {w : BitVec 32} {negative : Bool} {c : Nat}

/-! ## Signs and codes -/

/-- A double that is made of a sign and a code has this code. -/
theorem code_ofCode (h : c < 2 ^ 63) : (ofCode negative c).code = c := by
  cases negative with
  | false =>
    simp only [code, ofCode, Bool.false_eq_true, if_false, BitVec.toNat_ofNat]
    omega
  | true =>
    simp only [code, ofCode, if_true, BitVec.toNat_ofNat]
    omega

/-- A double that is made of a sign and a code has this sign. -/
theorem isNegative_ofCode (h : c < 2 ^ 63) : (ofCode negative c).isNegative = negative := by
  rw [isNegative, BitVec.msb_eq_decide]
  cases negative with
  | false =>
    simp only [ofCode, Bool.false_eq_true, if_false, BitVec.toNat_ofNat, decide_eq_false_iff_not]
    omega
  | true =>
    simp only [ofCode, if_true, BitVec.toNat_ofNat, decide_eq_true_eq]
    omega

/-- A single-precision pattern is the one that its sign and its code make. -/
theorem singleOfCode_code (w : BitVec 32) :
    singleOfCode w.msb (w.toNat % 2147483648) = w := by
  have hlt := w.isLt
  simp only [singleOfCode, BitVec.msb_eq_decide]
  refine BitVec.eq_of_toNat_eq ?_
  by_cases h : 2 ^ 31 ≤ w.toNat
  · simp only [h, decide_true, if_true, BitVec.toNat_ofNat]
    omega
  · simp only [h, decide_false, Bool.false_eq_true, if_false, BitVec.toNat_ofNat]
    omega

/-! ## Widening and narrowing -/

/-- The code of the double to which not-a-number of single precision is widened is above infinity,
and it leaves the sign alone. -/
theorem nan_bounds (hlt : c < 2 ^ 31) :
    binary64.infinity < binary64.quietNaN ||| ((c - binary32.infinity) <<< 29) ∧
      binary64.quietNaN ||| ((c - binary32.infinity) <<< 29) < 2 ^ 63 := by
  have hinfinity : binary32.infinity = 2139095040 := by decide
  constructor
  · exact Nat.lt_of_lt_of_le (by decide) Nat.left_le_or
  · refine Nat.or_lt_two_pow (by decide) ?_
    rw [Nat.shiftLeft_eq]
    omega

/-- A single-precision pattern is widened to not-a-number, to an infinity of its sign or to the
finite double of its sign and its value. -/
theorem ofSingle_cases (w : BitVec 32) :
    (binary32.infinity < w.toNat % 2147483648 ∧ (ofSingle w).isNaN = true) ∨
    (w.toNat % 2147483648 = binary32.infinity ∧ ofSingle w = ofCode w.msb binary64.infinity) ∨
    w.toNat % 2147483648 < binary32.infinity ∧ ∃ code < binary64.infinity,
      binary64.value code = binary32.value (w.toNat % 2147483648) ∧
        ofSingle w = ofCode w.msb code := by
  rcases Nat.lt_trichotomy (w.toNat % 2147483648) binary32.infinity with h | h | h
  · obtain ⟨code, hcode, hvalue⟩ := exists_value_binary64 h
    refine .inr (.inr ⟨h, code, hcode, hvalue, ?_⟩)
    rw [ofSingle, if_neg (Nat.not_lt.2 h.le), if_neg h.ne, ← hvalue, round_value hcode]
  · refine .inr (.inl ⟨h, ?_⟩)
    rw [ofSingle, if_neg (Nat.not_lt.2 h.le), if_pos h]
  · refine .inl ⟨h, ?_⟩
    have hcode : w.toNat % 2147483648 < 2 ^ 31 := Nat.mod_lt _ (by decide)
    obtain ⟨hnan, hlt⟩ := nan_bounds hcode
    rw [ofSingle, if_pos h, isNaN, code_ofCode hlt]
    exact decide_eq_true hnan

/-- Narrowing a number that has been widened gives its pattern back. -/
theorem toSingle_ofSingle (h : (ofSingle w).isNaN = false) : (ofSingle w).toSingle = w := by
  have hbound : binary64.infinity < 2 ^ 63 := by decide
  rcases ofSingle_cases w with ⟨-, hnan⟩ | ⟨hcode, heq⟩ | ⟨hfinite, code, hlt, hvalue, heq⟩
  · rw [h] at hnan
    cases hnan
  · have hinfinite : (ofSingle w).isInfinite = true := by
      rw [heq, isInfinite, code_ofCode hbound, beq_self_eq_true]
    have hsign : (ofSingle w).isNegative = w.msb := by
      rw [heq, isNegative_ofCode hbound]
    rw [toSingle, h, if_neg Bool.false_ne_true, hinfinite, if_pos rfl, hsign, ← hcode,
      singleOfCode_code]
  · -- Neither of the two roundings changes the value.
    have hinfinite : (ofSingle w).isInfinite = false := by
      rw [heq, isInfinite, code_ofCode (hlt.trans hbound), beq_eq_false_iff_ne]
      exact hlt.ne
    have hsign : (ofSingle w).isNegative = w.msb := by
      rw [heq, isNegative_ofCode (hlt.trans hbound)]
    have hmagnitude : (ofSingle w).magnitude = binary32.value (w.toNat % 2147483648) := by
      rw [heq, magnitude, code_ofCode (hlt.trans hbound), hvalue]
    rw [toSingle, h, if_neg Bool.false_ne_true, hinfinite, if_neg Bool.false_ne_true, hsign,
      hmagnitude, round_value hfinite, singleOfCode_code]

/-- Not-a-number that is not quiet is not given back, as it becomes quiet when it is widened. -/
example : (ofSingle 0x7FA00000#32).isNaN = true ∧
    (ofSingle 0x7FA00000#32).toSingle = 0x7FE00000#32 := by
  decide +kernel

end Double

end RegisterMachine
