import RegisterMachine.Proofs.Double.Format
import RegisterMachine.Proofs.Double.Decimal

/-! # Reading doubles that were written

The text of a double is read as that double. For finite numbers this is because the numeral that is
written was chosen for reading back, and one such numeral always exists: every finite double is a
multiple of a power of ten. Not-a-number loses its sign and its fraction.

* `Double.ofCode_code` — a double as its sign and its code.
* `Decimal.toDouble_grid` — a decimal that reads back, on the finest grid.
* `Decimal.toDouble_shortest` — the shortest decimal reads back.
* `Double.quieted` — one not-a-number for all.
* `Double.parse?_toText` — reading the text of a double.
-/

namespace RegisterMachine

open BinaryFormat

namespace Double

variable {x : Double}

/-! ## Patterns -/

/-- A double has the pattern that its sign and its code make. -/
theorem ofCode_code (x : Double) : ofCode x.isNegative x.code = x := by
  obtain ⟨bits⟩ := x
  have hlt := bits.isLt
  simp only [ofCode, isNegative, code, BitVec.msb_eq_decide, Double.mk.injEq]
  refine BitVec.eq_of_toNat_eq ?_
  by_cases h : 2 ^ 63 ≤ bits.toNat
  · simp only [h, decide_true, if_true, BitVec.toNat_ofNat]
    omega
  · simp only [h, decide_false, Bool.false_eq_true, if_false, BitVec.toNat_ofNat]
    omega

/-- A double is not-a-number, an infinity or finite. -/
theorem code_cases (x : Double) :
    x.isNaN = true ∨ x.code = binary64.infinity ∨ x.code < binary64.infinity := by
  rcases Nat.lt_trichotomy x.code binary64.infinity with h | h | h
  · exact .inr (.inr h)
  · exact .inr (.inl h)
  · exact .inl (by simpa [isNaN] using h)

/-- Finite doubles have the codes below that of infinity. -/
theorem isFinite_iff : x.isFinite = true ↔ x.code < binary64.infinity := decide_eq_true_iff

/-- A finite double is a number. -/
theorem isNaN_of_isFinite (h : x.isFinite = true) : x.isNaN = false :=
  decide_eq_false (Nat.lt_asymm (isFinite_iff.1 h))

end Double

namespace Decimal

/-! ## The finest grid -/

/-- A power of two is a multiple of the power of ten of the same negative exponent. -/
theorem two_zpow_mul_ten_pow {k : ℤ} {j : ℕ} (h : -(j : ℤ) ≤ k) :
    (2 : ℚ) ^ k * (10 : ℚ) ^ j = ((2 ^ (k + j).toNat * 5 ^ j : ℕ) : ℚ) := by
  have hten : (10 : ℚ) ^ j = (2 : ℚ) ^ (j : ℤ) * (5 : ℚ) ^ j := by
    rw [zpow_natCast, ← mul_pow]
    norm_num
  have htwo : (2 : ℚ) ^ (k + j) = (2 : ℚ) ^ (k + j).toNat := by
    rw [← zpow_natCast, Int.toNat_of_nonneg (by omega)]
  rw [hten, ← mul_assoc, ← zpow_add₀ two_ne_zero, htwo]
  push_cast
  rfl

/-- A value that lies on a grid is the nearest numeral of the grid. -/
theorem neighbours_of_natCast {q : ℚ} {e : ℤ} {n : ℕ} (h : q * scaleTen 1 (-e) = n) :
    neighbours q e = [⟨n, e⟩, ⟨n + 1, e⟩] := by
  simp [neighbours, h, Nat.mod_one]

/-- A decimal whose leading digit counts no power of ten that is out of range is converted by
rounding. -/
theorem toDouble_of_range {d : Decimal} {negative : Bool} {k l : ℕ} (hk : 0 < k) (hl : 0 < l)
    (hlo : 10 ^ k ≤ d.significand) (hhi : d.significand < 10 ^ l) (hlow : -330 ≤ k + d.exponent)
    (hhigh : l + d.exponent ≤ 310) : d.toDouble negative = .ofMagnitude negative d.value := by
  have hlength : k < d.length := by
    apply Nat.lt_of_not_le
    intro hle
    exact Nat.not_lt.2 hlo ((Nat.length_toDigits_le_iff (by decide) hk).1 hle)
  have hlength' : d.length ≤ l := (Nat.length_toDigits_le_iff (by decide) hl).2 hhi
  have hpos : d.significand ≠ 0 := (lt_of_lt_of_le (Nat.pow_pos (by decide)) hlo).ne'
  rw [toDouble, if_neg hpos, if_neg (by omega), if_neg (by omega)]

/-- A product of positive numbers lies between its last factor and the product of bounds of all
factors. -/
theorem mul_mul_bounds {n p f bound top : ℕ} (hn : 0 < n) (hbound : n < bound) (hp : 0 < p)
    (htop : p ≤ top) (hf : 0 < f) : f ≤ n * (p * f) ∧ n * (p * f) < bound * (top * f) := by
  refine ⟨(Nat.le_mul_of_pos_left f hp).trans (Nat.le_mul_of_pos_left _ hn), ?_⟩
  calc n * (p * f) < bound * (p * f) := Nat.mul_lt_mul_of_pos_right hbound (Nat.mul_pos hp hf)
    _ ≤ bound * (top * f) := Nat.mul_le_mul_left _ (Nat.mul_le_mul_right _ htop)

/-- Every finite double but zero is a multiple of the finest power of ten, within the range of
decimals that are converted by rounding. -/
theorem exists_grid_multiple {x : Double} (hfinite : x.code < binary64.infinity)
    (hzero : x.code ≠ 0) :
    ∃ m : ℕ, x.magnitude * (10 : ℚ) ^ 1074 = m ∧ 10 ^ 744 ≤ m ∧ m < 10 ^ 1384 := by
  obtain ⟨n, k, hunit, hvalue, hcode⟩ := binary64.exists_count x.code
  have hmin : binary64.minExponent = -1074 := by decide
  have hfraction : binary64.fractionBits = 52 := rfl
  have hinfinity : binary64.infinity = 2047 * 2 ^ 52 := by decide
  have hlt : n < 2 ^ 53 := hunit.lt
  have hle := hunit.le
  have hnormal := hunit.normal
  rw [hmin, hfraction, Nat.shiftLeft_eq] at hcode
  rw [hmin] at hle hnormal
  rw [hfraction] at hnormal
  -- The count is not zero, as the code would be zero as well.
  have hn : 0 < n := by
    refine Nat.pos_of_ne_zero fun hn => hzero ?_
    rw [hcode, hn]
    omega
  -- The code is below that of infinity, and this bounds the unit of the count from above.
  set j := (k + (1074 : ℕ)).toNat with hj
  have hjle : j ≤ 2046 := by omega
  have hmultiple := two_zpow_mul_ten_pow (k := k) (j := 1074) (by omega)
  rw [← hj] at hmultiple
  have hpow : 2 ^ j ≤ 2 ^ 2046 := pow_le_pow_right₀ one_le_two hjle
  obtain ⟨hlo, hhi⟩ := mul_mul_bounds hn hlt (Nat.two_pow_pos j) hpow
    (by decide +kernel : 0 < 5 ^ 1074)
  have hfive : 10 ^ 744 ≤ 5 ^ 1074 := by decide +kernel
  have hten : 2 ^ 53 * (2 ^ 2046 * 5 ^ 1074) ≤ 10 ^ 1384 := by decide +kernel
  refine ⟨n * (2 ^ j * 5 ^ 1074), ?_, hfive.trans hlo, hhi.trans_le hten⟩
  rw [Double.magnitude, hvalue, mul_assoc, hmultiple, ← Nat.cast_mul]

/-- Every finite double but zero lies on the finest grid, and its numeral there reads back. -/
theorem toDouble_grid {x : Double} (hfinite : x.code < binary64.infinity) (hzero : x.code ≠ 0) :
    ∃ m : ℕ, x.magnitude * scaleTen 1 (-(-1074)) = m ∧ toDouble x.isNegative ⟨m, -1074⟩ = x := by
  obtain ⟨m, hm, hlo, hhi⟩ := exists_grid_multiple hfinite hzero
  have hscale : scaleTen 1 (-(-1074)) = (10 : ℚ) ^ 1074 := by
    rw [scaleTen_eq, neg_neg, Nat.cast_one, one_mul]
    rfl
  have hvalue : value ⟨m, -1074⟩ = binary64.value x.code := by
    have hpos : (10 : ℚ) ^ 1074 ≠ 0 := pow_ne_zero _ (by decide)
    have hneg : (10 : ℚ) ^ (-1074 : ℤ) = ((10 : ℚ) ^ 1074)⁻¹ := by
      rw [zpow_neg]
      rfl
    rw [value, scaleTen_eq, ← hm, hneg, mul_assoc, mul_inv_cancel₀ hpos, mul_one]
    rfl
  refine ⟨m, by rw [hscale, hm], ?_⟩
  have hrange : toDouble x.isNegative ⟨m, -1074⟩ = .ofMagnitude x.isNegative (value ⟨m, -1074⟩) :=
    toDouble_of_range (by decide) (by decide) hlo hhi (by norm_num) (by norm_num)
  rw [hrange, Double.ofMagnitude, hvalue, round_value hfinite, Double.ofCode_code]

/-! ## The shortest decimal -/

/-- A decimal that reads back as a double other than zero has digits. -/
theorem significand_pos_of_toDouble {d : Decimal} {x : Double}
    (h : d.toDouble x.isNegative = x) (hzero : x.code ≠ 0) : 0 < d.significand := by
  refine Nat.pos_of_ne_zero fun hd => hzero ?_
  rw [toDouble, if_pos hd] at h
  rw [← h]
  cases x.isNegative <;> decide

/-- The shortest decimal of a finite double other than zero reads back. -/
theorem toDouble_shortest {x : Double} (hfinite : x.code < binary64.infinity)
    (hzero : x.code ≠ 0) : (shortest x).toDouble x.isNegative = x := by
  simp only [shortest]
  split
  · -- A decimal that was found on a grid has been tried.
    rename_i d hhit
    obtain ⟨e, -, hfind⟩ := List.exists_of_findSome?_eq_some hhit
    rw [toDouble_trim]
    simpa using List.find?_some hfind
  · -- The finest grid is the last one that is tried.
    rename_i hnone
    obtain ⟨m, hm, hread⟩ := toDouble_grid hfinite hzero
    have hgrid : -1074 ∈ grids (floorLogTen x.magnitude) := by simp [grids]
    have hfind := List.findSome?_eq_none_iff.1 hnone _ hgrid
    rw [neighbours_of_natCast hm, List.find?_eq_none] at hfind
    exact absurd (decide_eq_true hread) (hfind _ (List.mem_cons_self ..))

end Decimal

namespace Double

variable {x : Double}

/-! ## The text of finite doubles -/

/-- The magnitude of a finite double is written as a numeral. -/
theorem isNumeral_magnitudeText (h : x.code < binary64.infinity) :
    Decimal.IsNumeral x.magnitudeText := by
  have hinfinite : x.isInfinite = false := by simpa [isInfinite] using h.ne
  rw [magnitudeText, hinfinite, if_neg (by decide)]
  split
  · exact ⟨⟨'0', rfl, rfl⟩, ⟨'.', by simp, .inl rfl⟩, by simp⟩
  · exact Decimal.isNumeral_layout _

/-- The magnitude of a finite double reads back. -/
theorem parse?_magnitudeText (h : x.code < binary64.infinity) :
    (Decimal.parse? x.magnitudeText).map (Decimal.toDouble x.isNegative) = some x := by
  have hinfinite : x.isInfinite = false := by simpa [isInfinite] using h.ne
  rw [magnitudeText, hinfinite, if_neg (by decide)]
  by_cases hzero : x.code = 0
  · have hparse : Decimal.parse? ['0', '.', '0'] = some ⟨0, -1⟩ := by decide
    rw [if_pos hzero, hparse, Option.map_some, Decimal.toDouble, if_pos rfl, ← hzero, ofCode_code]
  · have hread := Decimal.toDouble_shortest h hzero
    have hpos := Decimal.significand_pos_of_toDouble hread hzero
    rw [if_neg hzero, Decimal.parse?_layout hpos, hread]

/-- A digit is no capital letter. -/
theorem toLower_of_isDigit {c : Char} (h : c.isDigit = true) : c.toLower = c := by
  have hle : c.val ≤ 57 := by
    simp only [Char.isDigit, Bool.and_eq_true, decide_eq_true_eq] at h
    exact h.2
  refine dif_neg ?_
  intro hc
  exact absurd (UInt32.le_trans hc.1 hle) (by decide)

/-- A numeral is no word for a number that is not finite, so it is read as a decimal. -/
theorem parse?_of_isNumeral {cs : List Char} (h : Decimal.IsNumeral cs) (negative : Bool) :
    parse? (String.ofList (if negative then '-' :: cs else cs)) =
      (Decimal.parse? cs).map (Decimal.toDouble negative) := by
  have hsplit := h.splitSign_eq negative
  obtain ⟨c, cs', rfl, hc⟩ := h.exists_cons
  have hfirst : ∀ w : String, foldCase (String.ofList (c :: cs')) = w →
      w.toList.head?.map Char.isDigit = some true := by
    rintro w rfl
    simp [toLower_of_isDigit hc, hc]
  rw [parse?, String.toList_ofList, hsplit]
  dsimp only
  -- None of the words for an infinity or for not-a-number begins with a digit.
  split
  · rename_i hw
    exact absurd (hfirst _ hw) (by decide)
  · rename_i hw
    exact absurd (hfirst _ hw) (by decide)
  · rename_i hw
    exact absurd (hfirst _ hw) (by decide)
  · rfl

/-! ## The text of all doubles -/

/-- The double, but one not-a-number for all of them. -/
def quieted (x : Double) : Double := if x.isNaN then ofCode false binary64.quietNaN else x

/-- A number is its own quieted double. -/
theorem quieted_of_not_isNaN (h : x.isNaN = false) : x.quieted = x := by
  rw [quieted, h, if_neg (by decide)]

/-- A finite double is its own quieted double. -/
theorem quieted_of_isFinite (h : x.isFinite = true) : x.quieted = x :=
  quieted_of_not_isNaN (isNaN_of_isFinite h)

/-- The quieted not-a-number. -/
theorem quieted_of_isNaN (h : x.isNaN = true) : x.quieted = ofCode false binary64.quietNaN := by
  rw [quieted, if_pos h]

/-- Quieting changes nothing the second time. -/
@[simp] theorem quieted_quieted (x : Double) : x.quieted.quieted = x.quieted := by
  cases h : x.isNaN with
  | true =>
    rw [quieted_of_isNaN h]
    decide
  | false => rw [quieted_of_not_isNaN h, quieted_of_not_isNaN h]

/-- Quieting does not change the text. -/
@[simp] theorem toText_quieted (x : Double) : x.quieted.toText = x.toText := by
  cases h : x.isNaN with
  | true =>
    rw [quieted_of_isNaN h, toText, if_pos (by decide), toText, if_pos h]
  | false => rw [quieted_of_not_isNaN h]

/-- Quieting does not change which doubles are finite. -/
@[simp] theorem isFinite_quieted (x : Double) : x.quieted.isFinite = x.isFinite := by
  cases h : x.isNaN with
  | true =>
    have hle : ¬ x.code < binary64.infinity := by
      have : binary64.infinity < x.code := by simpa [isNaN] using h
      omega
    have hfinite : x.isFinite = false := decide_eq_false hle
    rw [quieted_of_isNaN h, hfinite]
    decide
  | false => rw [quieted_of_not_isNaN h]

/-- The text of a double is read as that double, but for the sign and the fraction of
not-a-number. -/
theorem parse?_toText (x : Double) : parse? x.toText = some x.quieted := by
  rcases x.code_cases with h | h | h
  · rw [quieted_of_isNaN h, toText, if_pos h]
    decide
  · -- There are only two infinities.
    have hnumber : x.isNaN = false := by simp [isNaN, h]
    have hinfinite : x.isInfinite = true := by simp [isInfinite, h]
    have hx := x.ofCode_code
    rw [h] at hx
    have hword : ∀ b : Bool, parse? (String.ofList (if b then '-' :: ['i', 'n', 'f']
        else ['i', 'n', 'f'])) = some (ofCode b binary64.infinity) := by
      decide
    rw [quieted_of_not_isNaN hnumber, toText, hnumber, if_neg (by decide), magnitudeText, hinfinite,
      if_pos rfl, hword, hx]
  · have hnumber : x.isNaN = false := by simpa [isNaN] using h.le
    rw [quieted_of_not_isNaN hnumber, toText, hnumber, if_neg (by decide),
      parse?_of_isNumeral (isNumeral_magnitudeText h), parse?_magnitudeText h]

end Double

end RegisterMachine
