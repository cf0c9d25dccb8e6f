import RegisterMachine.Double.Shortest
import Mathlib.Algebra.Order.Field.Power
import Mathlib.Algebra.Order.Field.Rat
import Mathlib.Data.Rat.Lemmas
import Mathlib.Tactic.Ring

/-! # Numerals of decimals

The layout of a decimal is a numeral, and reading it gives a decimal of the same number. It need not
be the same decimal: positional text of a large number adds zeros to the significand. The double
nearest to a decimal does not depend on such zeros.

* `digitsToNat_toDigits`, `toList_toString_int` — digits of natural numbers and text of integers.
* `Decimal.toDouble_mul_pow`, `Decimal.toDouble_trim` — trailing zeros do not matter.
* `Decimal.parse?_fraction`, `Decimal.parse?_whole` — the numerals that are read.
* `Decimal.parse?_layout` — reading a layout.
* `Decimal.IsNumeral`, `Decimal.isNumeral_layout` — the characters of a layout.
-/

namespace RegisterMachine

/-! ## Digits -/

/-- Reading digits is a fold. -/
theorem digitsToNat_eq_ofDigitChars (start : Nat) (cs : List Char) :
    digitsToNat start cs = Nat.ofDigitChars 10 cs start := by
  rw [Nat.ofDigitChars_eq_foldl]
  induction cs generalizing start with
  | nil => rfl
  | cons c cs ih => exact ih _

/-- The digits of a natural number are read as that number. -/
theorem digitsToNat_toDigits (n : Nat) : digitsToNat 0 (Nat.toDigits 10 n) = n := by
  rw [digitsToNat_eq_ofDigitChars, Nat.ofDigitChars_ten_toDigits]

/-- The digits of a natural number are digits. -/
theorem isDigit_toDigits {n : Nat} {c : Char} (h : c ∈ Nat.toDigits 10 n) : c.isDigit = true :=
  Nat.isDigit_of_mem_toDigits (by decide) (by decide) h

/-- A digit is no sign. -/
theorem splitSign_of_isDigit {c : Char} (h : c.isDigit = true) (cs : List Char) :
    splitSign (c :: cs) = (false, c :: cs) := by
  unfold splitSign
  split
  · rename_i heq
    cases heq
    cases h
  · rename_i heq
    cases heq
    cases h
  · rfl

/-- The digits of a natural number have no sign. -/
theorem splitSign_toDigits (n : Nat) (cs : List Char) :
    splitSign (Nat.toDigits 10 n ++ cs) = (false, Nat.toDigits 10 n ++ cs) := by
  obtain ⟨c, ds, hds⟩ := List.exists_cons_of_ne_nil (@Nat.toDigits_ne_nil n 10)
  have hc : c.isDigit = true := isDigit_toDigits (n := n) (by simp [hds])
  rw [hds, List.cons_append, splitSign_of_isDigit hc]

/-- An integer is written as the digits of its magnitude, after a minus sign if it is negative. -/
theorem toList_toString_int (n : Int) :
    (toString n).toList =
      if n < 0 then '-' :: Nat.toDigits 10 n.natAbs else Nat.toDigits 10 n.natAbs := by
  rw [Int.toString_eq_repr, Int.repr_eq_if]
  by_cases hn : n < 0
  · have habs : (-n).toNat = n.natAbs := by omega
    simp [if_neg (Int.not_le.2 hn), if_pos hn, habs]
  · have habs : n.toNat = n.natAbs := by omega
    simp [if_pos (Int.not_lt.1 hn), if_neg hn, habs]

/-- The text of an integer splits into its sign and the digits of its magnitude. -/
theorem splitSign_toString_int (n : Int) :
    splitSign (toString n).toList = (decide (n < 0), Nat.toDigits 10 n.natAbs) := by
  rw [toList_toString_int]
  by_cases hn : n < 0
  · simp [hn, splitSign]
  · have := splitSign_toDigits n.natAbs []
    simpa [hn] using this

/-! ## Trailing zeros -/

/-- Scaling by a power of ten is multiplication by it. -/
theorem scaleTen_eq (n : Nat) (k : Int) : scaleTen n k = (n : ℚ) * (10 : ℚ) ^ k := by
  cases k with
  | ofNat k => simp [scaleTen]
  | negSucc k =>
    have hpow : Nat.pow 10 (k + 1) = 10 ^ (k + 1) := rfl
    rw [scaleTen, Rat.mkRat_eq_div, zpow_negSucc, div_eq_mul_inv, hpow]
    push_cast
    rfl

namespace Decimal

variable {d : Decimal} {s : Nat} {e : Int} {negative : Bool}

/-- A zero more at the end of the significand makes one digit more. -/
theorem length_mul_ten (hs : 0 < s) : length ⟨s * 10, e - 1⟩ = length ⟨s, e⟩ + 1 := by
  have hle : 10 ≤ s * 10 := by omega
  rw [length, length, Nat.toDigits_of_base_le (by decide) hle, Nat.mul_div_cancel _ (by decide),
    List.length_append]
  rfl

/-- A zero more at the end of the significand, and a power of ten less, is the same number. -/
theorem value_mul_ten (s : Nat) (e : Int) : value ⟨s * 10, e - 1⟩ = value ⟨s, e⟩ := by
  rw [value, value, scaleTen_eq, scaleTen_eq, zpow_sub_one₀ (by decide)]
  push_cast
  ring

/-- A zero more at the end of the significand does not change the nearest double. -/
theorem toDouble_mul_ten (hs : 0 < s) :
    toDouble negative ⟨s * 10, e - 1⟩ = toDouble negative ⟨s, e⟩ := by
  have hlength : (length ⟨s * 10, e - 1⟩ : Int) + (e - 1) = length ⟨s, e⟩ + e := by
    rw [length_mul_ten hs]
    push_cast
    omega
  simp only [toDouble, hlength, value_mul_ten, hs.ne', (Nat.mul_pos hs (by decide : 0 < 10)).ne']

/-- Zeros at the end of the significand do not change the nearest double. -/
theorem toDouble_mul_pow (hs : 0 < s) (k : Nat) :
    toDouble negative ⟨s * 10 ^ k, e - k⟩ = toDouble negative ⟨s, e⟩ := by
  induction k with
  | zero => simp
  | succ k ih =>
    have hpos : 0 < s * 10 ^ k := Nat.mul_pos hs (Nat.pow_pos (by decide))
    rw [← ih, ← toDouble_mul_ten hpos, Nat.pow_succ, ← Nat.mul_assoc, Nat.cast_succ, sub_sub]

/-- A trimmed decimal has the same nearest double. -/
theorem toDouble_trim (d : Decimal) : d.trim.toDouble negative = d.toDouble negative := by
  fun_induction trim d with
  | case1 d h => rfl
  | case2 d h ih =>
    obtain ⟨hpos, hten⟩ : 0 < d.significand / 10 ∧ d.significand / 10 * 10 = d.significand := by
      omega
    have hmul : toDouble negative ⟨d.significand / 10 * 10, d.exponent + 1 - 1⟩ =
        toDouble negative ⟨d.significand / 10, d.exponent + 1⟩ := toDouble_mul_ten hpos
    rw [hten, add_sub_cancel_right] at hmul
    rw [ih, ← hmul]

/-! ## Reading numerals -/

/-- Leading digits are split off a text whose next character is none. -/
theorem spanDigits_append {ds cs : List Char} (hds : ∀ c ∈ ds, c.isDigit = true)
    (hcs : ∀ c, cs.head? = some c → c.isDigit = false) : spanDigits (ds ++ cs) = (ds, cs) := by
  have htake : cs.takeWhile Char.isDigit = [] := by
    cases cs with
    | nil => rfl
    | cons c cs => rw [List.takeWhile_cons_of_neg (by simp [hcs c rfl])]
  have hdrop : cs.dropWhile Char.isDigit = cs := by
    cases cs with
    | nil => rfl
    | cons c cs => rw [List.dropWhile_cons_of_neg (by simp [hcs c rfl])]
  rw [spanDigits, List.takeWhile_append_of_pos hds, List.dropWhile_append_of_pos hds, htake, hdrop,
    List.append_nil]

/-- The exponent part of a numeral that is read begins with no digit and no point. -/
theorem head?_of_parseExponent? {cs : List Char} (h : parseExponent? cs = some e) {c : Char}
    (hc : cs.head? = some c) : c.isDigit = false ∧ c ≠ '.' := by
  cases cs with
  | nil => cases hc
  | cons c' cs =>
    cases hc
    simp only [parseExponent?] at h
    split at h
    · rename_i hcond
      simp only [Bool.and_eq_true, Bool.or_eq_true, beq_iff_eq] at hcond
      rcases hcond.1.1 with rfl | rfl <;> decide
    · cases h

/-- A numeral with a point is read as the number of its digits, scaled down by those behind the
point. -/
theorem parse?_fraction {whole fraction tail : List Char}
    (hwhole : ∀ c ∈ whole, c.isDigit = true) (hfraction : ∀ c ∈ fraction, c.isDigit = true)
    (hne : whole ≠ []) (htail : parseExponent? tail = some e) :
    parse? (whole ++ '.' :: (fraction ++ tail)) =
      some ⟨digitsToNat 0 (whole ++ fraction), e - fraction.length⟩ := by
  have hspan :
      spanDigits (whole ++ '.' :: (fraction ++ tail)) = (whole, '.' :: (fraction ++ tail)) :=
    spanDigits_append hwhole (by simp)
  have hspan' : spanDigits (fraction ++ tail) = (fraction, tail) :=
    spanDigits_append hfraction fun c hc => (head?_of_parseExponent? htail hc).1
  have hwhole' : whole.isEmpty = false := by simpa using hne
  simp [parse?, hspan, hspan', hwhole', htail]

/-- A numeral without a point is read as the number of its digits. -/
theorem parse?_whole {whole tail : List Char} (hwhole : ∀ c ∈ whole, c.isDigit = true)
    (hne : whole ≠ []) (htail : parseExponent? tail = some e) :
    parse? (whole ++ tail) = some ⟨digitsToNat 0 whole, e⟩ := by
  have hspan : spanDigits (whole ++ tail) = (whole, tail) :=
    spanDigits_append hwhole fun c hc => (head?_of_parseExponent? htail hc).1
  have hwhole' : whole.isEmpty = false := by simpa using hne
  simp only [parse?, hspan]
  split
  · exact absurd rfl (head?_of_parseExponent? htail rfl).2
  · simp [hwhole', htail]

/-- The text of an integer behind the letter of an exponent is read as that integer. -/
theorem parseExponent?_toString (n : Int) :
    parseExponent? ('e' :: (toString n).toList) = some n := by
  have hdigits : (Nat.toDigits 10 n.natAbs).all Char.isDigit = true :=
    List.all_eq_true.2 fun c hc => isDigit_toDigits hc
  simp only [parseExponent?, splitSign_toString_int, hdigits, digitsToNat_toDigits]
  by_cases hn : n < 0
  · have habs : -(n.natAbs : Int) = n := by omega
    simp only [hn, decide_true, if_true, habs]
    simp
  · have habs : (n.natAbs : Int) = n := by omega
    simp only [hn, decide_false, Bool.false_eq_true, if_false, habs]
    simp

/-! ## Reading layouts -/

/-- Zeros in front of digits do not matter, and digits in two pieces are read together. -/
theorem digitsToNat_zeros_append (k : Nat) (ds : List Char) :
    digitsToNat 0 (List.replicate k '0' ++ ds) = digitsToNat 0 ds := by
  rw [digitsToNat_eq_ofDigitChars, digitsToNat_eq_ofDigitChars, Nat.ofDigitChars_append,
    Nat.ofDigitChars_replicate_zero, Nat.mul_zero]

/-- Zeros behind digits scale the number up. -/
theorem digitsToNat_append_zeros (k : Nat) (ds : List Char) :
    digitsToNat 0 (ds ++ List.replicate k '0') = digitsToNat 0 ds * 10 ^ k := by
  rw [digitsToNat_eq_ofDigitChars, digitsToNat_eq_ofDigitChars, Nat.ofDigitChars_append,
    Nat.ofDigitChars_replicate_zero, Nat.mul_comm]

/-- The digits of a number with a point behind the first one, if there are others, and an exponent
are read as that number. -/
theorem parse?_scientific (s : Nat) (k : Int) :
    parse? ((Nat.toDigits 10 s).take 1 ++
        (if (Nat.toDigits 10 s).tail.isEmpty then [] else '.' :: (Nat.toDigits 10 s).tail) ++
          'e' :: (toString k).toList) =
      some ⟨s, k - ((Nat.toDigits 10 s).length - 1)⟩ := by
  have hread : digitsToNat 0 (Nat.toDigits 10 s) = s := digitsToNat_toDigits s
  have hdigits : ∀ c ∈ Nat.toDigits 10 s, c.isDigit = true := fun c hc => isDigit_toDigits hc
  have htail : parseExponent? ('e' :: (toString k).toList) = some k := parseExponent?_toString k
  obtain ⟨c, ds, hds⟩ := List.exists_cons_of_ne_nil (@Nat.toDigits_ne_nil s 10)
  rw [hds] at hdigits hread ⊢
  have hc : ∀ c' ∈ [c], c'.isDigit = true := by simpa using hdigits c (by simp)
  rw [List.tail_cons, List.take_succ_cons, List.take_zero]
  cases ds with
  | nil =>
    -- A single digit has no point behind it.
    rw [List.isEmpty_nil, if_pos rfl, List.append_nil, parse?_whole hc (by simp) htail, hread]
    simp
  | cons c' ds =>
    have hfraction : ∀ c'' ∈ c' :: ds, c''.isDigit = true := by
      intro c'' hc''
      exact hdigits c'' (List.mem_cons_of_mem _ hc'')
    have hparse := parse?_fraction hc hfraction (by simp) htail
    have hread' : digitsToNat 0 ([c] ++ c' :: ds) = s := hread
    rw [hread'] at hparse
    rw [List.isEmpty_cons, if_neg (by decide), List.append_assoc, List.cons_append]
    refine Eq.trans hparse ?_
    simp

/-- A numeral with a point and without exponent is read as the number of its digits, scaled down by
those behind the point. -/
theorem parse?_positional {whole fraction : List Char} (hwhole : ∀ c ∈ whole, c.isDigit = true)
    (hfraction : ∀ c ∈ fraction, c.isDigit = true) (hne : whole ≠ []) :
    parse? (whole ++ '.' :: fraction) =
      some ⟨digitsToNat 0 (whole ++ fraction), -(fraction.length : Int)⟩ := by
  have hparse := parse?_fraction hwhole hfraction hne (rfl : parseExponent? [] = some 0)
  rwa [List.append_nil, zero_sub] at hparse

/-- Reading the layout of a decimal gives the decimal, perhaps with zeros behind its significand. -/
theorem exists_parse?_layout (d : Decimal) :
    ∃ k : Nat, parse? d.layout = some ⟨d.significand * 10 ^ k, d.exponent - k⟩ := by
  obtain ⟨s, e⟩ := d
  have hdigits : ∀ c ∈ Nat.toDigits 10 s, c.isDigit = true := fun c hc => isDigit_toDigits hc
  have hread : digitsToNat 0 (Nat.toDigits 10 s) = s := digitsToNat_toDigits s
  have hzeros : ∀ k, ∀ c ∈ List.replicate k '0', c.isDigit = true := by
    intro k c hc
    rw [(List.mem_replicate.1 hc).2]
    rfl
  -- The four forms of a layout, in the order of its definition.
  simp only [layout]
  split
  · -- An exponent for small and for large numbers.
    refine ⟨0, ?_⟩
    rw [parse?_scientific]
    simp only [Nat.pow_zero, Nat.mul_one, Option.some.injEq, Decimal.mk.injEq, true_and]
    omega
  split
  · -- Zeros between the point and the digits.
    refine ⟨0, ?_⟩
    set k := (-(((Nat.toDigits 10 s).length : Int) + e)).toNat with hk
    have hparse := parse?_positional (hzeros 1)
      (List.forall_mem_append.2 ⟨hzeros k, hdigits⟩) (by simp)
    have hsignificand : digitsToNat 0 (List.replicate 1 '0' ++
        (List.replicate k '0' ++ Nat.toDigits 10 s)) = s := by
      rw [digitsToNat_zeros_append, digitsToNat_zeros_append, hread]
    rw [hsignificand, List.length_append, List.length_replicate] at hparse
    refine Eq.trans hparse ?_
    simp only [Nat.pow_zero, Nat.mul_one, Option.some.injEq, Decimal.mk.injEq, true_and]
    omega
  split
  · -- The point within the digits.
    refine ⟨0, ?_⟩
    set k := (((Nat.toDigits 10 s).length : Int) + e).toNat with hk
    have hne : (Nat.toDigits 10 s).take k ≠ [] := by
      rw [Ne, List.take_eq_nil_iff, not_or]
      exact ⟨by omega, Nat.toDigits_ne_nil⟩
    have hparse := parse?_positional (fun c hc => hdigits c (List.mem_of_mem_take hc))
      (fun c (hc : c ∈ (Nat.toDigits 10 s).drop k) => hdigits c (List.mem_of_mem_drop hc)) hne
    rw [List.take_append_drop, hread, List.length_drop] at hparse
    refine Eq.trans hparse ?_
    simp only [Nat.pow_zero, Nat.mul_one, Option.some.injEq, Decimal.mk.injEq, true_and]
    omega
  · -- Zeros between the digits and the point, which reading takes for digits.
    refine ⟨e.toNat + 1, ?_⟩
    have hne : Nat.toDigits 10 s ++ List.replicate e.toNat '0' ≠ [] := by simp
    have hparse := parse?_positional (List.forall_mem_append.2 ⟨hdigits, hzeros e.toNat⟩)
      (hzeros 1) hne
    have hsignificand : digitsToNat 0 (Nat.toDigits 10 s ++ List.replicate e.toNat '0' ++
        List.replicate 1 '0') = s * 10 ^ (e.toNat + 1) := by
      rw [List.append_assoc, List.replicate_append_replicate, digitsToNat_append_zeros, hread]
    rw [hsignificand, List.length_replicate] at hparse
    refine Eq.trans hparse ?_
    simp only [Option.some.injEq, Decimal.mk.injEq, true_and]
    omega

/-- The layout of a positive decimal is read as a decimal with the same nearest double. -/
theorem parse?_layout (hd : 0 < d.significand) :
    (parse? d.layout).map (toDouble negative) = some (d.toDouble negative) := by
  obtain ⟨k, hk⟩ := exists_parse?_layout d
  rw [hk, Option.map_some, toDouble_mul_pow hd]

/-! ## Characters of layouts -/

/-- Text that can be nothing but a number with a fraction or an exponent: it begins with a digit,
has a point or the letter of an exponent, and consists of these, digits and minus signs. -/
structure IsNumeral (cs : List Char) : Prop where
  /-- A digit stands first. -/
  first : ∃ c, cs.head? = some c ∧ c.isDigit = true
  /-- There is a point or an exponent. -/
  mark : ∃ c ∈ cs, c = '.' ∨ c = 'e'
  /-- There are no other characters. -/
  chars : ∀ c ∈ cs, c.isDigit = true ∨ c = '.' ∨ c = 'e' ∨ c = '-'

/-- A numeral is a digit and a rest. -/
theorem IsNumeral.exists_cons {cs : List Char} (h : IsNumeral cs) :
    ∃ c cs', cs = c :: cs' ∧ c.isDigit = true := by
  obtain ⟨c, hhead, hc⟩ := h.first
  cases cs with
  | nil => cases hhead
  | cons c' cs' =>
    cases hhead
    exact ⟨c, cs', rfl, hc⟩

/-- A numeral behind its sign splits into both. -/
theorem IsNumeral.splitSign_eq {cs : List Char} (h : IsNumeral cs) (negative : Bool) :
    splitSign (if negative then '-' :: cs else cs) = (negative, cs) := by
  obtain ⟨c, cs', rfl, hc⟩ := h.exists_cons
  cases negative with
  | true => rfl
  | false => exact splitSign_of_isDigit hc cs'

/-- The text of an integer consists of digits and minus signs. -/
theorem isDigit_or_of_mem_toString {n : Int} {c : Char} (h : c ∈ (toString n).toList) :
    c.isDigit = true ∨ c = '-' := by
  rw [toList_toString_int] at h
  split at h
  · rcases List.mem_cons.1 h with rfl | h
    · exact .inr rfl
    · exact .inl (isDigit_toDigits h)
  · exact .inl (isDigit_toDigits h)

/-- Layouts are such text. -/
theorem isNumeral_layout (d : Decimal) : IsNumeral d.layout := by
  obtain ⟨s, e⟩ := d
  have hdigits : ∀ c ∈ Nat.toDigits 10 s, c.isDigit = true := fun c hc => isDigit_toDigits hc
  obtain ⟨c₀, ds, hds⟩ := List.exists_cons_of_ne_nil (@Nat.toDigits_ne_nil s 10)
  have hc₀ : c₀.isDigit = true := hdigits c₀ (by simp [hds])
  have hzero : '0'.isDigit = true := rfl
  -- Each of the four forms is searched for its first character, its mark and its characters.
  simp only [layout]
  split
  · refine ⟨⟨c₀, by simp [hds], hc₀⟩, ⟨'e', by simp, .inr rfl⟩, fun c hc => ?_⟩
    simp only [List.mem_append, List.mem_cons] at hc
    rcases hc with (hc | hc) | rfl | hc
    · exact .inl (hdigits c (List.mem_of_mem_take hc))
    · split at hc
      · cases hc
      · rcases List.mem_cons.1 hc with rfl | hc
        · exact .inr (.inl rfl)
        · exact .inl (hdigits c (List.mem_of_mem_tail hc))
    · exact .inr (.inr (.inl rfl))
    · rcases isDigit_or_of_mem_toString hc with hc | hc
      · exact .inl hc
      · exact .inr (.inr (.inr hc))
  split
  · refine ⟨⟨'0', rfl, hzero⟩, ⟨'.', by simp, .inl rfl⟩, fun c hc => ?_⟩
    simp only [List.mem_append, List.mem_cons, List.mem_replicate] at hc
    rcases hc with (rfl | rfl | ⟨-, rfl⟩) | hc
    · exact .inl hzero
    · exact .inr (.inl rfl)
    · exact .inl hzero
    · exact .inl (hdigits c hc)
  split
  · -- At least one digit stands before the point.
    rename_i hpos hlt
    have hne : (((Nat.toDigits 10 s).length : Int) + e).toNat ≠ 0 := by omega
    obtain ⟨k, hk⟩ := Nat.exists_eq_succ_of_ne_zero hne
    rw [hk, hds, List.take_succ_cons]
    refine ⟨⟨c₀, rfl, hc₀⟩, ⟨'.', by simp, .inl rfl⟩, fun c hc => ?_⟩
    rw [List.cons_append, ← List.cons_append, ← List.take_succ_cons, ← hds] at hc
    simp only [List.mem_append, List.mem_cons] at hc
    rcases hc with hc | rfl | hc
    · exact .inl (hdigits c (List.mem_of_mem_take hc))
    · exact .inr (.inl rfl)
    · exact .inl (hdigits c (List.mem_of_mem_drop hc))
  · refine ⟨⟨c₀, by simp [hds], hc₀⟩, ⟨'.', by simp, .inl rfl⟩, fun c hc => ?_⟩
    simp only [List.mem_append, List.mem_cons, List.mem_replicate, List.not_mem_nil, or_false] at hc
    rcases hc with (hc | ⟨-, rfl⟩) | rfl | rfl
    · exact .inl (hdigits c hc)
    · exact .inl hzero
    · exact .inr (.inl rfl)
    · exact .inl hzero

end Decimal

end RegisterMachine
