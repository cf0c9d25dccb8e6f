import RegisterMachine.Proofs.Evaluation.Definedness
import Mathlib.Algebra.Group.Nat.Defs
import Mathlib.Algebra.Ring.Int.Defs
import Mathlib.Data.Int.DivMod

/-! # Division and shifts

Quotients, remainders and shifts of words are those of exact integers. A word reads with sign or
without, and each operator fixes one of the two readings. Quotient and remainder are defined
together and determine each other; a shift is a multiplication or a division by a power of two.

* `TruncatedDivision`, `EuclideanDivision` — what a quotient and a remainder satisfy.
* `Word.divSigned?_eq_some_iff` and its like — words as quotients, remainders and shifts.
* `Word.signed_division_iff`, `Word.unsigned_division_iff` — quotients together with remainders.
* `PartialOp` — the operators that have no result for some integers.
* `PartialOp.execute` — these operators as a machine carries them out, with its traps.
* `PartialOp.onWords?_eq_some_iff_execute` — there are results where machines do not trap.
* `division_and_shift_laws` — the laws of division and shifts.
-/

namespace RegisterMachine

/-! ## Exact quotients and remainders -/

/-- A quotient rounded toward zero and its remainder. The remainder is smaller than the divisor, and
it has the sign of the dividend unless it is zero. -/
structure TruncatedDivision (a b q r : Int) : Prop where
  /-- The quotient times the divisor, and the remainder, make the dividend. -/
  eq : q * b + r = a
  /-- The remainder is smaller than the divisor. -/
  natAbs_lt : r.natAbs < b.natAbs
  /-- The remainder has the sign of the dividend. -/
  sign : r = 0 ∨ r.sign = a.sign

/-- A quotient of natural numbers and its remainder, which is smaller than the divisor. -/
structure EuclideanDivision (a b q r : Nat) : Prop where
  /-- The quotient times the divisor, and the remainder, make the dividend. -/
  eq : q * b + r = a
  /-- The remainder is smaller than the divisor. -/
  lt : r < b

/-- A number is zero or has the sign of another one if it lies on the same side of zero. -/
theorem eq_zero_or_sign_eq_iff {a r : Int} :
    r = 0 ∨ r.sign = a.sign ↔ (0 ≤ a → 0 ≤ r) ∧ (a ≤ 0 → r ≤ 0) := by
  rcases Int.lt_trichotomy a 0 with ha | rfl | ha
  · rw [Int.sign_eq_neg_one_of_neg ha, Int.sign_eq_neg_one_iff_neg]
    omega
  · rw [Int.sign_zero, Int.sign_eq_zero_iff_zero]
    omega
  · rw [Int.sign_eq_one_of_pos ha, Int.sign_eq_one_iff_pos]
    omega

/-- Quotients rounded toward zero and their remainders are determined by their law. -/
theorem truncatedDivision_iff {a b q r : Int} :
    TruncatedDivision a b q r ↔ b ≠ 0 ∧ q = a.tdiv b ∧ r = a.tmod b := by
  constructor
  · rintro ⟨heq, hlt, hsign⟩
    have hb : b ≠ 0 := by omega
    rw [eq_zero_or_sign_eq_iff] at hsign
    have heq : r + b * q = a := by rw [← heq, Int.mul_comm, Int.add_comm]
    have hdiv : a.tdiv b = q ∧ a.tmod b = r := by
      -- Quotient and remainder are unique for dividends on either side of zero.
      rcases Int.le_total 0 a with ha | ha
      · exact (Int.tdiv_tmod_unique ha hb).2 ⟨heq, by omega, by omega⟩
      · exact (Int.tdiv_tmod_unique' ha hb).2 ⟨heq, by omega, by omega⟩
    exact ⟨hb, hdiv.1.symm, hdiv.2.symm⟩
  · rintro ⟨hb, rfl, rfl⟩
    refine ⟨Int.tdiv_mul_add_tmod a b, ?_, ?_⟩
    · rw [Int.natAbs_tmod]
      exact Nat.mod_lt _ (by omega)
    · rw [eq_zero_or_sign_eq_iff]
      refine ⟨Int.tmod_nonneg b, fun ha => ?_⟩
      have hneg := Int.tmod_nonneg b (Int.neg_nonneg_of_nonpos ha)
      rw [Int.neg_tmod] at hneg
      omega

/-- Quotients of natural numbers and their remainders are determined by their law. -/
theorem euclideanDivision_iff {a b q r : Nat} :
    EuclideanDivision a b q r ↔ b ≠ 0 ∧ q = a / b ∧ r = a % b := by
  constructor
  · rintro ⟨heq, hlt⟩
    have hb : 0 < b := by omega
    have heq : r + b * q = a := by rw [← heq, Nat.mul_comm, Nat.add_comm]
    obtain ⟨hq, hr⟩ := (Nat.div_mod_unique hb).2 ⟨heq, hlt⟩
    exact ⟨Nat.ne_of_gt hb, hq.symm, hr.symm⟩
  · rintro ⟨hb, rfl, rfl⟩
    exact ⟨Nat.div_add_mod' a b, Nat.mod_lt a (by omega)⟩

/-! ## Words that read as exact results -/

namespace Word

variable {a b c q r : Word}

/-- The word for an integer is the one that reads as it with sign. -/
theorem ofInt?_eq_some_iff {n : Int} : ofInt? n = some c ↔ c.toInt = n := by
  constructor
  · exact toInt_of_ofInt?
  · rintro rfl
    exact ofInt?_toInt c

/-- The word for a natural number is the one that reads as it without sign. -/
theorem ofUnsigned?_eq_some_iff {n : Nat} : ofUnsigned? n = some c ↔ c.toNat = n := by
  constructor
  · intro h
    have hc := toNat_of_ofUnsigned? h
    omega
  · rintro rfl
    exact ofUnsigned?_toNat c

/-- The signed quotient of words reads as the exact one, unless the divisor is zero or the least
word is divided by -1. -/
theorem toInt_sdiv_eq_tdiv (h : ¬ (b.toInt = 0 ∨ a.toInt = -2147483648 ∧ b.toInt = -1)) :
    (a.sdiv b).toInt = a.toInt.tdiv b.toInt := by
  rw [← no_signed_division_iff, not_or, Classical.not_and_iff_not_or_not] at h
  exact BitVec.toInt_sdiv_of_ne_or_ne a b h.2

/-- The exact quotient by a divisor that is not zero is a word, unless the least word is divided
by -1. -/
theorem exists_toInt_eq_tdiv_iff :
    (b.toInt ≠ 0 ∧ ∃ q : Word, q.toInt = a.toInt.tdiv b.toInt) ↔
      ¬ (b.toInt = 0 ∨ a.toInt = -2147483648 ∧ b.toInt = -1) := by
  constructor
  · rintro ⟨hb, q, hq⟩ (hzero | ⟨ha, hneg⟩)
    · exact hb hzero
    · -- The quotient would be one more than the greatest word.
      have hquotient : (-2147483648 : Int).tdiv (-1) = 2147483648 := rfl
      have hlt : q.toInt < 2147483648 := q.toInt_lt
      rw [ha, hneg] at hq
      omega
  · intro h
    exact ⟨fun hzero => h (.inl hzero), a.sdiv b, toInt_sdiv_eq_tdiv h⟩

/-- A word is the signed quotient if it reads as the exact one. -/
theorem divSigned?_eq_some_iff :
    divSigned? a b = some q ↔ b.toInt ≠ 0 ∧ q.toInt = a.toInt.tdiv b.toInt := by
  rw [divSigned?, Option.ite_none_left_eq_some, no_signed_division_iff, Option.some_inj]
  constructor
  · rintro ⟨h, rfl⟩
    exact ⟨fun hzero => h (.inl hzero), toInt_sdiv_eq_tdiv h⟩
  · rintro ⟨hb, hq⟩
    have h := exists_toInt_eq_tdiv_iff.1 ⟨hb, q, hq⟩
    exact ⟨h, BitVec.eq_of_toInt_eq (by rw [toInt_sdiv_eq_tdiv h, hq])⟩

/-- A word is the signed remainder if it reads as the exact one and the exact quotient is a word. -/
theorem modSigned?_eq_some_iff :
    modSigned? a b = some r ↔
      (b.toInt ≠ 0 ∧ ∃ q : Word, q.toInt = a.toInt.tdiv b.toInt) ∧
        r.toInt = a.toInt.tmod b.toInt := by
  rw [modSigned?, Option.ite_none_left_eq_some, no_signed_division_iff, Option.some_inj,
    exists_toInt_eq_tdiv_iff, ← BitVec.toInt_inj, BitVec.toInt_srem, @eq_comm _ r.toInt]

/-- The word zero is the one that reads as zero. -/
theorem eq_zero_iff : b = 0#32 ↔ b.toNat = 0 := by
  rw [← BitVec.toNat_inj]
  rfl

/-- A word is the unsigned quotient if it reads as the exact one. -/
theorem divUnsigned?_eq_some_iff :
    divUnsigned? a b = some q ↔ b.toNat ≠ 0 ∧ q.toNat = a.toNat / b.toNat := by
  rw [divUnsigned?, Option.ite_none_left_eq_some, eq_zero_iff, Option.some_inj,
    ← BitVec.toNat_inj, BitVec.udiv_eq, BitVec.toNat_udiv, @eq_comm _ q.toNat]

/-- A word is the unsigned remainder if it reads as the exact one. -/
theorem modUnsigned?_eq_some_iff :
    modUnsigned? a b = some r ↔ b.toNat ≠ 0 ∧ r.toNat = a.toNat % b.toNat := by
  rw [modUnsigned?, Option.ite_none_left_eq_some, eq_zero_iff, Option.some_inj,
    ← BitVec.toNat_inj, BitVec.umod_eq, BitVec.toNat_umod, @eq_comm _ r.toNat]

/-- Two words are signed quotient and remainder if they satisfy the law of division toward zero. -/
theorem signed_division_iff :
    divSigned? a b = some q ∧ modSigned? a b = some r ↔
      TruncatedDivision a.toInt b.toInt q.toInt r.toInt := by
  rw [divSigned?_eq_some_iff, modSigned?_eq_some_iff, truncatedDivision_iff]
  constructor
  · rintro ⟨⟨hb, hq⟩, -, hr⟩
    exact ⟨hb, hq, hr⟩
  · rintro ⟨hb, hq, hr⟩
    exact ⟨⟨hb, hq⟩, ⟨hb, q, hq⟩, hr⟩

/-- Two words are unsigned quotient and remainder if they satisfy the law of division. -/
theorem unsigned_division_iff :
    divUnsigned? a b = some q ∧ modUnsigned? a b = some r ↔
      EuclideanDivision a.toNat b.toNat q.toNat r.toNat := by
  rw [divUnsigned?_eq_some_iff, modUnsigned?_eq_some_iff, euclideanDivision_iff]
  constructor
  · rintro ⟨⟨hb, hq⟩, -, hr⟩
    exact ⟨hb, hq, hr⟩
  · rintro ⟨hb, hq, hr⟩
    exact ⟨⟨hb, hq⟩, hb, hr⟩

/-- The amounts of shifts are the words that read as 0 up to 31, with or without sign. -/
theorem toNat_lt_width_iff : b.toNat < 32 ↔ 0 ≤ b.toInt ∧ b.toInt < 32 := by
  rw [BitVec.toInt_eq_toNat_cond]
  split <;> omega

/-- A word is another one shifted by an amount below the width of words. -/
theorem shiftBy?_eq_some_iff {shift : Word → Nat → Word} :
    shiftBy? shift a b = some c ↔ (0 ≤ b.toInt ∧ b.toInt < 32) ∧ c = shift a b.toNat := by
  rw [shiftBy?, Option.ite_none_right_eq_some, toNat_lt_width_iff, Option.some_inj, @eq_comm _ c]

/-- A shift to the left multiplies by a power of two and wraps. -/
theorem shiftLeft_eq_some_iff :
    shiftBy? (fun a s => a <<< s) a b = some c ↔
      (0 ≤ b.toInt ∧ b.toInt < 32) ∧ c.toNat = a.toNat * 2 ^ b.toNat % 2 ^ 32 := by
  rw [shiftBy?_eq_some_iff, ← BitVec.toNat_inj, BitVec.toNat_shiftLeft, Nat.shiftLeft_eq]

/-- A shift to the right that keeps the sign divides by a power of two and rounds down. -/
theorem shiftRight_eq_some_iff :
    shiftBy? BitVec.sshiftRight a b = some c ↔
      (0 ≤ b.toInt ∧ b.toInt < 32) ∧ c.toInt = a.toInt.fdiv (2 ^ b.toNat) := by
  have hpow : (0 : Int) ≤ 2 ^ b.toNat := Int.pow_nonneg (by decide)
  rw [shiftBy?_eq_some_iff, ← BitVec.toInt_inj, BitVec.toInt_sshiftRight,
    Int.shiftRight_eq_div_pow, Int.fdiv_eq_ediv_of_nonneg _ hpow, Int.natCast_pow]
  rfl

/-- A shift to the right that fills with zeros divides by a power of two and rounds down. -/
theorem shiftRightUnsigned_eq_some_iff :
    shiftBy? (fun a s => a >>> s) a b = some c ↔
      (0 ≤ b.toInt ∧ b.toInt < 32) ∧ c.toNat = a.toNat / 2 ^ b.toNat := by
  rw [shiftBy?_eq_some_iff, ← BitVec.toNat_inj, BitVec.toNat_ushiftRight,
    Nat.shiftRight_eq_div_pow]

end Word

/-! ## Partial operators -/

/-- The operators that have no result for some integers. -/
inductive PartialOp where
  /-- The signed quotient. -/
  | divSigned
  /-- The signed remainder. -/
  | modSigned
  /-- The unsigned quotient. -/
  | divUnsigned
  /-- The unsigned remainder. -/
  | modUnsigned
  /-- Shift to the left. -/
  | shiftLeft
  /-- Shift to the right that keeps the sign. -/
  | shiftRight
  /-- Shift to the right that fills with zeros. -/
  | shiftRightUnsigned

/-- What goes wrong where a machine carries out an operation on words. -/
inductive Trap where
  /-- A division by zero. -/
  | zeroDivisor
  /-- A result that is no word, or a shift by the width of a word or more. -/
  | overflow

/-- A machine traps where an exact result is no word. -/
def Trap.orWord : Option Word → Except Trap Word
  | some c => .ok c
  | none => .error .overflow

namespace PartialOp

variable {op : PartialOp} {a b c : Word} {v w r : Value}

/-- A partial operator as a binary operator. -/
def toBinaryOp : PartialOp → BinaryOp
  | .divSigned => .divSigned
  | .modSigned => .modSigned
  | .divUnsigned => .divUnsigned
  | .modUnsigned => .modUnsigned
  | .shiftLeft => .shiftLeft
  | .shiftRight => .shiftRight
  | .shiftRightUnsigned => .shiftRightUnsigned

/-- A partial operator as a partial operation on words. -/
def onWords? : PartialOp → Word → Word → Option Word
  | .divSigned => Word.divSigned?
  | .modSigned => Word.modSigned?
  | .divUnsigned => Word.divUnsigned?
  | .modUnsigned => Word.modUnsigned?
  | .shiftLeft => Word.shiftBy? fun a s => a <<< s
  | .shiftRight => Word.shiftBy? BitVec.sshiftRight
  | .shiftRightUnsigned => Word.shiftBy? fun a s => a >>> s

/-- The words for which a partial operator has a result: divisors other than zero, without the least
word divided by -1 where the division is signed, and shifts by 0 up to 31. -/
def IsDefined : PartialOp → Word → Word → Prop
  | .divSigned, a, b | .modSigned, a, b =>
    b.toInt ≠ 0 ∧ ¬ (a.toInt = -2147483648 ∧ b.toInt = -1)
  | .divUnsigned, _, b | .modUnsigned, _, b => b.toNat ≠ 0
  | .shiftLeft, _, b | .shiftRight, _, b | .shiftRightUnsigned, _, b =>
    0 ≤ b.toInt ∧ b.toInt < 32

/-- A partial operator as a machine carries it out: it computes with exact integers and traps where
the result is no word. -/
def execute : PartialOp → Word → Word → Except Trap Word
  | .divSigned, a, b =>
    if b.toInt ≠ 0 then Trap.orWord (Word.ofInt? (a.toInt.tdiv b.toInt))
    else .error .zeroDivisor
  | .modSigned, a, b =>
    -- The remainder is found by dividing, so the quotient has to be a word as well.
    if b.toInt ≠ 0 then
      Trap.orWord (Word.ofInt? (a.toInt.tdiv b.toInt)) >>= fun _ =>
        Trap.orWord (Word.ofInt? (a.toInt.tmod b.toInt))
    else .error .zeroDivisor
  | .divUnsigned, a, b =>
    if b.toNat ≠ 0 then Trap.orWord (Word.ofUnsigned? (a.toNat / b.toNat : Nat))
    else .error .zeroDivisor
  | .modUnsigned, a, b =>
    if b.toNat ≠ 0 then Trap.orWord (Word.ofUnsigned? (a.toNat % b.toNat : Nat))
    else .error .zeroDivisor
  | .shiftLeft, a, b =>
    if 0 ≤ b.toInt ∧ b.toInt < 32 then
      Trap.orWord (Word.ofUnsigned? (a.toNat * 2 ^ b.toNat % 2 ^ 32 : Nat))
    else .error .overflow
  | .shiftRight, a, b =>
    if 0 ≤ b.toInt ∧ b.toInt < 32 then Trap.orWord (Word.ofInt? (a.toInt.fdiv (2 ^ b.toNat)))
    else .error .overflow
  | .shiftRightUnsigned, a, b =>
    if 0 ≤ b.toInt ∧ b.toInt < 32 then
      Trap.orWord (Word.ofUnsigned? (a.toNat / 2 ^ b.toNat : Nat))
    else .error .overflow

/-- A partial operator is its operation on words, applied to integers. -/
theorem apply_eq_onWords (op : PartialOp) :
    op.toBinaryOp.apply = Value.onWords op.onWords? := by
  cases op <;> rfl

/-- A partial operator has results for two integers only, and these are integers. -/
theorem apply_eq_some_iff :
    op.toBinaryOp.apply v w = some r ↔
      ∃ a b c, (v = .int a ∧ w = .int b ∧ r = .int c) ∧ op.onWords? a b = some c := by
  rw [apply_eq_onWords]
  constructor
  · intro h
    unfold Value.onWords at h
    split at h
    · rename_i a b
      obtain ⟨c, hc, rfl⟩ := Option.map_eq_some_iff.1 h
      exact ⟨a, b, c, ⟨rfl, rfl, rfl⟩, hc⟩
    · cases h
  · rintro ⟨a, b, c, ⟨rfl, rfl, rfl⟩, hc⟩
    rw [Value.onWords_int, hc, Option.map_some]

/-- The result of a partial operator for two integers is that for the words. -/
theorem apply_int_eq_some_iff (op : PartialOp) :
    op.toBinaryOp.apply (.int a) (.int b) = some (.int c) ↔ op.onWords? a b = some c := by
  rw [apply_eq_onWords, Value.onWords_int]
  simp

/-- A partial operator has a result for the words for which it is defined. -/
theorem isSome_apply_iff (op : PartialOp) :
    (op.toBinaryOp.apply (.int a) (.int b)).isSome ↔ op.IsDefined a b := by
  rw [apply_eq_onWords, Value.onWords_int, Option.isSome_map]
  cases op with
  | divSigned => exact Word.isSome_divSigned?_iff.trans not_or
  | modSigned => exact Word.isSome_modSigned?_iff.trans not_or
  | divUnsigned => exact Word.isSome_divUnsigned?_iff
  | modUnsigned => exact Word.isSome_modUnsigned?_iff
  | shiftLeft | shiftRight | shiftRightUnsigned => exact Word.isSome_shiftBy?_iff

end PartialOp

/-- A machine that does not trap has the exact result. -/
theorem Trap.orWord_eq_ok_iff {c? : Option Word} {c : Word} :
    Trap.orWord c? = .ok c ↔ c? = some c := by
  cases c? <;> simp [Trap.orWord]

/-- A machine that does not trap in the first step takes the second one. -/
theorem Trap.orWord_bind_eq_ok_iff {q? : Option Word} {next : Except Trap Word} {c : Word} :
    (Trap.orWord q? >>= fun _ => next) = .ok c ↔ (∃ q, q? = some q) ∧ next = .ok c := by
  cases q? <;> simp [Trap.orWord, bind, Except.bind]

/-- A machine that traps unless a condition holds has results under this condition only. -/
theorem Trap.guard_eq_ok_iff {p : Prop} [Decidable p] {next : Except Trap Word} {trap : Trap}
    {c : Word} : (if p then next else .error trap) = .ok c ↔ p ∧ next = .ok c := by
  split <;> simp [*]

/-- The operation on words of a partial operator has a result where a machine carries it out without
a trap, and the result is that of the machine. -/
theorem PartialOp.onWords?_eq_some_iff_execute {op : PartialOp} {a b c : Word} :
    op.onWords? a b = some c ↔ op.execute a b = .ok c := by
  cases op <;> simp only [onWords?, execute, Word.divSigned?_eq_some_iff,
    Word.modSigned?_eq_some_iff, Word.divUnsigned?_eq_some_iff, Word.modUnsigned?_eq_some_iff,
    Word.shiftLeft_eq_some_iff, Word.shiftRight_eq_some_iff, Word.shiftRightUnsigned_eq_some_iff,
    Trap.guard_eq_ok_iff, Trap.orWord_bind_eq_ok_iff, Trap.orWord_eq_ok_iff,
    Word.ofInt?_eq_some_iff, Word.ofUnsigned?_eq_some_iff, and_assoc]

/-- The remainder of the least word by -1 is zero, but there is a trap on the way. -/
example : PartialOp.modSigned.execute (BitVec.intMin 32) (-1#32) = .error .overflow := by rfl

/-! ## Laws -/

/-- Division, remainders and shifts of all integers.

* Each operator has a result for the words for which it is defined.
* The signed quotient and remainder are the words that satisfy the law of division toward zero.
* The unsigned quotient and remainder are the words that satisfy the law of division.
* A shift to the left is the product with a power of two, up to multiples of 2 ^ 32.
* A shift to the right is the quotient by a power of two, rounded down, of the reading with or
  without sign.
* There are results for integers only, and only where a machine that computes with exact integers
  does not trap: it divides by no zero and has no result that is no word. -/
theorem division_and_shift_laws (a b : Word) :
    (∀ op : PartialOp, (op.toBinaryOp.apply (.int a) (.int b)).isSome ↔ op.IsDefined a b) ∧
    (∀ q r : Word,
      (BinaryOp.divSigned.apply (.int a) (.int b) = some (.int q) ∧
          BinaryOp.modSigned.apply (.int a) (.int b) = some (.int r)) ↔
        TruncatedDivision a.toInt b.toInt q.toInt r.toInt) ∧
    (∀ q r : Word,
      (BinaryOp.divUnsigned.apply (.int a) (.int b) = some (.int q) ∧
          BinaryOp.modUnsigned.apply (.int a) (.int b) = some (.int r)) ↔
        EuclideanDivision a.toNat b.toNat q.toNat r.toNat) ∧
    (∀ c : Word, BinaryOp.shiftLeft.apply (.int a) (.int b) = some (.int c) ↔
      (0 ≤ b.toInt ∧ b.toInt < 32) ∧ c.toNat = a.toNat * 2 ^ b.toNat % 2 ^ 32) ∧
    (∀ c : Word, BinaryOp.shiftRight.apply (.int a) (.int b) = some (.int c) ↔
      (0 ≤ b.toInt ∧ b.toInt < 32) ∧ c.toInt = a.toInt.fdiv (2 ^ b.toNat)) ∧
    (∀ c : Word, BinaryOp.shiftRightUnsigned.apply (.int a) (.int b) = some (.int c) ↔
      (0 ≤ b.toInt ∧ b.toInt < 32) ∧ c.toNat = a.toNat / 2 ^ b.toNat) ∧
    ∀ (op : PartialOp) (v w r : Value), op.toBinaryOp.apply v w = some r ↔
      ∃ m n k, (v = .int m ∧ w = .int n ∧ r = .int k) ∧ op.execute m n = .ok k := by
  refine ⟨fun op => op.isSome_apply_iff, fun q r => ?_, fun q r => ?_, fun c => ?_, fun c => ?_,
    fun c => ?_, fun op v w r => ?_⟩
  · exact (and_congr (PartialOp.apply_int_eq_some_iff .divSigned)
      (PartialOp.apply_int_eq_some_iff .modSigned)).trans Word.signed_division_iff
  · exact (and_congr (PartialOp.apply_int_eq_some_iff .divUnsigned)
      (PartialOp.apply_int_eq_some_iff .modUnsigned)).trans Word.unsigned_division_iff
  · exact (PartialOp.apply_int_eq_some_iff .shiftLeft).trans Word.shiftLeft_eq_some_iff
  · exact (PartialOp.apply_int_eq_some_iff .shiftRight).trans Word.shiftRight_eq_some_iff
  · exact (PartialOp.apply_int_eq_some_iff .shiftRightUnsigned).trans
      Word.shiftRightUnsigned_eq_some_iff
  · simp only [PartialOp.apply_eq_some_iff, PartialOp.onWords?_eq_some_iff_execute]

end RegisterMachine
