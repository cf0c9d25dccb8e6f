import RegisterMachine.Value
import Mathlib.Algebra.Group.Nat.Defs

/-! # Arithmetic on integers and pointers

Sums and differences of integers and pointers are two readings of one relation between three values:
a value is the sum of two others. The relation adds words up to multiples of 2 ^ 32, and with them
it joins at most one block. It is commutative, associative and cancellative, and so are sums and
differences as far as they are defined.

* `Word.IsSum`, `Value.IsSum` — a word and a value as the sum of two others.
* `Value.add_eq_some_iff_isSum`, `Value.sub_eq_some_iff_isSum` — sums and differences by the
  relation.
* `Value.add_comm`, `Value.bind_add_assoc` — order and grouping of sums.
* `Value.add_sub_laws` — the laws of sums and differences.
-/

namespace RegisterMachine

/-! ## Sums and equality of words -/

namespace Word

variable {a b c d e : Word}

/-- A word is the sum of two others up to a multiple of 2 ^ 32. -/
def IsSum (a b c : Word) : Prop := c.toNat = (a.toNat + b.toNat) % 2 ^ 32

/-- Sums of words wrap. -/
theorem isSum_iff_eq_add : IsSum a b c ↔ c = a + b := by
  rw [IsSum, ← BitVec.toNat_inj, BitVec.toNat_add]

/-- Differences of words wrap. -/
theorem isSum_iff_eq_sub : IsSum a b c ↔ a = c - b := by
  rw [isSum_iff_eq_add]
  constructor
  · rintro rfl
    rw [BitVec.add_sub_cancel]
  · rintro rfl
    rw [BitVec.sub_add_cancel]

/-- The order of words does not matter for their sum. -/
theorem IsSum.symm (h : IsSum a b c) : IsSum b a c := by
  rwa [IsSum, Nat.add_comm]

/-- Sums of three words can be grouped to the right. -/
theorem IsSum.assoc (hab : IsSum a b d) (hdc : IsSum d c e) :
    IsSum b c (b + c) ∧ IsSum a (b + c) e := by
  rw [isSum_iff_eq_add] at hab hdc
  rw [isSum_iff_eq_add, isSum_iff_eq_add, hdc, hab, BitVec.add_assoc]
  exact ⟨rfl, rfl⟩

/-- Words are equal if their difference is zero. -/
theorem sub_eq_zero_iff : a - b = 0#32 ↔ a = b := by
  rw [BitVec.sub_eq_iff_eq_add, BitVec.zero_add]

end Word

namespace Comparison

variable {a b : Word}

/-- Words are equal with sign if they are equal. -/
theorem signed_eq : Comparison.eq.signed a b = decide (a = b) :=
  decide_eq_decide.2 BitVec.toInt_inj

/-- Words differ with sign if they differ. -/
theorem signed_ne : Comparison.ne.signed a b = decide (a ≠ b) :=
  decide_eq_decide.2 (not_congr BitVec.toInt_inj)

/-- Words are equal without sign if they are equal. -/
theorem unsigned_eq : Comparison.eq.unsigned a b = decide (a = b) :=
  decide_eq_decide.2 (Int.natCast_inj.trans BitVec.toNat_inj)

/-- Words differ without sign if they differ. -/
theorem unsigned_ne : Comparison.ne.unsigned a b = decide (a ≠ b) :=
  decide_eq_decide.2 (not_congr (Int.natCast_inj.trans BitVec.toNat_inj))

end Comparison

namespace Value

variable {u v w r s : Value}

/-! ## Sums of values -/

/-- A value is the sum of two others: an integer of two integers, or a pointer of another one into
the same block and an integer. -/
inductive IsSum : Value → Value → Value → Prop where
  /-- Two integers. -/
  | ints {a b c : Word} (h : Word.IsSum a b c) : IsSum (.int a) (.int b) (.int c)
  /-- A pointer moved by an integer. -/
  | ptrInt {block : BlockId} {o n o' : Word} (h : Word.IsSum o n o') :
    IsSum (.ptr block o) (.int n) (.ptr block o')
  /-- An integer by which a pointer is moved. -/
  | intPtr {block : BlockId} {n o o' : Word} (h : Word.IsSum n o o') :
    IsSum (.int n) (.ptr block o) (.ptr block o')

/-- The order of values does not matter for their sum. -/
theorem IsSum.symm (h : IsSum u v w) : IsSum v u w := by
  cases h with
  | ints h => exact .ints h.symm
  | ptrInt h => exact .intPtr h.symm
  | intPtr h => exact .ptrInt h.symm

/-- Sums of three values can be grouped to the right. -/
theorem IsSum.assoc (huv : IsSum u v r) (hrw : IsSum r w s) : ∃ x, IsSum v w x ∧ IsSum u x s := by
  -- At most one of the three values is a pointer.
  cases huv with
  | ints huv =>
    cases hrw with
    | ints hrw =>
      obtain ⟨hvw, hux⟩ := huv.assoc hrw
      exact ⟨_, .ints hvw, .ints hux⟩
    | intPtr hrw =>
      obtain ⟨hvw, hux⟩ := huv.assoc hrw
      exact ⟨_, .intPtr hvw, .intPtr hux⟩
  | ptrInt huv =>
    cases hrw with
    | ptrInt hrw =>
      obtain ⟨hvw, hux⟩ := huv.assoc hrw
      exact ⟨_, .ints hvw, .ptrInt hux⟩
  | intPtr huv =>
    cases hrw with
    | ptrInt hrw =>
      obtain ⟨hvw, hux⟩ := huv.assoc hrw
      exact ⟨_, .ptrInt hvw, .intPtr hux⟩

/-- A value is the result of adding two others if it is their sum. -/
theorem add_eq_some_iff_isSum : u.add v = some w ↔ IsSum u v w := by
  constructor
  · intro h
    unfold add at h
    split at h
    · cases h
      exact .ints (Word.isSum_iff_eq_add.2 rfl)
    · cases h
      exact .ptrInt (Word.isSum_iff_eq_add.2 rfl)
    · cases h
      exact .intPtr (Word.isSum_iff_eq_add.2 (BitVec.add_comm _ _))
    · cases h
  · intro h
    cases h with
    | ints h => rw [Word.isSum_iff_eq_add.1 h, add]
    | ptrInt h => rw [Word.isSum_iff_eq_add.1 h, add]
    | intPtr h => rw [Word.isSum_iff_eq_add.1 h.symm, add]

/-- A value is the result of subtracting two others if the first of these is its sum with the
second. -/
theorem sub_eq_some_iff_isSum : w.sub v = some u ↔ IsSum u v w := by
  constructor
  · intro h
    unfold sub at h
    split at h
    · cases h
      exact .ints (Word.isSum_iff_eq_sub.2 rfl)
    · cases h
      exact .ptrInt (Word.isSum_iff_eq_sub.2 rfl)
    · split at h
      · rename_i hblock
        cases h
        subst hblock
        exact .intPtr (Word.isSum_iff_eq_sub.2 rfl)
      · cases h
    · cases h
  · intro h
    cases h with
    | ints h => rw [Word.isSum_iff_eq_sub.1 h, sub]
    | ptrInt h => rw [Word.isSum_iff_eq_sub.1 h, sub]
    | intPtr h => rw [Word.isSum_iff_eq_sub.1 h, sub, if_pos rfl]

/-! ## Laws of sums and differences -/

/-- Sums do not depend on the order of the values. -/
theorem add_comm (u v : Value) : u.add v = v.add u := by
  ext w
  rw [add_eq_some_iff_isSum, add_eq_some_iff_isSum]
  exact ⟨.symm, .symm⟩

/-- Sums of three values do not depend on their grouping, and with one grouping the other one is
defined. -/
theorem bind_add_assoc (u v w : Value) :
    ((u.add v).bind fun r => r.add w) = (v.add w).bind fun x => u.add x := by
  ext s
  simp only [Option.bind_eq_some_iff, add_eq_some_iff_isSum]
  constructor
  · rintro ⟨r, huv, hrw⟩
    exact huv.assoc hrw
  · -- Read from right to left, this is the other direction.
    rintro ⟨x, hvw, hux⟩
    obtain ⟨r, hvu, hwr⟩ := hvw.symm.assoc hux.symm
    exact ⟨r, hvu.symm, hwr.symm⟩

/-! ## Pointers into one block -/

section Pointers

variable {block : BlockId} {o₁ o₂ : Word}

/-- The difference of two pointers into one block is the only value that moves the second one to the
first one. -/
theorem add_ptr_eq_ptr_iff :
    (ptr block o₂).add v = some (.ptr block o₁) ↔ v = .int (o₁ - o₂) := by
  rw [add_eq_some_iff_isSum]
  constructor
  · intro h
    cases h with
    | ptrInt h => rw [← Word.isSum_iff_eq_sub.1 h.symm]
  · rintro rfl
    exact .ptrInt (Word.isSum_iff_eq_sub.2 rfl).symm

/-- Two pointers into one block compare by their offsets, with sign. -/
theorem compareSigned?_ptr (c : Comparison) :
    compareSigned? c (.ptr block o₁) (.ptr block o₂) = some (c.signed o₁ o₂) :=
  if_pos rfl

/-- Two pointers into one block compare by their offsets, without sign. -/
theorem compareUnsigned?_ptr (c : Comparison) :
    compareUnsigned? c (.ptr block o₁) (.ptr block o₂) = some (c.unsigned o₁ o₂) :=
  if_pos rfl

end Pointers

/-- The laws of sums and differences of all values.

* A value is the result of adding two others if it is their sum.
* Sums depend neither on the order of the values nor on their grouping, also where they are
  undefined.
* Sums and differences undo each other.
* The difference of two pointers into one block is the only value that moves the second one to the
  first one. It is an integer, and the pointers are equal, with or without sign, if it is zero. -/
theorem add_sub_laws (u v w : Value) :
    (u.add v = some w ↔ IsSum u v w) ∧
    u.add v = v.add u ∧
    ((u.add v).bind fun r => r.add w) = ((v.add w).bind fun x => u.add x) ∧
    (u.add v = some w ↔ w.sub v = some u) ∧
    ∀ (block : BlockId) (o₁ o₂ : Word), ∃ n : Word,
      (ptr block o₁).sub (.ptr block o₂) = some (.int n) ∧
      (∀ x, (ptr block o₂).add x = some (.ptr block o₁) ↔ x = .int n) ∧
      compareSigned? .eq (.ptr block o₁) (.ptr block o₂) = some (decide (n = 0#32)) ∧
      compareSigned? .ne (.ptr block o₁) (.ptr block o₂) = some (decide (n ≠ 0#32)) ∧
      compareUnsigned? .eq (.ptr block o₁) (.ptr block o₂) = some (decide (n = 0#32)) ∧
      compareUnsigned? .ne (.ptr block o₁) (.ptr block o₂) = some (decide (n ≠ 0#32)) := by
  refine ⟨add_eq_some_iff_isSum, add_comm u v, bind_add_assoc u v w,
    add_eq_some_iff_isSum.trans sub_eq_some_iff_isSum.symm, fun block o₁ o₂ =>
      ⟨o₁ - o₂, if_pos rfl, fun x => add_ptr_eq_ptr_iff, ?_⟩⟩
  simp only [compareSigned?_ptr, compareUnsigned?_ptr, Comparison.signed_eq, Comparison.signed_ne,
    Comparison.unsigned_eq, Comparison.unsigned_ne, ne_eq, Word.sub_eq_zero_iff, and_self]

end Value

end RegisterMachine
