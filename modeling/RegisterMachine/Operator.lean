import RegisterMachine.Value

/-! # Operators

An operator computes a value from one or two argument values. Each has a name, one type for all its
arguments and one for its result; outside these types, and for a few integer arguments, it has no
result.

* `UnaryOp`, `BinaryOp` — operators on registers.
* `ImmediateOp` — operators on a register and a constant word.
* `argumentType`, `resultType`, `apply` — the types and the meaning of each.
-/

namespace RegisterMachine

/-! ## Unary operators -/

/-- An operator on one value. -/
inductive UnaryOp where
  /-- The low byte, read with its sign. -/
  | cast8Signed
  /-- The low byte, read without sign. -/
  | cast8Unsigned
  /-- The low two bytes, read with their sign. -/
  | cast16Signed
  /-- The low two bytes, read without sign. -/
  | cast16Unsigned
  /-- The integer with its sign changed. -/
  | neg
  /-- The integer with every bit flipped. -/
  | not
  /-- The double with its sign changed. -/
  | negFloat
  /-- The absolute value of a double. -/
  | absFloat
  /-- The double rounded to single precision. -/
  | singleOfFloat
  /-- The integer part of a double. -/
  | intOfFloat
  /-- The double that equals an integer. -/
  | floatOfInt
  /-- The double that equals an integer read without sign. -/
  | floatOfUnsigned
  deriving DecidableEq, Repr

namespace UnaryOp

instance : Vocabulary UnaryOp where
  all := [.cast8Signed, .cast8Unsigned, .cast16Signed, .cast16Unsigned, .neg, .not, .negFloat,
    .absFloat, .singleOfFloat, .intOfFloat, .floatOfInt, .floatOfUnsigned]
  name
    | .cast8Signed => "cast8signed"
    | .cast8Unsigned => "cast8unsigned"
    | .cast16Signed => "cast16signed"
    | .cast16Unsigned => "cast16unsigned"
    | .neg => "neg"
    | .not => "not"
    | .negFloat => "negf"
    | .absFloat => "absf"
    | .singleOfFloat => "singleoffloat"
    | .intOfFloat => "intoffloat"
    | .floatOfInt => "floatofint"
    | .floatOfUnsigned => "floatofintu"

/-- The spelling of an operator. -/
abbrev name (op : UnaryOp) : String := Vocabulary.name op

/-- The type of the argument. -/
def argumentType : UnaryOp → DataType
  | .negFloat | .absFloat | .singleOfFloat | .intOfFloat => .float
  | _ => .int

/-- The type of the result. -/
def resultType : UnaryOp → DataType
  | .negFloat | .absFloat | .singleOfFloat | .floatOfInt | .floatOfUnsigned => .float
  | _ => .int

/-- The result of an operator, if it has one for this argument. -/
def apply : UnaryOp → Value → Option Value
  | .cast8Signed => Value.onWord fun a => some (.int ((a.setWidth 8).signExtend 32))
  | .cast8Unsigned => Value.onWord fun a => some (.int ((a.setWidth 8).setWidth 32))
  | .cast16Signed => Value.onWord fun a => some (.int ((a.setWidth 16).signExtend 32))
  | .cast16Unsigned => Value.onWord fun a => some (.int ((a.setWidth 16).setWidth 32))
  | .neg => Value.onWord fun a => some (.int (-a))
  | .not => Value.onWord fun a => some (.int (~~~a))
  | .negFloat => Value.onDouble fun x => some (.float x.neg)
  | .absFloat => Value.onDouble fun x => some (.float x.abs)
  | .singleOfFloat => Value.onDouble fun x => some (.float (.ofSingle x.toSingle))
  | .intOfFloat => Value.onDouble fun x => x.toWord?.map .int
  | .floatOfInt => Value.onWord fun a => some (.float (.ofInt a.toInt))
  | .floatOfUnsigned => Value.onWord fun a => some (.float (.ofInt a.toNat))

end UnaryOp

/-! ## Binary operators -/

namespace Word

/-- The signed quotient, rounded toward zero. There is none for divisor zero, nor for the least
word divided by -1, whose quotient is no word. -/
def divSigned? (a b : Word) : Option Word :=
  if b = 0#32 ∨ (a = BitVec.intMin 32 ∧ b = -1#32) then none else some (a.sdiv b)

/-- The remainder of the signed quotient, defined where that is. -/
def modSigned? (a b : Word) : Option Word :=
  if b = 0#32 ∨ (a = BitVec.intMin 32 ∧ b = -1#32) then none else some (a.srem b)

/-- The unsigned quotient. There is none for divisor zero. -/
def divUnsigned? (a b : Word) : Option Word :=
  if b = 0#32 then none else some (a.udiv b)

/-- The remainder of the unsigned quotient, defined where that is. -/
def modUnsigned? (a b : Word) : Option Word :=
  if b = 0#32 then none else some (a.umod b)

/-- Applies a shift by the unsigned reading of a word. There is no shift by the width of a word or
more. -/
def shiftBy? (shift : Word → Nat → Word) (a b : Word) : Option Word :=
  if b.toNat < 32 then some (shift a b.toNat) else none

end Word

/-- An operator on two values. -/
inductive BinaryOp where
  /-- The sum of integers, or a pointer moved forward. -/
  | add
  /-- The difference of integers, a pointer moved back, or the distance of two pointers. -/
  | sub
  /-- The product. -/
  | mul
  /-- The signed quotient. -/
  | divSigned
  /-- The unsigned quotient. -/
  | divUnsigned
  /-- The signed remainder. -/
  | modSigned
  /-- The unsigned remainder. -/
  | modUnsigned
  /-- Bitwise conjunction. -/
  | and
  /-- Bitwise disjunction. -/
  | or
  /-- Bitwise difference. -/
  | xor
  /-- Shift to the left. -/
  | shiftLeft
  /-- Shift to the right that keeps the sign. -/
  | shiftRight
  /-- Shift to the right that fills with zeros. -/
  | shiftRightUnsigned
  /-- The sum of doubles. -/
  | addFloat
  /-- The difference of doubles. -/
  | subFloat
  /-- The product of doubles. -/
  | mulFloat
  /-- The quotient of doubles. -/
  | divFloat
  deriving DecidableEq, Repr

namespace BinaryOp

instance : Vocabulary BinaryOp where
  all := [.add, .sub, .mul, .divSigned, .divUnsigned, .modSigned, .modUnsigned, .and, .or, .xor,
    .shiftLeft, .shiftRight, .shiftRightUnsigned, .addFloat, .subFloat, .mulFloat, .divFloat]
  name
    | .add => "add"
    | .sub => "sub"
    | .mul => "mul"
    | .divSigned => "divs"
    | .divUnsigned => "divu"
    | .modSigned => "mods"
    | .modUnsigned => "modu"
    | .and => "and"
    | .or => "or"
    | .xor => "xor"
    | .shiftLeft => "shl"
    | .shiftRight => "shr"
    | .shiftRightUnsigned => "shru"
    | .addFloat => "addf"
    | .subFloat => "subf"
    | .mulFloat => "mulf"
    | .divFloat => "divf"

/-- The spelling of an operator. -/
abbrev name (op : BinaryOp) : String := Vocabulary.name op

/-- The type of both arguments and of the result. -/
def dataType : BinaryOp → DataType
  | .addFloat | .subFloat | .mulFloat | .divFloat => .float
  | _ => .int

/-- The result of an operator, if it has one for these arguments. -/
def apply : BinaryOp → Value → Value → Option Value
  | .add => Value.add
  | .sub => Value.sub
  | .mul => Value.onWords fun a b => some (a * b)
  | .divSigned => Value.onWords Word.divSigned?
  | .divUnsigned => Value.onWords Word.divUnsigned?
  | .modSigned => Value.onWords Word.modSigned?
  | .modUnsigned => Value.onWords Word.modUnsigned?
  | .and => Value.onWords fun a b => some (a &&& b)
  | .or => Value.onWords fun a b => some (a ||| b)
  | .xor => Value.onWords fun a b => some (a ^^^ b)
  | .shiftLeft => Value.onWords (Word.shiftBy? fun a s => a <<< s)
  | .shiftRight => Value.onWords (Word.shiftBy? BitVec.sshiftRight)
  | .shiftRightUnsigned => Value.onWords (Word.shiftBy? fun a s => a >>> s)
  | .addFloat => Value.onDoubles Double.add
  | .subFloat => Value.onDoubles Double.sub
  | .mulFloat => Value.onDoubles Double.mul
  | .divFloat => Value.onDoubles Double.div

end BinaryOp

/-! ## Operators with a constant -/

/-- An operator on a value and a constant word. -/
inductive ImmediateOp where
  /-- The value plus the constant. -/
  | add
  /-- The constant minus the value. -/
  | subFrom
  /-- The product. -/
  | mul
  /-- Bitwise conjunction. -/
  | and
  /-- Bitwise disjunction. -/
  | or
  /-- Bitwise difference. -/
  | xor
  /-- Shift to the left by the constant. -/
  | shiftLeft
  /-- Shift to the right by the constant, keeping the sign. -/
  | shiftRight
  /-- Shift to the right by the constant, filling with zeros. -/
  | shiftRightUnsigned
  deriving DecidableEq, Repr

namespace ImmediateOp

instance : Vocabulary ImmediateOp where
  all := [.add, .subFrom, .mul, .and, .or, .xor, .shiftLeft, .shiftRight, .shiftRightUnsigned]
  name
    | .add => "addimm"
    | .subFrom => "rsubimm"
    | .mul => "mulimm"
    | .and => "andimm"
    | .or => "orimm"
    | .xor => "xorimm"
    | .shiftLeft => "shlimm"
    | .shiftRight => "shrimm"
    | .shiftRightUnsigned => "shruimm"

/-- The spelling of an operator. -/
abbrev name (op : ImmediateOp) : String := Vocabulary.name op

/-- The result of an operator, if it has one for this constant and argument. -/
def apply (op : ImmediateOp) (n : Word) (v : Value) : Option Value :=
  match op with
  | .add => BinaryOp.add.apply v (.int n)
  | .subFrom => BinaryOp.sub.apply (.int n) v
  | .mul => BinaryOp.mul.apply v (.int n)
  | .and => BinaryOp.and.apply v (.int n)
  | .or => BinaryOp.or.apply v (.int n)
  | .xor => BinaryOp.xor.apply v (.int n)
  | .shiftLeft => BinaryOp.shiftLeft.apply v (.int n)
  | .shiftRight => BinaryOp.shiftRight.apply v (.int n)
  | .shiftRightUnsigned => BinaryOp.shiftRightUnsigned.apply v (.int n)

end ImmediateOp

end RegisterMachine
