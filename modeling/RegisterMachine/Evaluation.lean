import RegisterMachine.Environment

/-! # Evaluation

What operations, addressing modes and conditions evaluate to, given the values of their arguments,
the stack pointer and the environment. There is no result for the wrong number of arguments, nor
where an operator has none.

* `Condition.eval?`, `Operation.eval?`, `Addressing.eval?`.
-/

namespace RegisterMachine

/-- Whether a condition holds, where it is defined. -/
def Condition.eval? : Condition → List Value → Option Bool
  | .signed c, [v, w] => Value.compareSigned? c v w
  | .unsigned c, [v, w] => Value.compareUnsigned? c v w
  | .signedImm c n, [v] => Value.compareSigned? c v (.int n)
  | .unsignedImm c n, [v] => Value.compareUnsigned? c v (.int n)
  | .float c, [v, w] => Value.compareFloat? c v w
  | .notFloat c, [v, w] => (Value.compareFloat? c v w).map (!·)
  | _, _ => none

/-- The truth value of a condition as an integer: one or zero. -/
def Value.ofBool (b : Bool) : Value := .int (if b then 1#32 else 0#32)

/-- The result of an operation, where it is defined. -/
def Operation.eval? (env : Environment) (sp : Value) : Operation → List Value → Option Value
  | .move, [v] => some v
  | .intConst n, [] => some (.int n)
  | .floatConst x, [] => some (.float x)
  | .addrSymbol symbol offset, [] => env.address? symbol offset
  | .addrStack offset, [] => sp.add (.int offset)
  | .unary op, [v] => op.apply v
  | .binary op, [v, w] => op.apply v w
  | .immediate op n, [v] => op.apply n v
  | .compare cond, args => (cond.eval? args).map Value.ofBool
  | _, _ => none

/-- The address that an addressing mode forms, where it is defined. It need not be a pointer. -/
def Addressing.eval? (env : Environment) (sp : Value) : Addressing → List Value → Option Value
  | .indexed offset, [v] => v.add (.int offset)
  | .indexedTwo, [v, w] => v.add w
  | .global symbol offset, [] => env.address? symbol offset
  | .based symbol offset, [v] => (env.address? symbol offset).bind fun a => a.add v
  | .stack offset, [] => sp.add (.int offset)
  | _, _ => none

end RegisterMachine
