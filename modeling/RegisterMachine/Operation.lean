import RegisterMachine.Operator

/-! # Operations, addressing modes and conditions

What an instruction computes from its argument registers: a value, an address or a truth value.
These are descriptions only; what they evaluate to also depends on the stack pointer and on the
symbols of the program.

* `Condition` — a comparison with the reading of its operands.
* `Operation` — how an `op` instruction computes its result.
* `Addressing` — how a memory access computes its address.
* `mnemonic`, `arity`, argument and result types, `symbol?` — what is known of each without running
  it.
-/

namespace RegisterMachine

/-! ## Conditions -/

/-- A condition on argument values. -/
inductive Condition where
  /-- Compares two integers or pointers with sign. -/
  | signed (c : Comparison)
  /-- Compares two integers or pointers without sign. -/
  | unsigned (c : Comparison)
  /-- Compares an integer or pointer with a constant, with sign. -/
  | signedImm (c : Comparison) (n : Word)
  /-- Compares an integer or pointer with a constant, without sign. -/
  | unsignedImm (c : Comparison) (n : Word)
  /-- Compares two doubles. -/
  | float (c : Comparison)
  /-- Holds where the comparison of two doubles does not, as when one of them is not a number. -/
  | notFloat (c : Comparison)
  deriving DecidableEq, Repr

namespace Condition

/-- The word that names the kind of condition. -/
def mnemonic : Condition → String
  | .signed _ => "cmp"
  | .unsigned _ => "cmpu"
  | .signedImm _ _ => "cmpimm"
  | .unsignedImm _ _ => "cmpuimm"
  | .float _ => "cmpf"
  | .notFloat _ => "notcmpf"

/-- Number of arguments. -/
def arity : Condition → Nat
  | .signedImm _ _ | .unsignedImm _ _ => 1
  | _ => 2

/-- The type of every argument. -/
def argumentType : Condition → DataType
  | .float _ | .notFloat _ => .float
  | _ => .int

end Condition

/-! ## Operations -/

/-- How a value is computed. -/
inductive Operation where
  /-- The argument itself. -/
  | move
  /-- A constant word. -/
  | intConst (n : Word)
  /-- A constant double. -/
  | floatConst (x : Double)
  /-- The address of a symbol plus a byte offset. -/
  | addrSymbol (symbol : String) (offset : Word)
  /-- The stack pointer plus a byte offset. -/
  | addrStack (offset : Word)
  /-- An operator on one argument. -/
  | unary (op : UnaryOp)
  /-- An operator on two arguments. -/
  | binary (op : BinaryOp)
  /-- An operator on a constant and one argument. -/
  | immediate (op : ImmediateOp) (n : Word)
  /-- One where the condition holds and zero where it does not. -/
  | compare (cond : Condition)
  deriving BEq, DecidableEq, Repr

namespace Operation

/-- The word that names an operation. -/
def mnemonic : Operation → String
  | .move => "move"
  | .intConst _ => "intconst"
  | .floatConst _ => "floatconst"
  | .addrSymbol _ _ => "addrsymbol"
  | .addrStack _ => "addrstack"
  | .unary op => op.name
  | .binary op => op.name
  | .immediate op _ => op.name
  | .compare _ => "cmp"

/-- Number of arguments. -/
def arity : Operation → Nat
  | .intConst _ | .floatConst _ | .addrSymbol _ _ | .addrStack _ => 0
  | .move | .unary _ | .immediate _ _ => 1
  | .binary _ => 2
  | .compare c => c.arity

/-- The type of every argument. A move has none of its own: it takes what its destination holds. -/
def argumentType? : Operation → Option DataType
  | .move => none
  | .unary op => some op.argumentType
  | .binary op => some op.dataType
  | .compare c => some c.argumentType
  | _ => some .int

/-- The type of the result. A move has none of its own: it keeps its argument. -/
def resultType? : Operation → Option DataType
  | .move => none
  | .floatConst _ => some .float
  | .unary op => some op.resultType
  | .binary op => some op.dataType
  | _ => some .int

/-- The symbol that an operation refers to. -/
def symbol? : Operation → Option String
  | .addrSymbol s _ => some s
  | _ => none

end Operation

/-! ## Addressing modes -/

/-- How the address of a memory access is computed. -/
inductive Addressing where
  /-- The argument plus a byte offset. -/
  | indexed (offset : Word)
  /-- The sum of two arguments. -/
  | indexedTwo
  /-- The address of a symbol plus a byte offset. -/
  | global (symbol : String) (offset : Word)
  /-- The address of a symbol plus a byte offset plus the argument. -/
  | based (symbol : String) (offset : Word)
  /-- The stack pointer plus a byte offset. -/
  | stack (offset : Word)
  deriving DecidableEq, Repr

namespace Addressing

/-- The word that names an addressing mode. -/
def mnemonic : Addressing → String
  | .indexed _ => "indexed"
  | .indexedTwo => "indexed2"
  | .global _ _ => "global"
  | .based _ _ => "based"
  | .stack _ => "stack"

/-- Number of arguments. -/
def arity : Addressing → Nat
  | .global _ _ | .stack _ => 0
  | .indexed _ | .based _ _ => 1
  | .indexedTwo => 2

/-- The symbol that an addressing mode refers to. -/
def symbol? : Addressing → Option String
  | .global s _ | .based s _ => some s
  | _ => none

end Addressing

end RegisterMachine
