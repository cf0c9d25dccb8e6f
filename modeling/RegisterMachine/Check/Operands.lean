import RegisterMachine.Check.Violation

/-! # Operands

Every instruction has as many argument registers as its operation, addressing mode or condition
takes, and each register is of the class that its position asks for. The argument of a move is of
the class of its destination.

* `Program.operandViolations` — what is wrong with the operands of instructions.
-/

namespace RegisterMachine

/-- What is wrong with a number of arguments. -/
def arityViolations (func : String) (pos : Nat) (mnemonic : String) (expected found : Nat) :
    List Violation :=
  if expected = found then [] else [.arityMismatch func pos mnemonic expected found]

/-- What is wrong with the class of a register. -/
def classViolations (func : String) (pos : Nat) (expected : DataType) (reg : Register) :
    List Violation :=
  if reg.dataType = expected then [] else [.registerClass func pos reg expected]

/-- What is wrong with the classes of the registers of an operation. -/
def operationViolations (func : String) (pos : Nat) (op : Operation) (args : List Register)
    (dst : Register) : List Violation :=
  match op.argumentType?, op.resultType? with
  | some argument, some result =>
    args.flatMap (classViolations func pos argument) ++ classViolations func pos result dst
  | _, _ => args.flatMap (classViolations func pos dst.dataType)

/-- What is wrong with the operands of an instruction. -/
def Instruction.operandViolations (func : String) (pos : Nat) : Instruction → List Violation
  | .getStack _ t dst => classViolations func pos t dst
  | .getParam _ t dst => classViolations func pos t dst
  | .setStack src _ t => classViolations func pos t src
  | .op operation args dst =>
    arityViolations func pos operation.mnemonic operation.arity args.length ++
      operationViolations func pos operation args dst
  | .load chunk mode args dst =>
    arityViolations func pos mode.mnemonic mode.arity args.length ++
      args.flatMap (classViolations func pos .int) ++ classViolations func pos chunk.dataType dst
  | .store chunk mode args src =>
    arityViolations func pos mode.mnemonic mode.arity args.length ++
      args.flatMap (classViolations func pos .int) ++ classViolations func pos chunk.dataType src
  | .call (.register r) => classViolations func pos .int r
  | .tailCall (.register r) => classViolations func pos .int r
  | .cond condition args _ =>
    arityViolations func pos condition.mnemonic condition.arity args.length ++
      args.flatMap (classViolations func pos condition.argumentType)
  | .jumpTable arg _ => classViolations func pos .int arg
  | _ => []

/-- What is wrong with the operands of instructions. -/
def Program.operandViolations (p : Program) : List Violation :=
  p.inFunctions fun name f => f.inCode (Instruction.operandViolations name)

end RegisterMachine
