import RegisterMachine.Environment

/-! # Machine states

A state says what the machine is about to do, and holds the suspended callers, the registers and
memory. A call passes through a state of its own before the function is entered, and so does a
return before the caller goes on.

* `Activation`, `CallStack` — suspended callers, the innermost first.
* `CallStack.callerSp`, `CallStack.callerRa` — what the current function must leave as it found it.
* `Control`, `State` — the three kinds of states.
* `Stuck` — why a state has no successor, and its text.
-/

namespace RegisterMachine

/-- The record of a suspended caller. -/
structure Activation where
  /-- The block of its function. -/
  func : BlockId
  /-- Its stack pointer. -/
  sp : Value
  /-- The return address of the call. -/
  ra : Value
  /-- The instruction with which it goes on. -/
  pc : Nat
  deriving DecidableEq, Repr

/-- Suspended callers, the innermost first. -/
abbrev CallStack := List Activation

namespace CallStack

/-- The stack pointer of the innermost caller; zero where there is none. -/
def callerSp : CallStack → Value
  | [] => .zero
  | a :: _ => a.sp

/-- The return address of the innermost caller; zero where there is none. -/
def callerRa : CallStack → Value
  | [] => .zero
  | a :: _ => a.ra

@[simp] theorem callerSp_nil : callerSp [] = .zero := rfl

@[simp] theorem callerSp_cons (a : Activation) (stack : CallStack) :
    callerSp (a :: stack) = a.sp := rfl

@[simp] theorem callerRa_nil : callerRa [] = .zero := rfl

@[simp] theorem callerRa_cons (a : Activation) (stack : CallStack) :
    callerRa (a :: stack) = a.ra := rfl

end CallStack

/-- What the machine is about to do. -/
inductive Control where
  /-- To execute an instruction of a function, with a stack pointer. -/
  | running (func : BlockId) (sp : Value) (pc : Nat)
  /-- To enter a function. Its arguments are in registers and in the caller's outgoing area. -/
  | calling (callee : BlockId)
  /-- To go on in the innermost caller. The result is in the result register. -/
  | returning
  deriving DecidableEq, Repr

/-- A machine state. -/
structure State where
  /-- What is to be done. -/
  control : Control
  /-- Suspended callers. -/
  stack : CallStack
  /-- Values of the registers. -/
  regs : RegisterFile
  /-- Contents of memory. -/
  mem : Memory
  deriving DecidableEq

namespace State

/-- Number of suspended callers. -/
def depth (s : State) : Nat := s.stack.length

/-- Whether the outermost function has returned. -/
def isFinal (s : State) : Bool :=
  match s.control, s.stack with
  | .returning, [] => true
  | _, _ => false

theorem isFinal_iff {s : State} : s.isFinal = true ↔ s.control = .returning ∧ s.stack = [] := by
  unfold isFinal
  split
  · simp_all
  · rename_i h
    simp
    exact h

end State

/-- Why a state has no successor. -/
inductive Stuck where
  /-- Memory refused an access or the release of a frame. -/
  | memory (e : MemoryError)
  /-- A call names a symbol that is no global. -/
  | unknownSymbol (name : String)
  /-- A call goes to a value that is no function pointer. -/
  | notAFunction (v : Value)
  /-- A block identifies no function. -/
  | unknownFunction (b : BlockId)
  /-- A function without code is to execute an instruction. -/
  | notInternal (b : BlockId)
  /-- An operation has no result for its arguments. -/
  | undefinedOperation (mnemonic : String)
  /-- An addressing mode forms no address from its arguments. -/
  | undefinedAddress (mnemonic : String)
  /-- A condition is not defined for its arguments. -/
  | undefinedCondition (mnemonic : String)
  /-- A branch goes to a label that the function does not have. -/
  | missingLabel (l : Label)
  /-- The index into a jump table is no integer within the table. -/
  | badJumpIndex (v : Value)
  /-- Control passed the last instruction of a function. -/
  | endOfCode
  /-- A call has no return address. -/
  | noReturnAddress
  /-- The link slot does not hold the caller's stack pointer. -/
  | linkMismatch (stored expected : Value)
  /-- The return-address slot does not hold the caller's return address. -/
  | returnAddressMismatch (stored expected : Value)
  /-- An external call has no outcome. -/
  | externalCallFailed (name : String)
  /-- The outermost function has returned. -/
  | finished
  /-- The outermost function left a result that is no integer. -/
  | badExitValue (v : Value)
  deriving DecidableEq, Repr

/-- The text of a reason for being stuck. -/
def Stuck.message : Stuck → String
  | .memory e => "memory fault: " ++ e.message
  | .unknownSymbol name => "unknown symbol '" ++ name ++ "'"
  | .notAFunction v => "call through non-function value " ++ v.toText
  | .unknownFunction b => "no function at block " ++ toString b
  | .notInternal b => "function at block " ++ toString b ++ " is not internal"
  | .undefinedOperation m => "operation '" ++ m ++ "' undefined for its operands"
  | .undefinedAddress m => "addressing mode '" ++ m ++ "' undefined for its operands"
  | .undefinedCondition m => "condition '" ++ m ++ "' undefined for its operands"
  | .missingLabel l => "label " ++ toString l.toNat ++ " not found"
  | .badJumpIndex v => "jump table index " ++ v.toText ++ " out of range"
  | .endOfCode => "fell off the end of the function"
  | .noReturnAddress => "no return address for call site"
  | .linkMismatch stored expected =>
    "link slot holds " ++ stored.toText ++ ", expected " ++ expected.toText
  | .returnAddressMismatch stored expected =>
    "return-address slot holds " ++ stored.toText ++ ", expected " ++ expected.toText
  | .externalCallFailed name => "external call '" ++ name ++ "' has no outcome"
  | .finished => "program has finished"
  | .badExitValue v => "exit value " ++ v.toText ++ " is not an integer"

end RegisterMachine
