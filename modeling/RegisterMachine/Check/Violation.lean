import RegisterMachine.Program

/-! # Violations

What a static check of a program finds wrong. Checks collect every violation; those inside a
function name it, and the position of the instruction where there is one.

* `Violation` — one thing that is wrong.
* `Violation.message` — its text.
-/

namespace RegisterMachine

/-- The two sizes of a frame. -/
inductive FrameSize where
  /-- Bytes of slots. -/
  | frame
  /-- Bytes of local data. -/
  | stack
  deriving DecidableEq, Repr

/-- A size as it is named in a violation. -/
def FrameSize.label : FrameSize → String
  | .frame => "frame size"
  | .stack => "stack size"

/-- The two slots of a frame that belong to the machine. -/
inductive ReservedSlot where
  /-- The slot of the caller's stack pointer. -/
  | link
  /-- The slot of the caller's return address. -/
  | returnAddress
  deriving DecidableEq, Repr

/-- A reserved slot as it is named in a violation. -/
def ReservedSlot.label : ReservedSlot → String
  | .link => "link"
  | .returnAddress => "return-address"

/-- Something that is wrong with a program. -/
inductive Violation where
  /-- A global has the name of an earlier one. -/
  | duplicateSymbol (name : String)
  /-- No global has the name of the entry point. -/
  | missingEntry (name : String)
  /-- The entry point is a variable or an external function. -/
  | entryNotInternal (name : String)
  /-- The entry point has arguments, or no integer result. -/
  | badEntrySignature (name : String) (sig : Signature)
  /-- An instruction refers to a symbol that is no global. -/
  | unknownSymbol (func : String) (pos : Nat) (name : String)
  /-- A call names a variable. -/
  | callToVariable (func : String) (pos : Nat) (name : String)
  /-- Initial contents refer to a symbol that is no global. -/
  | unknownInitSymbol (var name : String)
  /-- A size is negative or no multiple of a word. -/
  | badSize (func : String) (which : FrameSize) (size : Int)
  /-- A frame exceeds the greatest size. -/
  | frameTooLarge (func : String) (size : Int)
  /-- A reserved slot lies outside the frame. -/
  | reservedSlotOutOfFrame (func : String) (which : ReservedSlot) (slot : Int)
  /-- The reserved slots are one slot. -/
  | reservedSlotsOverlap (func : String) (slot : Int)
  /-- An instruction accesses a slot outside the frame. -/
  | slotOutOfFrame (func : String) (pos : Nat) (slot : Int)
  /-- The arguments of a call do not fit into the frame. -/
  | outgoingOutOfFrame (func : String) (pos : Nat) (callee : String) (words : Nat)
  /-- The arguments of a call lie over a reserved slot. -/
  | outgoingOverlapsSlot (func : String) (pos : Nat) (callee : String) (which : ReservedSlot)
      (slot : Int)
  /-- A tail call passes arguments in the frame that it gives up. -/
  | tailCallStackArguments (func : String) (pos : Nat) (callee : String) (words : Nat)
  /-- A variable exceeds the greatest size. -/
  | variableTooLarge (name : String) (size : Nat)
  /-- An instruction reads a parameter slot below the caller's stack pointer. -/
  | negativeParam (func : String) (pos : Nat) (slot : Int)
  /-- A label stands a second time in a function. -/
  | duplicateLabel (func : String) (pos : Nat) (l : Label)
  /-- A branch goes to a label that the function does not have. -/
  | undefinedLabel (func : String) (pos : Nat) (l : Label)
  /-- Control can pass the last instruction. -/
  | fallsOffEnd (func : String)
  /-- An instruction has the wrong number of arguments. -/
  | arityMismatch (func : String) (pos : Nat) (mnemonic : String) (expected found : Nat)
  /-- A register is of the wrong class. -/
  | registerClass (func : String) (pos : Nat) (reg : Register) (expected : DataType)
  deriving DecidableEq, Repr

/-- The greatest size of a frame, in bytes. -/
def maxFrameSize : Nat := 1048576

/-- The text of a violation. -/
def Violation.message : Violation → String
  | .duplicateSymbol name => "symbol '" ++ name ++ "' defined more than once"
  | .missingEntry name => "entry point '" ++ name ++ "' is not defined"
  | .entryNotInternal name => "entry point '" ++ name ++ "' is not an internal function"
  | .badEntrySignature name sig =>
    "entry point '" ++ name ++ "' has signature " ++ sig.toText ++ ", expected () -> int"
  | .unknownSymbol func i name =>
    "unknown symbol '" ++ name ++ "' in " ++ func ++ " at instruction " ++ toString i
  | .callToVariable func i name =>
    "call to non-function '" ++ name ++ "' in " ++ func ++ " at instruction " ++ toString i
  | .unknownInitSymbol var name =>
    "initializer of '" ++ var ++ "' refers to unknown symbol '" ++ name ++ "'"
  | .badSize func which size =>
    func ++ ": " ++ which.label ++ " " ++ toString size ++ " is negative or not word-aligned"
  | .frameTooLarge func size =>
    func ++ ": frame of " ++ toString size ++ " bytes exceeds the limit of " ++
      toString maxFrameSize
  | .reservedSlotOutOfFrame func which slot =>
    func ++ ": " ++ which.label ++ " slot " ++ toString slot ++ " lies outside the frame"
  | .reservedSlotsOverlap func slot =>
    func ++ ": link and return-address slots overlap at " ++ toString slot
  | .slotOutOfFrame func i slot =>
    func ++ ": stack slot " ++ toString slot ++ " at instruction " ++ toString i ++
      " lies outside the frame"
  | .outgoingOutOfFrame func i callee words =>
    func ++ ": call to '" ++ callee ++ "' at instruction " ++ toString i ++ " needs " ++
      toString words ++ " outgoing words beyond the frame"
  | .outgoingOverlapsSlot func i callee which slot =>
    func ++ ": arguments of call to '" ++ callee ++ "' at instruction " ++ toString i ++
      " overwrite the " ++ which.label ++ " slot " ++ toString slot
  | .tailCallStackArguments func i callee words =>
    func ++ ": tail call to '" ++ callee ++ "' at instruction " ++ toString i ++ " passes " ++
      toString words ++ " words on the stack"
  | .variableTooLarge name size =>
    "variable '" ++ name ++ "' of " ++ toString size ++ " bytes exceeds the limit of " ++
      toString maxVariableSize
  | .negativeParam func i slot =>
    func ++ ": parameter slot " ++ toString slot ++ " at instruction " ++ toString i ++
      " is negative"
  | .duplicateLabel func i l =>
    func ++ ": label " ++ toString l.toNat ++ " defined again at instruction " ++ toString i
  | .undefinedLabel func i l =>
    func ++ ": branch to undefined label " ++ toString l.toNat ++ " at instruction " ++ toString i
  | .fallsOffEnd func => func ++ ": control can fall off the end of the function"
  | .arityMismatch func i mnemonic expected found =>
    func ++ ": '" ++ mnemonic ++ "' at instruction " ++ toString i ++ " takes " ++
      toString expected ++ " arguments, found " ++ toString found
  | .registerClass func i reg expected =>
    func ++ ": register " ++ reg.name ++ " at instruction " ++ toString i ++ " should hold " ++
      expected.name

namespace Program

/-- Collects violations from every function with code. -/
def inFunctions (p : Program) (check : String → Function → List Violation) : List Violation :=
  p.functions.flatMap fun g => check g.1 g.2

end Program

/-- Collects violations from every instruction of a function, given its position. -/
def Function.inCode (f : Function) (check : Nat → Instruction → List Violation) : List Violation :=
  f.code.toList.zipIdx.flatMap fun i => check i.2 i.1

end RegisterMachine
