import RegisterMachine.Instruction

/-! # Programs

A program is a list of named globals in the order of their declaration, and the name of its entry
point. A global is a function with code, a function supplied by the surroundings, or a variable with
initial contents.

* `Signature` — argument and result types of a function.
* `Function`, `ExternalFunction`, `FunctionDef` — what is called.
* `InitialData`, `Global`, `Program` — what is declared.
-/

namespace RegisterMachine

/-! ## Functions -/

/-- The types of the arguments of a function, and of its result if it has one. -/
structure Signature where
  /-- Argument types, in order. -/
  arguments : List DataType
  /-- The type of the result, if there is one. -/
  result? : Option DataType
  deriving DecidableEq, Repr

namespace Signature

/-- The signature of an entry point: no arguments and an integer result. -/
def main : Signature := ⟨[], some .int⟩

/-- The type of the value that a call leaves behind: an integer where no result is declared. -/
def resultType (sig : Signature) : DataType := sig.result?.getD .int

/-- The text of a signature. -/
def toText (sig : Signature) : String :=
  let arguments := "(" ++ String.intercalate " " (sig.arguments.map DataType.name) ++ ")"
  match sig.result? with
  | some t => arguments ++ " -> " ++ t.name
  | none => arguments

end Signature

/-- A function with code. Its frame is a block with bounds `-frameSize` and `stackSize`; the stack
pointer points at its low end, so the slots lie from there up. -/
structure Function where
  /-- Argument and result types. -/
  signature : Signature
  /-- The instructions. -/
  code : Array Instruction
  /-- Bytes of the frame below offset zero: the slots. -/
  frameSize : Word
  /-- Bytes of the frame from offset zero up: local data. -/
  stackSize : Word
  /-- The slot that holds the caller's stack pointer. -/
  linkSlot : Word
  /-- The slot that holds the caller's return address. -/
  returnSlot : Word
  deriving BEq, DecidableEq

/-- A function that the machine does not look into. -/
structure ExternalFunction where
  /-- The name by which the surroundings know it. -/
  name : String
  /-- Argument and result types. -/
  signature : Signature
  deriving DecidableEq

/-- The definition of a function. -/
inductive FunctionDef where
  /-- A function with code. -/
  | internal (f : Function)
  /-- A function supplied by the surroundings. -/
  | external (ef : ExternalFunction)
  deriving BEq, DecidableEq

/-- The signature of a function. -/
def FunctionDef.signature : FunctionDef → Signature
  | .internal f => f.signature
  | .external ef => ef.signature

/-! ## Variables -/

/-- An item of the initial contents of a variable. -/
inductive InitialData where
  /-- The low byte of a word. -/
  | int8 (n : Word)
  /-- The low two bytes of a word. -/
  | int16 (n : Word)
  /-- A word. -/
  | int32 (n : Word)
  /-- A double, rounded to single precision. -/
  | float32 (x : Double)
  /-- A double. -/
  | float64 (x : Double)
  /-- Zero bytes, counted by a word read without sign. -/
  | space (count : Word)
  /-- The address of a symbol plus a byte offset. -/
  | address (symbol : String) (offset : Word)
  deriving BEq, DecidableEq, Repr

namespace InitialData

/-- Number of bytes that an item fills. -/
def size : InitialData → Nat
  | .int8 _ => 1
  | .int16 _ => 2
  | .int32 _ | .float32 _ | .address _ _ => 4
  | .float64 _ => 8
  | .space count => count.toNat

/-- Number of bytes that a list of items fills. -/
def totalSize : List InitialData → Nat
  | [] => 0
  | item :: items => item.size + totalSize items

end InitialData

/-- The greatest size of a variable, in bytes. -/
def maxVariableSize : Nat := 16777216

/-! ## Programs -/

/-- A global: something that a program declares under a name. -/
inductive Global where
  /-- A function. -/
  | function (d : FunctionDef)
  /-- A variable, with its initial contents in order. -/
  | variable (init : List InitialData)
  deriving BEq, DecidableEq

/-- Whether a global is a function. -/
def Global.isFunction : Global → Bool
  | .function _ => true
  | .variable _ => false

/-- A program. -/
structure Program where
  /-- The globals and their names, in the order of declaration. -/
  globals : List (String × Global)
  /-- The name of the function with which a run begins. -/
  entry : String
  deriving BEq, DecidableEq

namespace Program

/-- The program without globals, whose entry point is called `main`. -/
def empty : Program := ⟨[], "main"⟩

/-- The first global of a name. -/
def global? (p : Program) (name : String) : Option Global :=
  (p.globals.find? fun g => g.1 = name).map (·.2)

/-- The functions with code, and their names. -/
def functions (p : Program) : List (String × Function) :=
  p.globals.filterMap fun g =>
    match g.2 with
    | .function (.internal f) => some (g.1, f)
    | _ => none

end Program

end RegisterMachine
