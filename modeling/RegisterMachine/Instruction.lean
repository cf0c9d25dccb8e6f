import RegisterMachine.Operation
import RegisterMachine.Register

/-! # Instructions

The instruction set. Slot offsets count words from the stack pointer; offsets in addressing modes
count bytes.

* `Instruction`, `Callee` — the instructions, and the target of a call.
* `Instruction.targets`, `Instruction.endsBlock` — where control may go.
* `findLabel?` — the position after a label.
-/

namespace RegisterMachine

/-- A code label, read without sign. Labels belong to one function. -/
abbrev Label := Word

/-- The function to which a call transfers control. -/
inductive Callee where
  /-- The function that a register points to. -/
  | register (r : Register)
  /-- The function of a name. -/
  | symbol (name : String)
  deriving DecidableEq, Repr

/-- The text of a call target. -/
def Callee.toText : Callee → String
  | .register r => r.name
  | .symbol s => s

/-- An instruction. -/
inductive Instruction where
  /-- A place to branch to. No effect. -/
  | label (l : Label)
  /-- Reads a slot of the current frame into a register. -/
  | getStack (slot : Word) (t : DataType) (dst : Register)
  /-- Writes a register into a slot of the current frame. -/
  | setStack (src : Register) (slot : Word) (t : DataType)
  /-- Reads a slot of the caller's frame, found through the link slot, into a register. -/
  | getParam (slot : Word) (t : DataType) (dst : Register)
  /-- Puts the result of an operation into a register. -/
  | op (op : Operation) (args : List Register) (dst : Register)
  /-- Reads memory into a register. -/
  | load (chunk : Chunk) (mode : Addressing) (args : List Register) (dst : Register)
  /-- Writes a register to memory. -/
  | store (chunk : Chunk) (mode : Addressing) (args : List Register) (src : Register)
  /-- Calls a function, to go on behind the call when it returns. -/
  | call (callee : Callee)
  /-- Gives up the current frame and lets a function take its place. -/
  | tailCall (callee : Callee)
  /-- Goes on behind a label. -/
  | goto (target : Label)
  /-- Goes on behind a label if a condition holds. -/
  | cond (cond : Condition) (args : List Register) (target : Label)
  /-- Goes on behind the label that stands at the index in a register. -/
  | jumpTable (arg : Register) (targets : List Label)
  /-- Returns to the caller. -/
  | ret
  deriving BEq, DecidableEq, Repr

namespace Instruction

/-- The word that names an instruction. -/
def mnemonic : Instruction → String
  | .label _ => "label"
  | .getStack _ _ _ => "getstack"
  | .setStack _ _ _ => "setstack"
  | .getParam _ _ _ => "getparam"
  | .op _ _ _ => "op"
  | .load _ _ _ _ => "load"
  | .store _ _ _ _ => "store"
  | .call _ => "call"
  | .tailCall _ => "tailcall"
  | .goto _ => "goto"
  | .cond _ _ _ => "cond"
  | .jumpTable _ _ => "jumptable"
  | .ret => "return"

/-- The labels to which an instruction may branch. -/
def targets : Instruction → List Label
  | .goto l => [l]
  | .cond _ _ l => [l]
  | .jumpTable _ ls => ls
  | _ => []

/-- Whether control never passes from an instruction to the next one. -/
def endsBlock : Instruction → Bool
  | .goto _ | .jumpTable _ _ | .tailCall _ | .ret => true
  | _ => false

/-- Whether an instruction is a given label. -/
def isLabel (i : Instruction) (l : Label) : Bool :=
  match i with
  | .label l' => l' = l
  | _ => false

@[simp] theorem isLabel_iff {i : Instruction} {l : Label} : i.isLabel l = true ↔ i = .label l := by
  cases i <;> simp [isLabel]

end Instruction

/-- The position just after the first occurrence of a label. -/
def findLabel? (code : Array Instruction) (l : Label) : Option Nat :=
  (code.findIdx? fun i => i.isLabel l).map (· + 1)

end RegisterMachine
