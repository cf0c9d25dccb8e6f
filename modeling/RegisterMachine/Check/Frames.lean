import RegisterMachine.Check.Violation
import RegisterMachine.Convention

/-! # Frames

Variables and frames have greatest sizes. The slots of a frame lie below its frame size; the two
reserved slots must be different ones among them, and so must every slot that code reads or writes
be one. The arguments of a call must lie within the caller's frame and clear of its reserved slots.
A tail call gives its frame up before they could be read, so it may not pass any there.

* `Program.frameViolations` — what is wrong with the sizes and slots of a program.
-/

namespace RegisterMachine

namespace Function

/-- Whether a slot of a type lies within the frame. -/
def slotFits (f : Function) (slot : Word) (t : DataType) : Bool :=
  0 ≤ slot.toInt && (slot.toInt + t.words) * 4 ≤ f.frameSize.toInt

/-- The place of a reserved slot. -/
def reservedSlot (f : Function) : ReservedSlot → Word
  | .link => f.linkSlot
  | .returnAddress => f.returnSlot

/-- What is wrong with one of the sizes of a frame. -/
def sizeViolations (name : String) (which : FrameSize) (size : Word) : List Violation :=
  if size.toInt < 0 ∨ size.toInt % 4 ≠ 0 then [.badSize name which size.toInt] else []

/-- What is wrong with the place of a reserved slot. -/
def reservedViolations (name : String) (f : Function) (which : ReservedSlot) : List Violation :=
  if f.slotFits (f.reservedSlot which) .int then []
  else [.reservedSlotOutOfFrame name which (f.reservedSlot which).toInt]

/-- What is wrong with the slot that an instruction accesses. -/
def slotViolations (name : String) (f : Function) (pos : Nat) : Instruction → List Violation
  | .getStack slot t _ =>
    if f.slotFits slot t then [] else [.slotOutOfFrame name pos slot.toInt]
  | .setStack _ slot t =>
    if f.slotFits slot t then [] else [.slotOutOfFrame name pos slot.toInt]
  | .getParam slot _ _ =>
    if slot.toInt < 0 then [.negativeParam name pos slot.toInt] else []
  | _ => []

/-- What is wrong with the frame of a function. -/
def frameViolations (name : String) (f : Function) : List Violation :=
  let total := f.frameSize.toInt + f.stackSize.toInt
  sizeViolations name .frame f.frameSize ++ sizeViolations name .stack f.stackSize ++
    (if total > maxFrameSize then [.frameTooLarge name total] else []) ++
    reservedViolations name f .link ++ reservedViolations name f .returnAddress ++
    (if f.linkSlot = f.returnSlot then [.reservedSlotsOverlap name f.linkSlot.toInt] else []) ++
    f.inCode (f.slotViolations name)

/-- What is wrong with a reserved slot under the arguments of a call. -/
def overlapViolations (name : String) (f : Function) (pos : Nat) (callee : String) (words : Nat)
    (which : ReservedSlot) : List Violation :=
  let slot := (f.reservedSlot which).toInt
  if 0 ≤ slot ∧ slot < words then [.outgoingOverlapsSlot name pos callee which slot] else []

/-- What is wrong with a call that passes arguments of a number of words on the stack. -/
def callViolations (name : String) (f : Function) (pos : Nat) (callee : String) (words : Nat) :
    List Violation :=
  if words = 0 then []
  else
    (if (words : Int) * 4 > f.frameSize.toInt then
      [.outgoingOutOfFrame name pos callee words] else []) ++
    f.overlapViolations name pos callee words .link ++
    f.overlapViolations name pos callee words .returnAddress

/-- What is wrong with a tail call that passes arguments of a number of words on the stack. -/
def tailCallViolations (name : String) (pos : Nat) (callee : String) (words : Nat) :
    List Violation :=
  if words = 0 then [] else [.tailCallStackArguments name pos callee words]

end Function

namespace Program

/-- Number of words that the arguments of a call to a named function fill on the stack, if it is a
function. -/
def outgoingWords? (p : Program) (conv : Convention) (callee : String) : Option Nat :=
  match p.global? callee with
  | some (.function d) => some (conv.outgoingWords d.signature)
  | _ => none

/-- What is wrong with the arguments that an instruction passes on the stack. -/
def outgoingViolations (p : Program) (conv : Convention) (name : String) (f : Function)
    (pos : Nat) : Instruction → List Violation
  | .call (.symbol s) =>
    match p.outgoingWords? conv s with
    | some words => f.callViolations name pos s words
    | none => []
  | .tailCall (.symbol s) =>
    match p.outgoingWords? conv s with
    | some words => Function.tailCallViolations name pos s words
    | none => []
  | _ => []

/-- What is wrong with the size of a global. -/
def variableViolations (g : String × Global) : List Violation :=
  match g.2 with
  | .variable init =>
    let size := InitialData.totalSize init
    if size > maxVariableSize then [.variableTooLarge g.1 size] else []
  | .function _ => []

/-- What is wrong with the sizes and slots of a program. -/
def frameViolations (p : Program) (conv : Convention) : List Violation :=
  p.globals.flatMap variableViolations ++
    p.inFunctions fun name f =>
      f.frameViolations name ++ f.inCode (p.outgoingViolations conv name f)

end Program

end RegisterMachine
