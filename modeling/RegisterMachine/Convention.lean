import RegisterMachine.Program

/-! # Calling conventions

A convention says where the arguments of a call and its result are found. Integer arguments go into
the integer parameter registers and float arguments into the float ones, in order. When the
registers of a class are used up, further arguments of that class go into the caller's outgoing
area: slots from the stack pointer up, one after the other in argument order.

* `Convention`, `Convention.standard`, `Convention.withIntParams` — the registers of a convention.
* `Convention.locations`, `Convention.resultRegister` — where arguments and result are.
* `Convention.outgoingWords` — the size of the outgoing area.
-/

namespace RegisterMachine

/-- Where an argument is found. -/
inductive Location where
  /-- In a register. -/
  | register (r : Register)
  /-- In a slot of the caller's outgoing area. Slots have no width here: what becomes of signed slots
  of 32 bits after 2 ^ 31 words of arguments is left out. -/
  | outgoing (slot : Nat) (t : DataType)
  deriving DecidableEq, Repr

/-- The slot after the one that an argument fills; zero for an argument in a register. -/
def Location.endSlot : Location → Nat
  | .register _ => 0
  | .outgoing slot t => slot + t.words

/-- The registers that calls use. -/
structure Convention where
  /-- Registers of integer arguments, in order. -/
  intParams : List Register
  /-- Registers of float arguments, in order. -/
  floatParams : List Register
  /-- The register of an integer result. -/
  intResult : Register
  /-- The register of a float result. -/
  floatResult : Register
  deriving DecidableEq, Repr

namespace Convention

/-- The convention with four integer and two float parameter registers. -/
def standard : Convention where
  intParams := [.int 0, .int 1, .int 2, .int 3]
  floatParams := [.float 0, .float 1]
  intResult := .int 0
  floatResult := .float 0

/-- The standard convention with the first `n` of its integer parameter registers. -/
def withIntParams (n : Nat) : Convention :=
  { standard with intParams := standard.intParams.take n }

/-- Places arguments of the given types, with the registers that are left and the next free slot. -/
def place : (ints floats : List Register) → (slot : Nat) → List DataType → List Location
  | _, _, _, [] => []
  | r :: ints, floats, slot, .int :: ts => .register r :: place ints floats slot ts
  | [], floats, slot, .int :: ts => .outgoing slot .int :: place [] floats (slot + 1) ts
  | ints, r :: floats, slot, .float :: ts => .register r :: place ints floats slot ts
  | ints, [], slot, .float :: ts => .outgoing slot .float :: place ints [] (slot + 2) ts

/-- The locations of the arguments of a call, in order. -/
def locations (conv : Convention) (sig : Signature) : List Location :=
  place conv.intParams conv.floatParams 0 sig.arguments

/-- The register that a call leaves its result in. A function without result still has the integer
one at its disposal. -/
def resultRegister (conv : Convention) (sig : Signature) : Register :=
  match sig.result? with
  | some .float => conv.floatResult
  | some .int => conv.intResult
  | none => conv.intResult

/-- Number of words that the arguments of a call fill in the outgoing area. -/
def outgoingWords (conv : Convention) (sig : Signature) : Nat :=
  ((conv.locations sig).map Location.endSlot).foldl max 0

end Convention

end RegisterMachine
