import RegisterMachine.Comparison
import RegisterMachine.Double.Shortest

/-! # Machine values

A value is an integer word, a double, a pointer into a memory block, or undefined. The operations on
values are partial: outside the kinds of operands for which they are meant they have no result.
Pointers are words as far as types go, and their offsets wrap as words do.

* `Value`, `Value.toText`, `Value.HasType` — the four kinds of values.
* `Value.add`, `Value.sub` — arithmetic on integers and pointers.
* `Value.compareSigned?`, `Value.compareUnsigned?`, `Value.compareFloat?` — comparisons.
* `Value.onWord`, `Value.onWords`, `Value.onDouble`, `Value.onDoubles` — operations on one kind
  only.
-/

namespace RegisterMachine

/-- The number of a memory block. Block 0 is never allocated. Block numbers have no width: what
becomes of numbers of 32 bits after 2 ^ 32 blocks is left out. -/
abbrev BlockId := Nat

/-- A machine value. -/
inductive Value where
  /-- An integer; its sign is a matter of the operation that reads it. -/
  | int (n : Word)
  /-- A double-precision number. -/
  | float (x : Double)
  /-- A pointer: a block and a byte offset into it. -/
  | ptr (block : BlockId) (offset : Word)
  /-- The undefined value, which every register holds at first. -/
  | undefined
  deriving DecidableEq, Repr

namespace Value

instance : Inhabited Value := ⟨.undefined⟩

/-- The zero integer. It stands for the stack pointer and the return address that the outermost
function finds in place of its caller's. -/
def zero : Value := .int 0#32

/-- Whether a value may be kept in a location of a type. The undefined value fits everywhere. -/
def fits : Value → DataType → Bool
  | .int _, t => t = .int
  | .ptr _ _, t => t = .int
  | .float _, t => t = .float
  | .undefined, _ => true

/-- A value has a type if it fits the locations of that type. -/
def HasType (v : Value) (t : DataType) : Prop := v.fits t = true

instance (v : Value) (t : DataType) : Decidable (v.HasType t) :=
  inferInstanceAs (Decidable (v.fits t = true))

/-- The text of a value, as it stands in traces and error messages. -/
def toText : Value → String
  | .int n => toString n.toInt
  | .float x => x.toText
  | .ptr block offset => "&" ++ toString block ++ "+" ++ toString offset.toInt
  | .undefined => "undef"

/-! ## Arithmetic on integers and pointers -/

/-- The sum of two integers, or a pointer moved by an integer. -/
def add : Value → Value → Option Value
  | .int a, .int b => some (.int (a + b))
  | .ptr block offset, .int n => some (.ptr block (offset + n))
  | .int n, .ptr block offset => some (.ptr block (offset + n))
  | _, _ => none

/-- The difference of two integers, a pointer moved back by an integer, or the distance between two
pointers into one block. -/
def sub : Value → Value → Option Value
  | .int a, .int b => some (.int (a - b))
  | .ptr block offset, .int n => some (.ptr block (offset - n))
  | .ptr b₁ o₁, .ptr b₂ o₂ => if b₁ = b₂ then some (.int (o₁ - o₂)) else none
  | _, _ => none

/-! ## Operations on one kind of value -/

/-- Applies an operation to an integer. -/
def onWord (f : Word → Option Value) : Value → Option Value
  | .int a => f a
  | _ => none

/-- Applies an operation to two integers. -/
def onWords (f : Word → Word → Option Word) : Value → Value → Option Value
  | .int a, .int b => (f a b).map .int
  | _, _ => none

/-- Applies an operation to a double. -/
def onDouble (f : Double → Option Value) : Value → Option Value
  | .float x => f x
  | _ => none

/-- Applies an operation to two doubles. -/
def onDoubles (f : Double → Double → Double) : Value → Value → Option Value
  | .float x, .float y => some (.float (f x y))
  | _, _ => none

/-! ## Comparisons -/

/-- Compares two pointers, or a pointer with the zero integer. Pointers into one block compare by
offset; a pointer differs from zero and from every pointer into another block. -/
def comparePointers? (c : Comparison) (sameBlock : Word → Word → Bool) : Value → Value → Option Bool
  | .ptr b₁ o₁, .ptr b₂ o₂ => if b₁ = b₂ then some (sameBlock o₁ o₂) else c.mismatch?
  | .ptr _ _, .int n => if n = 0#32 then c.mismatch? else none
  | .int n, .ptr _ _ => if n = 0#32 then c.mismatch? else none
  | _, _ => none

/-- Compares integers and pointers, reading words with their sign. -/
def compareSigned? (c : Comparison) : Value → Value → Option Bool
  | .int a, .int b => some (c.signed a b)
  | v, w => comparePointers? c c.signed v w

/-- Compares integers and pointers, reading words without sign. -/
def compareUnsigned? (c : Comparison) : Value → Value → Option Bool
  | .int a, .int b => some (c.unsigned a b)
  | v, w => comparePointers? c c.unsigned v w

/-- Compares doubles. -/
def compareFloat? (c : Comparison) : Value → Value → Option Bool
  | .float x, .float y => some (c.float x y)
  | _, _ => none

end Value

end RegisterMachine
