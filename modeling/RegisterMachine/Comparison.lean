import RegisterMachine.DataType
import RegisterMachine.Word
import RegisterMachine.Double.Basic

/-! # Comparisons

The six binary comparisons, read on words as signed or unsigned numbers and on doubles as numbers.

* `Comparison` — equality, its negation and the four orders.
* `Comparison.signed`, `Comparison.unsigned`, `Comparison.float` — whether a comparison holds.
* `Comparison.mismatch?` — its answer for operands known only to differ.
-/

namespace RegisterMachine

/-- A binary comparison. -/
inductive Comparison where
  /-- Equal. -/
  | eq
  /-- Not equal. -/
  | ne
  /-- Less. -/
  | lt
  /-- Less or equal. -/
  | le
  /-- Greater. -/
  | gt
  /-- Greater or equal. -/
  | ge
  deriving DecidableEq, Repr

namespace Comparison

instance : Vocabulary Comparison where
  all := [.eq, .ne, .lt, .le, .gt, .ge]
  name
    | .eq => "eq"
    | .ne => "ne"
    | .lt => "lt"
    | .le => "le"
    | .gt => "gt"
    | .ge => "ge"

/-- The spelling of a comparison. -/
abbrev name (c : Comparison) : String := Vocabulary.name c

/-- The comparison that a word names. -/
def read (s : String) : Except NameError Comparison :=
  match Vocabulary.find? s with
  | some c => .ok c
  | none => .error (.comparison s)

/-- Whether the comparison holds between two integers. -/
def holds (c : Comparison) (a b : Int) : Bool :=
  match c with
  | .eq => a = b
  | .ne => a ≠ b
  | .lt => a < b
  | .le => a ≤ b
  | .gt => b < a
  | .ge => b ≤ a

/-- Whether the comparison holds between the signed readings of two words. -/
def signed (c : Comparison) (a b : Word) : Bool := c.holds a.toInt b.toInt

/-- Whether the comparison holds between the unsigned readings of two words. -/
def unsigned (c : Comparison) (a b : Word) : Bool := c.holds a.toNat b.toNat

/-- Whether the comparison holds between two doubles. With not-a-number only `ne` does. -/
def float (c : Comparison) (x y : Double) : Bool :=
  match c with
  | .eq => x == y
  | .ne => !(x == y)
  | .lt => x.lt y
  | .le => x.le y
  | .gt => y.lt x
  | .ge => y.le x

/-- The answer for two operands that differ but have no order. -/
def mismatch? : Comparison → Option Bool
  | .eq => some false
  | .ne => some true
  | _ => none

end Comparison

end RegisterMachine
