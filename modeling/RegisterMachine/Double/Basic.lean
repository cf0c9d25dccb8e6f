import RegisterMachine.Word
import RegisterMachine.Double.Format

/-! # Double-precision numbers

A `Double` is a bit pattern of the binary64 format: a sign bit above a 63-bit code. Two doubles are
equal (`=`) when their bits are, so that states holding not-a-number compare as values; `==` is the
numeric comparison, which tells not-a-number from itself and identifies the two zeros.

Conversions go through the exact rational value of the code and round once. The four arithmetic
operations are those of `Float`.

* `Double`, `Double.isNegative`, `Double.code`, `Double.ofCode` — the two fields of the pattern.
* `Double.magnitude`, `Double.ofMagnitude`, `Double.ofInt`, `Double.truncate?` — rational and
  integer values.
* `Double.toSingle`, `Double.ofSingle` — single-precision patterns.
* `Double.add` and its companions, `Double.lt`, `Double.le` — arithmetic and order.
-/

namespace RegisterMachine

/-- A double-precision number, as its bit pattern. -/
structure Double where
  /-- Sign, biased exponent and fraction, from the top bit down. -/
  bits : BitVec 64
  deriving DecidableEq, Repr

namespace Double

open BinaryFormat

/-! ## The fields of a pattern -/

/-- Whether the sign bit is set. -/
def isNegative (x : Double) : Bool := x.bits.msb

/-- The pattern without its sign bit. -/
def code (x : Double) : Nat := x.bits.toNat % 9223372036854775808

/-- The double with the given sign and code. -/
def ofCode (negative : Bool) (code : Nat) : Double :=
  ⟨BitVec.ofNat 64 (if negative then 9223372036854775808 + code else code)⟩

/-- Whether the pattern stands for no number. -/
def isNaN (x : Double) : Bool := binary64.infinity < x.code

/-- Whether the pattern stands for an infinity. -/
def isInfinite (x : Double) : Bool := x.code == binary64.infinity

/-- Whether the pattern stands for a finite number. -/
def isFinite (x : Double) : Bool := x.code < binary64.infinity

/-! ## Rational and integer values -/

/-- The absolute value of a finite double. -/
def magnitude (x : Double) : Rat := binary64.value x.code

/-- The double nearest to the rational `q` in absolute value, with the given sign. -/
def ofMagnitude (negative : Bool) (q : Rat) : Double := ofCode negative (binary64.round q)

/-- The double nearest to an integer. -/
def ofInt (n : Int) : Double := ofMagnitude (n < 0) (n.natAbs : Rat)

/-- The integer part of a finite double, rounded toward zero. -/
def truncate? (x : Double) : Option Int :=
  if x.isFinite then
    let n := x.magnitude.floor
    some (if x.isNegative then -n else n)
  else none

/-- The integer part of a double, if it is the signed reading of a word. -/
def toWord? (x : Double) : Option Word := x.truncate?.bind Word.ofInt?

/-! ## Single precision -/

/-- The single-precision pattern with the given sign and code. -/
def singleOfCode (negative : Bool) (code : Nat) : BitVec 32 :=
  BitVec.ofNat 32 (if negative then 2147483648 + code else code)

/-- The single-precision pattern nearest to a double. Not-a-number keeps the upper part of its
fraction and becomes quiet. -/
def toSingle (x : Double) : BitVec 32 :=
  singleOfCode x.isNegative <|
    if x.isNaN then binary32.quietNaN ||| ((x.code - binary64.infinity) >>> 29)
    else if x.isInfinite then binary32.infinity
    else binary32.round x.magnitude

/-- The double that a single-precision pattern stands for. Every number has one exactly;
not-a-number keeps its fraction and becomes quiet. -/
def ofSingle (w : BitVec 32) : Double :=
  let code := w.toNat % 2147483648
  ofCode w.msb <|
    if binary32.infinity < code then binary64.quietNaN ||| ((code - binary32.infinity) <<< 29)
    else if code = binary32.infinity then binary64.infinity
    else binary64.round (binary32.value code)

/-! ## Arithmetic and order -/

/-- The runtime number with the same bit pattern. -/
def toFloat (x : Double) : Float := Float.ofBits (UInt64.ofBitVec x.bits)

/-- The bit pattern of a runtime number. -/
def ofFloat (y : Float) : Double := ⟨y.toBits.toBitVec⟩

/-- The number with its sign bit flipped. -/
def neg (x : Double) : Double := ⟨x.bits ^^^ 0x8000000000000000#64⟩

/-- The number with its sign bit cleared. -/
def abs (x : Double) : Double := ⟨x.bits &&& 0x7FFFFFFFFFFFFFFF#64⟩

/-- The rounded sum. -/
def add (x y : Double) : Double := ofFloat (x.toFloat + y.toFloat)

/-- The rounded difference. -/
def sub (x y : Double) : Double := ofFloat (x.toFloat - y.toFloat)

/-- The rounded product. -/
def mul (x y : Double) : Double := ofFloat (x.toFloat * y.toFloat)

/-- The rounded quotient. -/
def div (x y : Double) : Double := ofFloat (x.toFloat / y.toFloat)

/-- Numeric equality: false on not-a-number, true on the two zeros. -/
instance : BEq Double := ⟨fun x y => x.toFloat == y.toFloat⟩

/-- Numeric order, strict: false on not-a-number. -/
def lt (x y : Double) : Bool := x.toFloat < y.toFloat

/-- Numeric order: false on not-a-number. -/
def le (x y : Double) : Bool := x.toFloat ≤ y.toFloat

end Double

end RegisterMachine
