import RegisterMachine.Text.Vocabulary
import RegisterMachine.Double.Basic

/-! # Decimal numerals

A decimal is a natural significand times a power of ten. Its text is an unsigned numeral: digits
with an optional point and an optional exponent, at least one digit standing before the exponent. A
double is written as a signed numeral, or as one of the words for infinity and not-a-number.

* `Decimal`, `Decimal.value`, `Decimal.toDouble` — the number and the double nearest to it.
* `Decimal.parse?` — reads an unsigned numeral.
* `Double.parse?` — reads a signed numeral or a special word, in any ASCII case.
-/

namespace RegisterMachine

/-- Splits the leading decimal digits off a text. -/
def spanDigits (cs : List Char) : List Char × List Char :=
  (cs.takeWhile Char.isDigit, cs.dropWhile Char.isDigit)

/-- The number that a list of decimal digits denotes, after the digits of `start`. -/
def digitsToNat (start : Nat) : List Char → Nat
  | [] => start
  | c :: cs => digitsToNat (10 * start + (c.toNat - '0'.toNat)) cs

/-- Splits a leading sign off a text: whether it is a minus sign, and the rest. -/
def splitSign : List Char → Bool × List Char
  | '-' :: cs => (true, cs)
  | '+' :: cs => (false, cs)
  | cs => (false, cs)

/-- The rational `n * 10 ^ k`. -/
def scaleTen (n : Nat) : (k : Int) → Rat
  | .ofNat k => ((n * Nat.pow 10 k : Nat) : Rat)
  | .negSucc k => mkRat n (Nat.pow 10 (k + 1))

/-- The number `significand * 10 ^ exponent`. -/
structure Decimal where
  /-- The digits, read as a natural number. -/
  significand : Nat
  /-- The power of ten that the last digit counts. -/
  exponent : Int
  deriving DecidableEq, Repr

namespace Decimal

/-- The rational that a decimal denotes. -/
def value (d : Decimal) : Rat := scaleTen d.significand d.exponent

/-- The number of decimal digits of the significand; one for zero. -/
def length (d : Decimal) : Nat := (Nat.toDigits 10 d.significand).length

/-- The double nearest to a decimal in absolute value, with the given sign. A decimal of 10^310 or
more is infinite and one below 10^-330 is zero, whatever its digits, so powers of ten far outside
the range of the format are never formed. -/
def toDouble (negative : Bool) (d : Decimal) : Double :=
  if d.significand = 0 then .ofCode negative 0
  else if 310 < d.length + d.exponent then .ofCode negative BinaryFormat.binary64.infinity
  else if d.length + d.exponent < -330 then .ofCode negative 0
  else .ofMagnitude negative d.value

/-- Reads the exponent part of a numeral: nothing, or the letter `e` and an optionally signed digit
string. -/
def parseExponent? : List Char → Option Int
  | [] => some 0
  | c :: cs =>
    let (negative, digits) := splitSign cs
    if (c == 'e' || c == 'E') && !digits.isEmpty && digits.all Char.isDigit then
      some (if negative then -(digitsToNat 0 digits : Int) else digitsToNat 0 digits)
    else none

/-- Reads an unsigned numeral. -/
def parse? (cs : List Char) : Option Decimal :=
  let (whole, rest) := spanDigits cs
  let (fraction, rest) := match rest with
    | '.' :: rest => spanDigits rest
    | rest => ([], rest)
  if whole.isEmpty && fraction.isEmpty then none
  else (parseExponent? rest).map fun e =>
    ⟨digitsToNat 0 (whole ++ fraction), e - fraction.length⟩

end Decimal

/-- Reads a double: an optional sign, then an unsigned numeral or one of the words `inf`, `infinity`
and `nan`. -/
def Double.parse? (s : String) : Option Double :=
  let (negative, rest) := splitSign s.toList
  match foldCase (String.ofList rest) with
  | "inf" => some (.ofCode negative BinaryFormat.binary64.infinity)
  | "infinity" => some (.ofCode negative BinaryFormat.binary64.infinity)
  | "nan" => some (.ofCode negative BinaryFormat.binary64.quietNaN)
  | _ => (Decimal.parse? rest).map (Decimal.toDouble negative)

end RegisterMachine
