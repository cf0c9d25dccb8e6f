import RegisterMachine.Double.Decimal

/-! # The shortest decimal of a double

A finite double is written with the fewest decimal digits that read back to it; among numerals of
that length with the nearest one, and of two equally near with the greater. On the grid of numerals
with a given number of digits only the two neighbours of the value can be nearest, so each length is
tried with those two.

* `floorLogTen` — the decimal exponent of a positive rational.
* `Decimal.neighbours` — the two numerals around a value on one grid, the nearer one first.
* `Decimal.grids` — the grids that are tried, coarsest first.
* `Decimal.shortest` — the shortest numeral that reads back.
* `Decimal.layout`, `Double.toText` — the text: positional from 0.0001 up to below 10^16, with an
  exponent elsewhere.
-/

namespace RegisterMachine

/-- The exponent of the greatest power of ten that is at most the positive rational `q`, from an
estimate through the binary exponent. -/
def floorLogTen (q : Rat) : Int :=
  let k := floorLogTwo q * 30103 / 100000
  if q < scaleTen 1 k then k - 1
  else if scaleTen 1 (k + 1) ≤ q then k + 1
  else k

namespace Decimal

/-- The decimal without the trailing zeros of its significand. -/
def trim (d : Decimal) : Decimal :=
  if d.significand = 0 ∨ d.significand % 10 ≠ 0 then d
  else trim ⟨d.significand / 10, d.exponent + 1⟩
termination_by d.significand
decreasing_by omega

/-- The multiples of `10 ^ exponent` just below and just above `q`, the nearer one first and the
upper one first when both are equally near. -/
def neighbours (q : Rat) (exponent : Int) : List Decimal :=
  let scaled := q * scaleTen 1 (-exponent)
  let n := scaled.num.toNat / scaled.den
  if 2 * (scaled.num.toNat % scaled.den) < scaled.den then [⟨n, exponent⟩, ⟨n + 1, exponent⟩]
  else [⟨n + 1, exponent⟩, ⟨n, exponent⟩]

/-- The grids that are tried for a value whose leading digit counts `10 ^ top`: those of one up to
seventeen digits, and last the grid of `10 ^ -1074`, on which every finite double lies. -/
def grids (top : Int) : List Int :=
  (List.range 17).map (fun (n : Nat) => top - (n : Int)) ++ [-1074]

/-- The shortest decimal that reads back as the given finite double, which is not zero. -/
def shortest (x : Double) : Decimal :=
  let q := x.magnitude
  let hit := (grids (floorLogTen q)).findSome? fun exponent =>
    (neighbours q exponent).find? fun d => d.toDouble x.isNegative = x
  match hit with
  | some d => d.trim
  | none => ⟨0, 0⟩

/-- The text of a positive decimal. With the point before, between or after the digits when the
leading digit counts a power of ten from -4 to 15, and in units of the leading digit with an
exponent otherwise. Positional text always has a digit on both sides of the point. -/
def layout (d : Decimal) : List Char :=
  let digits := Nat.toDigits 10 d.significand
  let point : Int := digits.length + d.exponent
  if point < -3 ∨ 16 < point then
    let fraction := if digits.tail.isEmpty then [] else '.' :: digits.tail
    digits.take 1 ++ fraction ++ 'e' :: (toString (point - 1)).toList
  else if point ≤ 0 then
    '0' :: '.' :: List.replicate (-point).toNat '0' ++ digits
  else if point < digits.length then
    digits.take point.toNat ++ '.' :: digits.drop point.toNat
  else
    digits ++ List.replicate d.exponent.toNat '0' ++ ['.', '0']

end Decimal

namespace Double

/-- The text of the absolute value of a double that is a number. -/
def magnitudeText (x : Double) : List Char :=
  if x.isInfinite then ['i', 'n', 'f']
  else if x.code = 0 then ['0', '.', '0']
  else (Decimal.shortest x).layout

/-- The text of a double. Not-a-number has no sign. -/
def toText (x : Double) : String :=
  if x.isNaN then "NaN"
  else String.ofList (if x.isNegative then '-' :: x.magnitudeText else x.magnitudeText)

/-! ## Written forms

Where positional text begins and ends, and the least, the greatest and the special numbers. -/

example : ["1e16", "9999999999999998", "1e-4", "9.999e-5", "-0", "100"].map
      (fun s => (parse? s).map toText) =
    [some "1e16", some "9999999999999998.0", some "0.0001", some "9.999e-5", some "-0.0",
      some "100.0"] := by
  decide +kernel

example : [(1 : Nat), 0x3FB999999999999A, 0x7FEFFFFFFFFFFFFF, 0x7FF0000000000000,
      0xFFF8000000000000].map (fun n => toText ⟨BitVec.ofNat 64 n⟩) =
    ["5e-324", "0.1", "1.7976931348623157e308", "inf", "NaN"] := by
  decide +kernel

end Double

end RegisterMachine
