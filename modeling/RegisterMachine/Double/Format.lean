/-! # Binary interchange formats

A binary floating-point format stores a magnitude as a natural number, its *code*: the biased
exponent above the fraction bits. Codes are ordered as the magnitudes they stand for, the code of
infinity is the least one that no finite magnitude has, and the codes above it are not numbers.
Adding one to the code of a magnitude gives the code of the next, across binades as well; so
rounding is one division followed by one addition.

* `BinaryFormat` — number of fraction and exponent bits; `binary32` and `binary64`.
* `BinaryFormat.value` — the rational that a finite code stands for.
* `BinaryFormat.round` — the code nearest to a rational, a tie going to the even code.
-/

namespace RegisterMachine

/-- The rational `n * 2 ^ k`. -/
def scaleTwo (n : Nat) : (k : Int) → Rat
  | .ofNat k => ((n <<< k : Nat) : Rat)
  | .negSucc k => mkRat n (1 <<< (k + 1))

/-- The exponent of the greatest power of two that is at most the positive rational `q`. -/
def floorLogTwo (q : Rat) : Int :=
  let k : Int := (q.num.toNat.log2 : Int) - (q.den.log2 : Int)
  if q < scaleTwo 1 k then k - 1 else k

/-- The natural number nearest to the non-negative rational `q`, a tie going to the even one. -/
def nearestEven (q : Rat) : Nat :=
  let n := q.num.toNat / q.den
  let r := q.num.toNat % q.den
  if 2 * r < q.den then n
  else if q.den < 2 * r then n + 1
  else n + n % 2

/-- A binary interchange format, given by the widths of its two unsigned fields. -/
structure BinaryFormat where
  /-- Number of bits of the stored fraction. -/
  fractionBits : Nat
  /-- Number of bits of the biased exponent. -/
  exponentBits : Nat
  deriving DecidableEq, Repr

namespace BinaryFormat

/-- Double precision: 52 fraction bits and 11 exponent bits. -/
def binary64 : BinaryFormat := ⟨52, 11⟩

/-- Single precision: 23 fraction bits and 8 exponent bits. -/
def binary32 : BinaryFormat := ⟨23, 8⟩

/-- The code of infinity: every exponent bit set and the fraction zero. -/
def infinity (f : BinaryFormat) : Nat := ((1 <<< f.exponentBits) - 1) <<< f.fractionBits

/-- The code of the not-a-number that arithmetic makes: infinity with the first fraction bit set. -/
def quietNaN (f : BinaryFormat) : Nat := f.infinity + 1 <<< (f.fractionBits - 1)

/-- The exponent of the unit in which subnormal magnitudes are counted. -/
def minExponent (f : BinaryFormat) : Int :=
  2 - ((1 <<< (f.exponentBits - 1) : Nat) : Int) - (f.fractionBits : Int)

/-- The magnitude of a finite code. Exponent field zero counts subnormal units; any other exponent
field adds the implicit leading bit. -/
def value (f : BinaryFormat) (code : Nat) : Rat :=
  let fraction := code % (1 <<< f.fractionBits)
  match code >>> f.fractionBits with
  | 0 => scaleTwo fraction f.minExponent
  | e + 1 => scaleTwo (1 <<< f.fractionBits + fraction) (f.minExponent + e)

/-- The code of the magnitude nearest to the rational `q`, a tie going to the even code. What lies
beyond the greatest finite magnitude by half a unit or more becomes infinity, and what is not
positive becomes zero. -/
def round (f : BinaryFormat) (q : Rat) : Nat :=
  if q ≤ 0 then 0
  else
    let unit := max (floorLogTwo q - f.fractionBits) f.minExponent
    let count := nearestEven (q * scaleTwo 1 (-unit))
    min ((unit - f.minExponent).toNat <<< f.fractionBits + count) f.infinity

end BinaryFormat

end RegisterMachine
