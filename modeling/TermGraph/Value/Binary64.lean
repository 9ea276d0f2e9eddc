import TermGraph.Decimal.Shortest

/-!
# Numbers of double precision

Floating-point values are kept by their bits, so that two of them are the same
exactly when their bits are, signed zeros and the payloads of NaNs included.
As numbers they compare differently, and that comparison is here as well
(`Binary64.numericallyEqual`).

A finite number is written with the fewest digits that read back, never with
an exponent and with a point only before digits that are needed.
-/

namespace TermGraph

/-- A number of double precision, by its bits: the sign, eleven bits of
exponent and fifty-two of fraction. -/
structure Binary64 where
  bits : UInt64
  deriving DecidableEq, Inhabited

namespace Binary64

def isNegative (x : Binary64) : Bool := x.bits.toNat / 0x8000000000000000 == 1

def exponentField (x : Binary64) : Nat := x.bits.toNat / 0x10000000000000 % 2048

def fraction (x : Binary64) : Nat := x.bits.toNat % 0x10000000000000

def zero : Binary64 := ⟨0⟩

/-- The number with the other sign; of a NaN too only the sign bit changes. -/
def neg (x : Binary64) : Binary64 := ⟨x.bits ^^^ 0x8000000000000000⟩

/-- Whether the bits say that there is no number. -/
def isNaN (x : Binary64) : Bool := x.exponentField == 2047 && x.fraction != 0

/-- Whether the number is one of the two infinities. -/
def isInfinite (x : Binary64) : Bool := x.exponentField == 2047 && x.fraction == 0

/-- Whether the number is one of the two zeros. -/
def isZero (x : Binary64) : Bool := x.exponentField == 0 && x.fraction == 0

/-- Equality of numbers: a NaN equals nothing and the two zeros are equal. -/
def numericallyEqual (x y : Binary64) : Bool :=
  !x.isNaN && !y.isNaN && (x.bits == y.bits || (x.isZero && y.isZero))

/-- The significand of a finite number, the leading bit included. -/
def significand (x : Binary64) : Nat :=
  if x.exponentField = 0 then x.fraction else x.fraction + 0x10000000000000

/-- The weight, as a power of two, of the last bit of the significand. -/
def weight (x : Binary64) : Int := (max x.exponentField 1 : Nat) - (1075 : Int)

/-- Everything that rounds to a finite number other than zero.  The interval
reaches half way to the next numbers on both sides; below a power of two they
lie closer.  The ends round to the number if its significand is even. -/
def neighbourhood (x : Binary64) : Neighbourhood :=
  let m := x.significand
  let below := if x.fraction = 0 && 1 < x.exponentField then 1 else 2
  let scale := Nat.pow 2 (x.weight - 2).toNat
  { low := (4 * m - below) * scale
    mid := 4 * m * scale
    high := (4 * m + 2) * scale
    den := Nat.pow 2 (2 - x.weight).toNat
    closed := m % 2 == 0 }

def spelled (x : Binary64) : List Char :=
  if x.isNaN then "NaN".toList
  else
    let size :=
      if x.isInfinite then "inf".toList
      else if x.isZero then ['0']
      else x.neighbourhood.shortest.positional
    if x.isNegative then '-' :: size else size

end Binary64

end TermGraph
