/-!
# Shortest decimals

A number that is stored rounded stands for every real number that rounds to
it, an interval around it.  Of all decimals in that interval the ones with the
fewest digits are the shortest, and of those the one nearest to the number is
the one to write: it reads back as the number and has no digit to spare.

The decimals with a fixed last place form a grid.  If any point of a grid is in
the interval, one of the two neighbours of the number on that grid is, so each
grid is decided by two comparisons (`Neighbourhood.onGrid?`).  The grids are
tried from the coarsest on (`Neighbourhood.shortest`), all in exact arithmetic.
-/

namespace TermGraph

/-- A decimal: an integer times a power of ten. -/
structure Decimal where
  digits : Nat
  exponent : Int
  deriving DecidableEq, Inhabited

/-- A positive number with the interval of all that rounds to it, as fractions
with one denominator. -/
structure Neighbourhood where
  low : Nat
  mid : Nat
  high : Nat
  den : Nat
  /-- Whether the ends of the interval belong to it. -/
  closed : Bool
  deriving DecidableEq, Inhabited

namespace Neighbourhood

/-- The denominator of the points on the grid of the given last place, when all
fractions are widened so that the grid consists of fractions too. -/
def gridUnit (r : Neighbourhood) (place : Int) : Nat := r.den * Nat.pow 10 place.toNat

/-- What the numerators are multiplied by when they are widened for a grid. -/
def widening (place : Int) : Nat := Nat.pow 10 (-place).toNat

/-- Whether a point of a grid is in the interval. -/
def contains (r : Neighbourhood) (place : Int) (n : Nat) : Bool :=
  let point := n * r.gridUnit place
  let low := r.low * widening place
  let high := r.high * widening place
  if r.closed then low ≤ point && point ≤ high else low < point && point < high

/-- The point of a grid in the interval that is nearest to the number, if there
is one; of two equally near the larger. -/
def onGrid? (r : Neighbourhood) (place : Int) : Option Nat :=
  let mid := r.mid * widening place
  let below := mid / r.gridUnit place
  let above := below + 1
  if r.contains place below then
    let rise := above * r.gridUnit place - mid
    let fall := mid - below * r.gridUnit place
    if r.contains place above && rise ≤ fall then some above else some below
  else if r.contains place above then some above
  else none

/-- The place just above the first digit of the number. -/
def topPlace (r : Neighbourhood) : Int :=
  let reach : Nat := 400
  (Nat.toDigits 10 (r.mid * Nat.pow 10 reach / r.den)).length - (reach : Int)

/-- The first decimal found on the grids from a place downwards, `tries` of them
at most, and after that whatever is next below the number. -/
def search (r : Neighbourhood) : Nat → Int → Decimal
  | 0, place => ⟨r.mid * widening place / r.gridUnit place, place⟩
  | tries + 1, place =>
    match r.onGrid? place with
    | some n => ⟨n, place⟩
    | none => r.search tries (place - 1)

/-- The shortest decimal in the interval that is nearest to the number.  For
numbers of double precision seventeen digits are always enough. -/
def shortest (r : Neighbourhood) : Decimal := r.search 18 r.topPlace

end Neighbourhood

/-- A decimal written out without an exponent: a point only where there is
something behind it, and something always before it. -/
def Decimal.positional (d : Decimal) : List Char :=
  let digits := Nat.toDigits 10 d.digits
  if 0 ≤ d.exponent then digits ++ List.replicate d.exponent.toNat '0'
  else
    let places := (-d.exponent).toNat
    let padded := List.replicate (places + 1 - digits.length) '0' ++ digits
    let whole := padded.length - places
    padded.take whole ++ '.' :: padded.drop whole

end TermGraph
