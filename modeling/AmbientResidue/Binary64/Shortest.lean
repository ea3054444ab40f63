import AmbientResidue.Binary64

/-!
The shortest decimal that reads back as a given floating-point number. The numbers that read back
form an interval around it; grids of decreasing powers of ten are tried, and on each the two points
next to the number. The first grid with a point in the interval wins, of two such points the nearer,
of two equally near the upper.
-/

namespace AmbientResidue.Binary64

/-- A positive number and the interval that reads back as it, all over one denominator. -/
structure Neighbourhood where
  value : Nat
  low : Nat
  high : Nat
  denominator : Nat
  /-- Whether the ends of the interval belong to it. -/
  closed : Bool

/-- Half the distance to each neighbour belongs to a number; below a power of two the neighbour is
twice as near. An even significand takes the ends. -/
def neighbourhood (significand : Nat) (exponent : Int) : Neighbourhood :=
  let unit := Nat.pow 2 exponent.toNat
  let nearBelow := significand == Nat.pow 2 52 && decide (-1074 < exponent)
  { value := 4 * significand * unit
    low := (4 * significand - (if nearBelow then 1 else 2)) * unit
    high := (4 * significand + 2) * unit
    denominator := 4 * Nat.pow 2 (-exponent).toNat
    closed := significand % 2 == 0 }

/-- The point of the grid of multiples of `10 ^ place` that stands for the number, as a multiple. -/
def gridPoint? (n : Neighbourhood) (place : Int) : Option Nat :=
  let scale := Nat.pow 10 (-place).toNat
  let unit := Nat.pow 10 place.toNat * n.denominator
  let value := n.value * scale
  let below := value / unit
  let fits (x y : Nat) : Bool := decide (x < y) || (n.closed && x == y)
  let belowFits := fits (n.low * scale) (below * unit)
  let aboveFits := fits ((below + 1) * unit) (n.high * scale)
  let nearerAbove := decide (unit ≤ 2 * (value % unit))
  if aboveFits && (nearerAbove || !belowFits) then some (below + 1)
  else if belowFits then some below
  else none

/-- The number of digits before the point, or minus the number of zeros after it. -/
def leadingPlace (n : Neighbourhood) : Int :=
  if n.denominator ≤ n.value then
    (Nat.toDigits 10 (n.value / n.denominator)).length
  else
    1 - (Nat.toDigits 10 ((n.denominator - 1) / n.value)).length

/-- Tries `fuel` grids, from the given one to finer ones. -/
def searchGrids (n : Neighbourhood) : Nat → Int → Nat × Int
  | 0, place => (n.value * Nat.pow 10 (-place).toNat / (Nat.pow 10 place.toNat * n.denominator), place)
  | fuel + 1, place =>
    match gridPoint? n place with
    | some multiple => (multiple, place)
    | none => searchGrids n fuel (place - 1)

/-- Digits and place of the shortest decimal; seventeen digits always suffice. -/
def shortest (significand : Nat) (exponent : Int) : Nat × Int :=
  let n := neighbourhood significand exponent
  searchGrids n 17 (leadingPlace n - 1)

/-- A multiple of a power of ten without an exponent, with at least one digit on either side of the
point. -/
def positional (multiple : Nat) (place : Int) : List Char :=
  let digits := Nat.toDigits 10 (multiple * Nat.pow 10 place.toNat)
  let decimals := (-place).toNat
  let padded := List.replicate (decimals + 1 - digits.length) '0' ++ digits
  let whole := padded.take (padded.length - decimals)
  let fraction := (padded.drop (padded.length - decimals)).reverse.dropWhile (· == '0') |>.reverse
  whole ++ '.' :: (if fraction.isEmpty then ['0'] else fraction)

/-- The shortest positional text of a number, always with a point if the number is finite. -/
def text : Binary64 → String
  | .notNumber => "NaN"
  | .infinite negative => if negative then "-inf" else "inf"
  | .finite negative significand exponent =>
    let (multiple, place) := if significand = 0 then (0, 0) else shortest significand exponent
    String.ofList ((if negative then ['-'] else []) ++ positional multiple place)

end AmbientResidue.Binary64
