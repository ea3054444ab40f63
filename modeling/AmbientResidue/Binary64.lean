import AmbientResidue.BigEndian

/-!
Numbers with a 53-bit significand: rounding to the nearest one, the least magnitude that rounds
past the largest, and the fields of the 64-bit and 32-bit encodings.
-/

namespace AmbientResidue

/-- A binary floating-point number. A finite one is `significand * 2 ^ exponent`; its significand
has 53 bits unless the exponent is the least one, -1074. -/
inductive Binary64 where
  | finite (negative : Bool) (significand : Nat) (exponent : Int)
  | infinite (negative : Bool)
  | notNumber
deriving DecidableEq, Repr

namespace Binary64

/-- The nearest natural number with at most 53 significant bits; of two equally near, the one with
the even significand. -/
def roundNat (n : Nat) : Nat :=
  let excess := bitLength n - 53
  let unit := Nat.pow 2 excess
  let q := n / unit
  let twice := 2 * (n % unit)
  (if unit < twice || (twice == unit && q % 2 == 1) then q + 1 else q) * unit

/-- Magnitudes from here on round past the largest finite number. -/
def overflowBound : Nat := Nat.pow 2 1024 - Nat.pow 2 970

/-- Writes a magnitude with as many significant bits as the least exponent allows. -/
def normalize (negative : Bool) (significand : Nat) (exponent : Int) : Binary64 :=
  let shift := min (53 - bitLength significand) (exponent + 1074).toNat
  .finite negative (significand * Nat.pow 2 shift) (exponent - shift)

/-- Reads the sign, the biased exponent and the fraction of an encoding whose fraction has
`fractionBits` bits, whose exponent has `exponentBits` bits and whose least exponent is `least`. -/
def ofFields (fractionBits exponentBits : Nat) (least : Int) (word : Nat) : Binary64 :=
  let fraction := word % Nat.pow 2 fractionBits
  let biased := word / Nat.pow 2 fractionBits % Nat.pow 2 exponentBits
  let negative := word / Nat.pow 2 (fractionBits + exponentBits) % 2 == 1
  if biased = Nat.pow 2 exponentBits - 1 then
    if fraction = 0 then .infinite negative else .notNumber
  else if biased = 0 then
    normalize negative fraction least
  else
    normalize negative (Nat.pow 2 fractionBits + fraction) (least + (biased - 1 : Nat))

/-- The number that 64 bits encode. -/
def ofWord64 (word : Nat) : Binary64 := ofFields 52 11 (-1074) word

/-- The number that 32 bits encode. -/
def ofWord32 (word : Nat) : Binary64 := ofFields 23 8 (-149) word

end Binary64

end AmbientResidue
