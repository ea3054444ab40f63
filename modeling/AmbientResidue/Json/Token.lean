import AmbientResidue.Binary64
import AmbientResidue.Decimal
import AmbientResidue.Text.Utf8

/-!
The tokens of a JSON document. A string token keeps its pieces as they were written, because
readers differ in what they allow inside; a number token keeps its digits, because only readers
that want a value mind its size.
-/

namespace AmbientResidue.Json

/-- A part of a string literal. -/
inductive Piece where
  /-- A character that stands for itself. -/
  | plain (c : Char)
  /-- A character written as a backslash and a letter or sign. -/
  | escaped (c : Char)
  /-- A sixteen-bit unit written with four hexadecimal digits. -/
  | unit (u : Nat)
deriving DecidableEq, Repr

/-- A number literal. The fraction and the exponent, when present, have at least one digit. -/
structure Number where
  negative : Bool
  whole : List Char
  fraction : Option (List Char)
  exponent : Option (Bool × List Char)
deriving DecidableEq, Repr

inductive Token where
  | openArray
  | closeArray
  | openObject
  | closeObject
  | comma
  | colon
  | null
  | boolean (b : Bool)
  | number (n : Number)
  | text (pieces : List Piece)
  /-- A place from where no token can be read. -/
  | junk
deriving DecidableEq, Repr

/-! ### Numbers -/

/-- Multiplies in digits as long as the result fits in 64 bits, and says how many it took. -/
def absorb (significand : Nat) : List Char → Nat × Nat
  | [] => (significand, 0)
  | d :: rest =>
    let next := 10 * significand + (d.toNat - '0'.toNat)
    if next < Nat.pow 2 64 then
      let (significand, taken) := absorb next rest
      (significand, taken + 1)
    else
      (significand, 0)

namespace Number

/-- The leading digits that fit in 64 bits, and the power of ten that scales them. -/
def scientific (n : Number) : Nat × Int :=
  let (significand, taken) := absorb 0 n.whole
  let (significand, decimals) := absorb significand (n.fraction.getD [])
  let written : Int :=
    match n.exponent with
    | none => 0
    | some (negative, digits) => Decimal.signed negative (Decimal.magnitude digits)
  (significand, written + ((n.whole.length - taken : Nat) : Int) - decimals)

/-- Whether the magnitude is past the floating-point range, the leading digits and the power of ten
each being rounded before they are multiplied. -/
def overflows (n : Number) : Bool :=
  let (significand, exponent) := n.scientific
  significand != 0 && (decide (308 < exponent) ||
    (decide (0 ≤ exponent) && decide (Binary64.overflowBound ≤
      Binary64.roundNat significand * Binary64.roundNat (Nat.pow 10 exponent.toNat))))

/-- The integer that the literal denotes, if it has neither fraction nor exponent and fits in 64
bits, signed or unsigned. A zero with a sign is no integer. -/
def integer? (n : Number) : Option Int :=
  if n.fraction.isSome || n.exponent.isSome then none
  else
    let magnitude := Decimal.magnitude n.whole
    if n.negative then
      if magnitude = 0 || Nat.pow 2 63 < magnitude then none else some (-(magnitude : Int))
    else if magnitude < Nat.pow 2 64 then some magnitude
    else none

end Number

/-! ### Strings -/

/-- Controls have to be escaped in text. -/
def isControl (c : Char) : Bool := c.toNat < 0x20

def isHighSurrogate (u : Nat) : Bool := 0xd800 ≤ u && u < 0xdc00

def isLowSurrogate (u : Nat) : Bool := 0xdc00 ≤ u && u < 0xe000

/-- The code point beyond the first plane that a pair of surrogates denotes. -/
def joinSurrogates (high low : Nat) : Nat :=
  0x10000 + (high - 0xd800) * 0x400 + (low - 0xdc00)

/-- The characters of a string. Raw controls and lone surrogates are refused. -/
def characters? : List Piece → Option (List Char)
  | [] => some []
  | .plain c :: rest => if isControl c then none else return c :: (← characters? rest)
  | .escaped c :: rest => return c :: (← characters? rest)
  | .unit u :: rest =>
    if isLowSurrogate u then none
    else if isHighSurrogate u then
      match rest with
      | .unit v :: rest =>
        if isLowSurrogate v then
          return Char.ofNat (joinSurrogates u v) :: (← characters? rest)
        else none
      | _ => none
    else return Char.ofNat u :: (← characters? rest)

/-- The bytes of a string that stands for a byte string. Nothing is refused: a lone surrogate has
the three bytes of its code point. -/
def bytes : List Piece → List UInt8
  | [] => []
  | .plain c :: rest => Utf8.encodePoint c.toNat ++ bytes rest
  | .escaped c :: rest => Utf8.encodePoint c.toNat ++ bytes rest
  | .unit u :: .unit v :: rest =>
    if isHighSurrogate u && isLowSurrogate v then
      Utf8.encodePoint (joinSurrogates u v) ++ bytes rest
    else
      Utf8.encodePoint u ++ bytes (.unit v :: rest)
  | .unit u :: rest => Utf8.encodePoint u ++ bytes rest

/-- Whether a string may stand where nobody reads it. -/
def isSkippable (pieces : List Piece) : Bool :=
  pieces.all fun
    | .plain c => !isControl c
    | _ => true

end AmbientResidue.Json
