/-!
Decimal literals: an optional sign and at least one ASCII digit. `readTolerant?` also admits
underscores between and after the digits; on literals proper it never refuses. Printing writes no
`+`, no leading zero and no `-` before zero.
-/

namespace AmbientResidue.Decimal

/-- Whether a `-` stands in front, and what follows the sign if there is one. -/
def splitSign : List Char → Bool × List Char
  | '-' :: rest => (true, rest)
  | '+' :: rest => (false, rest)
  | cs => (false, cs)

/-- The number that a run of digits denotes, most significant digit first. -/
def magnitude (digits : List Char) : Nat := Nat.ofDigitChars 10 digits 0

def signed (negative : Bool) (n : Nat) : Int := if negative then -(n : Int) else n

/-- An optional sign, then one or more ASCII digits and nothing else. -/
def isLiteral (cs : List Char) : Bool :=
  let digits := (splitSign cs).2
  !digits.isEmpty && digits.all Char.isDigit

/-- Reads digits that may be separated by underscores; the first character after the sign is a
digit. -/
def readTolerant? (cs : List Char) : Option Int :=
  let (negative, body) := splitSign cs
  match body with
  | [] => none
  | d :: _ =>
    if d.isDigit && body.all (fun c => c.isDigit || c == '_') then
      some (signed negative (magnitude (body.filter (· != '_'))))
    else
      none

/-- The canonical literal of an integer. -/
def print (n : Int) : List Char :=
  if n < 0 then '-' :: Nat.toDigits 10 n.natAbs else Nat.toDigits 10 n.natAbs

/-- The canonical literal as a string. -/
def text (n : Int) : String := String.ofList (print n)

end AmbientResidue.Decimal
