import AmbientResidue.Engine
import AmbientResidue.Error

/-!
Integer operations. Each is one call of the engine underneath, except negation, which subtracts from
a freshly made zero. A text that is no literal is refused before the engine is asked.
-/

namespace AmbientResidue.Integer

/-- The engine underneath. Its answers are the standard engine's; its prices are charged by those
builds that count. -/
def engine : Engine Int := Engine.standard.tracked

def ofInt64 (v : Int64) : Counted Int := engine.ofInt64 v

def zero : Counted Int := ofInt64 0

def one : Counted Int := ofInt64 1

def ofBytes (bytes : List UInt8) : Counted Int := engine.ofBytes bytes

/-- An unsigned word, by way of its eight bytes. -/
def ofWord (n : Nat) : Counted Int := ofBytes (BigEndian.fixed 8 n)

/-- Reads a decimal literal. -/
def ofLiteral (s : String) : ExceptT Refusal Counted Int :=
  if Decimal.isLiteral s.toList then do
    match ← Counted.sure (engine.ofDecimal? s) with
    | some n => return n
    | none => throw (.badLiteral s)
  else
    throw (.badLiteral s)

def add (a b : Int) : Counted Int := engine.add a b

def sub (a b : Int) : Counted Int := engine.sub a b

def mul (a b : Int) : Counted Int := engine.mul a b

def neg (a : Int) : Counted Int := do sub (← zero) a

/-- The least non-negative residue of `a` modulo `m`. -/
def reduce (a m : Int) : Counted Int := engine.reduce a m

/-- The inverse of `a` modulo `m` in `[0, m)`, if there is one. -/
def inverse? (a m : Int) : Counted (Option Int) := engine.inverse? a m

/-- The magnitude in as few big-endian bytes as hold it. -/
def bytes (a : Int) : List UInt8 := (engine.bytes a).value

/-- The number of bits of the magnitude. -/
def bits (a : Int) : Nat := (engine.bitLength a).value

/-- The number of bytes of the magnitude. -/
def width (a : Int) : Nat := (engine.byteLength a).value

/-- The decimal text wrapped in the name of its kind. -/
def describe (a : Int) : String := "BigInt(" ++ Decimal.text a ++ ")"

/-- An increasing arrangement of a list. -/
def sort (l : List Int) : List Int := l.mergeSort (fun a b => decide (a ≤ b))

/-- How many different integers a list holds. -/
def distinct (l : List Int) : Nat := l.eraseDups.length

def sum (l : List Int) : Int := l.foldl (· + ·) 0

def product (l : List Int) : Int := l.foldl (· * ·) 1

end AmbientResidue.Integer
