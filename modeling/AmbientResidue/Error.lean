import AmbientResidue.Decimal
import AmbientResidue.Text.Quoted

/-!
Why an operation on integers, moduli or residues can be refused, and the one-line message of each
cause.
-/

namespace AmbientResidue

inductive Refusal where
  /-- The text is no decimal literal. -/
  | badLiteral (text : String)
  /-- The value is zero or negative. -/
  | invalidModulus (value : Int)
  /-- The context has no active modulus yet. -/
  | uninitialized
  /-- The stored representative shares a factor with the active modulus. -/
  | notInvertible (value modulus : Int)
  /-- The snapshot was taken from another context. -/
  | foreignSnapshot
deriving DecidableEq, Repr

def Refusal.message : Refusal → String
  | .badLiteral text => "invalid decimal integer literal: " ++ Text.quote text
  | .invalidModulus value => "modulus must be positive, got " ++ Decimal.text value
  | .uninitialized => "no modulus has been installed"
  | .notInvertible value modulus =>
    Decimal.text value ++ " is not invertible modulo " ++ Decimal.text modulus
  | .foreignSnapshot => "snapshot was taken from a different modulus context"

/-- How an operation on residues ends when it yields none. -/
inductive Fault where
  /-- The operation reports an error. -/
  | error (e : Refusal)
  /-- An operator, which cannot report errors, stops the caller. -/
  | operatorPanic (e : Refusal)
  /-- A tagged operand was built under another modulus than the active one. -/
  | mismatchPanic (builtUnder active : Int)
deriving DecidableEq, Repr

def Fault.message : Fault → String
  | .error e => e.message
  | .operatorPanic e => "field operation failed: " ++ e.message
  | .mismatchPanic builtUnder active =>
    "field element built under modulus " ++ Decimal.text builtUnder ++ " used while modulus " ++
      Decimal.text active ++ " is active"

end AmbientResidue
