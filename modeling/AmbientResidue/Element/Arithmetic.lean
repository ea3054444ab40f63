import AmbientResidue.Element

/-!
Arithmetic on residues. Every operation asks for the active modulus, then for the tags of its
operands from left to right, and only then computes. Division inverts its divisor before it looks at
the dividend. An operator is the same operation, except that its errors stop the caller.
-/

namespace AmbientResidue

/-- A computation on residues. -/
abbrev Operation := ExceptT Fault Counted

namespace Ambient

/-- The active modulus, for an operation. -/
def modulusForOperation (env : Ambient) : Except Fault Modulus := env.modulus.mapError .error

end Ambient

namespace Element

open Counted (free sure)

/-- Stops the caller if the residue remembers another modulus than the given one. -/
def checkTag (m : Modulus) (a : Element) : Except Fault Unit :=
  match a.tag with
  | some builtUnder =>
    if builtUnder = m then .ok () else .error (.mismatchPanic builtUnder.value m.value)
  | none => .ok ()

/-- An operation on one residue. -/
def unary (env : Ambient) (op : Modulus → Int → Counted Int) (a : Element) :
    Operation Element := do
  let m ← free env.modulusForOperation
  free (a.checkTag m)
  return env.residue m (← sure (op m a.representative))

/-- An operation on two residues. -/
def binary (env : Ambient) (op : Modulus → Int → Int → Counted Int) (a b : Element) :
    Operation Element := do
  let m ← free env.modulusForOperation
  free (a.checkTag m)
  free (b.checkTag m)
  return env.residue m (← sure (op m a.representative b.representative))

def neg (env : Ambient) (a : Element) : Operation Element := unary env Modulus.neg a

def square (env : Ambient) (a : Element) : Operation Element :=
  unary env (fun m v => m.mul v v) a

def add (env : Ambient) (a b : Element) : Operation Element := binary env Modulus.add a b

def sub (env : Ambient) (a b : Element) : Operation Element := binary env Modulus.sub a b

def mul (env : Ambient) (a b : Element) : Operation Element := binary env Modulus.mul a b

/-- The inverse under the active modulus. The error names the stored representative. -/
def invert (env : Ambient) (a : Element) : Operation Element := do
  let m ← free env.modulusForOperation
  free (a.checkTag m)
  match ← sure (m.inverse? a.representative) with
  | some v => return env.residue m v
  | none => throw (.error (.notInvertible a.representative m.value))

def div (env : Ambient) (a b : Element) : Operation Element := do
  mul env a (← invert env b)

/-- The same computation where errors cannot be reported. -/
def orPanic (x : Operation α) : Operation α :=
  x.adapt fun
    | .error e => .operatorPanic e
    | fault => fault

/-- Making a residue where errors cannot be reported. -/
def makeOrPanic (x : Making α) : Operation α := x.adapt .operatorPanic

inductive Binary where
  | add
  | sub
  | mul
  | div
deriving DecidableEq, Repr

def Binary.method (op : Binary) : Ambient → Element → Element → Operation Element :=
  match op with
  | .add => Element.add
  | .sub => Element.sub
  | .mul => Element.mul
  | .div => Element.div

def Binary.operator (op : Binary) (env : Ambient) (a b : Element) : Operation Element :=
  orPanic (op.method env a b)

inductive Unary where
  | neg
  | square
  | invert
deriving DecidableEq, Repr

def Unary.method (op : Unary) : Ambient → Element → Operation Element :=
  match op with
  | .neg => Element.neg
  | .square => Element.square
  | .invert => Element.invert

def Unary.operator (op : Unary) (env : Ambient) (a : Element) : Operation Element :=
  orPanic (op.method env a)

/-- Adds up from the left, starting from zero. -/
def sum (env : Ambient) (l : List Element) : Operation Element := do
  l.foldlM (fun total a => Binary.add.operator env total a) (← makeOrPanic (zero env))

/-- Multiplies from the left, starting from one. -/
def product (env : Ambient) (l : List Element) : Operation Element := do
  l.foldlM (fun total a => Binary.mul.operator env total a) (← makeOrPanic (one env))

/-- Adds up residues that stay where they are: each reference is read when it is its turn. -/
def sumBorrowed (env : Ambient) (read : ι → Element) (l : List ι) : Operation Element := do
  l.foldlM (fun total i => Binary.add.operator env total (read i)) (← makeOrPanic (zero env))

/-- Multiplies residues that stay where they are. -/
def productBorrowed (env : Ambient) (read : ι → Element) (l : List ι) : Operation Element := do
  l.foldlM (fun total i => Binary.mul.operator env total (read i)) (← makeOrPanic (one env))

end Element

end AmbientResidue
