import AmbientResidue.Build
import AmbientResidue.Modulus

/-!
Residues, built under whatever modulus is active at the time. A residue keeps its representative
and, in the checked build, the modulus; it is never reduced again when the active modulus changes.
Equality and hashing look at the representative only.
-/

namespace AmbientResidue

structure Element where
  representative : Int
  /-- The modulus it was built under, where residues remember it. -/
  tag : Option Modulus
deriving DecidableEq, Repr

/-- What operations on residues look at beside their operands. -/
structure Ambient where
  build : Build
  active : Option Modulus

/-- A computation that makes a residue. -/
abbrev Making := ExceptT Refusal Counted

namespace Ambient

/-- The active modulus. -/
def modulus (env : Ambient) : Except Refusal Modulus :=
  match env.active with
  | some m => .ok m
  | none => .error .uninitialized

/-- The residue of a representative that already lies in `[0, M)`. -/
def residue (env : Ambient) (m : Modulus) (representative : Int) : Element :=
  ⟨representative, if env.build.tags then some m else none⟩

end Ambient

namespace Element

open Counted (free sure)

/-- The residue of zero. Zero lies below every modulus, so it is not reduced. -/
def zero (env : Ambient) : Making Element := do
  let m ← free env.modulus
  return env.residue m (← sure Integer.zero)

/-- The residue of an integer. -/
def ofInt (env : Ambient) (v : Int) : Making Element := do
  let m ← free env.modulus
  return env.residue m (← sure (m.reduce v))

def ofInt64 (env : Ambient) (v : Int64) : Making Element := do
  ofInt env (← sure (Integer.ofInt64 v))

/-- The residue of one, which is zero under the modulus 1. -/
def one (env : Ambient) : Making Element := ofInt64 env 1

/-- The residue of a decimal literal. The literal is judged first. -/
def ofLiteral (env : Ambient) (s : String) : Making Element := do
  ofInt env (← Integer.ofLiteral s)

/-- The residue of a big-endian byte string. -/
def ofBytes (env : Ambient) (bytes : List UInt8) : Making Element := do
  ofInt env (← sure (Integer.ofBytes bytes))

/-- The representative in as few big-endian bytes as hold it. -/
def bytes (a : Element) : List UInt8 := Integer.bytes a.representative

def text (a : Element) : String := Decimal.text a.representative

/-- Whether the representative is zero. -/
def isZero (a : Element) : Bool := a.representative == 0

/-- Whether two residues have the same representative. -/
def same (a b : Element) : Bool := a.representative == b.representative

/-- What a residue contributes to a hash. -/
def hashKey (a : Element) : Int := a.representative

end Element

end AmbientResidue
