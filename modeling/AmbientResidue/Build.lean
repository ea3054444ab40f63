/-!
The three ways to build the library. They differ in what they watch, not in what they compute.
-/

namespace AmbientResidue

inductive Build where
  | plain
  /-- Every residue remembers its modulus, and operations insist on the active one. -/
  | checked
  /-- Every priced integer operation is counted. -/
  | counted
deriving DecidableEq, Repr

/-- Whether residues remember their modulus. -/
def Build.tags : Build → Bool
  | .checked => true
  | _ => false

/-- Whether priced operations are counted. -/
def Build.counts : Build → Bool
  | .counted => true
  | _ => false

end AmbientResidue
