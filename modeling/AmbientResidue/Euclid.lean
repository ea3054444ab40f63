/-!
Euclid's algorithm with coefficients, and inverses modulo a positive number.
-/

namespace AmbientResidue.Euclid

/-- A triple `(g, x, y)` where `g` is the greatest common divisor of `a` and `b`, and
`a * x + b * y = g`. -/
def bezout (a b : Nat) : Nat × Int × Int :=
  if b = 0 then
    (a, 1, 0)
  else
    let (g, x, y) := bezout b (a % b)
    (g, y, x - (a / b : Nat) * y)
termination_by b
decreasing_by exact Nat.mod_lt _ (by omega)

/-- The inverse of `a` in `[0, m)`, when `a` and `m` share no factor. `m` has to be positive. -/
def inverse? (a m : Int) : Option Int :=
  let (g, x, _) := bezout (a.fmod m).toNat m.toNat
  if g = 1 then some (x.fmod m) else none

end AmbientResidue.Euclid
