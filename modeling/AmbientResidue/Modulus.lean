import AmbientResidue.Integer

/-!
Moduli: positive integers with the number of bytes that hold any residue. Reductions and the
operations below take integers from anywhere and land in `[0, M)`.
-/

namespace AmbientResidue

structure Modulus where
  value : Int
  /-- The number of bytes of `value`, kept so that sampling need not compute it. -/
  width : Nat
  value_pos : 0 < value
deriving DecidableEq, Repr

namespace Modulus

/-- The modulus of a positive integer. -/
def ofInt (value : Int) : Except Refusal Modulus :=
  if h : 0 < value then .ok ⟨value, Integer.width value, h⟩ else .error (.invalidModulus value)

theorem ofInt_eq_ok_iff {value : Int} {m : Modulus} :
    ofInt value = .ok m ↔ m.value = value ∧ m.width = Integer.width value := by
  obtain ⟨v, w, pos⟩ := m
  by_cases h : 0 < value
  · simp [ofInt, h, eq_comm]
  · simp only [ofInt, h, dite_false, reduceCtorEq, false_iff, not_and]
    rintro rfl
    exact absurd pos h

theorem ofInt_eq_error_iff {value : Int} {e : Refusal} :
    ofInt value = .error e ↔ value ≤ 0 ∧ e = .invalidModulus value := by
  by_cases h : 0 < value
  · simp [ofInt, h, Int.not_le.2 h]
  · simp [ofInt, h, Int.not_lt.1 h, eq_comm]

def bits (m : Modulus) : Nat := Integer.bits m.value

/-- Whether `a` is the least non-negative member of its residue class. -/
def contains (m : Modulus) (a : Int) : Bool := decide (0 ≤ a) && decide (a < m.value)

def reduce (m : Modulus) (a : Int) : Counted Int := Integer.reduce a m.value

def add (m : Modulus) (a b : Int) : Counted Int := do m.reduce (← Integer.add a b)

def sub (m : Modulus) (a b : Int) : Counted Int := do m.reduce (← Integer.sub a b)

def mul (m : Modulus) (a b : Int) : Counted Int := do m.reduce (← Integer.mul a b)

def neg (m : Modulus) (a : Int) : Counted Int := do m.reduce (← Integer.neg a)

/-- The inverse of `a`, unless `a` shares a factor with the modulus. -/
def inverse? (m : Modulus) (a : Int) : Counted (Option Int) := Integer.inverse? a m.value

def text (m : Modulus) : String := Decimal.text m.value

/-- The decimal text wrapped in the name of its kind. -/
def describe (m : Modulus) : String := "Modulus(" ++ m.text ++ ")"

end Modulus

end AmbientResidue
