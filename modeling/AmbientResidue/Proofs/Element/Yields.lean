import AmbientResidue.Element.Arithmetic
import AmbientResidue.Proofs.Counted
import AmbientResidue.Proofs.Integer
import AmbientResidue.Proofs.Modulus

/-! # What operations on residues yield

One equivalence for each operation: which modulus has to be active, which operands it accepts, and
the representative that comes out. Callers rewrite with these and never open an operation. -/

namespace AmbientResidue

open Counted (Yields)

variable {env : Ambient} {m : Modulus} {a b r : Element}

namespace Ambient

theorem modulus_eq_ok : env.modulus = .ok m ↔ env.active = some m := by
  unfold modulus
  split <;> simp [*]

theorem modulusForOperation_eq_ok : env.modulusForOperation = .ok m ↔ env.active = some m := by
  rw [modulusForOperation, Counted.mapError_eq_ok, modulus_eq_ok]

end Ambient

namespace Element

/-- The residue may be used under the modulus: it remembers no other one. -/
def Fits (m : Modulus) (a : Element) : Prop := ∀ builtUnder, a.tag = some builtUnder → builtUnder = m

theorem Fits.of_untagged (m : Modulus) (h : a.tag = none) : a.Fits m := by
  intro builtUnder tagged
  rw [h] at tagged
  cases tagged

theorem checkTag_eq_ok {u : Unit} : a.checkTag m = .ok u ↔ a.Fits m := by
  unfold checkTag Fits
  cases a.tag with
  | none => simp
  | some builtUnder =>
    by_cases same : builtUnder = m
    · simp [same]
    · simp [same]

/-! ## Making residues -/

theorem yields_zero : Yields (zero env) r ↔ ∃ m, env.active = some m ∧ r = env.residue m 0 := by
  simp [zero, Ambient.modulus_eq_ok]

theorem yields_ofInt {v : Int} :
    Yields (ofInt env v) r ↔ ∃ m, env.active = some m ∧ r = env.residue m (v % m.value) := by
  simp [ofInt, Ambient.modulus_eq_ok]

theorem yields_ofInt64 {v : Int64} : Yields (ofInt64 env v) r ↔ Yields (ofInt env v.toInt) r := by
  simp only [ofInt64, Counted.yields_bind, Counted.yields_sure, exists_eq_left]
  rfl

theorem yields_one : Yields (one env) r ↔ Yields (ofInt env 1) r := yields_ofInt64

theorem yields_ofLiteral {s : String} :
    Yields (ofLiteral env s) r ↔ ∃ v, Yields (Integer.ofLiteral s) v ∧ Yields (ofInt env v) r := by
  simp [ofLiteral]

theorem yields_ofBytes {bytes : List UInt8} :
    Yields (ofBytes env bytes) r ↔ Yields (ofInt env (BigEndian.value bytes)) r := by
  simp only [ofBytes, Counted.yields_bind, Counted.yields_sure, exists_eq_left]
  rfl

/-! ## Arithmetic -/

theorem yields_unary {op : Modulus → Int → Counted Int} :
    Yields (unary env op a) r ↔ ∃ m, env.active = some m ∧ a.Fits m ∧
      r = env.residue m (op m a.representative).value := by
  simp [unary, Ambient.modulusForOperation_eq_ok, checkTag_eq_ok]

theorem yields_binary {op : Modulus → Int → Int → Counted Int} :
    Yields (binary env op a b) r ↔ ∃ m, env.active = some m ∧ a.Fits m ∧ b.Fits m ∧
      r = env.residue m (op m a.representative b.representative).value := by
  simp [binary, Ambient.modulusForOperation_eq_ok, checkTag_eq_ok]

theorem yields_neg : Yields (neg env a) r ↔ ∃ m, env.active = some m ∧ a.Fits m ∧
    r = env.residue m (-a.representative % m.value) := by
  simp only [neg, yields_unary, Modulus.value_neg]

theorem yields_square : Yields (square env a) r ↔ ∃ m, env.active = some m ∧ a.Fits m ∧
    r = env.residue m (a.representative * a.representative % m.value) := by
  simp only [square, yields_unary, Modulus.value_mul]

theorem yields_add : Yields (add env a b) r ↔ ∃ m, env.active = some m ∧ a.Fits m ∧ b.Fits m ∧
    r = env.residue m ((a.representative + b.representative) % m.value) := by
  simp only [add, yields_binary, Modulus.value_add]

theorem yields_sub : Yields (sub env a b) r ↔ ∃ m, env.active = some m ∧ a.Fits m ∧ b.Fits m ∧
    r = env.residue m ((a.representative - b.representative) % m.value) := by
  simp only [sub, yields_binary, Modulus.value_sub]

theorem yields_mul : Yields (mul env a b) r ↔ ∃ m, env.active = some m ∧ a.Fits m ∧ b.Fits m ∧
    r = env.residue m (a.representative * b.representative % m.value) := by
  simp only [mul, yields_binary, Modulus.value_mul]

theorem yields_invert : Yields (invert env a) r ↔ ∃ m v, env.active = some m ∧ a.Fits m ∧
    (m.inverse? a.representative).value = some v ∧ r = env.residue m v := by
  simp only [invert, Counted.yields_bind, Counted.yields_free, Counted.yields_sure,
    Ambient.modulusForOperation_eq_ok, checkTag_eq_ok, exists_eq_left, exists_const]
  refine exists_congr fun m => ?_
  cases (m.inverse? a.representative).value <;> simp

theorem yields_div : Yields (div env a b) r ↔
    ∃ inverse, Yields (invert env b) inverse ∧ Yields (mul env a inverse) r := by
  simp [div]

/-! ## Errors that stop the caller -/

@[simp] theorem yields_orPanic {x : Operation Element} : Yields (orPanic x) r ↔ Yields x r :=
  Counted.yields_adapt

@[simp] theorem yields_makeOrPanic {x : Making Element} : Yields (makeOrPanic x) r ↔ Yields x r :=
  Counted.yields_adapt

end Element

end AmbientResidue
