import AmbientResidue.Proofs.Euclid
import AmbientResidue.Proofs.Modulus

/-! # Operations on the classes of a modulus

A modulus takes any integer for its class, the negative ones and those past the modulus like the
others. Reducing picks the least non-negative member of the class, and an operation picks that of the
exact result, so that it does not matter whether its operands have been reduced before. -/

namespace AmbientResidue.Modulus

open Euclid (IsResidue IsInverse)

variable {m : Modulus}

theorem reduce_eq_self_iff {a : Int} : (m.reduce a).value = a ↔ m.contains a = true := by
  rw [contains_iff, value_reduce]
  constructor
  · intro same
    rw [← same]
    exact m.contains_iff.1 (m.contains_emod a)
  · rintro ⟨nonneg, lt⟩
    exact Int.emod_eq_of_lt nonneg lt

theorem reduce_reduce (a : Int) : (m.reduce (m.reduce a).value).value = (m.reduce a).value :=
  reduce_eq_self_iff.2 (m.contains_reduce a)

/-- The operation takes its operands for their classes, and answers the least residue of the exact
result. -/
structure OnClasses (m : Modulus) (f : Int → Int → Counted Int) (exact : Int → Int → Int) :
    Prop where
  exact : ∀ a b, (f a b).value = (m.reduce (exact a b)).value
  reduced : ∀ a b, (f (m.reduce a).value (m.reduce b).value).value = (f a b).value
  contains : ∀ a b, m.contains (f a b).value = true

/-- It is enough that the exact operation respects the classes. -/
theorem onClasses_of_modEq {f : Int → Int → Counted Int} {exact : Int → Int → Int}
    (value : ∀ a b, (f a b).value = exact a b % m.value)
    (respects : ∀ {a b c d}, a ≡ c [ZMOD m.value] → b ≡ d [ZMOD m.value] →
      exact a b ≡ exact c d [ZMOD m.value]) :
    m.OnClasses f exact where
  exact a b := by rw [value, value_reduce]
  reduced a b := by
    rw [value, value, value_reduce, value_reduce]
    exact respects (Int.mod_modEq a m.value) (Int.mod_modEq b m.value)
  contains a b := by
    rw [value]
    exact m.contains_emod _

theorem onClasses_add : m.OnClasses m.add (· + ·) := onClasses_of_modEq m.value_add .add

theorem onClasses_sub : m.OnClasses m.sub (· - ·) := onClasses_of_modEq m.value_sub .sub

theorem onClasses_mul : m.OnClasses m.mul (· * ·) := onClasses_of_modEq m.value_mul .mul

theorem onClasses_neg : m.OnClasses (fun a _ => m.neg a) fun a _ => -a :=
  onClasses_of_modEq (fun a _ => m.value_neg a) fun same _ => same.neg

/-- The algorithm starts by reducing. -/
theorem inverse?_reduce (a : Int) :
    (m.inverse? (m.reduce a).value).value = (m.inverse? a).value := by
  rw [value_reduce]
  exact Euclid.inverse?_emod m.value_pos a

theorem all_contains_inverse? (a : Int) : (m.inverse? a).value.all m.contains = true := by
  rw [Option.all_eq_true]
  intro x found
  exact m.contains_inverse found

/-- Whatever integers the operations of a modulus are given, they answer the least residues of the
exact results, and the same for the integers as for their least residues. -/
theorem operations_respect_classes (m : Modulus) :
    (∀ a r, IsResidue a m.value r ↔ r = (m.reduce a).value) ∧
    (∀ a, (m.reduce (m.reduce a).value).value = (m.reduce a).value) ∧
    (∀ a, (m.reduce a).value = a ↔ m.contains a = true) ∧
    m.OnClasses m.add (· + ·) ∧ m.OnClasses m.sub (· - ·) ∧ m.OnClasses m.mul (· * ·) ∧
    (m.OnClasses (fun a _ => m.neg a) fun a _ => -a) ∧
    (∀ a, (m.inverse? (m.reduce a).value).value = (m.inverse? a).value) ∧
    (∀ a, (m.inverse? a).value.all m.contains = true) ∧
    ∀ a x, (m.inverse? a).value = some x ↔ IsInverse a m.value x := by
  refine ⟨fun a r => ?_, reduce_reduce, fun a => reduce_eq_self_iff, onClasses_add, onClasses_sub,
    onClasses_mul, onClasses_neg, inverse?_reduce, all_contains_inverse?, fun a x => ?_⟩
  · rw [value_reduce]
    exact Euclid.isResidue_iff m.value_pos
  · exact Euclid.inverse?_eq_some_iff m.value_pos

theorem operations_respect_classes_ten :
    let m : Modulus := ⟨10, 1, by decide⟩
    (m.reduce (-13)).value = 7 ∧ (m.mul (-13) 27).value = (m.mul 7 7).value ∧
      (m.inverse? (-13)).value = (m.inverse? 7).value := by
  intro m
  obtain ⟨least, -, -, -, -, mul, -, inverse, -⟩ := operations_respect_classes m
  have left : (m.reduce (-13)).value = 7 :=
    ((least (-13) 7).1 ⟨by decide, by decide, by decide⟩).symm
  have right : (m.reduce 27).value = 7 := ((least 27 7).1 ⟨by decide, by decide, by decide⟩).symm
  refine ⟨left, ?_, ?_⟩
  · rw [← mul.reduced, left, right]
  · rw [← inverse, left]

end AmbientResidue.Modulus
