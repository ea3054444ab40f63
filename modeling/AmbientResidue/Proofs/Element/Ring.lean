import AmbientResidue.Proofs.Element.Canonical
import AmbientResidue.Proofs.Element.Division
import Mathlib.Algebra.Field.ZMod
import Mathlib.Algebra.Ring.TransferInstance
import Mathlib.Data.ZMod.Basic

/-! # The residues of a modulus form a ring

A residue that was made while the modulus was active is the least member of its class, and remembers
the modulus or nothing, so its representative decides it. Casting the representative is then a
bijection onto the integers modulo `M`, and the operations are the ones that are carried across. -/

namespace AmbientResidue

open Counted (Yields)

namespace Modulus

/-- What operations look at while the modulus is active. -/
def ambient (m : Modulus) (build : Build) : Ambient := ⟨build, some m⟩

/-- The residues that are made while the modulus is active. -/
@[ext] structure Residue (m : Modulus) (build : Build) where
  element : Element
  made : Element.Made (m.ambient build) element

variable {m : Modulus} {build : Build}

theorem natCast_toNat_value (m : Modulus) : (m.value.toNat : Int) = m.value :=
  Int.toNat_of_nonneg (Int.le_of_lt m.value_pos)

namespace Residue

theorem bounds (a : m.Residue build) :
    0 ≤ a.element.representative ∧ a.element.representative < m.value := by
  obtain ⟨n, active, nonneg, lt, -⟩ := a.made.canonical
  obtain rfl : m = n := Option.some.inj active
  exact ⟨nonneg, lt⟩

theorem representative_emod (a : m.Residue build) :
    a.element.representative % m.value = a.element.representative :=
  Int.emod_eq_of_lt a.bounds.1 a.bounds.2

theorem eq_residue (a : m.Residue build) :
    a.element = (m.ambient build).residue m a.element.representative := by
  obtain ⟨n, active, -, -, tag⟩ := a.made.canonical
  obtain rfl : m = n := Option.some.inj active
  rw [Ambient.residue, ← tag]

theorem fits (a : m.Residue build) : a.element.Fits m := a.eq_residue ▸ Element.fits_residue _

theorem eq_of_representative {a b : m.Residue build}
    (h : a.element.representative = b.element.representative) : a = b := by
  apply Residue.ext
  rw [a.eq_residue, b.eq_residue, h]

theorem same_iff {a b : m.Residue build} : a.element.same b.element = true ↔ a = b := by
  rw [Element.same, beq_iff_eq]
  exact ⟨eq_of_representative, fun h => by rw [h]⟩

/-- The residue of an integer. -/
def ofInt (m : Modulus) (build : Build) (v : Int) : m.Residue build :=
  ⟨(m.ambient build).residue m (v % m.value), .ofInt (Element.yields_ofInt.2 ⟨m, rfl, rfl⟩)⟩

theorem element_ofInt (v : Int) :
    (ofInt m build v).element = (m.ambient build).residue m (v % m.value) := rfl

@[simp] theorem representative_ofInt (v : Int) :
    (ofInt m build v).element.representative = v % m.value := rfl

/-- Every number in range represents one residue. -/
theorem bijOn_representative : Set.BijOn (fun a : m.Residue build => a.element.representative)
    Set.univ {v : Int | 0 ≤ v ∧ v < m.value} := by
  refine ⟨fun a _ => a.bounds, fun a _ b _ => eq_of_representative, ?_⟩
  intro v inside
  exact ⟨ofInt m build v, trivial, Int.emod_eq_of_lt inside.1 inside.2⟩

/-! ## The ring -/

theorem intCast_emod (m : Modulus) (v : Int) :
    ((v % m.value : Int) : ZMod m.value.toNat) = v := by
  rw [ZMod.intCast_eq_intCast_iff, natCast_toNat_value]
  exact Int.mod_modEq v m.value

/-- Casting loses nothing, as every class has a representative in range. -/
def equivZMod (m : Modulus) (build : Build) : m.Residue build ≃ ZMod m.value.toNat where
  toFun a := a.element.representative
  invFun z := ofInt m build z.cast
  left_inv a := by
    apply eq_of_representative
    rw [representative_ofInt, ZMod.coe_intCast, natCast_toNat_value, Int.emod_emod,
      a.representative_emod]
  right_inv z := by
    show ((z.cast % m.value : Int) : ZMod m.value.toNat) = z
    rw [intCast_emod, ZMod.intCast_zmod_cast]

instance : CommRing (m.Residue build) := (equivZMod m build).commRing

/-- The ring's operations are those of the integers modulo `M`. -/
def ringEquivZMod (m : Modulus) (build : Build) : m.Residue build ≃+* ZMod m.value.toNat :=
  (equivZMod m build).ringEquiv

theorem ringEquivZMod_apply (a : m.Residue build) :
    ringEquivZMod m build a = (a.element.representative : ZMod m.value.toNat) := rfl

theorem ringEquivZMod_ofInt (m : Modulus) (build : Build) (v : Int) :
    ringEquivZMod m build (ofInt m build v) = (v : ZMod m.value.toNat) := by
  rw [ringEquivZMod_apply, representative_ofInt, intCast_emod]

/-- Two residues are equal once they are equal modulo `M`. -/
theorem eq_ofInt_iff {a : m.Residue build} {v : Int} :
    a = ofInt m build v ↔ ringEquivZMod m build a = (v : ZMod m.value.toNat) := by
  rw [← ringEquivZMod_ofInt m build, EmbeddingLike.apply_eq_iff_eq]

variable (a b : m.Residue build)

theorem zero_eq : (0 : m.Residue build) = ofInt m build 0 := by
  rw [eq_ofInt_iff, map_zero, Int.cast_zero]

theorem one_eq : (1 : m.Residue build) = ofInt m build 1 := by
  rw [eq_ofInt_iff, map_one, Int.cast_one]

theorem neg_eq : -a = ofInt m build (-a.element.representative) := by
  rw [eq_ofInt_iff, map_neg, ringEquivZMod_apply, Int.cast_neg]

theorem add_eq : a + b = ofInt m build (a.element.representative + b.element.representative) := by
  rw [eq_ofInt_iff, map_add, ringEquivZMod_apply, ringEquivZMod_apply, Int.cast_add]

theorem sub_eq : a - b = ofInt m build (a.element.representative - b.element.representative) := by
  rw [eq_ofInt_iff, map_sub, ringEquivZMod_apply, ringEquivZMod_apply, Int.cast_sub]

theorem mul_eq : a * b = ofInt m build (a.element.representative * b.element.representative) := by
  rw [eq_ofInt_iff, map_mul, ringEquivZMod_apply, ringEquivZMod_apply, Int.cast_mul]

end Residue

/-- The residues' operations, run while the modulus is active, are those of the ring, and their
equality test decides its equality. -/
structure Computes (m : Modulus) (build : Build) [CommRing (m.Residue build)] : Prop where
  zero : Yields (Element.zero (m.ambient build)) (0 : m.Residue build).element
  one : Yields (Element.one (m.ambient build)) (1 : m.Residue build).element
  neg (a : m.Residue build) : Yields (Element.neg (m.ambient build) a.element) (-a).element
  square (a : m.Residue build) : Yields (Element.square (m.ambient build) a.element) (a * a).element
  add (a b : m.Residue build) :
    Yields (Element.add (m.ambient build) a.element b.element) (a + b).element
  sub (a b : m.Residue build) :
    Yields (Element.sub (m.ambient build) a.element b.element) (a - b).element
  mul (a b : m.Residue build) :
    Yields (Element.mul (m.ambient build) a.element b.element) (a * b).element
  same (a b : m.Residue build) : a.element.same b.element = true ↔ a = b

theorem computes (m : Modulus) (build : Build) : m.Computes build where
  zero := by
    rw [Residue.zero_eq, Residue.element_ofInt, Int.zero_emod]
    exact Element.yields_zero.2 ⟨m, rfl, rfl⟩
  one := by
    rw [Residue.one_eq]
    exact Element.yields_one.2 (Element.yields_ofInt.2 ⟨m, rfl, rfl⟩)
  neg a := by
    rw [Residue.neg_eq]
    exact Element.yields_neg.2 ⟨m, rfl, a.fits, rfl⟩
  square a := by
    rw [Residue.mul_eq]
    exact Element.yields_square.2 ⟨m, rfl, a.fits, rfl⟩
  add a b := by
    rw [Residue.add_eq]
    exact Element.yields_add.2 ⟨m, rfl, a.fits, b.fits, rfl⟩
  sub a b := by
    rw [Residue.sub_eq]
    exact Element.yields_sub.2 ⟨m, rfl, a.fits, b.fits, rfl⟩
  mul a b := by
    rw [Residue.mul_eq]
    exact Element.yields_mul.2 ⟨m, rfl, a.fits, b.fits, rfl⟩
  same a b := Residue.same_iff

/-! ## The field -/

namespace Residue

/-- The residue has an inverse, and the product of the two is one. -/
def Inverts [CommRing (m.Residue build)] (a : m.Residue build) : Prop :=
  Yields (do Element.mul (m.ambient build) a.element (← Element.invert (m.ambient build) a.element))
    (1 : m.Residue build).element

theorem eq_zero_iff {a : m.Residue build} : a = 0 ↔ a.element.representative = 0 := by
  rw [zero_eq]
  constructor
  · rintro rfl
    rfl
  · intro h
    exact eq_of_representative h

theorem toNat_representative (a : m.Residue build) :
    (a.element.representative.toNat : Int) = a.element.representative :=
  Int.toNat_of_nonneg a.bounds.1

theorem coprimeTo_iff {a : m.Residue build} :
    a.element.CoprimeTo m ↔ Nat.Coprime a.element.representative.toNat m.value.toNat := by
  rw [Element.CoprimeTo, Nat.Coprime, ← Int.gcd_natCast_natCast, a.toNat_representative,
    natCast_toNat_value]

theorem inverts_iff {a : m.Residue build} : a.Inverts ↔ a.element.CoprimeTo m := by
  constructor
  · intro made
    obtain ⟨r, made, -⟩ := Counted.yields_bind.1 made
    exact (Element.inverts_iff rfl a.fits).1 ⟨r, made⟩
  · intro coprime
    obtain ⟨x, cancels⟩ := coprime.exists_cancels
    rw [Inverts, one_eq, element_ofInt, ← Element.residue_congr cancels]
    have active : (m.ambient build).active = some m := rfl
    have inverse := Element.yields_invert_of_cancels active a.fits.represents cancels
    have product := Element.yields_mul_of_represents active a.fits.represents
      (Element.represents_residue (m.ambient build) m x)
    exact Counted.yields_bind.2 ⟨_, inverse, product⟩

theorem coprimeTo_of_prime (prime : Nat.Prime m.value.toNat) {a : m.Residue build} (h : a ≠ 0) :
    a.element.CoprimeTo m := by
  have nonzero : a.element.representative ≠ 0 := fun zero => h (eq_zero_iff.2 zero)
  have bounds := a.bounds
  have natural := a.toNat_representative
  have whole := m.natCast_toNat_value
  exact coprimeTo_iff.2 (Nat.coprime_of_lt_prime (by omega) (by omega) prime).symm

/-- The numbers below `M` are residues, so that `M` has no divisor among them. -/
theorem prime_of_coprimeTo (large : 2 ≤ m.value)
    (h : ∀ a : m.Residue build, a ≠ 0 → a.element.CoprimeTo m) : Nat.Prime m.value.toNat := by
  apply Nat.prime_of_coprime _ (by omega)
  intro k below nonzero
  have stored : (ofInt m build k).element.representative = k :=
    Int.emod_eq_of_lt (Int.natCast_nonneg k) (by omega)
  have apart : ofInt m build k ≠ 0 := by
    rw [ne_eq, eq_zero_iff, stored]
    omega
  have coprime := coprimeTo_iff.1 (h _ apart)
  rw [stored, Int.toNat_natCast] at coprime
  exact coprime.symm

theorem eq_zero_or_eq_zero (prime : Nat.Prime m.value.toNat) {a b : m.Residue build}
    (h : a * b = 0) : a = 0 ∨ b = 0 := by
  -- The integers modulo `M` count as a field only with this fact at hand.
  have : Fact (Nat.Prime m.value.toNat) := ⟨prime⟩
  have product : ringEquivZMod m build a * ringEquivZMod m build b = 0 := by
    rw [← map_mul, h, map_zero]
  simpa using mul_eq_zero.1 product

end Residue

/-- The residues of a modulus are a commutative ring with one element for each number in range, and
a field where the modulus is prime and nowhere else. -/
theorem residues_form_ring (m : Modulus) (build : Build) : ∃ _ : CommRing (m.Residue build),
    m.Computes build ∧
    Set.BijOn (fun a : m.Residue build => a.element.representative) Set.univ
      {v : Int | 0 ≤ v ∧ v < m.value} ∧
    (2 ≤ m.value → ((∀ a : m.Residue build, a ≠ 0 → a.Inverts) ↔ Nat.Prime m.value.toNat)) ∧
    (Nat.Prime m.value.toNat → ∀ a b : m.Residue build, a * b = 0 → a = 0 ∨ b = 0) := by
  refine ⟨inferInstance, m.computes build, Residue.bijOn_representative, fun large => ?_,
    fun prime a b => Residue.eq_zero_or_eq_zero prime⟩
  simp only [Residue.inverts_iff]
  constructor
  · intro units
    exact Residue.prime_of_coprimeTo large units
  · intro prime a nonzero
    exact Residue.coprimeTo_of_prime prime nonzero

/-- Under 7 every residue but zero has an inverse, and under 6 some other has none. -/
theorem residues_form_ring_seven_six :
    let seven : Modulus := ⟨7, 1, by decide⟩
    let six : Modulus := ⟨6, 1, by decide⟩
    (∃ _ : CommRing (seven.Residue .checked), ∀ a : seven.Residue .checked, a ≠ 0 → a.Inverts) ∧
      ∃ _ : CommRing (six.Residue .plain), ∃ a : six.Residue .plain, a ≠ 0 ∧ ¬ a.Inverts := by
  intro seven six
  constructor
  · obtain ⟨ring, -, -, field, -⟩ := residues_form_ring seven .checked
    exact ⟨ring, (field (by decide)).2 (by decide)⟩
  · obtain ⟨ring, -, -, field, -⟩ := residues_form_ring six .plain
    have composite := mt (field (by decide)).1 (by decide)
    push Not at composite
    exact ⟨ring, composite⟩

end Modulus

end AmbientResidue
