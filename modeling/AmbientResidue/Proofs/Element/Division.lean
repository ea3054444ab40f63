import AmbientResidue.Proofs.Element.Refusals
import AmbientResidue.Proofs.Euclid

/-! # Inversion and division

An operand counts as the integer that it stores, which need not lie below the active modulus, and so
as every integer that is congruent to it. Any integer that takes it to one modulo the modulus stands
for its inverse. The laws of division are then congruences of integers; only operands that share no
factor with the modulus have such an integer. -/

namespace AmbientResidue

open Counted (Yields Refuses)
open Euclid (IsInverse IsQuotient)

theorem Modulus.inverse?_eq_some_iff (m : Modulus) {a v : Int} :
    (m.inverse? a).value = some v ↔ IsInverse a m.value v :=
  Euclid.inverse?_eq_some_iff m.value_pos

theorem Modulus.inverse?_eq_none_iff (m : Modulus) {a : Int} :
    (m.inverse? a).value = none ↔ Int.gcd a m.value ≠ 1 :=
  Euclid.inverse?_eq_none_iff m.value_pos

namespace Element

variable {env : Ambient} {m : Modulus} {a b d r : Element} {u v w x y : Int} {e : Fault}

/-- The residue may be used under the modulus, and counts as the integer. -/
structure Represents (m : Modulus) (a : Element) (v : Int) : Prop where
  fits : a.Fits m
  congruent : a.representative ≡ v [ZMOD m.value]

theorem Fits.represents (fits : a.Fits m) : Represents m a a.representative := ⟨fits, .rfl⟩

theorem represents_residue (env : Ambient) (m : Modulus) (v : Int) :
    Represents m (env.residue m (v % m.value)) v :=
  ⟨fits_residue _, Int.mod_modEq v m.value⟩

theorem residue_congr (h : v ≡ w [ZMOD m.value]) :
    env.residue m (v % m.value) = env.residue m (w % m.value) := by
  rw [h.eq]

/-- The stored representative shares no factor with the modulus. -/
def CoprimeTo (m : Modulus) (a : Element) : Prop := Int.gcd a.representative m.value = 1

instance : Decidable (a.CoprimeTo m) :=
  inferInstanceAs (Decidable (Int.gcd a.representative m.value = 1))

theorem Represents.coprimeTo_iff (h : Represents m a v) : a.CoprimeTo m ↔ Int.gcd v m.value = 1 := by
  rw [CoprimeTo, ← Int.gcd_emod, h.congruent.eq, Int.gcd_emod]

theorem CoprimeTo.exists_cancels (h : a.CoprimeTo m) :
    ∃ x, a.representative * x ≡ 1 [ZMOD m.value] :=
  ⟨_, Euclid.cancels_of_coprime m.value_pos h⟩

section

variable (active : env.active = some m)

include active

theorem yields_mul_of_represents (ha : Represents m a v) (hb : Represents m b w) :
    Yields (mul env a b) (env.residue m (v * w % m.value)) := by
  rw [← residue_congr (ha.congruent.mul hb.congruent)]
  exact yields_mul.2 ⟨m, active, ha.fits, hb.fits, rfl⟩

/-! ## Inversion -/

theorem yields_invert_of_fits (fits : a.Fits m) :
    Yields (invert env a) r ↔ ∃ v, IsInverse a.representative m.value v ∧ r = env.residue m v := by
  simp only [yields_invert, Modulus.inverse?_eq_some_iff]
  constructor
  · rintro ⟨n, v, here, -, inverse, rfl⟩
    obtain rfl : m = n := Option.some.inj (active.symm.trans here)
    exact ⟨v, inverse, rfl⟩
  · rintro ⟨v, inverse, rfl⟩
    exact ⟨m, v, active, fits, inverse, rfl⟩

/-- Whatever cancels the operand, its least residue is the inverse. -/
theorem yields_invert_of_cancels (ha : Represents m a v) (cancels : v * x ≡ 1 [ZMOD m.value]) :
    Yields (invert env a) (env.residue m (x % m.value)) := by
  have stored : a.representative * x ≡ 1 [ZMOD m.value] := (ha.congruent.mul_right x).trans cancels
  exact (yields_invert_of_fits active ha.fits).2 ⟨_, Euclid.isInverse_emod m.value_pos stored, rfl⟩

theorem inverts_iff (fits : a.Fits m) : (∃ r, Yields (invert env a) r) ↔ a.CoprimeTo m := by
  constructor
  · rintro ⟨r, made⟩
    obtain ⟨v, inverse, -⟩ := (yields_invert_of_fits active fits).1 made
    exact inverse.coprime
  · intro coprime
    obtain ⟨x, cancels⟩ := coprime.exists_cancels
    exact ⟨_, yields_invert_of_cancels active fits.represents cancels⟩

theorem refuses_invert_iff (fits : a.Fits m) : Refuses (invert env a) e ↔
    ¬ a.CoprimeTo m ∧ e = .error (.notInvertible a.representative m.value) := by
  have passes : a.checkTag m = .ok () := checkTag_eq_ok.2 fits
  rw [refuses_invert active, passes, Modulus.inverse?_eq_none_iff]
  simp [fits, CoprimeTo]

/-! ## Division -/

theorem yields_div_of_cancels (ha : Represents m a v) (hb : Represents m b w)
    (cancels : w * x ≡ 1 [ZMOD m.value]) : Yields (div env a b) (env.residue m (v * x % m.value)) :=
  yields_div.2 ⟨_, yields_invert_of_cancels active hb cancels,
    yields_mul_of_represents active ha (represents_residue env m x)⟩

theorem divides_iff (fa : a.Fits m) (fb : b.Fits m) :
    (∃ r, Yields (div env a b) r) ↔ b.CoprimeTo m := by
  constructor
  · rintro ⟨r, made⟩
    obtain ⟨inverse, made, -⟩ := yields_div.1 made
    exact (inverts_iff active fb).1 ⟨inverse, made⟩
  · intro coprime
    obtain ⟨x, cancels⟩ := coprime.exists_cancels
    exact ⟨_, yields_div_of_cancels active fa.represents fb.represents cancels⟩

theorem refuses_div_iff (fa : a.Fits m) (fb : b.Fits m) : Refuses (div env a b) e ↔
    ¬ b.CoprimeTo m ∧ e = .error (.notInvertible b.representative m.value) := by
  have passes : a.checkTag m = .ok () := checkTag_eq_ok.2 fa
  rw [refuses_div active, passes, refuses_invert_iff active fb]
  simp

theorem yields_div_of_fits (fa : a.Fits m) (fb : b.Fits m) :
    Yields (div env a b) r ↔ b.CoprimeTo m ∧
      ∃ c, IsQuotient a.representative b.representative m.value c ∧ r = env.residue m c := by
  constructor
  · intro made
    have coprime := (divides_iff active fa fb).1 ⟨r, made⟩
    obtain ⟨x, cancels⟩ := coprime.exists_cancels
    have quotient := yields_div_of_cancels active fa.represents fb.represents cancels
    exact ⟨coprime, _, Euclid.isQuotient_emod m.value_pos cancels,
      Counted.yields_unique made quotient⟩
  · rintro ⟨coprime, c, quotient, rfl⟩
    obtain ⟨x, cancels⟩ := coprime.exists_cancels
    rw [quotient.eq_emod cancels]
    exact yields_div_of_cancels active fa.represents fb.represents cancels

/-! ## Laws

The result of one operation is the operand of the next, and both look at the same modulus. -/

theorem yields_mul_div (fa : a.Fits m) (fb : b.Fits m) (coprime : b.CoprimeTo m) :
    Yields (do div env (← mul env a b) b) (env.residue m (a.representative % m.value)) := by
  obtain ⟨x, cancels⟩ := coprime.exists_cancels
  have product := yields_mul_of_represents active fa.represents fb.represents
  have quotient := yields_div_of_cancels active
    (represents_residue env m (a.representative * b.representative)) fb.represents cancels
  have same : a.representative * b.representative * x ≡ a.representative [ZMOD m.value] :=
    calc a.representative * b.representative * x
      _ = a.representative * (b.representative * x) := mul_assoc _ _ _
      _ ≡ a.representative * 1 [ZMOD m.value] := cancels.mul_left _
      _ = a.representative := mul_one _
  rw [← residue_congr same]
  exact Counted.yields_bind.2 ⟨_, product, quotient⟩

theorem yields_div_mul (fa : a.Fits m) (fb : b.Fits m) (coprime : b.CoprimeTo m) :
    Yields (do mul env (← div env a b) b) (env.residue m (a.representative % m.value)) := by
  obtain ⟨x, cancels⟩ := coprime.exists_cancels
  have quotient := yields_div_of_cancels active fa.represents fb.represents cancels
  have product := yields_mul_of_represents active
    (represents_residue env m (a.representative * x)) fb.represents
  have same : a.representative * x * b.representative ≡ a.representative [ZMOD m.value] :=
    calc a.representative * x * b.representative
      _ = a.representative * (b.representative * x) := by ring
      _ ≡ a.representative * 1 [ZMOD m.value] := cancels.mul_left _
      _ = a.representative := mul_one _
  rw [← residue_congr same]
  exact Counted.yields_bind.2 ⟨_, quotient, product⟩

theorem yields_div_div (fa : a.Fits m) (fb : b.Fits m) (fd : d.Fits m) (cb : b.CoprimeTo m)
    (cd : d.CoprimeTo m) : ∃ r, Yields (do div env (← div env a b) d) r ∧
      Yields (do div env a (← mul env b d)) r := by
  obtain ⟨x, hb⟩ := cb.exists_cancels
  obtain ⟨y, hd⟩ := cd.exists_cancels
  have first := yields_div_of_cancels active fa.represents fb.represents hb
  have second := yields_div_of_cancels active
    (represents_residue env m (a.representative * x)) fd.represents hd
  have product := yields_mul_of_represents active fb.represents fd.represents
  have whole := yields_div_of_cancels active fa.represents
    (represents_residue env m (b.representative * d.representative)) (Euclid.cancels_mul hb hd)
  rw [← mul_assoc] at whole
  exact ⟨_, Counted.yields_bind.2 ⟨_, first, second⟩, Counted.yields_bind.2 ⟨_, product, whole⟩⟩

theorem yields_invert_invert (fits : b.Fits m) (coprime : b.CoprimeTo m) :
    Yields (do invert env (← invert env b)) (env.residue m (b.representative % m.value)) := by
  obtain ⟨x, cancels⟩ := coprime.exists_cancels
  have back : x * b.representative ≡ 1 [ZMOD m.value] := by rwa [mul_comm]
  exact Counted.yields_bind.2 ⟨_, yields_invert_of_cancels active fits.represents cancels,
    yields_invert_of_cancels active (represents_residue env m x) back⟩

theorem yields_invert_mul (fb : b.Fits m) (fd : d.Fits m) (cb : b.CoprimeTo m)
    (cd : d.CoprimeTo m) : ∃ r, Yields (do invert env (← mul env b d)) r ∧
      Yields (do mul env (← invert env b) (← invert env d)) r := by
  obtain ⟨x, hb⟩ := cb.exists_cancels
  obtain ⟨y, hd⟩ := cd.exists_cancels
  have product := yields_mul_of_represents active fb.represents fd.represents
  have whole := yields_invert_of_cancels active
    (represents_residue env m (b.representative * d.representative)) (Euclid.cancels_mul hb hd)
  have left := yields_invert_of_cancels active fb.represents hb
  have right := yields_invert_of_cancels active fd.represents hd
  have parts := yields_mul_of_represents active (represents_residue env m x) (represents_residue env m y)
  exact ⟨_, Counted.yields_bind.2 ⟨_, product, whole⟩,
    Counted.yields_bind.2 ⟨_, left, Counted.yields_bind.2 ⟨_, right, parts⟩⟩⟩

/-- A product has an inverse where both factors have one, and nowhere else. -/
theorem inverts_mul_iff (fb : b.Fits m) (fd : d.Fits m) :
    (∃ r, Yields (do invert env (← mul env b d)) r) ↔ b.CoprimeTo m ∧ d.CoprimeTo m := by
  have product := yields_mul_of_represents active fb.represents fd.represents
  have factors := represents_residue env m (b.representative * d.representative)
  calc (∃ r, Yields (do invert env (← mul env b d)) r)
    _ ↔ ∃ r, Yields (invert env (env.residue m
          (b.representative * d.representative % m.value))) r := by
        constructor
        · rintro ⟨r, made⟩
          obtain ⟨p, here, made⟩ := Counted.yields_bind.1 made
          obtain rfl := Counted.yields_unique here product
          exact ⟨r, made⟩
        · rintro ⟨r, made⟩
          exact ⟨r, Counted.yields_bind.2 ⟨_, product, made⟩⟩
    _ ↔ Int.gcd (b.representative * d.representative) m.value = 1 := by
        rw [inverts_iff active factors.fits, factors.coprimeTo_iff]
    _ ↔ b.CoprimeTo m ∧ d.CoprimeTo m := by
        simp only [CoprimeTo, ← Int.isCoprime_iff_gcd_eq_one]
        exact IsCoprime.mul_left_iff

end

end Element

end AmbientResidue
