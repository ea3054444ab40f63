import AmbientResidue.Euclid
import Mathlib.Data.Int.ModEq
import Mathlib.RingTheory.Coprime.Lemmas
import Mathlib.Tactic.LinearCombination

/-! # Inverses are exact

Each call of Euclid's algorithm keeps the greatest common divisor and takes its coefficients from the
call inside it. So a number that shares no factor with the modulus gets its inverse, the only one
below the modulus, whatever its sign or size, and no other number gets one. -/

namespace AmbientResidue.Euclid

theorem bezout_zero (a : Nat) : bezout a 0 = (a, 1, 0) := by
  rw [bezout, if_pos rfl]

theorem bezout_of_pos (a : Nat) {b : Nat} (h : b ≠ 0) :
    bezout a b = ((bezout b (a % b)).1, (bezout b (a % b)).2.2,
      (bezout b (a % b)).2.1 - (a / b : Nat) * (bezout b (a % b)).2.2) := by
  rw [bezout, if_neg h]

theorem bezout_fst (a b : Nat) : (bezout a b).1 = Nat.gcd a b := by
  induction a, b using bezout.induct with
  | case1 a => rw [bezout_zero, Nat.gcd_zero_right]
  | case2 a b h g x y inner ih =>
    rw [bezout_of_pos a h, ih, Nat.gcd_comm b, ← Nat.gcd_rec, Nat.gcd_comm]

theorem bezout_combines (a b : Nat) :
    (a : Int) * (bezout a b).2.1 + b * (bezout a b).2.2 = (bezout a b).1 := by
  induction a, b using bezout.induct with
  | case1 a => simp [bezout_zero]
  | case2 a b h g x y inner ih =>
    have split : (a : Int) = b * (a / b : Nat) + (a % b : Nat) := by
      rw [← Nat.cast_mul, ← Nat.cast_add, Nat.div_add_mod]
    rw [bezout_of_pos a h, ← ih]
    nth_rewrite 1 [split]
    ring

/-! ## The inverse -/

/-- The number below `m` that takes `a` to one modulo `m`. Modulo one that is zero. -/
structure IsInverse (a m x : Int) : Prop where
  nonneg : 0 ≤ x
  lt : x < m
  cancels : a * x ≡ 1 [ZMOD m]

variable {a m x y : Int}

/-- What takes a number to one takes it to no factor of the modulus. -/
theorem coprime_of_cancels (h : a * x ≡ 1 [ZMOD m]) : Int.gcd a m = 1 := by
  obtain ⟨k, hk⟩ := h.symm.dvd
  apply Int.isCoprime_iff_gcd_eq_one.1
  exact ⟨x, -k, by linear_combination hk⟩

theorem toNat_emod (positive : 0 < m) (a : Int) : ((a % m).toNat : Int) = a % m :=
  Int.toNat_of_nonneg (Int.emod_nonneg a (Int.ne_of_gt positive))

/-- The algorithm is run on the least residue, which has the same divisors in common with `m`. -/
theorem bezout_fst_emod (positive : 0 < m) (a : Int) :
    (bezout (a % m).toNat m.toNat).1 = Int.gcd a m := by
  have whole : (m.toNat : Int) = m := Int.toNat_of_nonneg (Int.le_of_lt positive)
  rw [bezout_fst, ← Int.gcd_natCast_natCast, toNat_emod positive, whole, Int.gcd_emod]

theorem cancels_of_coprime (positive : 0 < m) (h : Int.gcd a m = 1) :
    a * (bezout (a % m).toNat m.toNat).2.1 ≡ 1 [ZMOD m] := by
  have whole : (m.toNat : Int) = m := Int.toNat_of_nonneg (Int.le_of_lt positive)
  have combines := bezout_combines (a % m).toNat m.toNat
  rw [bezout_fst_emod positive, h, toNat_emod positive, whole] at combines
  calc a * (bezout (a % m).toNat m.toNat).2.1
    _ ≡ a % m * (bezout (a % m).toNat m.toNat).2.1 [ZMOD m] := (Int.mod_modEq a m).symm.mul_right _
    _ ≡ a % m * (bezout (a % m).toNat m.toNat).2.1 + m * (bezout (a % m).toNat m.toNat).2.2
          [ZMOD m] := by simp [Int.ModEq]
    _ = 1 := by rw [combines, Nat.cast_one]

theorem IsInverse.coprime (h : IsInverse a m x) : Int.gcd a m = 1 := coprime_of_cancels h.cancels

/-- Two numbers that take `a` to one agree, as each is what `a` times the other leaves of it. -/
theorem modEq_of_cancels (hx : a * x ≡ 1 [ZMOD m]) (hy : a * y ≡ 1 [ZMOD m]) : x ≡ y [ZMOD m] :=
  calc x
    _ = x * 1 := (mul_one x).symm
    _ ≡ x * (a * y) [ZMOD m] := hy.symm.mul_left x
    _ = a * x * y := by ring
    _ ≡ 1 * y [ZMOD m] := hx.mul_right y
    _ = y := one_mul y

/-- The product of what cancels two numbers cancels their product. -/
theorem cancels_mul {b y : Int} (ha : a * x ≡ 1 [ZMOD m]) (hb : b * y ≡ 1 [ZMOD m]) :
    a * b * (x * y) ≡ 1 [ZMOD m] :=
  calc a * b * (x * y)
    _ = a * x * (b * y) := by ring
    _ ≡ 1 * 1 [ZMOD m] := ha.mul hb
    _ = 1 := mul_one 1

theorem IsInverse.eq_emod (h : IsInverse a m x) (hy : a * y ≡ 1 [ZMOD m]) : x = y % m := by
  have same : x % m = y % m := modEq_of_cancels h.cancels hy
  rwa [Int.emod_eq_of_lt h.nonneg h.lt] at same

theorem isInverse_emod (positive : 0 < m) (h : a * x ≡ 1 [ZMOD m]) : IsInverse a m (x % m) where
  nonneg := Int.emod_nonneg x (Int.ne_of_gt positive)
  lt := Int.emod_lt_of_pos x positive
  cancels := ((Int.mod_modEq x m).mul_left a).trans h

theorem inverse?_eq (positive : 0 < m) (a : Int) : inverse? a m =
    if Int.gcd a m = 1 then some ((bezout (a % m).toNat m.toNat).2.1 % m) else none := by
  have floor (b : Int) : b.fmod m = b % m := Int.fmod_eq_emod_of_nonneg b positive.le
  simp only [inverse?, floor, bezout_fst_emod positive]

/-- The argument is reduced before anything else is done with it. -/
theorem inverse?_emod (positive : 0 < m) (a : Int) : inverse? (a % m) m = inverse? a m := by
  rw [inverse?_eq positive, inverse?_eq positive, Int.emod_emod, Int.gcd_emod]

theorem inverse?_eq_none_iff (positive : 0 < m) : inverse? a m = none ↔ Int.gcd a m ≠ 1 := by
  rw [inverse?_eq positive]
  split
  · next coprime => simp [coprime]
  · next shared => simp [shared]

/-- An inverse is found where there is one, and it is the one below the modulus. -/
theorem inverse?_eq_some_iff (positive : 0 < m) : inverse? a m = some x ↔ IsInverse a m x := by
  constructor
  · intro found
    rw [inverse?_eq positive] at found
    split at found
    · next coprime =>
      obtain rfl := Option.some.inj found
      exact isInverse_emod positive (cancels_of_coprime positive coprime)
    · cases found
  · intro inverse
    have cancels := cancels_of_coprime positive inverse.coprime
    rw [inverse?_eq positive, if_pos inverse.coprime, inverse.eq_emod cancels]

theorem exists_isInverse_iff (positive : 0 < m) : (∃ x, IsInverse a m x) ↔ Int.gcd a m = 1 := by
  constructor
  · rintro ⟨x, inverse⟩
    exact inverse.coprime
  · intro coprime
    exact ⟨_, isInverse_emod positive (cancels_of_coprime positive coprime)⟩

theorem isSome_inverse?_iff (positive : 0 < m) : (inverse? a m).isSome ↔ Int.gcd a m = 1 := by
  rw [Option.isSome_iff_ne_none, ne_eq, inverse?_eq_none_iff positive, not_not]

/-! ## Quotients -/

/-- The number below `m` that times `b` is `a` modulo `m`. -/
structure IsQuotient (a b m c : Int) : Prop where
  nonneg : 0 ≤ c
  lt : c < m
  restores : c * b ≡ a [ZMOD m]

variable {b c : Int}

theorem isQuotient_emod (positive : 0 < m) (h : b * x ≡ 1 [ZMOD m]) :
    IsQuotient a b m (a * x % m) where
  nonneg := Int.emod_nonneg _ (Int.ne_of_gt positive)
  lt := Int.emod_lt_of_pos _ positive
  restores :=
    calc a * x % m * b
      _ ≡ a * x * b [ZMOD m] := (Int.mod_modEq _ m).mul_right b
      _ = a * (b * x) := by ring
      _ ≡ a * 1 [ZMOD m] := h.mul_left a
      _ = a := mul_one a

/-- A divisor that can be cancelled has one quotient. -/
theorem IsQuotient.eq_emod (h : IsQuotient a b m c) (hx : b * x ≡ 1 [ZMOD m]) :
    c = a * x % m := by
  have same : c ≡ a * x [ZMOD m] :=
    calc c
      _ = c * 1 := (mul_one c).symm
      _ ≡ c * (b * x) [ZMOD m] := hx.symm.mul_left c
      _ = c * b * x := by ring
      _ ≡ a * x [ZMOD m] := h.restores.mul_right x
  rw [← same.eq, Int.emod_eq_of_lt h.nonneg h.lt]

theorem existsUnique_isQuotient (positive : 0 < m) (h : Int.gcd b m = 1) :
    ∃! c, IsQuotient a b m c := by
  have cancels := cancels_of_coprime positive h
  exact ⟨_, isQuotient_emod positive cancels, fun c quotient => quotient.eq_emod cancels⟩

/-! ## Residues -/

/-- The number below `m` that is congruent to `a` modulo `m`. -/
structure IsResidue (a m r : Int) : Prop where
  nonneg : 0 ≤ r
  lt : r < m
  congruent : r ≡ a [ZMOD m]

variable {r : Int}

theorem isResidue_emod (positive : 0 < m) (a : Int) : IsResidue a m (a % m) where
  nonneg := Int.emod_nonneg a (Int.ne_of_gt positive)
  lt := Int.emod_lt_of_pos a positive
  congruent := Int.mod_modEq a m

theorem IsResidue.eq_emod (h : IsResidue a m r) : r = a % m := by
  rw [← h.congruent.eq, Int.emod_eq_of_lt h.nonneg h.lt]

theorem isResidue_iff (positive : 0 < m) : IsResidue a m r ↔ r = a % m := by
  constructor
  · intro h
    exact h.eq_emod
  · intro same
    subst same
    exact isResidue_emod positive a

theorem existsUnique_isResidue (positive : 0 < m) (a : Int) : ∃! r, IsResidue a m r :=
  ⟨_, isResidue_emod positive a, fun _ h => h.eq_emod⟩

end AmbientResidue.Euclid
