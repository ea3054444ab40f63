import AmbientResidue.Modulus

/-! # Reductions land in range

Every operation of a modulus answers a least non-negative residue, whatever integers it is given. -/

namespace AmbientResidue.Modulus

variable (m : Modulus) (a b : Int)

theorem contains_iff {a : Int} : m.contains a = true ↔ 0 ≤ a ∧ a < m.value := by
  simp [contains]

theorem contains_of_le {a : Int} (large : m.value ≤ a) : m.contains a = false := by
  rw [Bool.eq_false_iff, ne_eq, m.contains_iff]
  intro inside
  exact Int.not_lt.2 large inside.2

/-- Rounding down and rounding to a non-negative remainder are the same for a modulus. -/
theorem fmod_value : a.fmod m.value = a % m.value :=
  Int.fmod_eq_emod_of_nonneg a (Int.le_of_lt m.value_pos)

@[simp] theorem value_reduce : (m.reduce a).value = a % m.value := m.fmod_value a

@[simp] theorem value_add : (m.add a b).value = (a + b) % m.value := m.fmod_value (a + b)

@[simp] theorem value_sub : (m.sub a b).value = (a - b) % m.value := m.fmod_value (a - b)

@[simp] theorem value_mul : (m.mul a b).value = a * b % m.value := m.fmod_value (a * b)

@[simp] theorem value_neg : (m.neg a).value = -a % m.value := by
  rw [← Int.zero_sub]
  exact m.fmod_value (0 - a)

theorem contains_emod : m.contains (a % m.value) = true :=
  m.contains_iff.2 ⟨Int.emod_nonneg a (Int.ne_of_gt m.value_pos), Int.emod_lt_of_pos a m.value_pos⟩

theorem contains_reduce : m.contains (m.reduce a).value = true := by
  rw [value_reduce]
  exact m.contains_emod a

theorem contains_zero : m.contains 0 = true := m.contains_iff.2 ⟨Int.le_refl 0, m.value_pos⟩

theorem contains_inverse {a v : Int} (h : (m.inverse? a).value = some v) :
    m.contains v = true := by
  change Euclid.inverse? a m.value = some v at h
  simp only [Euclid.inverse?] at h
  split at h
  · obtain rfl := Option.some.inj h
    rw [m.fmod_value]
    exact m.contains_emod _
  · cases h

end AmbientResidue.Modulus
