import AmbientResidue.Element.Sampling
import AmbientResidue.Proofs.BigEndian
import AmbientResidue.Proofs.Element.Yields

/-! # Sampling takes the first block below the modulus

Trimming a block leaves the bits that the modulus has. A block that is taken lies below the modulus,
and none before it does. After its last byte a finite source goes on with zeros, and a block of
zeros lies below every modulus, so the bound on the number of blocks is never what ends the search. -/

namespace AmbientResidue

namespace Modulus

variable (m : Modulus) (source : ByteSource)

theorem firstBelow_contains {fuel k j : Nat} {v : Int}
    (h : (m.firstBelow source fuel k).value = some (v, j)) : m.contains v = true := by
  induction fuel generalizing k with
  | zero => cases h
  | succ fuel ih =>
    rw [firstBelow_succ] at h
    split at h
    · next below => cases h; exact below
    · exact ih h

/-! ## Blocks -/

theorem length_block (k : Nat) : (m.block source k).length = m.width := by
  simp [block]

theorem getElem?_block (k : Nat) {i : Nat} (h : i < m.width) :
    (m.block source k)[i]? = some (source (m.width * k + i)) := by
  simp [block, h]

/-- A block is as wide as the modulus: it has a first byte, which has a bit of the modulus. -/
structure Sized : Prop where
  nonempty : 1 ≤ m.width
  whole : m.bits ≤ 8 * m.width
  short : m.excessBits < 8

variable {m}

theorem sized_of_width (h : m.width = Integer.width m.value) : m.Sized := by
  have positive : m.value.natAbs ≠ 0 := by have := m.value_pos; omega
  have bits : m.bits = m.value.natAbs.log2 + 1 := if_neg positive
  have width : m.width = (m.bits + 7) / 8 := h
  have excess : m.excessBits = 8 * m.width - m.bits := rfl
  exact ⟨by omega, by omega, by omega⟩

theorem toNat_mask (sized : m.Sized) : m.mask.toNat = Nat.pow 2 (8 - m.excessBits) - 1 := by
  have all : ∀ e : Fin 8,
      ((0xff : UInt8) >>> UInt8.ofNat e).toNat = Nat.pow 2 (8 - e) - 1 := by decide
  exact all ⟨m.excessBits, sized.short⟩

theorem toNat_and_mask (sized : m.Sized) (b : UInt8) :
    (b &&& m.mask).toNat = b.toNat % Nat.pow 2 (8 - m.excessBits) := by
  rw [UInt8.toNat_and, toNat_mask sized]
  exact Nat.and_two_pow_sub_one_eq_mod b.toNat _

/-- The modulus has the bits that trimming leaves to the first byte, and all of the rest. -/
theorem pow_bits (sized : m.Sized) {r : Nat} (h : r + 1 = m.width) :
    Nat.pow 2 m.bits = Nat.pow 256 r * Nat.pow 2 (8 - m.excessBits) := by
  have whole := sized.whole
  have short := sized.short
  have excess : m.excessBits = 8 * m.width - m.bits := rfl
  have split : m.bits = 8 * r + (8 - m.excessBits) := by omega
  have bytes : Nat.pow 2 (8 * r) = Nat.pow 256 r := Nat.pow_mul 2 8 r
  calc Nat.pow 2 m.bits
    _ = Nat.pow 2 (8 * r + (8 - m.excessBits)) := congrArg _ split
    _ = Nat.pow 2 (8 * r) * Nat.pow 2 (8 - m.excessBits) := Nat.pow_add 2 _ _
    _ = Nat.pow 256 r * Nat.pow 2 (8 - m.excessBits) := by rw [bytes]

theorem value_trim (sized : m.Sized) {bytes : List UInt8} (h : bytes.length = m.width) :
    BigEndian.value (m.trim bytes) = BigEndian.value bytes % Nat.pow 2 m.bits := by
  cases bytes with
  | nil =>
    have nonempty := sized.nonempty
    rw [← h] at nonempty
    cases nonempty
  | cons b rest =>
    have below := BigEndian.value_lt rest
    have low : (Nat.pow 256 rest.length * b.toNat + BigEndian.value rest) %
        Nat.pow 256 rest.length = BigEndian.value rest := by
      rw [Nat.mul_add_mod, Nat.mod_eq_of_lt below]
    have high : (Nat.pow 256 rest.length * b.toNat + BigEndian.value rest) /
        Nat.pow 256 rest.length = b.toNat := by
      rw [Nat.mul_add_div (Nat.zero_lt_of_lt below), Nat.div_eq_of_lt below, Nat.add_zero]
    -- The low factor of the power leaves the rest alone, the high one reduces the first byte.
    rw [trim, BigEndian.value_cons, BigEndian.value_cons, toNat_and_mask sized, pow_bits sized h,
      Nat.mod_mul, low, high, Nat.add_comm]

/-! ## The first block below the modulus -/

/-- Block `k` is the first one whose value lies below the modulus. -/
structure First (m : Modulus) (source : ByteSource) (k : Nat) : Prop where
  below : m.candidate source k < m.value
  before : ∀ i, i < k → m.value ≤ m.candidate source i

variable {source}

theorem contains_candidate {k : Nat} :
    m.contains (m.candidate source k) = true ↔ m.candidate source k < m.value := by
  rw [m.contains_iff]
  exact and_iff_right (Int.natCast_nonneg _)

/-- The blocks up to one below the modulus have a first such among them. -/
theorem exists_first {j : Nat} (below : m.candidate source j < m.value) :
    ∃ k, k ≤ j ∧ m.First source k := by
  induction j using Nat.strongRecOn with
  | _ j ih =>
    by_cases earlier : ∃ i, i < j ∧ (m.candidate source i : Int) < m.value
    · obtain ⟨i, less, taken⟩ := earlier
      obtain ⟨k, le, first⟩ := ih i less taken
      exact ⟨k, by omega, first⟩
    · refine ⟨j, Nat.le_refl j, below, fun i less => ?_⟩
      exact Int.not_lt.1 fun taken => earlier ⟨i, less, taken⟩

/-- The search ends at the first block below the modulus, unless its bound ends it sooner. -/
theorem firstBelow_first {j : Nat} (first : m.First source j) (fuel : Nat) {k : Nat} (h : k ≤ j) :
    (m.firstBelow source fuel k).value =
      if j < k + fuel then some ((m.candidate source j : Int), j) else none := by
  -- Each block either is block `j` or lies before it and is passed by.
  induction fuel generalizing k with
  | zero => exact (if_neg (Nat.not_lt.2 h)).symm
  | succ fuel ih =>
    rw [firstBelow_succ]
    by_cases last : k = j
    · subst last
      rw [if_pos (contains_candidate.2 first.below), if_pos (by omega)]
    · have above : ¬ m.contains (m.candidate source k) = true := by
        rw [contains_candidate]
        exact Int.not_lt.2 (first.before k (by omega))
      rw [if_neg above, ih (by omega), Nat.add_assoc, Nat.add_comm 1]

theorem candidate_past (m : Modulus) (bytes : List UInt8) :
    (m.candidate (ByteSource.ofList bytes) bytes.length : Int) < m.value := by
  rw [candidate_ofList]
  exact m.value_pos

/-- A draw is a search that has found a block. -/
theorem value_firstBelow_ofList (m : Modulus) (bytes : List UInt8) :
    (m.firstBelow (ByteSource.ofList bytes) (bytes.length + 1) 0).value =
      some (m.draw bytes).value :=
  (Option.some_get _).symm

theorem First.le_length {bytes : List UInt8} {k : Nat}
    (first : m.First (ByteSource.ofList bytes) k) : k ≤ bytes.length := by
  apply Nat.le_of_not_lt
  intro past
  exact Int.not_lt.2 (first.before _ past) (m.candidate_past bytes)

theorem First.value_draw {bytes : List UInt8} {k : Nat}
    (first : m.First (ByteSource.ofList bytes) k) :
    (m.draw bytes).value = ((m.candidate (ByteSource.ofList bytes) k : Int), k) := by
  have found := firstBelow_first first (bytes.length + 1) (Nat.zero_le k)
  rw [value_firstBelow_ofList, if_pos (by have := first.le_length; omega)] at found
  exact Option.some.inj found

end Modulus

namespace Element

open Counted (Yields)

variable {env : Ambient}

/-- What sampling yields, from any source and with any bound. -/
theorem yields_sample {source : ByteSource} {fuel : Nat} {result : Option Drawn} :
    Yields (sample env source fuel) result ↔ ∃ m, env.active = some m ∧
      result = (m.firstBelow source fuel 0).value.map
        fun found => ⟨env.residue m found.1, m.width * (found.2 + 1)⟩ := by
  simp only [sample, Counted.yields_bind, Counted.yields_free, Ambient.modulus_eq_ok,
    Counted.yields_sure, exists_eq_left]
  refine exists_congr fun m => and_congr_right fun _ => ?_
  cases (m.firstBelow source fuel 0).value <;> simp

theorem yields_random_iff {bytes : List UInt8} {drawn : Drawn} :
    Yields (random env bytes) drawn ↔ ∃ m, env.active = some m ∧ drawn =
      ⟨env.residue m (m.draw bytes).value.1, m.width * ((m.draw bytes).value.2 + 1)⟩ := by
  simp only [random, Counted.yields_bind, Counted.yields_free, Ambient.modulus_eq_ok,
    Counted.yields_sure, Counted.yields_pure, exists_eq_left]

/-- A finite source always yields a residue below the modulus. -/
theorem yields_random {bytes : List UInt8} {drawn : Drawn} (h : Yields (random env bytes) drawn) :
    ∃ m v, env.active = some m ∧ m.contains v = true ∧ drawn.element = env.residue m v := by
  obtain ⟨m, active, rfl⟩ := yields_random_iff.1 h
  exact ⟨m, _, active, m.firstBelow_contains _ (m.value_firstBelow_ofList bytes), rfl⟩

variable {m : Modulus} {k : Nat}

theorem yields_sample_first (active : env.active = some m) {source : ByteSource}
    (first : m.First source k) (fuel : Nat) :
    Yields (sample env source fuel) (if k < fuel then
      some ⟨env.residue m (m.candidate source k), m.width * (k + 1)⟩ else none) := by
  refine yields_sample.2 ⟨m, active, ?_⟩
  rw [Modulus.firstBelow_first first fuel (Nat.zero_le k), Nat.zero_add]
  split <;> rfl

theorem yields_random_first (active : env.active = some m) {bytes : List UInt8}
    (first : m.First (ByteSource.ofList bytes) k) :
    Yields (random env bytes)
      ⟨env.residue m (m.candidate (ByteSource.ofList bytes) k), m.width * (k + 1)⟩ := by
  refine yields_random_iff.2 ⟨m, active, ?_⟩
  rw [first.value_draw]

end Element

end AmbientResidue
