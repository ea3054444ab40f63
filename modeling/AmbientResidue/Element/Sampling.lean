import AmbientResidue.Element

/-!
Random residues by rejection. A block of as many bytes as the modulus has is drawn, the excess bits
of its first byte are cleared, and the block is taken if its value lies below the modulus; otherwise
the next block is drawn. A finite source goes on with zero bytes, and a block of zeros lies below
every modulus, so one of the first `length + 1` blocks is taken.
-/

namespace AmbientResidue

/-- An endless source of bytes. -/
abbrev ByteSource := Nat → UInt8

/-- The given bytes, then zeros. -/
def ByteSource.ofList (bytes : List UInt8) : ByteSource := fun i => bytes.getD i 0

namespace Modulus

/-- The bits of a block that are no bits of the modulus. -/
def excessBits (m : Modulus) : Nat := 8 * m.width - m.bits

/-- Keeps the bits of the first byte that the modulus has. -/
def mask (m : Modulus) : UInt8 := 0xff >>> UInt8.ofNat m.excessBits

/-- The bytes of block number `k`. -/
def block (m : Modulus) (source : ByteSource) (k : Nat) : List UInt8 :=
  (List.range m.width).map fun i => source (m.width * k + i)

/-- Clears the excess bits of a block. -/
def trim (m : Modulus) : List UInt8 → List UInt8
  | [] => []
  | b :: rest => (b &&& m.mask) :: rest

/-- The value of block number `k` once its excess bits are cleared. -/
def candidate (m : Modulus) (source : ByteSource) (k : Nat) : Nat :=
  BigEndian.value (m.trim (m.block source k))

/-- The first block, of at most `fuel` from block `k` on, whose value lies below the modulus: the
value and the number of the block. -/
def firstBelow (m : Modulus) (source : ByteSource) : Nat → Nat → Counted (Option (Int × Nat))
  | 0, _ => return none
  | fuel + 1, k => do
    let v ← Integer.ofBytes (m.trim (m.block source k))
    if m.contains v then return some (v, k) else m.firstBelow source fuel (k + 1)

section

variable (m : Modulus)

theorem firstBelow_succ (source : ByteSource) (fuel k : Nat) :
    (m.firstBelow source (fuel + 1) k).value =
      if m.contains (m.candidate source k) then some ((m.candidate source k : Int), k)
      else (m.firstBelow source fuel (k + 1)).value := by
  rw [firstBelow]
  show (ite (m.contains (m.candidate source k)) _ _ : Counted _).value = _
  split <;> rfl

/-- A block below the modulus within the bound ends the search. -/
theorem isSome_firstBelow {source : ByteSource} {j : Nat}
    (below : m.contains (m.candidate source j) = true) (fuel : Nat) {k : Nat} (after : k ≤ j)
    (within : j < k + fuel) : (m.firstBelow source fuel k).value.isSome = true := by
  induction fuel generalizing k with
  | zero => omega
  | succ fuel ih =>
    rw [firstBelow_succ]
    by_cases here : m.contains (m.candidate source k) = true
    · rw [if_pos here]
      rfl
    · have other : k ≠ j := by
        rintro rfl
        exact here below
      rw [if_neg here]
      exact ih (by omega) (by omega)

theorem trim_zeros {l : List UInt8} (h : ∀ b ∈ l, b = 0) : ∀ b ∈ m.trim l, b = 0 := by
  cases l with
  | nil => exact h
  | cons b rest =>
    obtain rfl := h b List.mem_cons_self
    intro c hc
    rcases List.mem_cons.1 hc with rfl | hc
    · exact UInt8.zero_and
    · exact h c (List.mem_cons_of_mem _ hc)

/-- Past the given bytes there are only blocks of zeros. -/
theorem block_ofList (bytes : List UInt8) :
    ∀ b ∈ m.block (ByteSource.ofList bytes) bytes.length, b = 0 := by
  intro b hb
  obtain ⟨i, hi, rfl⟩ := List.mem_map.1 hb
  have width : 1 ≤ m.width := by have := List.mem_range.1 hi; omega
  have past : bytes.length ≤ m.width * bytes.length + i :=
    Nat.le_trans (Nat.le_mul_of_pos_left _ width) (Nat.le_add_right _ _)
  simp only [ByteSource.ofList, List.getD_eq_getElem?_getD, List.getElem?_eq_none past,
    Option.getD_none]

theorem candidate_ofList (bytes : List UInt8) :
    m.candidate (ByteSource.ofList bytes) bytes.length = 0 :=
  BigEndian.value_zeros (m.trim_zeros (m.block_ofList bytes))

theorem isSome_firstBelow_ofList (bytes : List UInt8) :
    (m.firstBelow (ByteSource.ofList bytes) (bytes.length + 1) 0).value.isSome = true := by
  have below : m.contains (m.candidate (ByteSource.ofList bytes) bytes.length) = true := by
    simp [candidate_ofList, contains, m.value_pos]
  exact m.isSome_firstBelow below _ (Nat.zero_le _) (by omega)

end

/-- The block that is taken when the source goes on with zeros after the given bytes. -/
def draw (m : Modulus) (bytes : List UInt8) : Counted (Int × Nat) :=
  let search := m.firstBelow (ByteSource.ofList bytes) (bytes.length + 1) 0
  ⟨search.value.get (m.isSome_firstBelow_ofList bytes), search.cost⟩

end Modulus

namespace Element

open Counted (free sure)

/-- A residue and the number of bytes drawn for it. -/
structure Drawn where
  element : Element
  bytes : Nat

/-- A random residue from an endless source, looking at no more than `fuel` blocks. -/
def sample (env : Ambient) (source : ByteSource) (fuel : Nat) : Making (Option Drawn) := do
  let m ← free env.modulus
  match ← sure (m.firstBelow source fuel 0) with
  | some (v, k) => return some ⟨env.residue m v, m.width * (k + 1)⟩
  | none => return none

/-- A random residue from the given bytes and zeros after them. -/
def random (env : Ambient) (bytes : List UInt8) : Making Drawn := do
  let m ← free env.modulus
  let (v, k) ← sure (m.draw bytes)
  return ⟨env.residue m v, m.width * (k + 1)⟩

end Element

end AmbientResidue
