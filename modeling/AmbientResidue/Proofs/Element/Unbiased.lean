import AmbientResidue.Proofs.Element.Sampling
import Mathlib.Data.Set.Card
import Mathlib.Order.Interval.Finset.Nat

/-! # Random residues are unbiased

A block decides by what is left of its value once the excess bits are cleared. Every remainder is
left of equally many blocks, so that those below the modulus share the blocks evenly and at least
half of all blocks are taken. Passed-by blocks do not disturb this: every residue has equally many
sources that draw it at a given block. -/

namespace AmbientResidue

open Counted (Yields)

namespace BigEndian

/-- Byte strings of a width are as many as the values that they may have. -/
theorem ncard_value_mem {width : Nat} {s : Finset Nat} (fits : ∀ x ∈ s, x < Nat.pow 256 width) :
    {l | l.length = width ∧ value l ∈ s}.ncard = s.card := by
  have values : ∀ x ∈ s, value (fixed width x) = x := fun x mem => by
    rw [value_fixed, Nat.mod_eq_of_lt (fits x mem)]
  have strings : {l | l.length = width ∧ value l ∈ s} = fixed width '' ↑s := by
    ext l
    constructor
    · rintro ⟨length, mem⟩
      refine ⟨value l, mem, eq_of_value_eq ?_ (values _ mem)⟩
      rw [length_fixed, length]
    · rintro ⟨x, mem, rfl⟩
      exact ⟨length_fixed width x, by rwa [values x mem]⟩
  have injective : Set.InjOn (fixed width) ↑s := fun x hx y hy same => by
    rw [← values x hx, ← values y hy, same]
  rw [strings, injective.ncard_image, Set.ncard_coe_finset]

theorem ncard_length_eq (width : Nat) :
    {l : List UInt8 | l.length = width}.ncard = Nat.pow 256 width := by
  have fits : ∀ x ∈ Finset.range (Nat.pow 256 width), x < Nat.pow 256 width := fun x =>
    Finset.mem_range.1
  have same : {l : List UInt8 | l.length = width} =
      {l | l.length = width ∧ value l ∈ Finset.range (Nat.pow 256 width)} := by
    ext l
    simp only [Set.mem_ofPred_eq, Finset.mem_range]
    constructor
    · rintro rfl
      exact ⟨rfl, value_lt l⟩
    · exact fun h => h.1
  rw [same, ncard_value_mem fits, Finset.card_range]

end BigEndian

namespace Modulus

variable {m : Modulus} {block : List UInt8} {r : Int}

/-- What a block comes to: a residue, or nothing if it is passed by. -/
def outcome? (m : Modulus) (block : List UInt8) : Option Int :=
  let v : Int := BigEndian.value (m.trim block)
  if m.contains v then some v else none

/-- Each turn of the loop takes the outcome of one block, or goes on if there is none. -/
theorem firstBelow_turn (source : ByteSource) (fuel k : Nat) :
    (m.firstBelow source (fuel + 1) k).value =
      ((m.outcome? (m.block source k)).map fun v => (v, k)).or
        (m.firstBelow source fuel (k + 1)).value := by
  rw [firstBelow_succ, outcome?, candidate]
  split <;> rfl

theorem outcome?_eq_some_iff :
    m.outcome? block = some r ↔
      (0 ≤ r ∧ r < m.value) ∧ (BigEndian.value (m.trim block) : Int) = r := by
  rw [outcome?]
  split
  · next below =>
    rw [Option.some.injEq]
    constructor
    · rintro rfl
      exact ⟨m.contains_iff.1 below, rfl⟩
    · exact fun h => h.2
  · next above =>
    simp only [reduceCtorEq, false_iff, not_and]
    rintro inside rfl
    exact above (m.contains_iff.2 inside)

theorem outcome?_eq_none_iff :
    m.outcome? block = none ↔ m.value.toNat ≤ BigEndian.value (m.trim block) := by
  rw [Option.eq_none_iff_forall_ne_some]
  simp only [ne_eq, outcome?_eq_some_iff]
  constructor
  · intro passed
    have outside := passed (BigEndian.value (m.trim block))
    omega
  · rintro above r ⟨inside, rfl⟩
    omega

/-! ## Counting the blocks of one turn -/

/-- How many blocks leave the same remainder. -/
def share (m : Modulus) : Nat := Nat.pow 2 (8 * m.width - m.bits)

theorem pow_width (sized : m.Sized) : Nat.pow 256 m.width = Nat.pow 2 m.bits * m.share := by
  have whole := sized.whole
  have split : 8 * m.width = m.bits + (8 * m.width - m.bits) := by omega
  calc Nat.pow 256 m.width
    _ = Nat.pow 2 (8 * m.width) := (Nat.pow_mul 2 8 m.width).symm
    _ = Nat.pow 2 (m.bits + (8 * m.width - m.bits)) := congrArg _ split
    _ = Nat.pow 2 m.bits * m.share := Nat.pow_add 2 _ _

/-- Among the values below `q * k`, each remainder modulo `q` is left of `k`. -/
theorem card_filter_mod {q k : Nat} (positive : 0 < q) {s : Finset Nat} (small : ∀ x ∈ s, x < q) :
    ((Finset.range (q * k)).filter fun x => x % q ∈ s).card = s.card * k := by
  have remainder : ∀ y ∈ s, ∀ t, (y + q * t) % q = y := fun y mem t => by
    rw [Nat.add_mul_mod_self_left, Nat.mod_eq_of_lt (small y mem)]
  have pairs : ((Finset.range (q * k)).filter fun x => x % q ∈ s).card =
      (s ×ˢ Finset.range k).card := by
    refine Finset.card_nbij' (fun x => (x % q, x / q)) (fun p => p.1 + q * p.2) ?_ ?_ ?_ ?_
    · intro x mem
      obtain ⟨below, left⟩ := Finset.mem_filter.1 mem
      have less : x / q < k := Nat.div_lt_of_lt_mul (Finset.mem_range.1 below)
      exact Finset.mem_product.2 ⟨left, Finset.mem_range.2 less⟩
    · rintro ⟨y, t⟩ mem
      obtain ⟨left, less⟩ := Finset.mem_product.1 mem
      have below : y + q * t < q * k := by
        calc y + q * t
          _ < q + q * t := Nat.add_lt_add_right (small y left) _
          _ = q * (t + 1) := by rw [Nat.mul_succ, Nat.add_comm]
          _ ≤ q * k := Nat.mul_le_mul_left q (Finset.mem_range.1 less)
      refine Finset.mem_filter.2 ⟨Finset.mem_range.2 below, ?_⟩
      rwa [remainder y left]
    · exact fun x _ => Nat.mod_add_div x q
    · rintro ⟨y, t⟩ mem
      have left : y ∈ s := (Finset.mem_product.1 mem).1
      have quotient : (y + q * t) / q = t := by
        rw [Nat.add_mul_div_left y t positive, Nat.div_eq_of_lt (small y left), Nat.zero_add]
      exact Prod.ext (remainder y left t) quotient
  rw [pairs, Finset.card_product, Finset.card_range]

/-- The blocks that trimming leaves one of the remainders of. -/
def leaving (m : Modulus) (s : Finset Nat) : Set (List UInt8) :=
  {l | l.length = m.width ∧ BigEndian.value (m.trim l) ∈ s}

theorem ncard_leaving (sized : m.Sized) {s : Finset Nat} (small : ∀ x ∈ s, x < Nat.pow 2 m.bits) :
    (m.leaving s).ncard = s.card * m.share := by
  have values : m.leaving s = {l | l.length = m.width ∧ BigEndian.value l ∈
      (Finset.range (Nat.pow 2 m.bits * m.share)).filter fun x => x % Nat.pow 2 m.bits ∈ s} := by
    ext l
    simp only [leaving, Set.mem_ofPred_eq, Finset.mem_filter, Finset.mem_range]
    refine and_congr_right fun length => ?_
    have below := BigEndian.value_lt l
    rw [length, pow_width sized] at below
    rw [value_trim sized length, and_iff_right below]
  have positive : 0 < Nat.pow 2 m.bits := Nat.two_pow_pos _
  have fits : ∀ x ∈ (Finset.range (Nat.pow 2 m.bits * m.share)).filter fun x =>
      x % Nat.pow 2 m.bits ∈ s, x < Nat.pow 256 m.width := fun x mem => by
    rw [pow_width sized]
    exact Finset.mem_range.1 (Finset.mem_filter.1 mem).1
  rw [values, BigEndian.ncard_value_mem fits, card_filter_mod positive small]

theorem value_trim_lt (sized : m.Sized) {l : List UInt8} (length : l.length = m.width) :
    BigEndian.value (m.trim l) < Nat.pow 2 m.bits := by
  rw [value_trim sized length]
  exact Nat.mod_lt _ (Nat.two_pow_pos _)

/-- The bits of the modulus hold it, and one bit less does not. -/
theorem pow_bits_bounds (m : Modulus) :
    m.value.toNat < Nat.pow 2 m.bits ∧ Nat.pow 2 m.bits ≤ 2 * m.value.toNat := by
  have positive := m.value_pos
  have same : m.value.natAbs = m.value.toNat := by omega
  have bits : m.bits = bitLength m.value.toNat := congrArg bitLength same
  have some_ : m.bits ≠ 0 := by
    intro none_
    rw [none_] at bits
    have small := bitLength_le_iff.1 (Nat.le_of_eq bits.symm)
    have one : Nat.pow 2 0 = 1 := rfl
    omega
  refine ⟨bitLength_le_iff.1 (Nat.le_of_eq bits.symm), ?_⟩
  obtain ⟨k, succ⟩ := Nat.exists_eq_succ_of_ne_zero some_
  have large : ¬ m.value.toNat < Nat.pow 2 k := by
    rw [← bitLength_le_iff, ← bits, succ]
    exact Nat.not_succ_le_self k
  have twice : Nat.pow 2 (k + 1) = Nat.pow 2 k * 2 := rfl
  rw [succ, Nat.succ_eq_add_one, twice]
  omega

/-- The blocks of one turn with the given outcome. -/
def blocks (m : Modulus) (outcome : Option Int) : Set (List UInt8) :=
  {l | l.length = m.width ∧ m.outcome? l = outcome}

/-- The blocks of one turn that are not passed by. -/
def taken (m : Modulus) : Set (List UInt8) := {l | l.length = m.width ∧ (m.outcome? l).isSome}

theorem blocks_some (nonneg : 0 ≤ r) (below : r < m.value) :
    m.blocks (some r) = m.leaving {r.toNat} := by
  ext l
  simp only [blocks, leaving, Set.mem_ofPred_eq, outcome?_eq_some_iff, Finset.mem_singleton]
  refine and_congr_right fun length => ?_
  omega

theorem blocks_none (sized : m.Sized) :
    m.blocks none = m.leaving (Finset.Ico m.value.toNat (Nat.pow 2 m.bits)) := by
  ext l
  simp only [blocks, leaving, Set.mem_ofPred_eq, outcome?_eq_none_iff, Finset.mem_Ico]
  refine and_congr_right fun length => ?_
  rw [and_iff_left (value_trim_lt sized length)]

theorem taken_eq : m.taken = m.leaving (Finset.range m.value.toNat) := by
  ext l
  simp only [taken, leaving, Set.mem_ofPred_eq, Finset.mem_range, ← Nat.not_le,
    ← outcome?_eq_none_iff, ← Option.isSome_iff_ne_none]

theorem ncard_blocks_some (sized : m.Sized) (nonneg : 0 ≤ r) (below : r < m.value) :
    (m.blocks (some r)).ncard = m.share := by
  have fits : ∀ x ∈ ({r.toNat} : Finset Nat), x < Nat.pow 2 m.bits := fun x mem => by
    have most := m.pow_bits_bounds.1
    rw [Finset.mem_singleton.1 mem]
    omega
  rw [blocks_some nonneg below, ncard_leaving sized fits, Finset.card_singleton, Nat.one_mul]

theorem ncard_blocks_none (sized : m.Sized) :
    (m.blocks none).ncard = (Nat.pow 2 m.bits - m.value.toNat) * m.share := by
  have fits : ∀ x ∈ Finset.Ico m.value.toNat (Nat.pow 2 m.bits), x < Nat.pow 2 m.bits :=
    fun x mem => (Finset.mem_Ico.1 mem).2
  rw [blocks_none sized, ncard_leaving sized fits, Nat.card_Ico]

theorem ncard_taken (sized : m.Sized) : m.taken.ncard = m.value.toNat * m.share := by
  have fits : ∀ x ∈ Finset.range m.value.toNat, x < Nat.pow 2 m.bits := fun x mem =>
    Nat.lt_trans (Finset.mem_range.1 mem) m.pow_bits_bounds.1
  rw [taken_eq, ncard_leaving sized fits, Finset.card_range]

/-! ## Counting the sources of a whole run -/

section

variable {x l : List UInt8}

theorem block_append_zero (length : x.length = m.width) :
    m.block (ByteSource.ofList (x ++ l)) 0 = x := by
  refine List.ext_getElem (by rw [length_block, length]) fun i _ inside => ?_
  simp [Modulus.block, ByteSource.ofList, List.getElem?_append_left, inside]

theorem block_append_succ (length : x.length = m.width) (k : Nat) :
    m.block (ByteSource.ofList (x ++ l)) (k + 1) = m.block (ByteSource.ofList l) k := by
  refine List.map_congr_left fun i _ => ?_
  have behind : m.width * (k + 1) + i = x.length + (m.width * k + i) := by
    rw [length, Nat.mul_succ]
    omega
  simp only [ByteSource.ofList, behind, List.getD_eq_getElem?_getD,
    List.getElem?_append_right (Nat.le_add_right _ _), Nat.add_sub_cancel_left]

/-- Behind a first block the loop goes on as it would from the rest of the source. -/
theorem firstBelow_append (length : x.length = m.width) (fuel k : Nat) :
    (m.firstBelow (ByteSource.ofList (x ++ l)) fuel (k + 1)).value =
      (m.firstBelow (ByteSource.ofList l) fuel k).value.map fun p => (p.1, p.2 + 1) := by
  induction fuel generalizing k with
  | zero => rfl
  | succ fuel ih =>
    rw [firstBelow_turn, firstBelow_turn, block_append_succ length, ih]
    cases m.outcome? (m.block (ByteSource.ofList l) k) <;> rfl

theorem firstBelow_append_eq_some (length : x.length = m.width) (fuel j : Nat) :
    (m.firstBelow (ByteSource.ofList (x ++ l)) (fuel + 1) 0).value = some (r, j + 1) ↔
      m.outcome? x = none ∧
        (m.firstBelow (ByteSource.ofList l) fuel 0).value = some (r, j) := by
  rw [firstBelow_turn, block_append_zero length, firstBelow_append length]
  cases m.outcome? x with
  | some v => simp
  | none => cases (m.firstBelow (ByteSource.ofList l) fuel 0).value <;> simp [Prod.ext_iff]

end

/-- The sources of `j + 1` blocks of which the first `j` are passed by and the last one comes to the
residue. -/
def sources (m : Modulus) (j : Nat) (r : Int) : Set (List UInt8) :=
  {l | l.length = m.width * (j + 1) ∧
    (m.firstBelow (ByteSource.ofList l) (j + 1) 0).value = some (r, j)}

theorem sources_zero : m.sources 0 r = m.blocks (some r) := by
  ext l
  simp only [sources, blocks, Set.mem_ofPred_eq, Nat.zero_add, Nat.mul_one]
  refine and_congr_right fun length => ?_
  have whole := block_append_zero (l := []) length
  rw [List.append_nil] at whole
  rw [firstBelow_turn, whole]
  cases m.outcome? l <;> simp [firstBelow]

/-- A source of one more block has a block in front that is passed by. -/
theorem sources_succ (j : Nat) :
    m.sources (j + 1) r =
      (fun p : List UInt8 × List UInt8 => p.1 ++ p.2) '' (m.blocks none ×ˢ m.sources j r) := by
  ext l
  constructor
  · rintro ⟨length, found⟩
    have front : (l.take m.width).length = m.width := by
      rw [List.length_take, length, Nat.mul_succ]
      omega
    have rest : (l.drop m.width).length = m.width * (j + 1) := by
      rw [List.length_drop, length, Nat.mul_succ, Nat.add_sub_cancel]
    have split := List.take_append_drop m.width l
    rw [← split, firstBelow_append_eq_some front] at found
    exact ⟨(l.take m.width, l.drop m.width), ⟨⟨front, found.1⟩, ⟨rest, found.2⟩⟩, split⟩
  · rintro ⟨⟨x, k⟩, ⟨⟨front, passed⟩, ⟨rest, found⟩⟩, rfl⟩
    refine ⟨?_, (firstBelow_append_eq_some front _ _).2 ⟨passed, found⟩⟩
    rw [List.length_append, front, rest, Nat.mul_succ m.width (j + 1), Nat.add_comm]

theorem ncard_sources (sized : m.Sized) (nonneg : 0 ≤ r) (below : r < m.value) (j : Nat) :
    (m.sources j r).ncard = Nat.pow (m.blocks none).ncard j * m.share := by
  induction j with
  | zero =>
    have one : Nat.pow (m.blocks none).ncard 0 = 1 := rfl
    rw [sources_zero, ncard_blocks_some sized nonneg below, one, Nat.one_mul]
  | succ j ih =>
    have more : Nat.pow (m.blocks none).ncard (j + 1) =
        (m.blocks none).ncard * Nat.pow (m.blocks none).ncard j := Nat.mul_comm _ _
    have injective : Set.InjOn (fun p : List UInt8 × List UInt8 => p.1 ++ p.2)
        (m.blocks none ×ˢ m.sources j r) := by
      rintro ⟨x, l⟩ ⟨hx, -⟩ ⟨y, k⟩ ⟨hy, -⟩ same
      obtain ⟨rfl, rfl⟩ := List.append_inj same (hx.1.trans hy.1.symm)
      rfl
    rw [sources_succ, injective.ncard_image, Set.ncard_prod, ih, more, Nat.mul_assoc]

end Modulus

namespace Element

variable {env : Ambient} {m : Modulus}

/-- What is drawn tells the residue and the number of blocks. -/
theorem yields_sample_iff (sized : m.Sized) (active : env.active = some m) {source : ByteSource}
    {fuel k : Nat} {r : Int} :
    Yields (sample env source fuel) (some ⟨env.residue m r, m.width * (k + 1)⟩) ↔
      (m.firstBelow source fuel 0).value = some (r, k) := by
  have nonempty : 0 < m.width := sized.nonempty
  rw [yields_sample]
  constructor
  · rintro ⟨n, here, found⟩
    obtain rfl : n = m := Option.some.inj (here.symm.trans active)
    cases drawn : (n.firstBelow source fuel 0).value with
    | none => rw [drawn] at found; cases found
    | some p =>
      rw [drawn] at found
      obtain ⟨residue, bytes⟩ := Drawn.mk.inj (Option.some.inj found)
      have value : r = p.1 := congrArg Element.representative residue
      have number : k + 1 = p.2 + 1 := Nat.eq_of_mul_eq_mul_left nonempty bytes
      rw [value, Nat.succ.inj number]
  · intro found
    exact ⟨m, active, by rw [found]; rfl⟩

/-- What becomes of the blocks that one turn of sampling may draw, and of whole sources. -/
structure Unbiased (m : Modulus) : Prop where
  width : m.width = byteLength m.value.natAbs
  bits : m.bits = bitLength m.value.natAbs
  room : m.bits ≤ 8 * m.width
  /-- One turn of the loop draws one block, which is taken or passed by. -/
  turns : ∀ source fuel k, (m.firstBelow source (fuel + 1) k).value =
    ((m.outcome? (m.block source k)).map fun v => (v, k)).or
      (m.firstBelow source fuel (k + 1)).value
  all : {l : List UInt8 | l.length = m.width}.ncard = Nat.pow 256 m.width
  hits : ∀ r, 0 ≤ r → r < m.value →
    (m.blocks (some r)).ncard = Nat.pow 2 (8 * m.width - m.bits)
  reaches : ∀ r, 0 ≤ r → r < m.value → (m.blocks (some r)).Nonempty
  inside : ∀ l r, m.outcome? l = some r → 0 ≤ r ∧ r < m.value
  /-- The taken blocks are shared evenly. -/
  shares : ∀ r, 0 ≤ r → r < m.value → m.value.toNat * (m.blocks (some r)).ncard = m.taken.ncard
  /-- All other blocks are passed by. -/
  misses : (m.blocks none).ncard + m.value.toNat * Nat.pow 2 (8 * m.width - m.bits) =
    Nat.pow 256 m.width
  half : Nat.pow 256 m.width ≤ 2 * m.taken.ncard
  /-- Whatever number of blocks is passed by before, no residue is likelier than another. -/
  runs : ∀ env : Ambient, env.active = some m → ∀ r, 0 ≤ r → r < m.value → ∀ j,
    {l | l.length = m.width * (j + 1) ∧ Yields (sample env (ByteSource.ofList l) (j + 1))
      (some ⟨env.residue m r, m.width * (j + 1)⟩)}.ncard =
    Nat.pow (m.blocks none).ncard j * Nat.pow 2 (8 * m.width - m.bits)

theorem unbiased (regular : m.width = Integer.width m.value) : Unbiased m := by
  have sized := Modulus.sized_of_width regular
  have bounds := m.pow_bits_bounds
  have total := Modulus.pow_width sized
  exact {
    width := regular
    bits := rfl
    room := sized.whole
    turns := Modulus.firstBelow_turn
    all := BigEndian.ncard_length_eq _
    hits := fun r nonneg below => Modulus.ncard_blocks_some sized nonneg below
    reaches := fun r nonneg below => by
      refine Set.nonempty_of_ncard_ne_zero ?_
      rw [Modulus.ncard_blocks_some sized nonneg below]
      exact Nat.ne_of_gt (Nat.two_pow_pos _)
    inside := fun l r found => (Modulus.outcome?_eq_some_iff.1 found).1
    shares := fun r nonneg below => by
      rw [Modulus.ncard_blocks_some sized nonneg below, Modulus.ncard_taken sized]
    misses := by
      rw [Modulus.ncard_blocks_none sized, total]
      show _ + m.value.toNat * m.share = _
      rw [← Nat.add_mul, Nat.sub_add_cancel (Nat.le_of_lt bounds.1)]
    half := by
      rw [Modulus.ncard_taken sized, total, ← Nat.mul_assoc]
      exact Nat.mul_le_mul_right _ bounds.2
    runs := fun env active r nonneg below j => by
      simp only [yields_sample_iff sized active]
      exact Modulus.ncard_sources sized nonneg below j }

/-- Below every positive integer sampling is unbiased: each residue is the outcome of equally many
blocks, and at least half of the blocks are taken. -/
theorem sampling_unbiased (v : Int) (positive : 1 ≤ v) :
    ∃ m, Modulus.ofInt v = .ok m ∧ m.value = v ∧ Unbiased m := by
  have sized : Modulus.ofInt v = .ok ⟨v, Integer.width v, positive⟩ := dif_pos positive
  exact ⟨_, sized, rfl, unbiased rfl⟩

/-- Of the blocks of two bytes, 128 come to each of the residues of 257. -/
theorem sampling_unbiased_257 :
    ∃ m, Modulus.ofInt 257 = .ok m ∧ m.width = 2 ∧ m.bits = 9 ∧
      (m.blocks (some 256)).ncard = 128 ∧ (m.blocks none).ncard = 32640 := by
  obtain ⟨m, sized, value, fair⟩ := sampling_unbiased 257 (by decide)
  have width := fair.width
  have bits := fair.bits
  have hit := fair.hits 256 (by decide) (by rw [value]; decide)
  have missed := fair.misses
  rw [value] at width bits missed
  have two : m.width = 2 := width.trans (by decide +kernel)
  have nine : m.bits = 9 := bits.trans (by decide +kernel)
  rw [two, nine] at hit missed
  have power : Nat.pow 2 (8 * 2 - 9) = 128 := rfl
  have all : Nat.pow 256 2 = 65536 := rfl
  rw [power] at hit missed
  rw [all] at missed
  exact ⟨m, sized, two, nine, hit, by omega⟩

end Element

end AmbientResidue
