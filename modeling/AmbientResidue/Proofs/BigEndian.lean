import AmbientResidue.BigEndian

/-! # Bytes written are bytes read

A number is read back from the shortest bytes that hold it, and modulo its width from bytes of a
fixed width. The shortest bytes are as many as the bits of the number fill. Bytes that were read are
written again without their leading zeros. -/

namespace AmbientResidue

theorem bitLength_of_pos {n : Nat} (h : n ≠ 0) : bitLength n = bitLength (n / 2) + 1 := by
  unfold bitLength
  by_cases small : n < 2
  · obtain rfl : n = 1 := by omega
    rfl
  · have step : n.log2 = (n / 2).log2 + 1 := by
      rw [Nat.log2_def, if_pos (by omega)]
    have half : n / 2 ≠ 0 := by omega
    rw [if_neg h, if_neg half, step]

theorem bitLength_div_pow {n : Nat} (k : Nat) (h : Nat.pow 2 k ≤ n) :
    bitLength n = bitLength (n / Nat.pow 2 k) + k := by
  induction k with
  | zero => exact congrArg bitLength (Nat.div_one n).symm
  | succ k ih =>
    have twice : Nat.pow 2 (k + 1) = Nat.pow 2 k * 2 := rfl
    have positive : 0 < Nat.pow 2 k := Nat.two_pow_pos k
    have below : Nat.pow 2 k ≤ n := by omega
    have more : n / Nat.pow 2 k ≠ 0 := Nat.ne_of_gt (Nat.div_pos below positive)
    rw [ih below, bitLength_of_pos more, Nat.div_div_eq_div_mul, ← twice, Nat.add_assoc,
      Nat.add_comm 1]

/-- The bits of a number are the fewest that it fits in. -/
theorem bitLength_le_iff {n k : Nat} : bitLength n ≤ k ↔ n < Nat.pow 2 k := by
  by_cases h : n = 0
  · subst h
    exact iff_of_true (Nat.zero_le k) (Nat.two_pow_pos k)
  · have bits : bitLength n = n.log2 + 1 := if_neg h
    rw [bits]
    exact Nat.log2_lt h

theorem byteLength_le_iff {n k : Nat} : byteLength n ≤ k ↔ n < Nat.pow 256 k := by
  have bytes : Nat.pow 256 k = Nat.pow 2 (8 * k) := (Nat.pow_mul 2 8 k).symm
  have bits : byteLength n = (bitLength n + 7) / 8 := rfl
  rw [bytes, ← bitLength_le_iff, bits]
  omega

theorem byteLength_of_pos {n : Nat} (h : n ≠ 0) : byteLength n = byteLength (n / 256) + 1 := by
  unfold byteLength
  by_cases small : n < 256
  · have short : n.log2 < 8 := (Nat.log2_lt h).2 small
    have none_left : n / 256 = 0 := Nat.div_eq_of_lt small
    have bits : bitLength n = n.log2 + 1 := if_neg h
    have no_bits : bitLength 0 = 0 := rfl
    rw [none_left, bits, no_bits]
    omega
  · have bits : bitLength n = bitLength (n / 256) + 8 := bitLength_div_pow 8 (Nat.not_lt.1 small)
    omega

namespace BigEndian

theorem value_concat (bytes : List UInt8) (b : UInt8) :
    value (bytes ++ [b]) = 256 * value bytes + b.toNat := by
  simp only [value, List.foldl_append, List.foldl_cons, List.foldl_nil]

/-- The bytes read so far stand above the bytes to come. -/
theorem foldl_eq (bytes : List UInt8) (n : Nat) :
    bytes.foldl (fun n b => 256 * n + b.toNat) n =
      Nat.pow 256 bytes.length * n + value bytes := by
  induction bytes generalizing n with
  | nil => simp [value]
  | cons b rest ih =>
    have wider : Nat.pow 256 (rest.length + 1) = Nat.pow 256 rest.length * 256 := rfl
    have here : value (b :: rest) = rest.foldl (fun n b => 256 * n + b.toNat) b.toNat := by
      simp [value]
    rw [List.foldl_cons, ih, here, ih b.toNat, List.length_cons, wider, Nat.mul_add, Nat.mul_assoc,
      Nat.add_assoc]

theorem value_cons (b : UInt8) (rest : List UInt8) :
    value (b :: rest) = Nat.pow 256 rest.length * b.toNat + value rest := by
  rw [value, List.foldl_cons, foldl_eq, Nat.mul_zero, Nat.zero_add]

theorem value_lt (bytes : List UInt8) : value bytes < Nat.pow 256 bytes.length := by
  induction bytes with
  | nil => exact Nat.one_pos
  | cons b rest ih =>
    calc value (b :: rest)
      _ = Nat.pow 256 rest.length * b.toNat + value rest := value_cons b rest
      _ < Nat.pow 256 rest.length * b.toNat + Nat.pow 256 rest.length := Nat.add_lt_add_left ih _
      _ = Nat.pow 256 rest.length * (b.toNat + 1) := (Nat.mul_succ _ _).symm
      _ ≤ Nat.pow 256 rest.length * 256 := Nat.mul_le_mul_left _ b.toNat_lt

/-- Byte strings of one length differ in their values. -/
theorem eq_of_value_eq {l k : List UInt8} (length : l.length = k.length)
    (same : value l = value k) : l = k := by
  induction l generalizing k with
  | nil => exact (List.eq_nil_of_length_eq_zero length.symm).symm
  | cons b l ih =>
    cases k with
    | nil => cases length
    | cons c k =>
      have tail : l.length = k.length := Nat.succ.inj length
      have below := value_lt l
      have above := value_lt k
      rw [value_cons, value_cons, tail] at same
      rw [tail] at below
      have positive : 0 < Nat.pow 256 k.length := Nat.zero_lt_of_lt above
      have high : b.toNat = c.toNat := by
        have quotient := congrArg (· / Nat.pow 256 k.length) same
        rwa [Nat.mul_add_div positive, Nat.mul_add_div positive, Nat.div_eq_of_lt below,
          Nat.div_eq_of_lt above] at quotient
      rw [high] at same
      rw [UInt8.toNat_inj.1 high, ih tail (Nat.add_left_cancel same)]

@[simp] theorem length_fixed (width n : Nat) : (fixed width n).length = width := by
  induction width generalizing n with
  | zero => rfl
  | succ width ih => simp [fixed, ih]

theorem value_fixed (width n : Nat) : value (fixed width n) = n % Nat.pow 256 width := by
  induction width generalizing n with
  | zero => exact (Nat.mod_one n).symm
  | succ width ih =>
    have last : (UInt8.ofNat (n % 256)).toNat = n % 256 := by simp
    have wider : Nat.pow 256 (width + 1) = 256 * Nat.pow 256 width := Nat.mul_comm _ _
    rw [fixed, value_concat, ih, last, wider, Nat.mod_mul, Nat.add_comm]

/-- A number in the width that it was read from is written as it was. -/
theorem fixed_value {bytes : List UInt8} {width : Nat} (length : bytes.length = width) :
    fixed width (value bytes) = bytes := by
  have room : value bytes < Nat.pow 256 width := length ▸ value_lt bytes
  refine eq_of_value_eq (by rw [length_fixed, length]) ?_
  rw [value_fixed, Nat.mod_eq_of_lt room]

theorem encode_zero : encode 0 = [] := by
  rw [encode, digits, if_pos rfl, List.reverse_nil]

theorem encode_of_pos {n : Nat} (h : n ≠ 0) :
    encode n = encode (n / 256) ++ [UInt8.ofNat (n % 256)] := by
  rw [encode, digits, if_neg h, List.reverse_cons, encode]

theorem value_encode (n : Nat) : value (encode n) = n := by
  induction n using Nat.strongRecOn with
  | _ n ih =>
    by_cases h : n = 0
    · rw [h, encode_zero]
      rfl
    · have last : (UInt8.ofNat (n % 256)).toNat = n % 256 := by simp
      rw [encode_of_pos h, value_concat, ih (n / 256) (by omega), last]
      omega

theorem length_encode (n : Nat) : (encode n).length = byteLength n := by
  induction n using Nat.strongRecOn with
  | _ n ih =>
    by_cases h : n = 0
    · rw [h, encode_zero]
      rfl
    · rw [encode_of_pos h, List.length_append, ih (n / 256) (by omega), byteLength_of_pos h]
      rfl

/-- The shortest bytes are the octets, but for the zero byte that zero is written as there. -/
theorem encode_eq_octets (n : Nat) : encode n = if n = 0 then [] else octets n := by
  by_cases h : n = 0
  · rw [h, if_pos rfl, encode_zero]
  · rw [if_neg h, octets, if_neg h, encode]

theorem encode_eq_nil_iff {n : Nat} : encode n = [] ↔ n = 0 := by
  constructor
  · intro nothing
    by_cases h : n = 0
    · exact h
    · rw [encode_of_pos h] at nothing
      simp at nothing
  · rintro rfl
    exact encode_zero

theorem encode_of_lt {n : Nat} (h : n ≠ 0) (small : n < 256) : encode n = [UInt8.ofNat n] := by
  rw [encode_of_pos h, Nat.div_eq_of_lt small, Nat.mod_eq_of_lt small, encode_zero, List.nil_append]

/-- What is read behind a nonzero number is written behind it. -/
theorem encode_foldl {n : Nat} (h : n ≠ 0) (bytes : List UInt8) :
    encode (bytes.foldl (fun n b => 256 * n + b.toNat) n) = encode n ++ bytes := by
  induction bytes generalizing n with
  | nil => exact (List.append_nil _).symm
  | cons b rest ih =>
    have byte : b.toNat < 256 := b.toNat_lt
    have more : 256 * n + b.toNat ≠ 0 := by omega
    have high : (256 * n + b.toNat) / 256 = n := by omega
    have low : (256 * n + b.toNat) % 256 = b.toNat := by omega
    rw [List.foldl_cons, ih more, encode_of_pos more, high, low, UInt8.ofNat_toNat,
      List.append_assoc, List.singleton_append]

/-- Writing what was read drops the leading zero bytes. -/
theorem encode_value (bytes : List UInt8) : encode (value bytes) = bytes.dropWhile (· == 0) := by
  induction bytes with
  | nil => exact encode_zero
  | cons b rest ih =>
    by_cases h : b = 0
    · subst h
      rw [value_cons, UInt8.toNat_zero, Nat.mul_zero, Nat.zero_add, ih]
      rfl
    · have some_ : b.toNat ≠ 0 := fun zero => h (UInt8.toNat_inj.1 zero)
      have read : value (b :: rest) = rest.foldl (fun n b => 256 * n + b.toNat) b.toNat := by
        rw [value, List.foldl_cons, Nat.mul_zero, Nat.zero_add]
      rw [read, encode_foldl some_, encode_of_lt some_ b.toNat_lt, UInt8.ofNat_toNat,
        List.dropWhile_cons_of_neg (by simpa using h), List.singleton_append]

theorem head?_encode (n : Nat) : (encode n).head? ≠ some 0 := by
  -- Leading zeros would have been dropped when the bytes were read and written again.
  have same : (encode n).dropWhile (· == 0) = encode n := by rw [← encode_value, value_encode]
  have first := List.head?_dropWhile_not (· == 0) (encode n)
  intro zero
  rw [same, zero] at first
  cases first

end BigEndian

end AmbientResidue
