import AmbientResidue.Text.Utf8

/-! # Text and its bytes

The first byte of a character tells how many bytes it has; each of the others carries six bits.
From the bytes that characters are written in they are read back one by one. -/

namespace AmbientResidue.Utf8

variable {a b b' b'' : UInt8} {c : Char} {n least : Nat} {rest : List UInt8}

theorem charOf?_toNat (enough : least ≤ c.toNat) : charOf? least c.toNat = some c := by
  have valid : c.toNat.isValidChar := c.valid
  rw [charOf?, dif_pos valid, if_pos enough]
  rfl

theorem toNat_lt (c : Char) : c.toNat < 0x110000 := by
  rcases (c.valid : c.toNat.isValidChar) with low | ⟨-, high⟩
  · exact Nat.lt_trans low (by decide)
  · exact high

/-! ## By the first byte -/

theorem decode?_one (small : a < 0x80) :
    decode? (a :: rest) = return Char.ofNat a.toNat :: (← decode? rest) := by
  rw [decode?.eq_def]
  dsimp only
  rw [if_pos small]

theorem decode?_two (low : ¬ a < 0xc0) (high : a < 0xe0) (tail : isTail b = true)
    (char : charOf? 0x80 (a.toNat % 32 * 64 + tailBits b) = some c) :
    decode? (a :: b :: rest) = return c :: (← decode? rest) := by
  have large : ¬ a < 0x80 := fun small => low (UInt8.lt_trans small (by decide))
  rw [decode?.eq_def]
  dsimp only
  rw [if_neg large, if_neg low, if_pos high, if_pos tail, char]
  rfl

theorem decode?_three (low : ¬ a < 0xe0) (high : a < 0xf0)
    (tails : (isTail b && isTail b') = true)
    (char : charOf? 0x800 ((a.toNat % 16 * 64 + tailBits b) * 64 + tailBits b') = some c) :
    decode? (a :: b :: b' :: rest) = return c :: (← decode? rest) := by
  have above {k : UInt8} (less : k < 0xe0) : ¬ a < k := fun below => low (UInt8.lt_trans below less)
  rw [decode?.eq_def]
  dsimp only
  rw [if_neg (above (by decide)), if_neg (above (by decide)), if_neg low, if_pos high, if_pos tails, char]
  rfl

theorem decode?_four (low : ¬ a < 0xf0) (high : a < 0xf8)
    (tails : (isTail b && isTail b' && isTail b'') = true)
    (char : charOf? 0x10000
      (((a.toNat % 8 * 64 + tailBits b) * 64 + tailBits b') * 64 + tailBits b'') = some c) :
    decode? (a :: b :: b' :: b'' :: rest) = return c :: (← decode? rest) := by
  have above {k : UInt8} (less : k < 0xf0) : ¬ a < k := fun below => low (UInt8.lt_trans below less)
  rw [decode?.eq_def]
  dsimp only
  rw [if_neg (above (by decide)), if_neg (above (by decide)), if_neg (above (by decide)),
    if_neg low, if_pos high, if_pos tails, char]
  rfl

/-! ## Written bytes -/

/-- The byte that carries the last six bits of a number. -/
theorem toNat_tail (n : Nat) : (UInt8.ofNat (0x80 + n % 64)).toNat = 0x80 + n % 64 := by
  have room : 0x80 + n % 64 < 256 := by omega
  exact UInt8.toNat_ofNat_of_lt' room

theorem tailBits_tail (n : Nat) : tailBits (UInt8.ofNat (0x80 + n % 64)) = n % 64 := by
  rw [tailBits, toNat_tail]
  omega

theorem isTail_tail (n : Nat) : isTail (UInt8.ofNat (0x80 + n % 64)) = true := by
  have least : 0x80 ≤ UInt8.ofNat (0x80 + n % 64) := by
    rw [UInt8.le_iff_toNat_le, toNat_tail]
    exact Nat.le_add_right _ _
  have most : UInt8.ofNat (0x80 + n % 64) ≤ 0xbf := by
    rw [UInt8.le_iff_toNat_le, toNat_tail]
    show 0x80 + n % 64 ≤ 0xbf
    omega
  rw [isTail, decide_eq_true least, decide_eq_true most]
  rfl

theorem decode?_encodePoint (c : Char) (rest : List UInt8) :
    decode? (encodePoint c.toNat ++ rest) = return c :: (← decode? rest) := by
  have most := toNat_lt c
  have first {k : Nat} (room : k < 256) : (UInt8.ofNat k).toNat = k := UInt8.toNat_ofNat_of_lt' room
  have below {k : Nat} (room : k < 256) (l : Nat) (room' : l < 256) :
      UInt8.ofNat k < UInt8.ofNat l ↔ k < l := UInt8.ofNat_lt_iff_lt room room'
  have power0 : Nat.pow 64 0 = 1 := rfl
  have power1 : Nat.pow 64 1 = 64 := rfl
  have power2 : Nat.pow 64 2 = 4096 := rfl
  have power3 : Nat.pow 64 3 = 262144 := rfl
  simp only [encodePoint, power0, power1, power2, power3, Nat.div_one]
  by_cases one : c.toNat < 0x80
  · have small := (below (by omega) 0x80 (by decide)).2 one
    rw [if_pos one, List.singleton_append, decode?_one small, first (by omega), Char.ofNat_toNat]
  by_cases two : c.toNat < 0x800
  · have code : (0xc0 + c.toNat / 64) % 32 * 64 + c.toNat % 64 = c.toNat := by omega
    rw [if_neg one, if_pos two]
    refine decode?_two ?_ ?_ (isTail_tail _) ?_
    · exact mt (below (by omega) 0xc0 (by decide)).1 (by omega)
    · exact (below (by omega) 0xe0 (by decide)).2 (by omega)
    · rw [first (by omega), tailBits_tail, code, charOf?_toNat (Nat.not_lt.1 one)]
  by_cases three : c.toNat < 0x10000
  · have code : ((0xe0 + c.toNat / 4096) % 16 * 64 + c.toNat / 64 % 64) * 64 + c.toNat % 64 =
        c.toNat := by omega
    rw [if_neg one, if_neg two, if_pos three]
    refine decode?_three ?_ ?_ (by rw [isTail_tail, isTail_tail]; rfl) ?_
    · exact mt (below (by omega) 0xe0 (by decide)).1 (by omega)
    · exact (below (by omega) 0xf0 (by decide)).2 (by omega)
    · rw [first (by omega), tailBits_tail, tailBits_tail, code, charOf?_toNat (Nat.not_lt.1 two)]
  · have code : (((0xf0 + c.toNat / 262144) % 8 * 64 + c.toNat / 4096 % 64) * 64 +
        c.toNat / 64 % 64) * 64 + c.toNat % 64 = c.toNat := by omega
    rw [if_neg one, if_neg two, if_neg three]
    refine decode?_four ?_ ?_ (by rw [isTail_tail, isTail_tail, isTail_tail]; rfl) ?_
    · exact mt (below (by omega) 0xf0 (by decide)).1 (by omega)
    · exact (below (by omega) 0xf8 (by decide)).2 (by omega)
    · rw [first (by omega), tailBits_tail, tailBits_tail, tailBits_tail, code,
        charOf?_toNat (Nat.not_lt.1 three)]

/-- Text is read back from its bytes. -/
theorem decode?_encode (cs : List Char) : decode? (encode cs) = some cs := by
  induction cs with
  | nil => rw [encode, List.flatMap_nil, decode?]
  | cons c cs ih =>
    have bytes : encode (c :: cs) = encodePoint c.toNat ++ encode cs := List.flatMap_cons
    rw [bytes, decode?_encodePoint, ih]
    rfl

end AmbientResidue.Utf8
