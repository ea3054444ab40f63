/-!
UTF-8 over lists of bytes. Encoding takes any code point, surrogates included, because byte strings
written as text may name them; decoding accepts exactly the encodings of characters.
-/

namespace AmbientResidue.Utf8

/-- The bytes of a code point, by its size. -/
def encodePoint (n : Nat) : List UInt8 :=
  let tail (k : Nat) : UInt8 := UInt8.ofNat (0x80 + n / Nat.pow 64 k % 64)
  if n < 0x80 then [UInt8.ofNat n]
  else if n < 0x800 then [UInt8.ofNat (0xc0 + n / 64), tail 0]
  else if n < 0x10000 then [UInt8.ofNat (0xe0 + n / Nat.pow 64 2), tail 1, tail 0]
  else [UInt8.ofNat (0xf0 + n / Nat.pow 64 3), tail 2, tail 1, tail 0]

def encode (cs : List Char) : List UInt8 := cs.flatMap fun c => encodePoint c.toNat

/-- The character of a code point, provided it takes at least `least` to justify its length. -/
def charOf? (least n : Nat) : Option Char :=
  if h : n.isValidChar then
    if least ≤ n then some (Char.ofNatAux n h) else none
  else none

def isTail (b : UInt8) : Bool := 0x80 ≤ b && b ≤ 0xbf

/-- The six bits that a continuation byte carries. -/
def tailBits (b : UInt8) : Nat := b.toNat % 64

def decode? : List UInt8 → Option (List Char)
  | [] => some []
  | a :: rest =>
    if a < 0x80 then
      return Char.ofNat a.toNat :: (← decode? rest)
    else if a < 0xc0 then none
    else if a < 0xe0 then
      match rest with
      | b :: rest =>
        if isTail b then
          return (← charOf? 0x80 (a.toNat % 32 * 64 + tailBits b)) :: (← decode? rest)
        else none
      | _ => none
    else if a < 0xf0 then
      match rest with
      | b :: c :: rest =>
        if isTail b && isTail c then
          return (← charOf? 0x800 ((a.toNat % 16 * 64 + tailBits b) * 64 + tailBits c)) ::
            (← decode? rest)
        else none
      | _ => none
    else if a < 0xf8 then
      match rest with
      | b :: c :: d :: rest =>
        if isTail b && isTail c && isTail d then
          return (← charOf? 0x10000
            (((a.toNat % 8 * 64 + tailBits b) * 64 + tailBits c) * 64 + tailBits d)) ::
              (← decode? rest)
        else none
      | _ => none
    else none

end AmbientResidue.Utf8
