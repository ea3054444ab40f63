/-!
Natural numbers as byte strings, most significant byte first. `encode` writes the shortest string,
so zero is the empty one, and `octets` at least one byte; `value` reads any string, leading zero bytes
included.
-/

namespace AmbientResidue

/-- The least number of bits that hold `n`; none for zero. -/
def bitLength (n : Nat) : Nat := if n = 0 then 0 else n.log2 + 1

/-- The least number of bytes that hold `n`. -/
def byteLength (n : Nat) : Nat := (bitLength n + 7) / 8

namespace BigEndian

def value (bytes : List UInt8) : Nat :=
  bytes.foldl (fun n b => 256 * n + b.toNat) 0

/-- However many zero bytes there are, they stand for zero. -/
theorem value_zeros {bytes : List UInt8} (h : ∀ b ∈ bytes, b = 0) : value bytes = 0 := by
  unfold value
  induction bytes with
  | nil => rfl
  | cons b rest ih =>
    obtain rfl := h b List.mem_cons_self
    exact ih fun b hb => h b (List.mem_cons_of_mem _ hb)

/-- The base-256 digits of `n`, least significant first and none above the last nonzero one. -/
def digits (n : Nat) : List UInt8 :=
  if n = 0 then [] else UInt8.ofNat (n % 256) :: digits (n / 256)

def encode (n : Nat) : List UInt8 := (digits n).reverse

/-- The digits of a positive number; a single zero byte for zero. -/
def octets (n : Nat) : List UInt8 := if n = 0 then [0] else (digits n).reverse

/-- The low `width` bytes of `n`, leading zeros kept. -/
def fixed : Nat → Nat → List UInt8
  | 0, _ => []
  | width + 1, n => fixed width (n / 256) ++ [UInt8.ofNat (n % 256)]

end BigEndian

end AmbientResidue
