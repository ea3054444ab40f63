import AmbientResidue.BigEndian
import AmbientResidue.Decimal
import AmbientResidue.Euclid
import AmbientResidue.Tally

/-!
The operations on integers that everything else goes through, as a record so that any
implementation can be wrapped; an engine that counts what it passes on to another one; and calls as
data. An operation comes at the price of the counted calls that are made in it.
-/

namespace AmbientResidue

/-- An implementation `α` of the integers. -/
structure Engine (α : Type) where
  ofInt64 : Int64 → Counted α
  ofDecimal? : String → Counted (Option α)
  ofBytes : List UInt8 → Counted α
  add : α → α → Counted α
  sub : α → α → Counted α
  mul : α → α → Counted α
  /-- The least non-negative residue of the first argument modulo the second, which has to be
  positive. -/
  reduce : α → α → Counted α
  /-- The inverse of the first argument modulo the second, which has to be positive. -/
  inverse? : α → α → Counted (Option α)
  decimal : α → Counted String
  /-- The magnitude in big-endian bytes. -/
  bytes : α → Counted (List UInt8)
  /-- The number of bits of the magnitude. -/
  bitLength : α → Counted Nat
  /-- The number of bytes of the magnitude. It need not be given: the bits tell. -/
  byteLength : α → Counted Nat := fun a => do return ((← bitLength a) + 7) / 8
  isZero : α → Counted Bool
  isNegative : α → Counted Bool

namespace Engine

open Counted (tick)

/-- The engine of the library's own integers. Residues are those of flooring division. -/
def standard : Engine Int where
  ofInt64 v := return v.toInt
  ofDecimal? s := return Decimal.readTolerant? s.toList
  ofBytes bytes := return BigEndian.value bytes
  add a b := return a + b
  sub a b := return a - b
  mul a b := return a * b
  reduce a m := return a.fmod m
  inverse? a m := return Euclid.inverse? a m
  decimal a := return Decimal.text a
  bytes a := return if a = 0 then [] else BigEndian.octets a.natAbs
  bitLength a := return AmbientResidue.bitLength a.natAbs
  isZero a := return a == 0
  isNegative a := return decide (a < 0)

/-- Counts arithmetic and what makes integers, and passes every call on to the wrapped engine.
Printing, byte encoding, the bit length and sign tests are not counted. A byte length that the
wrapped engine has of its own is never asked for: the tracked one goes by the bits. -/
def tracked (e : Engine α) : Engine α where
  ofInt64 v := do tick { fromInt64 := 1 }; e.ofInt64 v
  ofDecimal? s := do tick { fromDecimal := 1 }; e.ofDecimal? s
  ofBytes bytes := do tick { fromBytes := 1 }; e.ofBytes bytes
  add a b := do tick { adds := 1 }; e.add a b
  sub a b := do tick { subs := 1 }; e.sub a b
  mul a b := do tick { mults := 1 }; e.mul a b
  reduce a m := do tick { reductions := 1 }; e.reduce a m
  inverse? a m := do tick { inverses := 1 }; e.inverse? a m
  decimal a := e.decimal a
  bytes a := e.bytes a
  bitLength a := e.bitLength a
  isZero a := e.isZero a
  isNegative a := e.isNegative a

/-- A call of an engine with its arguments. -/
inductive Call (α : Type) where
  | ofInt64 (v : Int64)
  | ofDecimal (s : String)
  | ofBytes (bs : List UInt8)
  | add (a b : α)
  | sub (a b : α)
  | mul (a b : α)
  | reduce (a m : α)
  | inverse (a m : α)
  | decimal (a : α)
  | bytes (a : α)
  | bitLength (a : α)
  | byteLength (a : α)
  | isZero (a : α)
  | isNegative (a : α)

/-- What a call is answered. -/
inductive Answer (α : Type) where
  | integer (a : α)
  | nothing
  | text (s : String)
  | bytes (bs : List UInt8)
  | length (n : Nat)
  | truth (b : Bool)

def Answer.ofOption : Option α → Answer α
  | some a => .integer a
  | none => .nothing

/-- The answer of a call at its price. -/
def answer (e : Engine α) : Call α → Counted (Answer α)
  | .ofInt64 v => .integer <$> e.ofInt64 v
  | .ofDecimal s => .ofOption <$> e.ofDecimal? s
  | .ofBytes bs => .integer <$> e.ofBytes bs
  | .add a b => .integer <$> e.add a b
  | .sub a b => .integer <$> e.sub a b
  | .mul a b => .integer <$> e.mul a b
  | .reduce a m => .integer <$> e.reduce a m
  | .inverse a m => .ofOption <$> e.inverse? a m
  | .decimal a => .text <$> e.decimal a
  | .bytes a => .bytes <$> e.bytes a
  | .bitLength a => .length <$> e.bitLength a
  | .byteLength a => .length <$> e.byteLength a
  | .isZero a => .truth <$> e.isZero a
  | .isNegative a => .truth <$> e.isNegative a

/-- The same call with other arguments in place of the old, if each has one. -/
def Call.mapM? (f : α → Option β) : Call α → Option (Call β)
  | .ofInt64 v => some (.ofInt64 v)
  | .ofDecimal s => some (.ofDecimal s)
  | .ofBytes bs => some (.ofBytes bs)
  | .add a b => return .add (← f a) (← f b)
  | .sub a b => return .sub (← f a) (← f b)
  | .mul a b => return .mul (← f a) (← f b)
  | .reduce a m => return .reduce (← f a) (← f m)
  | .inverse a m => return .inverse (← f a) (← f m)
  | .decimal a => return .decimal (← f a)
  | .bytes a => return .bytes (← f a)
  | .bitLength a => return .bitLength (← f a)
  | .byteLength a => return .byteLength (← f a)
  | .isZero a => return .isZero (← f a)
  | .isNegative a => return .isNegative (← f a)

end Engine

end AmbientResidue
