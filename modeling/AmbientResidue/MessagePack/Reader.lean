import AmbientResidue.Binary64.Shortest
import AmbientResidue.Integer
import AmbientResidue.MessagePack.Item
import AmbientResidue.Mismatch

/-!
Reading values from MessagePack items, in order. Whatever follows the value is ignored.
-/

namespace AmbientResidue.MessagePack

inductive ReadError where
  /-- The document ends inside the value. -/
  | cut
  | data (m : Mismatch)
  /-- The document has a byte that begins no item, a string that is not UTF-8 where only text will
  do, or something with contents where only a number will do. -/
  | unreadable
deriving DecidableEq, Repr

/-- The message of a data error. The others have none. -/
def ReadError.message? : ReadError → Option String
  | .data m => some (m.message "unit value")
  | _ => none

/-- A computation that reads. -/
abbrev Read := ExceptT ReadError Counted

/-- What an item is, unless it cannot be read at all. -/
def Item.found? : Item → Option Found
  | .nil => some .nothing
  | .boolean b => some (.boolean b)
  | .unsigned n => some (.integer n)
  | .signed n => some (.integer n)
  | .float x => some (.float (some x.text))
  | .text contents => (Utf8.decode? contents).map fun cs => .text (String.ofList cs)
  | .binary _ => some .bytes
  | .array _ => some .sequence
  | .map _ => some .map
  | .extension => some .extension
  | .reserved => none

/-- The error of an item that is not of the expected kind. -/
def Item.unexpected (item : Item) (expected : Expected) : ReadError :=
  match item.found? with
  | some found => .data (.kind found expected)
  | none => .unreadable

/-- An integer, encoded as one or as a decimal literal in a string. -/
def Item.readInteger (item : Item) : Read Int :=
  match item, item.found? with
  | .unsigned n, _ => Counted.sure (Integer.ofWord n)
  | .signed n, _ => Counted.sure (Integer.ofInt64 (Int64.ofInt n))
  | .text _, some (.text s) => (Integer.ofLiteral s).adapt fun e => .data (.refused e)
  | _, _ => throw (item.unexpected .integer)

/-- The integer at the head of a document. -/
def readInteger (bytes : List UInt8) : Read Int :=
  match readItem? bytes with
  | some (item, _) => item.readInteger
  | none => throw .cut

/-- An item of a sequence of bytes. -/
def Item.readByte (item : Item) : Except ReadError UInt8 :=
  match item.found? with
  | some (.integer v) =>
    if 0 ≤ v ∧ v < 256 then .ok (UInt8.ofNat v.toNat) else .error (.data (.range v .byte))
  | _ => .error (item.unexpected .byte)

/-- The byte at the head of a document, and what follows it. Whether it may be one is judged by the
first byte of the item, before the rest of the item is looked at. -/
def readByte : List UInt8 → Except ReadError (UInt8 × List UInt8)
  | [] => .error .cut
  | head :: rest =>
    if isScalar head then
      match readItem? (head :: rest) with
      | some (item, rest) => return (← item.readByte, rest)
      | none => .error .cut
    else .error .unreadable

/-- The given number of items, all of them bytes. -/
def readBytes : Nat → List UInt8 → Except ReadError (List UInt8)
  | 0, _ => .ok []
  | n + 1, bytes => do
    let (b, rest) ← readByte bytes
    return b :: (← readBytes n rest)

end AmbientResidue.MessagePack
