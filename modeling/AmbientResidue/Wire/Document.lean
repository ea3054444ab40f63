import AmbientResidue.Element
import AmbientResidue.Json.Reader
import AmbientResidue.MessagePack.Reader

/-!
Residues and integers in JSON and MessagePack. A residue is the byte string of its representative:
in JSON a sequence of small integers, or a string that is read as its bytes; in MessagePack a byte
string, or a sequence. An integer is its decimal literal. Items are all read before the bytes are
given a value, so a bad item is reported whether or not a modulus is active.
-/

namespace AmbientResidue

open Counted (free)

namespace Integer

/-- The JSON string of the decimal literal. -/
def json (a : Int) : String := "\"" ++ Decimal.text a ++ "\""

/-- The MessagePack string of the decimal literal. -/
def messagePack (a : Int) : List UInt8 :=
  MessagePack.writeText (Utf8.encode (Decimal.print a))

/-- The integer that a JSON text holds and nothing beside it. -/
def ofJson (text : String) : Json.Read Int :=
  match Json.tokens text.toList with
  | t :: rest => do
    let v ← Json.readInteger t
    free (Json.finish rest)
    return v
  | [] => throw .malformed

/-- The integer at the head of a MessagePack document. -/
def ofMessagePack (bytes : List UInt8) : MessagePack.Read Int := MessagePack.readInteger bytes

end Integer

namespace Element

/-- The bytes as a JSON sequence of integers. -/
def json (a : Element) : String :=
  "[" ++ ",".intercalate (a.bytes.map fun b => Decimal.text b.toNat) ++ "]"

/-- The bytes as a MessagePack byte string. -/
def messagePack (a : Element) : List UInt8 := MessagePack.writeBinary a.bytes

/-- The residue of bytes found in a JSON document. -/
def ofJsonBytes (env : Ambient) (bytes : List UInt8) : Json.Read Element :=
  (ofBytes env bytes).adapt fun e => .data (.refused e)

/-- The residue that a JSON text begins with, and the tokens that follow. -/
def readJson (env : Ambient) : List Json.Token → Json.Read (Element × List Json.Token)
  | [] => throw .malformed
  | .text pieces :: rest => return (← ofJsonBytes env (Json.bytes pieces), rest)
  | .openArray :: rest => do
    let (bytes, rest) ← free (Json.readBytes rest)
    return (← ofJsonBytes env bytes, rest)
  | t :: _ => throw (t.unexpected .element)

/-- The residue that a JSON text holds and nothing beside it. -/
def ofJson (env : Ambient) (text : String) : Json.Read Element := do
  let (a, rest) ← readJson env (Json.tokens text.toList)
  free (Json.finish rest)
  return a

/-- The residue of bytes found in a MessagePack document. -/
def ofMessagePackBytes (env : Ambient) (bytes : List UInt8) : MessagePack.Read Element :=
  (ofBytes env bytes).adapt fun e => .data (.refused e)

/-- The residue at the head of a MessagePack document. A string that is not UTF-8 passes for its
bytes. -/
def ofMessagePack (env : Ambient) (document : List UInt8) : MessagePack.Read Element :=
  match MessagePack.readItem? document with
  | none => throw .cut
  | some (.binary contents, _) => ofMessagePackBytes env contents
  | some (.array size, rest) => do
    ofMessagePackBytes env (← free (MessagePack.readBytes size rest))
  | some (.text contents, _) =>
    if (Utf8.decode? contents).isSome then throw ((MessagePack.Item.text contents).unexpected .element)
    else (ofBytes env contents).adapt fun _ => .unreadable
  | some (item, _) => throw (item.unexpected .element)

end Element

end AmbientResidue
