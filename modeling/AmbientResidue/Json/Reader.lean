import AmbientResidue.Integer
import AmbientResidue.Json.Lexer
import AmbientResidue.Mismatch

/-!
Reading tokens from left to right. The first thing that does not fit ends the reading, whatever
stands after it: a value of the wrong kind is a data error even when the rest of the document is
malformed, and the priced operations of values already read have been paid for.
-/

namespace AmbientResidue.Json

inductive ReadError where
  /-- The text is no JSON document, or holds a number beyond the floating-point range. -/
  | malformed
  | data (m : Mismatch)
deriving DecidableEq, Repr

/-- The message of a data error. Malformed text has none. -/
def ReadError.message? : ReadError → Option String
  | .malformed => none
  | .data m => some (m.message "null")

/-- A computation that reads. -/
abbrev Read := ExceptT ReadError Counted

/-- What a value that begins with the token is, unless no value begins with it. -/
def Token.found? : Token → Option Found
  | .null => some .nothing
  | .boolean b => some (.boolean b)
  | .number n =>
    match n.integer? with
    | some v => some (.integer v)
    | none => if n.overflows then none else some (.float none)
  | .text pieces => (characters? pieces).map fun cs => .text (String.ofList cs)
  | .openArray => some .sequence
  | .openObject => some .map
  | _ => none

/-- The error of a value that is not of the expected kind. -/
def Token.unexpected (t : Token) (expected : Expected) : ReadError :=
  match t.found? with
  | some found => .data (.kind found expected)
  | none => .malformed

/-- An integer, written as a number or as a decimal literal in a string. -/
def readInteger (t : Token) : Read Int :=
  match t, t.found? with
  | .number _, some (.integer v) =>
    Counted.sure (if 0 ≤ v then Integer.ofWord v.toNat else Integer.ofInt64 (Int64.ofInt v))
  | .text _, some (.text s) =>
    (Integer.ofLiteral s).adapt fun e => .data (.refused e)
  | _, _ => throw (t.unexpected .integer)

/-- An item of a sequence of bytes. -/
def readByte (t : Token) : Except ReadError UInt8 :=
  match t.found? with
  | some (.integer v) =>
    if 0 ≤ v ∧ v < 256 then .ok (UInt8.ofNat v.toNat) else .error (.data (.range v .byte))
  | _ => .error (t.unexpected .byte)

/-- The items after the first one, up to the end of the sequence. -/
def readMoreBytes : List Token → Except ReadError (List UInt8 × List Token)
  | .closeArray :: rest => .ok ([], rest)
  | .comma :: t :: rest => do
    let b ← readByte t
    let (bytes, rest) ← readMoreBytes rest
    return (b :: bytes, rest)
  | _ => .error .malformed

/-- A sequence of bytes whose opening bracket has been read. -/
def readBytes : List Token → Except ReadError (List UInt8 × List Token)
  | [] => .error .malformed
  | .closeArray :: rest => .ok ([], rest)
  | t :: rest => do
    let b ← readByte t
    let (bytes, rest) ← readMoreBytes rest
    return (b :: bytes, rest)

/-- Accepts the end of the document. -/
def finish (rest : List Token) : Except ReadError Unit :=
  if rest.isEmpty then .ok () else .error .malformed

/-! ### Values that nobody reads -/

/-- An array or object that has been opened and not yet closed. -/
inductive Frame where
  | array
  | object
deriving DecidableEq, Repr

/-- What comes next inside a skipped value. -/
inductive Next where
  | value
  | key
  /-- The end of the enclosing frame, or a comma. -/
  | separator
deriving DecidableEq, Repr

/-- Skips a value inside the open frames, to any depth, and returns what follows the outermost. -/
def skip : Next → List Frame → List Token → Option (List Token)
  | .separator, [], rest => some rest
  | .separator, .array :: frames, .closeArray :: rest => skip .separator frames rest
  | .separator, .array :: frames, .comma :: rest => skip .value (.array :: frames) rest
  | .separator, .object :: frames, .closeObject :: rest => skip .separator frames rest
  | .separator, .object :: frames, .comma :: rest => skip .key (.object :: frames) rest
  | .key, frames, .text pieces :: .colon :: rest =>
    if isSkippable pieces then skip .value frames rest else none
  | .value, frames, .null :: rest => skip .separator frames rest
  | .value, frames, .boolean _ :: rest => skip .separator frames rest
  | .value, frames, .number _ :: rest => skip .separator frames rest
  | .value, frames, .text pieces :: rest =>
    if isSkippable pieces then skip .separator frames rest else none
  | .value, frames, .openArray :: .closeArray :: rest => skip .separator frames rest
  | .value, frames, .openArray :: rest => skip .value (.array :: frames) rest
  | .value, frames, .openObject :: .closeObject :: rest => skip .separator frames rest
  | .value, frames, .openObject :: rest => skip .key (.object :: frames) rest
  | _, _, _ => none

/-- Skipping one value. -/
def skipValue (ts : List Token) : Option (List Token) := skip .value [] ts

theorem length_skip_le {next : Next} {frames : List Frame} {ts rest : List Token}
    (h : skip next frames ts = some rest) : rest.length ≤ ts.length := by
  fun_induction skip next frames ts <;> grind

theorem length_skipValue_le {ts rest : List Token} (h : skipValue ts = some rest) :
    rest.length ≤ ts.length :=
  length_skip_le h

end AmbientResidue.Json
