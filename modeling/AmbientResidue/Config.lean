import AmbientResidue.Json.Reader
import AmbientResidue.Modulus

/-!
Documents that name the modulus to install: an object with the key `modulus`, other keys being
ignored, or an array of one entry. A document is read to its end before the modulus is judged.
-/

namespace AmbientResidue

/-- Which modulus to install into the global context. -/
structure Config where
  modulus : Int
deriving DecidableEq, Repr

inductive ConfigError where
  | document (e : Json.ReadError)
  | field (e : Refusal)
deriving DecidableEq, Repr

/-- The message, where there is one. -/
def ConfigError.message? : ConfigError → Option String
  | .document e => e.message?.map ("malformed field config: " ++ ·)
  | .field e => some e.message

namespace Config

open Json (Token Read ReadError)

/-- The key under which an object holds the modulus. -/
def key : String := "modulus"

/-- The literal of the prime `2 ^ 128 - 159`, the modulus when none is configured. -/
def defaultLiteral : String := "340282366920938463463374607431768211297"

/-- The configuration when none is given. -/
def standard : ExceptT Refusal Counted Config :=
  return ⟨← Integer.ofLiteral defaultLiteral⟩

/-- The end of the object: the modulus has to have been there. -/
def close (seen : Option Int) (rest : List Token) : Read (Int × List Token) :=
  match seen with
  | some v => return (v, rest)
  | none => throw (.data (.missingKey key))

/-- The members from a key on, `seen` being the modulus if it has been read. -/
def readMembers (seen : Option Int) : List Token → Read (Int × List Token)
  | .text pieces :: rest =>
    match Json.characters? pieces with
    | none => throw .malformed
    | some cs =>
      if String.ofList cs = key then
        if seen.isSome then throw (.data (.repeatedKey key))
        else
          match rest with
          | .colon :: t :: rest => do
            let v ← Json.readInteger t
            match rest with
            | .closeObject :: rest => close (some v) rest
            | .comma :: rest => readMembers (some v) rest
            | _ => throw .malformed
          | _ => throw .malformed
      else
        match rest with
        | .colon :: rest =>
          match _h : Json.skipValue rest with
          | some (.closeObject :: rest) => close seen rest
          | some (.comma :: rest) => readMembers seen rest
          | _ => throw .malformed
        | _ => throw .malformed
  | _ => throw .malformed
termination_by ts => ts.length
decreasing_by
  · simp
    omega
  · have := Json.length_skipValue_le _h
    simp at *
    omega

/-- The modulus that a document names, and what follows the document. -/
def readModulus : List Token → Read (Int × List Token)
  | .openObject :: .closeObject :: rest => close none rest
  | .openObject :: rest => readMembers none rest
  | .openArray :: .closeArray :: _ => throw (.data .emptySequence)
  | .openArray :: t :: rest => do
    let v ← Json.readInteger t
    match rest with
    | .closeArray :: rest => return (v, rest)
    | _ => throw .malformed
  | [.openArray] => throw .malformed
  | t :: _ => throw (t.unexpected .config)
  | [] => throw .malformed

/-- Refuses a modulus that is not positive. -/
def validate (c : Config) : Except Refusal Unit := do
  let _ ← Modulus.ofInt c.modulus

/-- The configuration that a text holds and nothing beside it. -/
def ofDocument (text : String) : Read Config := do
  let (v, rest) ← readModulus (Json.tokens text.toList)
  Counted.free (Json.finish rest)
  return ⟨v⟩

/-- Reads and validates a configuration. -/
def ofText (text : String) : ExceptT ConfigError Counted Config := do
  let c ← (ofDocument text).adapt .document
  Counted.free (c.validate.mapError .field)
  return c

/-- The document that names the modulus of a configuration. -/
def document (c : Config) : String :=
  "\x7b\"" ++ key ++ "\":\"" ++ Decimal.text c.modulus ++ "\"\x7d"

def describe (c : Config) : String :=
  "FieldConfig \x7b " ++ key ++ ": " ++ Integer.describe c.modulus ++ " \x7d"

end Config

end AmbientResidue
