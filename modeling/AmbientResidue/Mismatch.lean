import AmbientResidue.Error

/-!
Documents that are well formed but hold the wrong thing: what was found, what was expected, and the
message that says so.
-/

namespace AmbientResidue

/-- What a document holds at some place. -/
inductive Found where
  | nothing
  | boolean (b : Bool)
  | integer (n : Int)
  /-- A number with a fraction, an exponent or too many digits, with its digits where the format
  reports them. -/
  | float (digits : Option String)
  | text (s : String)
  | bytes
  | sequence
  | map
  | extension
deriving DecidableEq, Repr

/-- What a reader looks for. -/
inductive Expected where
  | integer
  | element
  | byte
  | config
deriving DecidableEq, Repr

inductive Mismatch where
  | kind (found : Found) (expected : Expected)
  /-- An integer outside the range of the expected kind. -/
  | range (n : Int) (expected : Expected)
  | missingKey (key : String)
  | repeatedKey (key : String)
  /-- A sequence that ends before the one entry it must have. -/
  | emptySequence
  /-- The value has the right form but is refused. -/
  | refused (e : Refusal)
deriving DecidableEq, Repr

/-- `nothing` is the format's word for an absent value. -/
def Found.describe (nothing : String) : Found → String
  | .nothing => nothing
  | .boolean b => "boolean \x60" ++ (if b then "true" else "false") ++ "\x60"
  | .integer n => "integer \x60" ++ Decimal.text n ++ "\x60"
  | .float none => "floating point"
  | .float (some digits) => "floating point \x60" ++ digits ++ "\x60"
  | .text s => "string " ++ Text.quote s
  | .bytes => "byte array"
  | .sequence => "sequence"
  | .map => "map"
  | .extension => "newtype struct"

def Expected.describe : Expected → String
  | .integer => "a decimal integer string"
  | .element => "big-endian bytes of a field element"
  | .byte => "u8"
  | .config => "struct FieldConfig"

def Mismatch.message (nothing : String) : Mismatch → String
  | .kind found expected =>
    "invalid type: " ++ found.describe nothing ++ ", expected " ++ expected.describe
  | .range n expected =>
    "invalid value: integer \x60" ++ Decimal.text n ++ "\x60, expected " ++ expected.describe
  | .missingKey key => "missing field \x60" ++ key ++ "\x60"
  | .repeatedKey key => "duplicate field \x60" ++ key ++ "\x60"
  | .emptySequence =>
    "invalid length 0, expected " ++ Expected.config.describe ++ " with 1 element"
  | .refused e => e.message

end AmbientResidue
