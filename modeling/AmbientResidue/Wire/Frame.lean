import AmbientResidue.Element

/-!
Residues as length-prefixed bytes: the number of payload bytes in eight little-endian bytes, then
the payload. Reading looks at the length before it looks for a modulus, and makes room for a payload
of that length before it looks at the payload; a validating reader refuses a payload that is not
below the modulus, the other kind reduces it.
-/

namespace AmbientResidue

inductive FrameError where
  /-- The bytes end too early, or the buffer is too small. -/
  | short
  /-- No modulus is active, or the payload is not below it. -/
  | invalid
  /-- The announced length is beyond what memory can address, which stops the caller. -/
  | overflow
deriving DecidableEq, Repr

/-- The message of the error that stops the caller. The others have none. -/
def FrameError.message? : FrameError → Option String
  | .overflow => some "capacity overflow"
  | _ => none

namespace Frame

/-- No payload has this many bytes: lengths in memory are signed words. -/
def capacity : Nat := Nat.pow 2 63

def encode (payload : List UInt8) : List UInt8 :=
  (BigEndian.fixed 8 payload.length).reverse ++ payload

/-- The payload in front and what follows it. -/
def decode (bytes : List UInt8) : Except FrameError (List UInt8 × List UInt8) :=
  let length := BigEndian.value (bytes.take 8).reverse
  let rest := bytes.drop 8
  if bytes.length < 8 then .error .short
  else if capacity ≤ length then .error .overflow
  else if rest.length < length then .error .short
  else .ok (rest.take length, rest.drop length)

/-- Writes into a buffer of `size` zero bytes, if it is large enough. -/
def fill? (size : Nat) (frame : List UInt8) : Option (List UInt8) :=
  if frame.length ≤ size then some (frame ++ List.replicate (size - frame.length) 0) else none

end Frame

/-- Writers and readers may be asked for a compressed form. Residues have only one. -/
inductive Compression where
  | compressed
  | uncompressed
deriving DecidableEq, Repr

namespace Element

def frame (a : Element) (_ : Compression) : List UInt8 := Frame.encode a.bytes

/-- The number of bytes of the frame. -/
def frameSize (a : Element) (_ : Compression) : Nat := 8 + a.bytes.length

/-- Whether the representative is one under the active modulus. -/
def check (env : Ambient) (a : Element) : Except FrameError Unit :=
  match env.active with
  | some m => if m.contains a.representative then .ok () else .error .invalid
  | none => .error .invalid

/-- The residue of the frame in front, and what follows it. -/
def ofFrame (env : Ambient) (_ : Compression) (validate : Bool) (bytes : List UInt8) :
    ExceptT FrameError Counted (Element × List UInt8) :=
  match Frame.decode bytes with
  | .error e => throw e
  | .ok (payload, rest) =>
    match env.active with
    | none => throw .invalid
    | some m => do
      let v ← Counted.sure (Integer.ofBytes payload)
      if validate && !m.contains v then throw .invalid
      else return (env.residue m (← Counted.sure (m.reduce v)), rest)

end Element

end AmbientResidue
