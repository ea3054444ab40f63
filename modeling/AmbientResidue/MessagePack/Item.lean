import AmbientResidue.Binary64
import AmbientResidue.Text.Utf8

/-!
The items of a MessagePack document by their first byte. Strings and byte strings come with their
contents; of an array, a map or an extension only the head is read, because no reader here goes
inside a map or an extension.
-/

namespace AmbientResidue.MessagePack

inductive Item where
  | nil
  | boolean (b : Bool)
  /-- An integer in one of the unsigned encodings. -/
  | unsigned (n : Nat)
  /-- An integer in one of the signed encodings. -/
  | signed (n : Int)
  | float (x : Binary64)
  /-- A string as its bytes, which need not be UTF-8. -/
  | text (contents : List UInt8)
  | binary (contents : List UInt8)
  | array (size : Nat)
  | map (size : Nat)
  | extension
  /-- The one byte that begins no item. -/
  | reserved
deriving DecidableEq, Repr

/-- The first `n` bytes and the rest, if there are that many. -/
def split? (n : Nat) (bytes : List UInt8) : Option (List UInt8 × List UInt8) :=
  if n ≤ bytes.length then some (bytes.take n, bytes.drop n) else none

/-- A big-endian number of the given width. -/
def readNat? (width : Nat) (bytes : List UInt8) : Option (Nat × List UInt8) :=
  (split? width bytes).map fun (digits, rest) => (BigEndian.value digits, rest)

/-- The number that `width` bytes denote in two's complement. -/
def signedValue (width n : Nat) : Int :=
  if n < Nat.pow 2 (8 * width - 1) then n else (n : Int) - Nat.pow 2 (8 * width)

def readUnsigned? (width : Nat) (bytes : List UInt8) : Option (Item × List UInt8) :=
  (readNat? width bytes).map fun (n, rest) => (.unsigned n, rest)

def readSigned? (width : Nat) (bytes : List UInt8) : Option (Item × List UInt8) :=
  (readNat? width bytes).map fun (n, rest) => (.signed (signedValue width n), rest)

/-- Contents of a known length. -/
def readContents? (item : List UInt8 → Item) (length : Nat) (bytes : List UInt8) :
    Option (Item × List UInt8) :=
  (split? length bytes).map fun (contents, rest) => (item contents, rest)

/-- Contents after their length. -/
def readSized? (item : List UInt8 → Item) (width : Nat) (bytes : List UInt8) :
    Option (Item × List UInt8) := do
  let (length, rest) ← readNat? width bytes
  readContents? item length rest

/-- A head that carries a number. -/
def readHead? (item : Nat → Item) (width : Nat) (bytes : List UInt8) :
    Option (Item × List UInt8) :=
  (readNat? width bytes).map fun (n, rest) => (item n, rest)

/-- Whether an item with this first byte is nil, a truth value or a number. All other items have
contents, except the reserved one. -/
def isScalar (head : UInt8) : Bool :=
  head < 0x80 || 0xe0 ≤ head || head = 0xc0 || head = 0xc2 || head = 0xc3 ||
    (0xca ≤ head && head ≤ 0xd3)

/-- The item at the head of a document, unless the document ends inside it. -/
def readItem? : List UInt8 → Option (Item × List UInt8)
  | [] => none
  | head :: rest =>
    let h := head.toNat
    if h < 0x80 then some (.unsigned h, rest)
    else if h < 0x90 then some (.map (h - 0x80), rest)
    else if h < 0xa0 then some (.array (h - 0x90), rest)
    else if h < 0xc0 then readContents? .text (h - 0xa0) rest
    else if 0xe0 ≤ h then some (.signed ((h : Int) - 0x100), rest)
    else
      match h with
      | 0xc0 => some (.nil, rest)
      | 0xc2 => some (.boolean false, rest)
      | 0xc3 => some (.boolean true, rest)
      | 0xc4 => readSized? .binary 1 rest
      | 0xc5 => readSized? .binary 2 rest
      | 0xc6 => readSized? .binary 4 rest
      | 0xc7 => readHead? (fun _ => .extension) 1 rest
      | 0xc8 => readHead? (fun _ => .extension) 2 rest
      | 0xc9 => readHead? (fun _ => .extension) 4 rest
      | 0xca => readHead? (fun n => .float (.ofWord32 n)) 4 rest
      | 0xcb => readHead? (fun n => .float (.ofWord64 n)) 8 rest
      | 0xcc => readUnsigned? 1 rest
      | 0xcd => readUnsigned? 2 rest
      | 0xce => readUnsigned? 4 rest
      | 0xcf => readUnsigned? 8 rest
      | 0xd0 => readSigned? 1 rest
      | 0xd1 => readSigned? 2 rest
      | 0xd2 => readSigned? 4 rest
      | 0xd3 => readSigned? 8 rest
      | 0xd9 => readSized? .text 1 rest
      | 0xda => readSized? .text 2 rest
      | 0xdb => readSized? .text 4 rest
      | 0xdc => readHead? .array 2 rest
      | 0xdd => readHead? .array 4 rest
      | 0xde => readHead? .map 2 rest
      | 0xdf => readHead? .map 4 rest
      | 0xc1 => some (.reserved, rest)
      | _ => some (.extension, rest)

/-! ### Writing -/

/-- A string in the shortest form that has room for its length. -/
def writeText (contents : List UInt8) : List UInt8 :=
  let n := contents.length
  (if n < 32 then [UInt8.ofNat (0xa0 + n)]
  else if n < Nat.pow 2 8 then 0xd9 :: BigEndian.fixed 1 n
  else if n < Nat.pow 2 16 then 0xda :: BigEndian.fixed 2 n
  else 0xdb :: BigEndian.fixed 4 n) ++ contents

/-- A byte string in the shortest form that has room for its length. -/
def writeBinary (contents : List UInt8) : List UInt8 :=
  let n := contents.length
  (if n < Nat.pow 2 8 then 0xc4 :: BigEndian.fixed 1 n
  else if n < Nat.pow 2 16 then 0xc5 :: BigEndian.fixed 2 n
  else 0xc6 :: BigEndian.fixed 4 n) ++ contents

end AmbientResidue.MessagePack
