import AmbientResidue.Config
import AmbientResidue.Context.Store
import AmbientResidue.Element.Arithmetic
import AmbientResidue.Wire.Frame
import AmbientResidue.Wire.Document

/-!
What a session can be told to do, what it can answer, and how it can fail. Values are passed from
one instruction to a later one by name.
-/

namespace AmbientResidue

/-- The name of a local context, or none for the global one. -/
abbrev Place := Option String

/-- Where a residue comes from. -/
inductive Source where
  | zero
  | one
  /-- Zero and one where errors cannot be reported. -/
  | zeroOrPanic
  | oneOrPanic
  | int64 (v : Int64)
  | literal (s : String)
  /-- An integer, itself read from a literal. -/
  | integer (s : String)
  | bytes (bs : List UInt8)
  | copy (a : String)
  | json (s : String)
  | messagePack (bs : List UInt8)
  /-- A byte string that a format hands over as it is. -/
  | buffer (bs : List UInt8)
  | frame (bs : List UInt8) (validate : Bool) (compression : Compression)

/-- How an operation is asked for. -/
inductive Form where
  /-- The operation that reports errors. -/
  | method
  | operator
  /-- The operator whose result replaces its left operand. -/
  | assignment
deriving DecidableEq, Repr

inductive Fold where
  | sum
  | product
deriving DecidableEq, Repr

/-- One instruction. Those that make a residue bind it to the name in `bind`, if there is one. -/
inductive Instruction where
  | newContext (name : String)
  | install (modulus : String) (place : Place)
  | current (place : Place)
  | active (place : Place)
  | hasModulus (place : Place)
  | save (name : String) (place : Place)
  | restore (snapshot : String) (place : Place)
  | openScope (name modulus : String) (place : Place)
  | closeScope (guard : String)
  | abandonLock (place : Place)
  /-- One thread for each modulus, each switching under the lock for one look. -/
  | threads (moduli : List String) (place : Place)
  | useStandard
  | installConfig (modulus : String)
  | installDocument (text : String)
  | counts
  | reset (scope : Tally.Scope)
  | make (source : Source) (bind : Option String)
  /-- A random residue from the given bytes and zeros after them. -/
  | random (bs : List UInt8) (bind : Option String)
  | unary (op : Element.Unary) (form : Form) (a : String) (bind : Option String)
  | binary (op : Element.Binary) (form : Form) (a b : String) (bind : Option String)
  | fold (op : Fold) (operands : List String) (bind : Option String)
  | same (a b : String)
  | display (a : String)
  | check (a : String)
  | write (a : String)
  | fill (a : String) (size : Nat)

/-- An instruction, or steps that are taken while holding the lock of a context. The operations of
a context never take the lock themselves. -/
inductive Step where
  | single (i : Instruction)
  | locked (place : Place) (steps : List Step)

inductive Failure where
  | fault (f : Fault)
  | json (e : Json.ReadError)
  | config (e : ConfigError)
  | messagePack (e : MessagePack.ReadError)
  | buffer (e : Refusal)
  | frame (e : FrameError)
  /-- A name that nothing is bound to. -/
  | unknownName (name : String)
deriving DecidableEq, Repr

/-- The answer of an instruction that succeeds. -/
inductive Value where
  | done
  | truth (b : Bool)
  | integer (n : Int)
  | modulus (m : Modulus)
  /-- A residue and the number of random bytes drawn for it. -/
  | drawn (n : Int) (bytes : Nat)
  | tally (t : Tally)
  /-- What each thread saw. -/
  | seen (l : List (Except Refusal Int))
  /-- Whether two residues are the same and whether their hashes are. -/
  | comparison (same sameHash : Bool)
  | shown (a : Element)
  | written (a : Element)
  | buffer (bs : List UInt8)
  /-- The steps under the lock have answers of their own. -/
  | unlocked

/-- What a step leaves for its caller to see: its answer, the global modulus and the counters after
it, its journal entries, and the replies of the steps inside it. -/
structure Reply where
  answer : Except Failure Value
  modulus : Option Modulus
  tally : Tally
  journal : List JournalEntry
  inner : List Reply

end AmbientResidue
