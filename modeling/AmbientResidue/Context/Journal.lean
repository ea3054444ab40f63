import AmbientResidue.Decimal

/-!
The journal of modulus switches: what happened in which context, and the line that is printed for
it. A span marks the start of a call, whether or not the call succeeds.
-/

namespace AmbientResidue

/-- A holder of an active modulus. -/
structure ContextId where
  index : Nat
deriving DecidableEq, Repr

/-- The context that residues look at. -/
def ContextId.global : ContextId := ⟨0⟩

inductive Event where
  | installCalled (bits : Nat)
  | installed
  | saved (bits : Nat)
  | restoreCalled
  | restored (bits : Nat)
  | foreignSnapshot
  | scopeCalled (bits : Nat)
  | scopeClosed (bits : Nat)
deriving DecidableEq, Repr

structure JournalEntry where
  context : ContextId
  event : Event
deriving DecidableEq, Repr

def Event.line : Event → String
  | .installCalled bits => "INFO span install bits=" ++ Decimal.text bits
  | .installed => "DEBUG event installed modulus"
  | .saved bits => "DEBUG event saved modulus bits=" ++ Decimal.text bits
  | .restoreCalled => "INFO span restore"
  | .restored bits => "DEBUG event restored modulus bits=" ++ Decimal.text bits
  | .foreignSnapshot => "WARN event rejecting snapshot taken from another context"
  | .scopeCalled bits => "INFO span with_modulus bits=" ++ Decimal.text bits
  | .scopeClosed bits => "DEBUG event restoring modulus on guard drop bits=" ++ Decimal.text bits

end AmbientResidue
