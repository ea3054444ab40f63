import AmbientResidue.Engine

/-!
What happens to the counters of a process along a sequence of calls, of any engines, and resets. A
call adds its price, a reset clears its group; nothing else touches the counters.
-/

namespace AmbientResidue.Engine

inductive Event where
  | call {α : Type} (e : Engine α) (c : Call α)
  | reset (scope : Tally.Scope)

/-- The counters after an event. -/
def Event.advance (t : Tally) : Event → Tally
  | .call e c => t + (e.answer c).cost
  | .reset scope => t.reset scope

/-- The counters after all that has happened. -/
def tallyAfter (t : Tally) (log : List Event) : Tally := log.foldl Event.advance t

end AmbientResidue.Engine
