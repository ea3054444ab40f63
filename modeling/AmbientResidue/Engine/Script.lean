import AmbientResidue.Engine.Trace

/-!
Scripts that feed an engine its own results: every step fills one register, and calls name their
arguments by register.
-/

namespace AmbientResidue.Engine

inductive Step where
  | call (c : Call Nat)
  /-- All the questions about one register. -/
  | survey (register : Nat)
  | reset (scope : Tally.Scope)

structure Survey where
  bytes : List UInt8
  bitLength : Nat
  byteLength : Nat
  isZero : Bool
  isNegative : Bool

/-- What one step leaves: the integer it made, if any, the survey it was asked for, and the
counters. -/
structure Outcome (α : Type) where
  made : Option α
  survey : Option Survey
  tally : Tally

def surveyOf (e : Engine α) (a : α) : Counted Survey := do
  return {
    bytes := ← e.bytes a
    bitLength := ← e.bitLength a
    byteLength := ← e.byteLength a
    isZero := ← e.isZero a
    isNegative := ← e.isNegative a }

def Answer.integer? : Answer α → Option α
  | .integer a => some a
  | _ => none

/-- One step over the registers filled so far. A step that names an empty register makes nothing. -/
def Step.run (e : Engine α) (registers : List (Option α)) (t : Tally) : Step → Outcome α
  | .call c =>
    match c.mapM? fun i => registers[i]?.join with
    | some c =>
      { made := (e.answer c).value.integer?, survey := none, tally := (Event.call e c).advance t }
    | none => { made := none, survey := none, tally := t }
  | .survey register =>
    match registers[register]?.join with
    | some a =>
      let survey := e.surveyOf a
      { made := none, survey := some survey.value, tally := t + survey.cost }
    | none => { made := none, survey := none, tally := t }
  | .reset scope => { made := none, survey := none, tally := (Event.reset scope).advance t }

def runFrom (e : Engine α) (registers : List (Option α)) (t : Tally) :
    List Step → List (Outcome α)
  | [] => []
  | step :: rest =>
    let outcome := step.run e registers t
    outcome :: runFrom e (registers ++ [outcome.made]) outcome.tally rest

/-- Runs a script from empty registers and cleared counters, on the engine or on the tracked one
around it. -/
def run (e : Engine α) (tracked : Bool) (script : List Step) : List (Outcome α) :=
  (if tracked then e.tracked else e).runFrom [] 0 script

end AmbientResidue.Engine
