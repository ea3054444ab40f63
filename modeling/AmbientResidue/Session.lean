import AmbientResidue.Session.Perform

/-!
Runs of sessions: steps are taken from left to right, each from the session that the one before it
left, whether or not that one failed.
-/

namespace AmbientResidue

namespace Session

/-- What the caller sees of an answer, given the sessions before and after. -/
def reply (before after : Session) (answer : Except Failure Value) : Reply where
  answer
  modulus := after.store.active .global
  tally := after.tally
  journal := after.store.journal.drop before.store.journal.length
  inner := []

mutual

/-- Takes a step. The journal of a locked step is that of the steps inside it. -/
def step (build : Build) (s : Session) : Step → Reply × Session
  | .single i =>
    match (Action.perform build i).run s with
    | .ok v after => (s.reply after (.ok v), after)
    | .error e after => (s.reply after (.error e), after)
  | .locked place steps =>
    match (Action.context place).run s with
    | .ok _ entered =>
      let (inner, after) := run build entered steps
      ({ after.reply after (.ok .unlocked) with inner }, after)
    | .error e after => (s.reply after (.error e), after)

/-- Takes steps one after another. -/
def run (build : Build) (s : Session) : List Step → List Reply × Session
  | [] => ([], s)
  | first :: rest =>
    let (reply, s) := step build s first
    let (replies, s) := run build s rest
    (reply :: replies, s)

end

/-- The replies to steps taken from the initial session. -/
def replies (build : Build) (steps : List Step) : List Reply := (run build initial steps).1

end Session

end AmbientResidue
