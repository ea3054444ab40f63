import AmbientResidue.Element.Sampling
import AmbientResidue.Session.Instruction
import AmbientResidue.Session.Names

/-!
Sessions and the actions they are made of. A session holds the contexts, the counters and everything
that has a name. An action answers or fails, and leaves a session either way: what it did before
failing stays done. Only the counted build raises counters.
-/

namespace AmbientResidue

structure Session where
  store : Store
  tally : Tally
  elements : Names Element
  snapshots : Names Snapshot
  guards : Names Guard
  contexts : Names ContextId

namespace Session

/-- Nothing installed, nothing counted, nothing named. -/
def initial : Session where
  store := .initial
  tally := 0
  elements := .empty
  snapshots := .empty
  guards := .empty
  contexts := .empty

/-- What operations on residues look at. -/
def ambient (s : Session) (build : Build) : Ambient := ⟨build, s.store.active .global⟩

/-- Raises the counters where they are kept. -/
def charge (s : Session) (build : Build) (cost : Tally) : Session :=
  if build.counts then { s with tally := s.tally + cost } else s

end Session

abbrev Action := EStateM Failure Session

namespace Action

def fail (e : Failure) : Action α := fun s => .error e s

/-- An error that is reported as it is. -/
def refusal (e : Refusal) : Failure := .fault (.error e)

/-- A computation at its price. -/
def pay (build : Build) (blame : ε → Failure) (x : ExceptT ε Counted α) : Action α := fun s =>
  match x.run.value with
  | .ok a => .ok a (s.charge build x.run.cost)
  | .error e => .error (blame e) (s.charge build x.run.cost)

/-- A computation that looks at the global modulus. -/
def compute (build : Build) (blame : ε → Failure) (f : Ambient → ExceptT ε Counted α) :
    Action α :=
  fun s => pay build blame (f (s.ambient build)) s

/-- An operation on contexts. -/
def onStore (f : Store.Operation α) : Action α := fun s =>
  match f s.store with
  | .ok a store => .ok a { s with store }
  | .error e store => .error (refusal e) { s with store }

/-- What a name is bound to. -/
def lookUp (names : Session → Names α) (name : String) : Action α := fun s =>
  match (names s).find? name with
  | some a => .ok a s
  | none => .error (.unknownName name) s

def element (name : String) : Action Element := lookUp Session.elements name

/-- The context at a place. -/
def context : Place → Action ContextId
  | none => return .global
  | some name => lookUp Session.contexts name

/-- Reads a literal. -/
def literal (build : Build) (s : String) : Action Int := pay build refusal (Integer.ofLiteral s)

/-- Reads literals up to the first bad one. -/
def literals (build : Build) (l : List String) : Action (List Int) := l.mapM (literal build)

/-- Binds a residue if a name is given for it. -/
def bindElement (name : Option String) (a : Element) : Action Unit :=
  match name with
  | some name => modify fun s => { s with elements := s.elements.bind name a }
  | none => return ()

/-- Closes a scope. -/
def close (guard : Guard) : Action Unit :=
  modify fun s => { s with store := s.store.closeScope guard }

@[simp] theorem run_fail (e : Failure) (s : Session) :
    (fail e : Action α).run s = .error e s := rfl

theorem run_pay (build : Build) (blame : ε → Failure) (x : ExceptT ε Counted α) (s : Session) :
    (pay build blame x).run s =
      match x.run.value with
      | .ok a => .ok a (s.charge build x.run.cost)
      | .error e => .error (blame e) (s.charge build x.run.cost) := rfl

theorem run_compute (build : Build) (blame : ε → Failure) (f : Ambient → ExceptT ε Counted α)
    (s : Session) :
    (compute build blame f).run s = (pay build blame (f (s.ambient build))).run s := rfl

theorem run_onStore (f : Store.Operation α) (s : Session) :
    (onStore f).run s =
      match f.run s.store with
      | .ok a store => .ok a { s with store }
      | .error e store => .error (refusal e) { s with store } := rfl

theorem run_lookUp (names : Session → Names α) (name : String) (s : Session) :
    (lookUp names name).run s =
      match (names s).find? name with
      | some a => .ok a s
      | none => .error (.unknownName name) s := rfl

end Action

end AmbientResidue
