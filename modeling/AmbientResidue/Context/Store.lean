import AmbientResidue.Context.Journal
import AmbientResidue.Modulus

/-!
Contexts and the operations on them. A context starts without a modulus; installing, restoring,
opening a scope and closing one replace its modulus, and nothing takes it away. Snapshots and guards
remember the context they were taken from and stay good however the modulus changes meanwhile.
An operation that is refused leaves every modulus as it was; it may still write the journal.
-/

namespace AmbientResidue

/-- The modulus that was active in a context at some moment. -/
structure Snapshot where
  context : ContextId
  modulus : Modulus
deriving DecidableEq, Repr

/-- An open scope: the context it switched, and what was active there before, if anything was. -/
structure Guard where
  context : ContextId
  previous : Option Snapshot
deriving DecidableEq, Repr

/-- The active modulus of every context, the snapshot of the default modulus once it has been
installed, and the journal in order of writing. -/
structure Store where
  /-- How many contexts have been made beside the global one. -/
  made : Nat
  active : ContextId → Option Modulus
  standard : Option Snapshot
  journal : List JournalEntry

/-- What the operations on contexts are: they answer or are refused, and leave a store either way. -/
abbrev Store.Operation := EStateM Refusal Store

namespace Store

/-- The global context only, without a modulus. -/
def initial : Store where
  made := 0
  active _ := none
  standard := none
  journal := []

/-- Adds an entry to the journal. -/
def note (s : Store) (c : ContextId) (e : Event) : Store :=
  { s with journal := s.journal ++ [⟨c, e⟩] }

/-- Makes `m` the active modulus of `c`. -/
def write (s : Store) (c : ContextId) (m : Modulus) : Store :=
  { s with active := fun d => if d = c then some m else s.active d }

/-- A fresh context without a modulus. -/
def newContext (s : Store) : ContextId × Store :=
  (⟨s.made + 1⟩, { s with made := s.made + 1 })

@[simp] theorem active_note (s : Store) (c : ContextId) (e : Event) :
    (s.note c e).active = s.active := rfl

@[simp] theorem journal_note (s : Store) (c : ContextId) (e : Event) :
    (s.note c e).journal = s.journal ++ [⟨c, e⟩] := rfl

@[simp] theorem active_write (s : Store) (c d : ContextId) (m : Modulus) :
    (s.write c m).active d = if d = c then some m else s.active d := rfl

@[simp] theorem journal_write (s : Store) (c : ContextId) (m : Modulus) :
    (s.write c m).journal = s.journal := rfl

@[simp] theorem active_newContext (s : Store) : s.newContext.2.active = s.active := rfl

/-- The active modulus of a context. -/
def modulus (c : ContextId) : Operation Modulus := fun s =>
  match s.active c with
  | some m => .ok m s
  | none => .error .uninitialized s

/-- Replaces the active modulus. -/
def install (c : ContextId) (value : Int) : Operation Unit := fun s =>
  let s := s.note c (.installCalled (Integer.bits value))
  match Modulus.ofInt value with
  | .ok m => .ok () ((s.write c m).note c .installed)
  | .error e => .error e s

/-- Captures the active modulus. -/
def save (c : ContextId) : Operation Snapshot := fun s =>
  match s.active c with
  | some m => .ok ⟨c, m⟩ (s.note c (.saved m.bits))
  | none => .error .uninitialized s

/-- Makes the modulus of a snapshot active again in the context it was taken from. -/
def restore (c : ContextId) (snapshot : Snapshot) : Operation Unit := fun s =>
  let s := s.note c .restoreCalled
  if snapshot.context = c then
    .ok () ((s.note c (.restored snapshot.modulus.bits)).write c snapshot.modulus)
  else
    .error .foreignSnapshot (s.note c .foreignSnapshot)

/-- Captures the active modulus if there is one. -/
def saveIfActive (c : ContextId) : Operation (Option Snapshot) := fun s =>
  match save c s with
  | .ok snapshot s => .ok (some snapshot) s
  | .error _ s => .ok none s

/-- Replaces the active modulus until the guard is closed. -/
def openScope (c : ContextId) (value : Int) : Operation Guard := fun s =>
  let s := s.note c (.scopeCalled (Integer.bits value))
  match Modulus.ofInt value with
  | .ok m =>
    match saveIfActive c s with
    | .ok previous s => .ok ⟨c, previous⟩ (s.write c m)
    | .error e s => .error e s
  | .error e => .error e s

/-- Puts back what was active when the scope was opened. Where nothing was, the active modulus
stays. -/
def closeScope (guard : Guard) (s : Store) : Store :=
  match guard.previous with
  | some snapshot =>
    (s.note guard.context (.scopeClosed snapshot.modulus.bits)).write guard.context snapshot.modulus
  | none => s

theorem active_closeScope (guard : Guard) (s : Store) (c : ContextId) :
    (s.closeScope guard).active c =
      match guard.previous with
      | some snapshot => if c = guard.context then some snapshot.modulus else s.active c
      | none => s.active c := by
  unfold closeScope
  split <;> simp

/-- A switch for the length of one look at the active modulus. It ends with the first refusal. -/
def peek (c : ContextId) (value : Int) : Operation Int := do
  let snapshot ← save c
  install c value
  let seen ← modulus c
  restore c snapshot
  return seen.value

/-- One look after another, each from where the last one left the context, and what each saw. -/
def peekEach (c : ContextId) : List Int → Store → List (Except Refusal Int) × Store
  | [], s => ([], s)
  | value :: rest, s =>
    let (seen, s) : Except Refusal Int × Store :=
      match peek c value s with
      | .ok seen s => (.ok seen, s)
      | .error e s => (.error e, s)
    let (more, s) := peekEach c rest s
    (seen :: more, s)

end Store

end AmbientResidue
