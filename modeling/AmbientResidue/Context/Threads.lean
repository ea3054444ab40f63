import AmbientResidue.Context.Store

/-!
Threads that take turns at switching the modulus of one context. A thread holds the lock of the
context for a whole section: it saves the modulus, installs one of its own, looks at it and restores
what it saved. Between any two calls of a thread the others may make calls of theirs; only the lock
keeps them waiting.
-/

namespace AmbientResidue.Threads

/-- A way to look at the active modulus. -/
inductive Look where
  | value
  | text
deriving DecidableEq, Repr

/-- What a thread does from locking the context to unlocking it. -/
structure Section where
  modulus : Int
  looks : List Look
deriving DecidableEq, Repr

inductive Call where
  | lock
  | save
  | install (value : Int)
  | look (how : Look)
  /-- Restores what the thread saved last. -/
  | restore
  | unlock
deriving DecidableEq, Repr

inductive Answer where
  | done
  | integer (n : Int)
  | text (s : String)
  | refused (e : Refusal)
  /-- There is no snapshot to restore. -/
  | unsaved
deriving DecidableEq, Repr

/-- The calls of a section in their order. -/
def Section.calls (s : Section) : List Call :=
  .lock :: .save :: .install s.modulus :: (s.looks.map .look ++ [.restore, .unlock])

/-- What a look at an active modulus of this value answers. -/
def Look.answer (value : Int) : Look → Answer
  | .value => .integer value
  | .text => .text (Decimal.text value)

/-- A thread: the calls it still has to make, the snapshot it took last, and its answers so far. -/
structure Thread where
  calls : List Call
  snapshot : Option Snapshot
  answers : List Answer

/-- A thread that has not made any call yet. -/
def Thread.ready (sections : List Section) : Thread where
  calls := sections.flatMap Section.calls
  snapshot := none
  answers := []

/-- The thread after its first call. -/
def Thread.answered (t : Thread) (a : Answer) : Thread :=
  { t with calls := t.calls.tail, answers := t.answers ++ [a] }

/-- Threads that share a store. At most one of them holds the lock. -/
structure Crowd (ι : Type) where
  store : Store
  holder : Option ι
  threads : ι → Thread

namespace Crowd

variable {ι : Type} [DecidableEq ι]

/-- The crowd with one thread and the store replaced. -/
def settle (x : Crowd ι) (i : ι) (t : Thread) (store : Store) : Crowd ι :=
  { x with store, threads := fun j => if j = i then t else x.threads j }

/-- The crowd after a call on the context has ended. -/
def conclude (x : Crowd ι) (i : ι) (answer : α → Answer) (result : EStateM.Result Refusal Store α) :
    Crowd ι :=
  match result with
  | .ok a store => x.settle i ((x.threads i).answered (answer a)) store
  | .error e store => x.settle i ((x.threads i).answered (.refused e)) store

/-- A thread makes its next call. It stays where it is if it has none, or waits for the lock. -/
def turn (c : ContextId) (x : Crowd ι) (i : ι) : Crowd ι :=
  let t := x.threads i
  match t.calls.head? with
  | none => x
  | some .lock =>
    match x.holder with
    | some _ => x
    | none => { x.settle i (t.answered .done) x.store with holder := some i }
  | some .save =>
    match Store.save c x.store with
    | .ok p store => x.settle i { t.answered .done with snapshot := some p } store
    | .error e store => x.settle i (t.answered (.refused e)) store
  | some (.install value) => x.conclude i (fun _ => .done) (Store.install c value x.store)
  | some (.look how) =>
    x.conclude i (fun m : Modulus => how.answer m.value) (Store.modulus c x.store)
  | some .restore =>
    match t.snapshot with
    | some p => x.conclude i (fun _ => .done) (Store.restore c p x.store)
    | none => x.settle i (t.answered .unsaved) x.store
  | some .unlock => { x.settle i (t.answered .done) x.store with holder := none }

/-- The threads make calls in the order of the schedule. -/
def run (c : ContextId) (x : Crowd ι) (schedule : List ι) : Crowd ι := schedule.foldl (turn c) x

/-- All threads at their beginnings. -/
def start (store : Store) (sections : ι → List Section) : Crowd ι where
  store
  holder := none
  threads i := .ready (sections i)

end Crowd

end AmbientResidue.Threads
