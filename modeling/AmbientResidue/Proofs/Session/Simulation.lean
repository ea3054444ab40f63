import AmbientResidue.Proofs.Context.Simulation
import AmbientResidue.Proofs.Session.History

/-! # Sessions side by side

Two sessions with the same contexts answer an instruction alike if they agree on the residues,
snapshots and guards that it uses. Counters and the journal are left out of answers and replies. -/

namespace AmbientResidue

/-- A name for a value that instructions pass on. -/
inductive Ref where
  | element (name : String)
  | snapshot (name : String)
  | guard (name : String)
deriving DecidableEq, Repr

namespace Instruction

/-- The values that an instruction looks up. Opening a scope drops the guard that had the name. -/
def uses : Instruction → List Ref
  | .restore name _ => [.snapshot name]
  | .openScope name _ _ | .closeScope name => [.guard name]
  | .make (.copy a) _ | .unary _ _ a _ | .display a | .check a | .write a | .fill a _ => [.element a]
  | .binary _ _ a b _ | .same a b => [.element a, .element b]
  | .fold _ names _ => names.map .element
  | _ => []

/-- The names that an instruction binds or unbinds. -/
def assigns : Instruction → List Ref
  | .save name _ => [.snapshot name]
  | .openScope name _ _ | .closeScope name => [.guard name]
  | .make _ bind | .random _ bind | .fold _ _ bind => bind.toList.map .element
  | .unary _ form a bind | .binary _ form a _ bind => (Action.target form a bind).toList.map .element
  | _ => []

end Instruction

/-- The answer with the counters left out. -/
def Value.visible : Value → Value
  | .tally _ => .tally 0
  | v => v

mutual

/-- The reply with the counters and the journal left out. -/
def Reply.visible : Reply → Reply
  | ⟨answer, modulus, _, _, inner⟩ => ⟨answer.map Value.visible, modulus, 0, [], visibleAll inner⟩

def visibleAll : List Reply → List Reply
  | [] => []
  | r :: rest => r.visible :: visibleAll rest

end

namespace Session

/-- The same contexts, and the same values under the names in `N`. -/
structure Alike (N : Ref → Prop) (s t : Session) : Prop where
  made : s.store.made = t.store.made
  active : s.store.active = t.store.active
  left : Ready s.store.standard
  right : Ready t.store.standard
  contexts : s.contexts = t.contexts
  elements : ∀ name, N (.element name) → s.elements.find? name = t.elements.find? name
  snapshots : ∀ name, N (.snapshot name) → s.snapshots.find? name = t.snapshots.find? name
  guards : ∀ name, N (.guard name) → s.guards.find? name = t.guards.find? name

namespace Alike

variable {N : Ref → Prop} {s t : Session}

theorem store (h : Alike N s t) :
    Store.Alike s.store.standard t.store.standard s.store t.store :=
  ⟨h.made, h.active, rfl, rfl⟩

theorem withStore (h : Alike N s t) {p q : Store}
    (k : Store.Alike s.store.standard t.store.standard p q) :
    Alike N { s with store := p } { t with store := q } :=
  { h with made := k.made, active := k.active, left := k.left ▸ h.left, right := k.right ▸ h.right }

theorem ambient (h : Alike N s t) (build : Build) : s.ambient build = t.ambient build := by
  rw [Session.ambient, Session.ambient, h.active]

theorem charge (h : Alike N s t) (build : Build) (cost : Tally) :
    Alike N (s.charge build cost) (t.charge build cost) := by
  unfold Session.charge
  split
  · exact { h with }
  · exact h

theorem naming (h : Alike N s t) (name : Option String) (a : Element) :
    Alike N (s.naming name a) (t.naming name a) := by
  cases name with
  | none => exact h
  | some name =>
    refine { h with elements := fun other hn => ?_ }
    simp only [Session.naming, Names.find?_bind, h.elements other hn]

theorem snapshots_bind (h : Alike N s t) (name : String) (snapshot : Snapshot) :
    Alike N { s with snapshots := s.snapshots.bind name snapshot }
      { t with snapshots := t.snapshots.bind name snapshot } := by
  refine { h with snapshots := fun other hn => ?_ }
  simp only [Names.find?_bind, h.snapshots other hn]

theorem guards_bind (h : Alike N s t) (name : String) (guard : Guard) :
    Alike N { s with guards := s.guards.bind name guard }
      { t with guards := t.guards.bind name guard } := by
  refine { h with guards := fun other hn => ?_ }
  simp only [Names.find?_bind, h.guards other hn]

theorem guards_erase (h : Alike N s t) (name : String) :
    Alike N { s with guards := s.guards.erase name } { t with guards := t.guards.erase name } := by
  refine { h with guards := fun other hn => ?_ }
  simp only [Names.find?_erase, h.guards other hn]

theorem newContext (h : Alike N s t) (name : String) :
    Alike N
      { s with
        store := s.store.newContext.2
        contexts := s.contexts.bind name s.store.newContext.1 }
      { t with
        store := t.store.newContext.2
        contexts := t.contexts.bind name t.store.newContext.1 } := by
  refine { h with made := congrArg (· + 1) h.made, contexts := ?_ }
  simp only [Store.newContext, h.made, h.contexts]

theorem switch (h : Alike N s t) (c : ContextId) (m : Modulus) :
    Alike N (s.switch c m) (t.switch c m) := h.withStore (h.store.write c m)

theorem symm (h : Alike N s t) : Alike N t s where
  made := h.made.symm
  active := h.active.symm
  left := h.right
  right := h.left
  contexts := h.contexts.symm
  elements name hn := (h.elements name hn).symm
  snapshots name hn := (h.snapshots name hn).symm
  guards name hn := (h.guards name hn).symm

theorem trans {u : Session} (h : Alike N s t) (k : Alike N t u) : Alike N s u where
  made := h.made.trans k.made
  active := h.active.trans k.active
  left := h.left
  right := k.right
  contexts := h.contexts.trans k.contexts
  elements name hn := (h.elements name hn).trans (k.elements name hn)
  snapshots name hn := (h.snapshots name hn).trans (k.snapshots name hn)
  guards name hn := (h.guards name hn).trans (k.guards name hn)

theorem of_kept (k : Kept s t) (ready : Ready s.store.standard) : Alike N s t where
  made := k.store.made.symm
  active := k.store.active.symm
  left := ready
  right := k.store.standard ▸ ready
  contexts := k.contexts.symm
  elements _ _ := by rw [k.elements]
  snapshots _ _ := by rw [k.snapshots]
  guards _ _ := by rw [k.guards]

end Alike

end Session

end AmbientResidue
