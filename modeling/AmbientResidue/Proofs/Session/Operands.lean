import AmbientResidue.Proofs.Element.Refusals
import AmbientResidue.Proofs.Session.Canonical

/-! # Operations on named residues

An instruction that operates on residues ends as the operation does on the residues that its names
stand for: it answers where the operation yields a residue, and it fails with the fault where the
operation is refused. -/

namespace AmbientResidue

open Counted (Yields Refuses)

/-- What a form of an operation shows of a fault. -/
def Form.shows : Form → Fault → Fault
  | .method, fault => fault
  | .operator, fault | .assignment, fault => fault.panicking

theorem Form.yields_iff (form : Form) {x : Operation Element} {r : Element} :
    Yields (if form = .method then x else Element.orPanic x) r ↔ Yields x r := by
  cases form with
  | method => exact Iff.rfl
  | operator | assignment => exact Element.yields_orPanic

theorem Form.refuses_iff (form : Form) {x : Operation Element} {e : Fault} :
    Refuses (if form = .method then x else Element.orPanic x) e ↔
      ∃ d, Refuses x d ∧ e = form.shows d := by
  cases form with
  | method => simp [shows]
  | operator | assignment => exact Element.refuses_orPanic

namespace Session

/-- The instruction asks for the operation on the residues, which its names stand for. -/
inductive Asks (s : Session) : Instruction → List Element → (Ambient → Operation Element) → Prop where
  | unary {op form x bind a} : s.elements.find? x = some a →
      Asks s (.unary op form x bind) [a] fun env =>
        if form = .method then op.method env a else op.operator env a
  | binary {op form x y bind a b} : s.elements.find? x = some a → s.elements.find? y = some b →
      Asks s (.binary op form x y bind) [a, b] fun env =>
        if form = .method then op.method env a b else op.operator env a b
  | sum {names bind l} : names.mapM s.elements.find? = some l →
      Asks s (.fold .sum names bind) l fun env => Element.sum env l
  | product {names bind l} : names.mapM s.elements.find? = some l →
      Asks s (.fold .product names bind) l fun env => Element.product env l

end Session

namespace Action

open Session

variable {α ε : Type} {build : Build} {s t : Session} {blame : ε → Failure}
  {f : Ambient → ExceptT ε Counted α}

/-- What can be computed is computed and gets its name. -/
theorem returns_naming {name : Option String} {element : α → Element} {value : α → Value} {a : α}
    (h : Yields (f (s.ambient build)) a) :
    Returns (do
        let a ← compute build blame f
        bindElement name (element a)
        return value a) s (value a)
      ((s.charge build (f (s.ambient build)).run.cost).naming name (element a)) :=
  (returns_compute h).andThen ((returns_bindElement _ _ _).andThen rfl)

theorem fails_naming {name : Option String} {element : α → Element} {value : α → Value} {e : ε}
    (h : Refuses (f (s.ambient build)) e) :
    Fails (do
        let a ← compute build blame f
        bindElement name (element a)
        return value a) s (blame e) (s.charge build (f (s.ambient build)).run.cost) :=
  (fails_compute h).first

end Action

namespace Session

open AmbientResidue.Action

variable {build : Build} {s : Session} {i : Instruction} {l : List Element}
  {f : Ambient → Operation Element} {a r : Element} {d : Fault} {e : Failure}

theorem holds_of_mapM {names : List String} (bound : names.mapM s.elements.find? = some l)
    (member : a ∈ l) : s.Holds a := by
  induction names generalizing l with
  | nil =>
    cases bound
    cases member
  | cons name rest ih =>
    rw [List.mapM_cons] at bound
    obtain ⟨b, found, bound⟩ := Option.bind_eq_some_iff.1 bound
    obtain ⟨k, others, bound⟩ := Option.bind_eq_some_iff.1 bound
    cases bound
    rcases List.mem_cons.1 member with rfl | later
    · exact ⟨name, found⟩
    · exact ih others later

namespace Asks

/-- Operands have names. -/
theorem holds (asks : s.Asks i l f) (member : a ∈ l) : s.Holds a := by
  cases asks with
  | unary found =>
    obtain rfl := List.mem_singleton.1 member
    exact ⟨_, found⟩
  | binary first second =>
    rcases List.mem_cons.1 member with rfl | last
    · exact ⟨_, first⟩
    · obtain rfl := List.mem_singleton.1 last
      exact ⟨_, second⟩
  | sum bound | product bound => exact holds_of_mapM bound member

theorem returns (asks : s.Asks i l f) (made : Yields (f (s.ambient build)) r) :
    ∃ t, Returns (perform build i) s (.integer r.representative) t := by
  cases asks with
  | unary found => exact ⟨_, (returns_lookUp found).andThen (returns_naming made)⟩
  | binary first second =>
    exact ⟨_, (returns_lookUp first).andThen ((returns_lookUp second).andThen (returns_naming made))⟩
  | sum bound | product bound =>
    exact ⟨_, (returns_elements bound).andThen (returns_naming made)⟩

theorem fails (asks : s.Asks i l f) (refused : Refuses (f (s.ambient build)) d) :
    ∃ t, Fails (perform build i) s (.fault d) t := by
  cases asks with
  | unary found => exact ⟨_, (returns_lookUp found).andFail (fails_naming refused)⟩
  | binary first second =>
    exact ⟨_, (returns_lookUp first).andFail ((returns_lookUp second).andFail (fails_naming refused))⟩
  | sum bound | product bound =>
    exact ⟨_, (returns_elements bound).andFail (fails_naming refused)⟩

/-- Nothing else is answered. -/
theorem returns_iff (asks : s.Asks i l f) {v : Value} :
    (∃ t, Returns (perform build i) s v t) ↔
      ∃ r, Yields (f (s.ambient build)) r ∧ v = .integer r.representative := by
  constructor
  · rintro ⟨t, returned⟩
    rw [Returns] at returned
    rcases Counted.yields_or_refuses (f (s.ambient build)) with ⟨r, made⟩ | ⟨d, refused⟩
    · obtain ⟨u, answer⟩ := asks.returns made
      rw [Returns, returned] at answer
      cases answer
      exact ⟨r, made, rfl⟩
    · obtain ⟨u, refusal⟩ := asks.fails refused
      rw [Fails, returned] at refusal
      cases refusal
  · rintro ⟨r, made, rfl⟩
    exact asks.returns made

/-- Nothing else makes the instruction fail. -/
theorem fails_iff (asks : s.Asks i l f) :
    (∃ t, Fails (perform build i) s e t) ↔ ∃ d, Refuses (f (s.ambient build)) d ∧ e = .fault d := by
  constructor
  · rintro ⟨t, failed⟩
    rw [Fails] at failed
    rcases Counted.yields_or_refuses (f (s.ambient build)) with ⟨r, made⟩ | ⟨d, refused⟩
    · obtain ⟨u, returned⟩ := asks.returns made
      rw [Returns, failed] at returned
      cases returned
    · obtain ⟨u, refusal⟩ := asks.fails refused
      rw [Fails, failed] at refusal
      cases refusal
      exact ⟨d, refused, rfl⟩
  · rintro ⟨d, refused, rfl⟩
    exact asks.fails refused

end Asks

end Session

end AmbientResidue
