import AmbientResidue.Proofs.Element.Canonical
import AmbientResidue.Proofs.Session.Visits

/-! # Where the residues of a session come from

A residue that a name is bound to was made by an instruction that the run carried out, under the
modulus that was active at that moment. Copies and rebound names only move residues around. -/

namespace AmbientResidue

open Counted (Yields)

namespace Session

/-- Carried out in this session, the instruction makes the residue. Copying makes none. -/
inductive Produces (build : Build) (s : Session) : Instruction → Element → Prop where
  | make {source bind a t} : (∀ name, source ≠ .copy name) →
      Returns (Action.make build source) s a t → Produces build s (.make source bind) a
  | random {bs bind drawn} : Yields (Element.random (s.ambient build) bs) drawn →
      Produces build s (.random bs bind) drawn.element
  | unary {op form x bind a r} : s.elements.find? x = some a →
      Yields (if form = .method then op.method (s.ambient build) a
        else op.operator (s.ambient build) a) r →
      Produces build s (.unary op form x bind) r
  | binary {op form x y bind a b r} : s.elements.find? x = some a → s.elements.find? y = some b →
      Yields (if form = .method then op.method (s.ambient build) a b
        else op.operator (s.ambient build) a b) r →
      Produces build s (.binary op form x y bind) r
  | sum {names bind l r} : names.mapM s.elements.find? = some l →
      Yields (Element.sum (s.ambient build) l) r → Produces build s (.fold .sum names bind) r
  | product {names bind l r} : names.mapM s.elements.find? = some l →
      Yields (Element.product (s.ambient build) l) r →
      Produces build s (.fold .product names bind) r

variable {build : Build} {s t u : Session} {i : Instruction} {v : Value} {a : Element}

/-- What a source makes, it makes by one of the ways to make a residue. -/
theorem made_of_make {source : Source} (fresh : ∀ name, source ≠ .copy name)
    (h : Returns (Action.make build source) s a t) : Element.Made (s.ambient build) a := by
  cases source with
  | copy name => exact absurd rfl (fresh name)
  | zero => rw [Action.make] at h; exact .zero (Action.compute_returns h)
  | one => rw [Action.make] at h; exact .one (Action.compute_returns h)
  | zeroOrPanic => rw [Action.make] at h; exact .zeroOrPanic (Action.compute_returns h)
  | oneOrPanic => rw [Action.make] at h; exact .oneOrPanic (Action.compute_returns h)
  | int64 n => rw [Action.make] at h; exact .ofInt64 (Action.compute_returns h)
  | literal lit => rw [Action.make] at h; exact .ofLiteral (Action.compute_returns h)
  | integer lit =>
    obtain ⟨n, s₁, h₁, h₂⟩ := Returns.bind h
    rw [← (Action.literal_returns h₁).2.ambient build]
    exact .ofInt (Action.compute_returns h₂)
  | bytes bs | buffer bs => rw [Action.make] at h; exact .ofBytes (Action.compute_returns h)
  | json text => rw [Action.make] at h; exact .ofJson (Action.compute_returns h)
  | messagePack bs => rw [Action.make] at h; exact .ofMessagePack (Action.compute_returns h)
  | frame bs validate compression =>
    obtain ⟨⟨b, rest⟩, s₁, h₁, h₂⟩ := Returns.bind h
    obtain ⟨rfl, -⟩ := Returns.pure h₂
    exact .ofFrame (Action.compute_returns h₁)

theorem Produces.made (h : Produces build s i a) : Element.Made (s.ambient build) a := by
  cases h with
  | make fresh h => exact made_of_make fresh h
  | random h => exact .random h
  | unary _ h =>
    split at h
    · exact .unary h
    · exact .unaryOperator h
  | binary _ _ h =>
    split at h
    · exact .binary h
    · exact .binaryOperator h
  | sum _ h => exact .sum h
  | product _ h => exact .product h

/-- The residue has a name. -/
def Holds (s : Session) (a : Element) : Prop := ∃ name, s.elements.find? name = some a

theorem Kept.holds (k : Kept s t) (h : t.Holds a) : s.Holds a := by
  obtain ⟨name, bound⟩ := h
  exact ⟨name, k.elements ▸ bound⟩

theorem holds_naming {name : Option String} {r : Element} (h : (s.naming name r).Holds a) :
    s.Holds a ∨ a = r := by
  obtain ⟨other, bound⟩ := h
  cases name with
  | none => exact .inl ⟨other, bound⟩
  | some name =>
    simp only [naming, Names.find?_bind] at bound
    split at bound
    · cases bound; exact .inr rfl
    · exact .inl ⟨other, bound⟩

theorem Produces.naming {name : Option String} {r : Element} (made : Produces build s i r)
    (h : (s.naming name r).Holds a) : s.Holds a ∨ Produces build s i a := by
  rcases holds_naming h with old | rfl
  · exact .inl old
  · exact .inr made

/-- A residue that has a name after an instruction had one before, or the instruction made it. -/
theorem holds_of_effect (effect : Effect build s i v t) (h : t.Holds a) :
    s.Holds a ∨ Produces build s i a := by
  cases effect with
  | @make source _ b _ returns =>
    cases source with
    | copy name =>
      rcases holds_naming h with old | rfl
      · exact .inl old
      · exact .inl ⟨name, (Action.lookUp_returns returns).1⟩
    | _ => exact (Produces.make (by simp) returns).naming h
  | random yields => exact (Produces.random yields).naming h
  | unary hx yields => exact (Produces.unary hx yields).naming h
  | binary hx hy yields => exact (Produces.binary hx hy yields).naming h
  | sum hl yields => exact (Produces.sum hl yields).naming h
  | product hl yields => exact (Produces.product hl yields).naming h
  | @openScope name => exact .inl (by rwa [Holds, elements_closing] at h)
  | _ => exact .inl h

/-- Every residue that has a name was made by one of the visits. -/
def Accounted (build : Build) (l : List Visit) (s : Session) : Prop :=
  ∀ a, s.Holds a → ∃ v ∈ l, Produces build v.before v.instruction a ∧
    Element.Canonical (v.before.ambient build) a

/-- Along a path residues are kept or made. -/
theorem Path.origin {l : List Visit} (p : Path build s l t) (h : t.Holds a) :
    s.Holds a ∨ ∃ v ∈ l, Produces build v.before v.instruction a := by
  induction p with
  | nil => exact .inl h
  | @cons s i rest t p ih =>
    rcases ih h with before | ⟨v, hv, made⟩
    · rcases next_cases build ⟨s, i⟩ with ⟨-, k⟩ | ⟨-, v, u, effect, k⟩
      · exact .inl (k.holds before)
      · exact (holds_of_effect effect (k.holds before)).imp_right fun made =>
          ⟨⟨s, i⟩, List.mem_cons_self, made⟩
    · exact .inr ⟨v, List.mem_cons_of_mem _ hv, made⟩

theorem Path.accounted {l : List Visit} (p : Path build .initial l s) : Accounted build l s := by
  intro a h
  rcases p.origin h with ⟨name, bound⟩ | ⟨v, hv, made⟩
  · cases bound
  · exact ⟨v, hv, made, made.made.canonical⟩

/-- Residues are in range of the modulus that was active when they were made: whatever is made from
whatever operands, and whatever has a name before, between and after the instructions of a run. -/
theorem residues_canonical (build : Build) :
    (∀ env a, Element.Made env a → Element.Canonical env a) ∧
    ∀ steps, Accounted build (visits build .initial steps) (run build .initial steps).2 ∧
      ∀ earlier v later, visits build .initial steps = earlier ++ v :: later →
        Accounted build earlier v.before := by
  refine ⟨fun env a h => h.canonical, fun steps => ?_⟩
  have p := run_path build .initial steps
  refine ⟨p.accounted, fun earlier v later split => ?_⟩
  exact (split ▸ p).visit.1.accounted

/-- The square of a 9 that was made under 11 is a 4 under the active 7. -/
theorem residues_canonical_stale :
    let steps : List Step := [.single (.install "11" none), .single (.make (.int64 9) (some "a")),
      .single (.install "7" none), .single (.unary .square .method "a" (some "b"))]
    (run .plain .initial steps).2.Holds ⟨4, none⟩ ∧
      ∃ v ∈ visits .plain .initial steps, Produces .plain v.before v.instruction ⟨4, none⟩ ∧
        Element.Canonical (v.before.ambient .plain) ⟨4, none⟩ := by
  intro steps
  have held : (run .plain .initial steps).2.Holds ⟨4, none⟩ := ⟨"b", by decide +kernel⟩
  exact ⟨held, ((residues_canonical .plain).2 steps).1 _ held⟩

end Session

end AmbientResidue
