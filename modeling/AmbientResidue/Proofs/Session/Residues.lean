import AmbientResidue.Proofs.Session.Simulation

/-! # Operations on residues side by side

Operations on residues look at the active global modulus and at their operands, and give names to
residues. They keep any two sessions related whose relation shows them these things and is kept when
residues are named and counters raised. -/

namespace AmbientResidue

namespace Instruction

/-- An operation on residues. -/
def onResidues : Instruction → Bool
  | .make _ _ | .random _ _ | .unary _ _ _ _ | .binary _ _ _ _ _ | .fold _ _ _ | .same _ _
  | .display _ | .check _ | .write _ | .fill _ _ => true
  | _ => false

end Instruction

namespace Action

variable {α ε : Type} {build : Build} {R : Session → Session → Prop} {N : String → Prop}

/-- Answers agree up to the counters. -/
def Agree (v w : Value) : Prop := v.visible = w.visible

/-- Related sessions show operations on residues the same modulus, and the same residues under the
names in `N`. -/
structure Exposes (build : Build) (N : String → Prop) (R : Session → Session → Prop) : Prop where
  ambient : ∀ ⦃s t⦄, R s t → s.ambient build = t.ambient build
  charge : ∀ ⦃s t⦄, R s t → ∀ cost, R (s.charge build cost) (t.charge build cost)
  element : ∀ ⦃s t⦄, R s t → ∀ name, N name → s.elements.find? name = t.elements.find? name
  naming : ∀ ⦃s t⦄, R s t → ∀ name a, R (s.naming name a) (t.naming name a)

/-- Prices are the same everywhere. -/
theorem tracks_pay (charge : ∀ ⦃s t⦄, R s t → ∀ cost, R (s.charge build cost) (t.charge build cost))
    {blame : ε → Failure} {x : ExceptT ε Counted α} :
    Tracks R Eq (pay build blame x) (pay build blame x) := by
  intro s t h
  have after := charge h x.run.cost
  cases hx : x.run.value with
  | ok a => exact .inl ⟨a, _, a, _, returns_pay hx s, returns_pay hx t, rfl, after⟩
  | error e => exact .inr ⟨_, _, _, fails_pay hx s, fails_pay hx t, after⟩

theorem tracks_literals
    (charge : ∀ ⦃s t⦄, R s t → ∀ cost, R (s.charge build cost) (t.charge build cost))
    (l : List String) : Tracks R Eq (literals build l) (literals build l) := by
  unfold literals
  induction l with
  | nil => exact .pure rfl
  | cons lit rest ih =>
    rw [List.mapM_cons]
    exact (tracks_pay charge).same fun v => ih.same fun vs => .pure rfl

theorem tracks_lookUp {names : Session → Names α} {name : String}
    (agree : ∀ ⦃s t⦄, R s t → (names s).find? name = (names t).find? name) :
    Tracks R Eq (lookUp names name) (lookUp names name) := by
  intro s t h
  have same := agree h
  cases hs : (names s).find? name with
  | some a => exact .inl ⟨a, s, a, t, returns_lookUp hs, returns_lookUp (same ▸ hs), rfl, h⟩
  | none => exact .inr ⟨_, s, t, fails_lookUp hs, fails_lookUp (same ▸ hs), h⟩

namespace Exposes

theorem compute (x : Exposes build N R) {blame : ε → Failure} {f : Ambient → ExceptT ε Counted α} :
    Tracks R Eq (compute build blame f) (compute build blame f) := by
  intro s t h
  have paid := @tracks_pay _ _ build R x.charge blame (f (s.ambient build)) s t h
  simp only [Returns, Fails, run_compute, ← x.ambient h]
  exact paid

theorem lookUp (x : Exposes build N R) {name : String} (hn : N name) :
    Tracks R Eq (Action.element name) (Action.element name) :=
  tracks_lookUp fun _ _ h => x.element h name hn

theorem lookUpAll (x : Exposes build N R) {names : List String} (hn : ∀ name ∈ names, N name) :
    Tracks R Eq (names.mapM Action.element) (names.mapM Action.element) := by
  induction names with
  | nil => exact .pure rfl
  | cons name rest ih =>
    rw [List.mapM_cons]
    have first := x.lookUp (hn name List.mem_cons_self)
    have others := ih fun other ho => hn other (List.mem_cons_of_mem name ho)
    exact first.same fun a => others.same fun l => .pure rfl

theorem bindElement (x : Exposes build N R) (name : Option String) (a : Element) :
    Tracks R Eq (bindElement name a) (bindElement name a) := by
  cases name with
  | none => exact .pure rfl
  | some name => exact .update fun s t h => x.naming h (some name) a

theorem make (x : Exposes build N R) {source : Source}
    (hn : ∀ name, source = .copy name → N name) :
    Tracks R Eq (make build source) (make build source) := by
  cases source with
  | copy name => exact x.lookUp (hn name rfl)
  | integer lit => exact (tracks_pay x.charge).same fun v => x.compute
  | frame bs validate compression => exact x.compute.same fun p => .pure rfl
  | _ => unfold Action.make; exact x.compute

theorem named (x : Exposes build N R) {act : Action α} (hx : Tracks R Eq act act)
    (name : Option String) (element : α → Element) (value : α → Value) :
    Tracks R Agree (do let a ← act; Action.bindElement name (element a); return value a)
      (do let a ← act; Action.bindElement name (element a); return value a) :=
  hx.same fun a => (x.bindElement name (element a)).same fun _ => .pure rfl

/-- Operations on residues agree as long as their operands have names in `N`. -/
theorem perform (x : Exposes build N R) {i : Instruction} (residues : i.onResidues = true)
    (hN : ∀ name, .element name ∈ i.uses → N name) :
    Tracks R Agree (perform build i) (perform build i) := by
  cases i with
  | make source bind =>
    refine x.named (x.make ?_) bind _ _
    rintro name rfl
    exact hN name (by simp [Instruction.uses])
  | random bs bind => exact x.named x.compute bind _ _
  | unary op form a bind =>
    have ha := hN a (by simp [Instruction.uses])
    exact (x.lookUp ha).same fun _ => x.named x.compute _ _ _
  | binary op form a b bind =>
    have ha := hN a (by simp [Instruction.uses])
    have hb := hN b (by simp [Instruction.uses])
    exact (x.lookUp ha).same fun _ => (x.lookUp hb).same fun _ => x.named x.compute _ _ _
  | fold op names bind =>
    have found := fun name hn => hN name (List.mem_map_of_mem hn)
    exact (x.lookUpAll found).same fun l => x.named x.compute _ _ _
  | same a b =>
    have ha := hN a (by simp [Instruction.uses])
    have hb := hN b (by simp [Instruction.uses])
    exact (x.lookUp ha).same fun _ => (x.lookUp hb).same fun _ => .pure rfl
  | display a | write a =>
    exact (x.lookUp (hN a (by simp [Instruction.uses]))).same fun _ => .pure rfl
  | check a =>
    exact (x.lookUp (hN a (by simp [Instruction.uses]))).same fun _ =>
      x.compute.same fun _ => .pure rfl
  | fill a size =>
    refine (x.lookUp (hN a (by simp [Instruction.uses]))).same fun _ => ?_
    split
    · exact .pure rfl
    · exact fun s t h => .inr ⟨_, s, t, rfl, rfl, h⟩
  | _ => cases residues

end Exposes

/-! ## Operations on contexts -/

variable {S : Store → Store → Prop} {s t : Session} {β : Type} {Q : α → β → Prop}

/-- What keeps the stores related keeps the sessions related. -/
theorem meets_onStore {f : Store.Operation α} {g : Store.Operation β} (hf : Tracks S Q f g)
    (stores : S s.store t.store)
    (put : ∀ ⦃p q⦄, S p q → R { s with store := p } { t with store := q }) :
    Meets R Q (onStore f) (onStore g) s t := by
  rcases hf stores with ⟨a, p, b, q, r₁, r₂, same, k⟩ | ⟨e, p, q, r₁, r₂, k⟩
  · exact .inl ⟨a, _, b, _, returns_onStore r₁, returns_onStore r₂, same, put k⟩
  · exact .inr ⟨_, _, _, fails_onStore r₁, fails_onStore r₂, put k⟩

end Action

end AmbientResidue
