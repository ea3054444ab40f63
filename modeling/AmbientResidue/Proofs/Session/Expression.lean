import AmbientResidue.Proofs.Session.Canonical
import Mathlib.Data.Int.ModEq

/-! # Reducing at every node is reducing at the end

Expressions over the named residues of a session. Where residues remember no modulus, a leaf counts
as the integer that it stores, whatever modulus it was made under, and every node passes its
operands on up to congruence modulo the active modulus. -/

namespace AmbientResidue

open Counted (Yields)

inductive Expression where
  | leaf (name : String)
  | neg (e : Expression)
  | square (e : Expression)
  | add (e f : Expression)
  | sub (e f : Expression)
  | mul (e f : Expression)
deriving DecidableEq, Repr

namespace Expression

def isLeaf : Expression → Bool
  | .leaf _ => true
  | _ => false

def leaves : Expression → List String
  | .leaf name => [name]
  | .neg e | .square e => e.leaves
  | .add e f | .sub e f | .mul e f => e.leaves ++ f.leaves

/-- The value over the integers. -/
def value (read : String → Int) : Expression → Int
  | .leaf name => read name
  | .neg e => -e.value read
  | .square e => e.value read * e.value read
  | .add e f => e.value read + f.value read
  | .sub e f => e.value read - f.value read
  | .mul e f => e.value read * f.value read

/-- An operation on what an action comes to. -/
def unaryNode (build : Build) (op : Ambient → Element → Operation Element) (x : Action Element) :
    Action Element := do
  let a ← x
  Action.compute build .fault fun env => op env a

/-- An operation on what two actions come to, the left one first. -/
def binaryNode (build : Build) (op : Ambient → Element → Element → Operation Element)
    (x y : Action Element) : Action Element := do
  let a ← x
  let b ← y
  Action.compute build .fault fun env => op env a b

/-- The value in a session: one operation for every node, on what its operands came to. -/
def evaluate (build : Build) : Expression → Action Element
  | .leaf name => Action.element name
  | .neg e => unaryNode build Element.neg (e.evaluate build)
  | .square e => unaryNode build Element.square (e.evaluate build)
  | .add e f => binaryNode build Element.add (e.evaluate build) (f.evaluate build)
  | .sub e f => binaryNode build Element.sub (e.evaluate build) (f.evaluate build)
  | .mul e f => binaryNode build Element.mul (e.evaluate build) (f.evaluate build)

end Expression

namespace Session

variable {build : Build} {s t : Session} {m : Modulus}

/-- The representative that is stored under a name. -/
def read (s : Session) (name : String) : Int :=
  ((s.elements.find? name).map Element.representative).getD 0

/-- All the names are bound. -/
def Binds (s : Session) (names : List String) : Prop :=
  ∀ name ∈ names, ∃ a, s.elements.find? name = some a

theorem Binds.left {l k : List String} (h : s.Binds (l ++ k)) : s.Binds l :=
  fun name hn => h name (List.mem_append_left k hn)

theorem Binds.right {l k : List String} (h : s.Binds (l ++ k)) : s.Binds k :=
  fun name hn => h name (List.mem_append_right l hn)

/-- The modulus is active, and residues remember none. -/
structure Serves (s : Session) (build : Build) (m : Modulus) : Prop where
  active : (s.ambient build).active = some m
  forgetful : build.tags = false
  untagged : ∀ a, s.Holds a → a.tag = none

theorem Serves.kept (h : s.Serves build m) (k : Kept s t) : t.Serves build m :=
  ⟨k.ambient build ▸ h.active, h.forgetful, fun a held => h.untagged a (k.holds held)⟩

theorem Kept.read (k : Kept s t) : t.read = s.read := by
  unfold Session.read
  rw [k.elements]

/-- In a build that does not tag, a run leaves no tags. -/
theorem Path.untagged {l : List Visit} (p : Path build .initial l s) (forgetful : build.tags = false)
    {a : Element} (h : s.Holds a) : a.tag = none := by
  obtain ⟨v, -, -, m, -, -, -, tag⟩ := p.accounted a h
  rw [tag]
  simp [ambient, forgetful]

theorem Path.serves {l : List Visit} (p : Path build .initial l s) (forgetful : build.tags = false)
    (active : s.store.active .global = some m) : s.Serves build m :=
  ⟨active, forgetful, fun _ => p.untagged forgetful⟩

end Session

namespace Action

open Session

variable {build : Build} {s : Session} {m : Modulus} {v w : Int}

theorem compute_of_yields {ε α : Type} {blame : ε → Failure} {f : Ambient → ExceptT ε Counted α}
    {a : α} (h : Yields (f (s.ambient build)) a) :
    ∃ cost, Returns (compute build blame f) s a (s.charge build cost) :=
  ⟨_, returns_compute h⟩

/-- The action comes to a residue without a tag that is congruent to the integer. -/
def ComesTo (build : Build) (m : Modulus) (x : Action Element) (s : Session) (v : Int) : Prop :=
  ∃ a cost, Returns x s a (s.charge build cost) ∧ a.tag = none ∧
    a.representative ≡ v [ZMOD m.value]

/-- The action comes to the least residue of the integer. -/
def Reduces (build : Build) (m : Modulus) (x : Action Element) (s : Session) (v : Int) : Prop :=
  ∃ cost, Returns x s ⟨v % m.value, none⟩ (s.charge build cost)

theorem Reduces.comesTo {x : Action Element} (h : Reduces build m x s v) :
    ComesTo build m x s v := by
  obtain ⟨cost, h⟩ := h
  exact ⟨_, cost, h, rfl, Int.mod_modEq _ _⟩

theorem reduces_compute (h : s.Serves build m) {f : Ambient → Operation Element}
    (yields : Yields (f (s.ambient build)) ((s.ambient build).residue m (v % m.value)))
    (same : v ≡ w [ZMOD m.value]) : Reduces build m (compute build .fault f) s w := by
  obtain ⟨cost, returns⟩ : ∃ cost, Returns (compute build Failure.fault f) s _
    (s.charge build cost) := compute_of_yields yields
  have untagged : (s.ambient build).residue m (v % m.value) = ⟨w % m.value, none⟩ := by
    simp only [Ambient.residue, ambient, h.forgetful, same.eq]
    rfl
  exact ⟨cost, untagged ▸ returns⟩

theorem comesTo_element (h : s.Serves build m) {name : String} {a : Element}
    (bound : s.elements.find? name = some a) :
    ComesTo build m (element name) s (s.read name) := by
  refine ⟨a, 0, ?_, h.untagged a ⟨name, bound⟩, ?_⟩
  · rw [charge_zero]
    exact returns_lookUp bound
  · rw [Session.read, bound]
    rfl

/-- The operation reduces `g` of the representative, and `g` passes on congruence. -/
theorem reduces_unaryNode {x : Action Element} {op : Ambient → Element → Operation Element}
    {g : Int → Int} (h : s.Serves build m) (hx : ComesTo build m x s v)
    (spec : ∀ env a, env.active = some m → a.Fits m →
      Yields (op env a) (env.residue m (g a.representative % m.value)))
    (same : ∀ {i}, i ≡ v [ZMOD m.value] → g i ≡ g v [ZMOD m.value]) :
    Reduces build m (Expression.unaryNode build op x) s (g v) := by
  obtain ⟨a, c, returns, untagged, reads⟩ := hx
  have next := h.kept (Kept.charge s build c)
  obtain ⟨d, computes⟩ := reduces_compute (f := fun env => op env a) next
    (spec _ a next.active (.of_untagged m untagged)) (same reads)
  exact ⟨c + d, charge_charge s build c d ▸ returns.andThen computes⟩

theorem reduces_binaryNode {x y : Action Element}
    {op : Ambient → Element → Element → Operation Element} {g : Int → Int → Int}
    (h : s.Serves build m) (hx : ComesTo build m x s v)
    (hy : ∀ t, Kept s t → ComesTo build m y t w)
    (spec : ∀ env a b, env.active = some m → a.Fits m → b.Fits m →
      Yields (op env a b) (env.residue m (g a.representative b.representative % m.value)))
    (same : ∀ {i j}, i ≡ v [ZMOD m.value] → j ≡ w [ZMOD m.value] →
      g i j ≡ g v w [ZMOD m.value]) :
    Reduces build m (Expression.binaryNode build op x y) s (g v w) := by
  obtain ⟨a, c, returns, untagged, reads⟩ := hx
  have k := Kept.charge s build c
  obtain ⟨b, d, returns', untagged', reads'⟩ := hy _ k
  have next := h.kept (k.trans (Kept.charge _ build d))
  obtain ⟨e, computes⟩ := reduces_compute (f := fun env => op env a b) next
    (spec _ a b next.active (.of_untagged m untagged) (.of_untagged m untagged'))
    (same reads reads')
  refine ⟨c + d + e, ?_⟩
  rw [← charge_charge, ← charge_charge]
  exact returns.andThen (returns'.andThen computes)

/-- Leaves count as what they store; everything else is a least residue. What is evaluated on the
way changes the counters only. -/
theorem evaluate_spec (e : Expression) (h : s.Serves build m) (bound : s.Binds e.leaves)
    {t : Session} (k : Kept s t) :
    ComesTo build m (e.evaluate build) t (e.value s.read) ∧
      (e.isLeaf = false → Reduces build m (e.evaluate build) t (e.value s.read)) := by
  induction e generalizing t with
  | leaf name =>
    obtain ⟨a, ha⟩ := bound name (by simp [Expression.leaves])
    have comes := comesTo_element (h.kept k) (k.elements ▸ ha)
    rw [k.read] at comes
    exact ⟨comes, by simp [Expression.isLeaf]⟩
  | neg e ih =>
    have r : Reduces build m ((Expression.neg e).evaluate build) t _ :=
      reduces_unaryNode (h.kept k) (ih bound k).1
        (fun env a active fits => Element.yields_neg.2 ⟨m, active, fits, rfl⟩)
        fun i => i.neg
    exact ⟨r.comesTo, fun _ => r⟩
  | square e ih =>
    have r : Reduces build m ((Expression.square e).evaluate build) t _ :=
      reduces_unaryNode (h.kept k) (ih bound k).1
        (fun env a active fits => Element.yields_square.2 ⟨m, active, fits, rfl⟩)
        fun i => i.mul i
    exact ⟨r.comesTo, fun _ => r⟩
  | add e f ihe ihf =>
    have r : Reduces build m ((Expression.add e f).evaluate build) t _ :=
      reduces_binaryNode (h.kept k) (ihe bound.left k).1 (fun u l => (ihf bound.right (k.trans l)).1)
        (fun env a b active fa fb => Element.yields_add.2 ⟨m, active, fa, fb, rfl⟩)
        fun i j => i.add j
    exact ⟨r.comesTo, fun _ => r⟩
  | sub e f ihe ihf =>
    have r : Reduces build m ((Expression.sub e f).evaluate build) t _ :=
      reduces_binaryNode (h.kept k) (ihe bound.left k).1 (fun u l => (ihf bound.right (k.trans l)).1)
        (fun env a b active fa fb => Element.yields_sub.2 ⟨m, active, fa, fb, rfl⟩)
        fun i j => i.sub j
    exact ⟨r.comesTo, fun _ => r⟩
  | mul e f ihe ihf =>
    have r : Reduces build m ((Expression.mul e f).evaluate build) t _ :=
      reduces_binaryNode (h.kept k) (ihe bound.left k).1 (fun u l => (ihf bound.right (k.trans l)).1)
        (fun env a b active fa fb => Element.yields_mul.2 ⟨m, active, fa, fb, rfl⟩)
        fun i j => i.mul j
    exact ⟨r.comesTo, fun _ => r⟩

end Action

namespace Session

/-- In a build without tags, an expression over residues of any origin comes to the integer value
of the expression over what the residues store, reduced once. -/
theorem evaluate_reduces_once (build : Build) (forgetful : build.tags = false) (steps : List Step)
    (m : Modulus) (e : Expression)
    (active : (run build .initial steps).2.store.active .global = some m)
    (bound : (run build .initial steps).2.Binds e.leaves) (node : e.isLeaf = false) :
    ∃ cost, Returns (e.evaluate build) (run build .initial steps).2
      ⟨e.value (run build .initial steps).2.read % m.value, none⟩
      ((run build .initial steps).2.charge build cost) := by
  have p := run_path build .initial steps
  exact (Action.evaluate_spec e ⟨active, forgetful, fun _ => p.untagged forgetful⟩ bound
    (.refl _)).2 node

/-- One leaf was made under 11 and one under 7; both are at or above the active 5. -/
theorem evaluate_reduces_once_stale :
    let steps : List Step := [.single (.install "11" none), .single (.make (.int64 9) (some "a")),
      .single (.install "7" none), .single (.make (.int64 5) (some "b")),
      .single (.install "5" none)]
    let e : Expression := .mul (.sub (.leaf "a") (.square (.leaf "b"))) (.neg (.leaf "a"))
    let s := (run .counted .initial steps).2
    Build.counted.tags = false ∧ s.store.active .global = some ⟨5, 1, by decide⟩ ∧
      s.Binds e.leaves ∧ e.isLeaf = false ∧
      ∃ cost, Returns (e.evaluate .counted) s ⟨4, none⟩ (s.charge .counted cost) := by
  intro steps e s
  have active : s.store.active .global = some ⟨5, 1, by decide⟩ := by decide +kernel
  have bound : s.Binds e.leaves := by
    intro name hn
    simp only [e, Expression.leaves, List.cons_append, List.nil_append, List.mem_cons,
      List.not_mem_nil, or_false] at hn
    rcases hn with rfl | rfl | rfl
    · exact ⟨⟨9, none⟩, by decide +kernel⟩
    · exact ⟨⟨5, none⟩, by decide +kernel⟩
    · exact ⟨⟨9, none⟩, by decide +kernel⟩
  have reads : e.value s.read % 5 = 4 := by decide +kernel
  have once := evaluate_reduces_once .counted rfl steps ⟨5, 1, by decide⟩ e active bound rfl
  exact ⟨rfl, active, bound, rfl, reads ▸ once⟩

end Session

end AmbientResidue
