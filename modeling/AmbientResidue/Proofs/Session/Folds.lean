import AmbientResidue.Proofs.Element.Cost
import AmbientResidue.Proofs.Element.Folds
import AmbientResidue.Proofs.Session.Expression
import AmbientResidue.Proofs.Session.Operands
import Mathlib.Algebra.BigOperators.Group.List.Lemmas

/-! # Sums and products of named residues

What comes of a fold depends on the integers that are stored under the names and on the active
modulus: neither on the order of the names, nor on where a list of them is cut, nor on whether the
residues are taken out before the fold or read where they are. -/

namespace AmbientResidue

open Counted (Yields Refuses)

namespace Fold

/-- The fold of residues. -/
def method : Fold → Ambient → List Element → Operation Element
  | .sum => Element.sum
  | .product => Element.product

/-- The fold of references to residues. -/
def borrowed : Fold → Ambient → (ι → Element) → List ι → Operation Element
  | .sum => Element.sumBorrowed
  | .product => Element.productBorrowed

/-- What a fold does over and over. -/
def operation : Fold → Element.Binary
  | .sum => .add
  | .product => .mul

/-- The fold of integers. -/
def total : Fold → List Int → Int
  | .sum => List.sum
  | .product => List.prod

/-- What a fold of so many residues costs. -/
def price : Fold → Nat → Tally
  | .sum, n => { adds := n, reductions := n, fromInt64 := 1 }
  | .product, n => { mults := n, reductions := n + 1, fromInt64 := 1 }

variable {op : Fold} {env : Ambient} {m : Modulus} {l k : List Element} {a b r : Element}

/-- It does not matter when the residues are read. -/
theorem borrowed_eq (op : Fold) (env : Ambient) (read : ι → Element) (l : List ι) :
    op.borrowed env read l = op.method env (l.map read) := by
  cases op with
  | sum => simp only [borrowed, method, Element.sumBorrowed, Element.sum, List.foldlM_map]
  | product =>
    simp only [borrowed, method, Element.productBorrowed, Element.product, List.foldlM_map]

theorem total_perm {x y : List Int} (h : x.Perm y) : op.total x = op.total y := by
  cases op with
  | sum => exact h.sum_eq
  | product => exact h.prod_eq

theorem refuses_method (inactive : env.active = none) (l : List Element) :
    Refuses (op.method env l) (.operatorPanic .uninitialized) := by
  cases op with
  | sum => exact Element.refuses_sum inactive
  | product => exact Element.refuses_product inactive

section

variable (active : env.active = some m)

include active

theorem yields_method (fits : ∀ a ∈ l, a.Fits m) : Yields (op.method env l)
    (env.residue m (op.total (l.map Element.representative) % m.value)) := by
  cases op with
  | sum => exact Element.yields_sum active fits
  | product => exact Element.yields_product active fits

theorem yields_method_iff (fits : ∀ a ∈ l, a.Fits m) : Yields (op.method env l) r ↔
    r = env.residue m (op.total (l.map Element.representative) % m.value) := by
  constructor
  · intro made
    exact Counted.yields_unique made (yields_method active fits)
  · rintro rfl
    exact yields_method active fits

theorem cost_method (fits : ∀ a ∈ l, a.Fits m) :
    (op.method env l).run.cost = op.price l.length := by
  cases op with
  | sum => exact Element.cost_sum active fits
  | product => exact Element.cost_product active fits

/-- The totals of two parts are added or multiplied as any other residues are. -/
theorem yields_append (hl : ∀ a ∈ l, a.Fits m) (hk : ∀ a ∈ k, a.Fits m)
    (ha : Yields (op.method env l) a) (hb : Yields (op.method env k) b) :
    ∃ r, Yields (op.method env (l ++ k)) r ∧ Yields (op.operation.method env a b) r := by
  have both : ∀ a ∈ l ++ k, a.Fits m := by
    intro a member
    rcases List.mem_append.1 member with left | right
    · exact hl a left
    · exact hk a right
  obtain rfl := (yields_method_iff active hl).1 ha
  obtain rfl := (yields_method_iff active hk).1 hb
  refine ⟨_, yields_method active both, ?_⟩
  cases op with
  | sum =>
    rw [List.map_append, total, List.sum_append]
    exact Element.yields_add_of_represents active (Element.represents_residue env m _)
      (Element.represents_residue env m _)
  | product =>
    rw [List.map_append, total, List.prod_append]
    exact Element.yields_mul_of_represents active (Element.represents_residue env m _)
      (Element.represents_residue env m _)

end

/-- What folding residues comes to under a modulus. -/
structure Totals (op : Fold) (env : Ambient) (m : Modulus) : Prop where
  /-- The integer total, reduced once. That of no residues is zero or one, reduced as well. -/
  yields : ∀ l, (∀ a ∈ l, a.Fits m) → ∀ r, Yields (op.method env l) r ↔
    r = env.residue m (op.total (l.map Element.representative) % m.value)
  permuted : ∀ l k, (∀ a ∈ l, a.Fits m) → l.Perm k → ∀ r,
    Yields (op.method env l) r ↔ Yields (op.method env k) r
  appended : ∀ l k, (∀ a ∈ l, a.Fits m) → (∀ a ∈ k, a.Fits m) → ∀ a b,
    Yields (op.method env l) a → Yields (op.method env k) b →
      ∃ r, Yields (op.method env (l ++ k)) r ∧ Yields (op.operation.method env a b) r

theorem totals (active : env.active = some m) (op : Fold) : Totals op env m where
  yields l fits r := yields_method_iff active fits
  permuted l k fits same r := by
    have others : ∀ a ∈ k, a.Fits m := fun a member => fits a (same.mem_iff.2 member)
    rw [yields_method_iff active fits, yields_method_iff active others,
      total_perm (same.map Element.representative)]
  appended l k hl hk a b := yields_append active hl hk

end Fold

namespace Session

open AmbientResidue.Action

variable {build : Build} {s : Session} {v : List Visit} {op : Fold} {m : Modulus}
  {names : List String} {l : List Element} {bind : Option String}

/-- Names that are looked up one by one find what is bound to all of them. -/
theorem map_eq_of_mapM {read : String → Element}
    (reads : ∀ name ∈ names, s.elements.find? name = some (read name))
    (bound : names.mapM s.elements.find? = some l) : names.map read = l := by
  induction names generalizing l with
  | nil =>
    cases bound
    rfl
  | cons name rest ih =>
    obtain ⟨here, others⟩ := List.forall_mem_cons.1 reads
    rw [List.mapM_cons] at bound
    obtain ⟨a, found, bound⟩ := Option.bind_eq_some_iff.1 bound
    obtain ⟨k, tail, bound⟩ := Option.bind_eq_some_iff.1 bound
    cases bound
    obtain rfl := Option.some.inj (here.symm.trans found)
    rw [List.map_cons, ih others tail]

theorem fits_of_mapM (untagged : ∀ a, s.Holds a → a.tag = none)
    (bound : names.mapM s.elements.find? = some l) : ∀ a ∈ l, a.Fits m := by
  intro a member
  exact .of_untagged m (untagged a (holds_of_mapM bound member))

theorem Asks.fold (bound : names.mapM s.elements.find? = some l) :
    s.Asks (.fold op names bind) l fun env => op.method env l := by
  cases op with
  | sum => exact .sum bound
  | product => exact .product bound

/-- A permutation of names stands for a permutation of residues. -/
theorem mapM_perm {names' : List String} (same : names.Perm names')
    (bound : names.mapM s.elements.find? = some l) :
    ∃ k, l.Perm k ∧ names'.mapM s.elements.find? = some k := by
  induction same generalizing l with
  | nil => exact ⟨l, .refl l, bound⟩
  | cons name _ ih =>
    rw [List.mapM_cons] at bound
    obtain ⟨a, found, bound⟩ := Option.bind_eq_some_iff.1 bound
    obtain ⟨rest, others, bound⟩ := Option.bind_eq_some_iff.1 bound
    cases bound
    obtain ⟨k, same, bound⟩ := ih others
    exact ⟨a :: k, same.cons a, by simp [List.mapM_cons, found, bound]⟩
  | swap x y rest =>
    simp only [List.mapM_cons, Option.bind_eq_bind, Option.bind_eq_some_iff] at bound
    obtain ⟨a, foundA, k, ⟨b, foundB, rest, others, same⟩, bound⟩ := bound
    cases same
    cases bound
    exact ⟨b :: a :: rest, .swap b a rest, by simp [List.mapM_cons, foundA, foundB, others]⟩
  | trans _ _ first second =>
    obtain ⟨j, left, bound⟩ := first bound
    obtain ⟨k, right, bound⟩ := second bound
    exact ⟨k, left.trans right, bound⟩

theorem returns_fold (h : s.Serves build m) (bound : names.mapM s.elements.find? = some l)
    (bind : Option String) :
    Returns (perform build (.fold op names bind)) s
      (.integer (op.total (l.map Element.representative) % m.value))
      ((s.charge build (op.price l.length)).naming bind
        ⟨op.total (l.map Element.representative) % m.value, none⟩) := by
  have fits : ∀ a ∈ l, a.Fits m := fits_of_mapM h.untagged bound
  have made : Yields (op.method (s.ambient build) l)
      ⟨op.total (l.map Element.representative) % m.value, none⟩ := by
    rw [Fold.yields_method_iff h.active fits]
    simp only [Ambient.residue, ambient, h.forgetful]
    rfl
  have answer : Returns (do
      let r ← compute build .fault fun env => op.method env l
      bindElement bind r
      return Value.integer r.representative) s _ _ := returns_naming made
  rw [Fold.cost_method h.active fits] at answer
  cases op with
  | sum | product => exact (returns_elements bound).andThen answer

/-- What folding named residues comes to. -/
structure Folds (build : Build) (s : Session) : Prop where
  /-- There need be no names, a name may come more than once, and what it stands for may have been
  made under any other modulus. -/
  returns : ∀ m, s.store.active .global = some m → ∀ (op : Fold) names l,
    names.mapM s.elements.find? = some l → ∀ bind,
      Returns (perform build (.fold op names bind)) s
        (.integer (op.total (l.map Element.representative) % m.value))
        ((s.charge build (op.price l.length)).naming bind
          ⟨op.total (l.map Element.representative) % m.value, none⟩)
  permuted : ∀ m, s.store.active .global = some m → ∀ (op : Fold) names l names',
    names.mapM s.elements.find? = some l → names.Perm names' → ∀ bind,
      (perform build (.fold op names bind)).run s = (perform build (.fold op names' bind)).run s
  borrowed : ∀ (op : Fold) names l, names.mapM s.elements.find? = some l →
    ∀ read, (∀ name ∈ names, s.elements.find? name = some (read name)) → ∀ env,
      op.borrowed env read names = op.method env l
  uninitialized : s.store.active .global = none → ∀ (op : Fold) names l,
    names.mapM s.elements.find? = some l → ∀ bind,
      ∃ t, Fails (perform build (.fold op names bind)) s (.fault (.operatorPanic .uninitialized)) t

theorem Path.folds (p : Path build .initial v s) (forgetful : build.tags = false) :
    Folds build s where
  returns m active op names l bound bind := returns_fold (p.serves forgetful active) bound bind
  permuted m active op names l names' bound same bind := by
    have serves := p.serves forgetful active
    obtain ⟨k, residues, bound'⟩ := mapM_perm same bound
    have first : Returns (perform build (.fold op names bind)) s _ _ :=
      returns_fold serves bound bind
    have second : Returns (perform build (.fold op names' bind)) s _ _ :=
      returns_fold serves bound' bind
    rw [← Fold.total_perm (residues.map Element.representative), ← residues.length_eq] at second
    exact first.trans second.symm
  borrowed op names l bound read reads env := by
    rw [Fold.borrowed_eq, map_eq_of_mapM reads bound]
  uninitialized inactive op names l bound bind := by
    have inactive' : (s.ambient build).active = none := inactive
    exact (Asks.fold bound).fails (Fold.refuses_method inactive' l)

/-- Where residues remember no modulus, a fold answers the integer total of what is stored, reduced
once, and no order, cut or way of reading residues makes a difference. Without a modulus every
fold stops its caller, that of nothing too. -/
theorem folds_reduce_once :
    (∀ op env m, env.active = some m → Fold.Totals op env m) ∧
    (∀ (op : Fold) env l, env.active = none →
      Refuses (op.method env l) (.operatorPanic .uninitialized)) ∧
    (∀ (op : Fold) env (ι : Type) (read : ι → Element) (l : List ι),
      op.borrowed env read l = op.method env (l.map read)) ∧
    (Fault.operatorPanic .uninitialized).message =
      "field operation failed: no modulus has been installed" ∧
    ∀ build, build.tags = false → ∀ steps, Folds build (run build .initial steps).2 ∧
      ∀ earlier v later, visits build .initial steps = earlier ++ v :: later →
        Folds build v.before := by
  refine ⟨fun op env m active => Fold.totals active op,
    fun op env l inactive => Fold.refuses_method inactive l, fun op env ι => Fold.borrowed_eq op env,
    by decide +kernel, fun build forgetful steps => ?_⟩
  exact run_throughout (P := fun _ => Folds build) (fun p => p.folds forgetful) steps

/-- The 9 and the 5 that were made under 11 are summed and multiplied under 7 as they are. Under the
modulus one the empty product is zero; before there is a modulus there is no empty sum. -/
theorem folds_reduce_once_stale :
    let steps : List Step := [.single (.install "11" none), .single (.make (.int64 9) (some "a")),
      .single (.make (.int64 5) (some "b")), .single (.install "7" none)]
    let s := (run .plain .initial steps).2
    let u := (run .counted .initial [.single (.install "1" none)]).2
    (∃ t, Returns (perform .plain (.fold .sum ["a", "b", "a"] none)) s (.integer 2) t) ∧
      (perform .plain (.fold .product ["a", "b"] none)).run s =
        (perform .plain (.fold .product ["b", "a"] none)).run s ∧
      (∃ t, Returns (perform .counted (.fold .product [] none)) u (.integer 0) t) ∧
      ∃ t, Fails (perform .counted (.fold .sum [] none)) .initial
        (.fault (.operatorPanic .uninitialized)) t := by
  intro steps s u
  obtain ⟨-, -, -, -, sessions⟩ := folds_reduce_once
  have stale := (sessions .plain rfl steps).1
  have trivial := (sessions .counted rfl [.single (.install "1" none)]).1
  have seven : s.store.active .global = some ⟨7, 1, by decide⟩ := by decide +kernel
  have one : u.store.active .global = some ⟨1, 1, by decide⟩ := by decide +kernel
  have three : ["a", "b", "a"].mapM s.elements.find? = some [⟨9, none⟩, ⟨5, none⟩, ⟨9, none⟩] := by
    decide +kernel
  have two : ["a", "b"].mapM s.elements.find? = some [⟨9, none⟩, ⟨5, none⟩] := by
    decide +kernel
  refine ⟨?_, ?_, ?_, ?_⟩
  · exact ⟨_, stale.returns _ seven .sum _ _ three none⟩
  · exact stale.permuted _ seven .product _ _ _ two (.swap "b" "a" []) none
  · exact ⟨_, trivial.returns _ one .product [] [] rfl none⟩
  · exact (sessions .counted rfl []).1.uninitialized rfl .sum [] [] rfl none

end Session

end AmbientResidue
