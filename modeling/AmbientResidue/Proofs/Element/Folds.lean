import AmbientResidue.Proofs.Element.Division
import Mathlib.Algebra.BigOperators.Group.List.Basic

/-! # Sums and products of residues

A fold reduces its running total at every step, starting from the residue of zero or of one. All
along, the total counts as the integer total of the stored representatives, so that one reduction of
that integer is what is left in the end. Under the modulus one every total is zero, the empty
product included. -/

namespace AmbientResidue

open Counted (Yields Refuses)

namespace Element

variable {env : Ambient} {m : Modulus} {a b r : Element} {l : List Element} {v w : Int} {e : Fault}

section

variable (active : env.active = some m)

include active

theorem yields_add_of_represents (ha : Represents m a v) (hb : Represents m b w) :
    Yields (add env a b) (env.residue m ((v + w) % m.value)) := by
  rw [← residue_congr (ha.congruent.add hb.congruent)]
  exact yields_add.2 ⟨m, active, ha.fits, hb.fits, rfl⟩

omit active in
/-- Where the operation follows the integers, so does folding with it. -/
theorem yields_foldlM {op : Ambient → Element → Element → Operation Element} {g : Int → Int → Int}
    (step : ∀ {a b v w}, Represents m a v → Represents m b w →
      Yields (op env a b) (env.residue m (g v w % m.value)))
    (fits : ∀ b ∈ l, b.Fits m) :
    Yields (l.foldlM (fun total b => orPanic (op env total b)) (env.residue m (v % m.value)))
      (env.residue m ((l.map Element.representative).foldl g v % m.value)) := by
  induction l generalizing v with
  | nil => exact Counted.yields_pure.2 rfl
  | cons b rest ih =>
    obtain ⟨first, others⟩ := List.forall_mem_cons.1 fits
    have total := step (represents_residue env m v) first.represents
    rw [List.foldlM_cons, List.map_cons, List.foldl_cons]
    exact Counted.yields_bind.2 ⟨_, yields_orPanic.2 total, ih others⟩

omit active in
/-- A fold of residues is the fold of the integers behind them, reduced once. -/
theorem yields_fold {x : Making Element} {op : Ambient → Element → Element → Operation Element}
    {g : Int → Int → Int} (start : Yields x (env.residue m (v % m.value)))
    (step : ∀ {a b v w}, Represents m a v → Represents m b w →
      Yields (op env a b) (env.residue m (g v w % m.value)))
    (fits : ∀ b ∈ l, b.Fits m) :
    Yields (do l.foldlM (fun total b => orPanic (op env total b)) (← makeOrPanic x))
      (env.residue m ((l.map Element.representative).foldl g v % m.value)) :=
  Counted.yields_bind.2 ⟨_, yields_makeOrPanic.2 start, yields_foldlM step fits⟩

theorem yields_sum (fits : ∀ a ∈ l, a.Fits m) :
    Yields (sum env l) (env.residue m ((l.map Element.representative).sum % m.value)) := by
  have start : Yields (zero env) (env.residue m (0 % m.value)) := by
    rw [yields_zero_of_active active, Int.zero_emod]
  rw [List.sum_eq_foldl]
  exact yields_fold start (yields_add_of_represents active) fits

theorem yields_product (fits : ∀ a ∈ l, a.Fits m) :
    Yields (product env l) (env.residue m ((l.map Element.representative).prod % m.value)) := by
  have start : Yields (one env) (env.residue m (1 % m.value)) := by
    rw [yields_one_of_active active]
  rw [List.prod_eq_foldl]
  exact yields_fold start (yields_mul_of_represents active) fits

end

/-- The first number of a fold is made before anything is folded. -/
theorem refuses_fold {x : Making Element} {step : Element → Element → Operation Element}
    {d : Refusal} (refused : Refuses x d) :
    Refuses (do l.foldlM step (← makeOrPanic x)) (.operatorPanic d) :=
  Counted.refuses_bind.2 (.inl (Counted.refuses_adapt.2 ⟨d, refused, rfl⟩))

theorem refuses_sum (inactive : env.active = none) :
    Refuses (sum env l) (.operatorPanic .uninitialized) :=
  refuses_fold (refuses_zero.2 ⟨inactive, rfl⟩)

theorem refuses_product (inactive : env.active = none) :
    Refuses (product env l) (.operatorPanic .uninitialized) :=
  refuses_fold (refuses_one.2 ⟨inactive, rfl⟩)

end Element

end AmbientResidue
