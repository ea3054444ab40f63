import AmbientResidue.Proofs.Cost
import AmbientResidue.Proofs.Element.Refusals
import AmbientResidue.Proofs.Element.Sampling

/-! # What operations on residues cost

An operation that yields a residue has a price that depends on the operation alone: on neither its
operands nor the modulus. Looking for an inverse costs the same whether or not there is one, and a
division that finds none stops there. -/

namespace AmbientResidue

open Counted (Yields Refuses)

namespace Modulus

variable (m : Modulus) (a b : Int)

@[simp] theorem cost_reduce : (m.reduce a).cost = { reductions := 1 } := rfl

@[simp] theorem cost_add : (m.add a b).cost = { adds := 1, reductions := 1 } := rfl

@[simp] theorem cost_sub : (m.sub a b).cost = { subs := 1, reductions := 1 } := rfl

@[simp] theorem cost_mul : (m.mul a b).cost = { mults := 1, reductions := 1 } := rfl

/-- Negation subtracts from a zero that is made for it. -/
@[simp] theorem cost_neg : (m.neg a).cost = { subs := 1, reductions := 1, fromInt64 := 1 } := rfl

@[simp] theorem cost_inverse? : (m.inverse? a).cost = { inverses := 1 } := rfl

end Modulus

namespace Element

/-- What the operation costs if it yields a residue. -/
def Unary.price : Unary → Tally
  | .neg => { subs := 1, reductions := 1, fromInt64 := 1 }
  | .square => { mults := 1, reductions := 1 }
  | .invert => { inverses := 1 }

def Binary.price : Binary → Tally
  | .add => { adds := 1, reductions := 1 }
  | .sub => { subs := 1, reductions := 1 }
  | .mul => { mults := 1, reductions := 1 }
  | .div => { mults := 1, reductions := 1, inverses := 1 }

variable {env : Ambient} {m : Modulus} {a b r : Element} {e : Fault}

theorem checkTag_of_fits (fits : a.Fits m) : a.checkTag m = .ok () := checkTag_eq_ok.2 fits

section

variable (active : env.active = some m)

include active

theorem cost_unary {op : Modulus → Int → Counted Int} (fits : a.Fits m) :
    (unary env op a).run.cost = (op m a.representative).cost := by
  simp [unary, modulusForOperation_of_active active, checkTag_of_fits fits]

theorem cost_binary {op : Modulus → Int → Int → Counted Int} (left : a.Fits m) (right : b.Fits m) :
    (binary env op a b).run.cost = (op m a.representative b.representative).cost := by
  simp [binary, modulusForOperation_of_active active, checkTag_of_fits left, checkTag_of_fits right]

/-- There need be no inverse. -/
theorem cost_invert (fits : a.Fits m) : (invert env a).run.cost = { inverses := 1 } := by
  simp only [invert, modulusForOperation_of_active active, checkTag_of_fits fits,
    Counted.free_ok_bind, Counted.cost_sure_bind, Modulus.cost_inverse?]
  cases (m.inverse? a.representative).value <;> rfl

/-- A divisor without an inverse ends the division before anything is multiplied. -/
theorem cost_div_of_refuses (left : a.Fits m) (right : b.Fits m) (h : Refuses (div env a b) e) :
    (div env a b).run.cost = { inverses := 1 } := by
  have passes : a.checkTag m = .ok () := checkTag_of_fits left
  rw [refuses_div active, passes] at h
  rcases h with stopped | ⟨-, -, stale⟩
  · rw [div, Counted.cost_bind_of_refuses stopped, cost_invert active right]
  · cases stale

end

theorem Unary.cost_of_yields {op : Unary} (h : Yields (op.method env a) r) :
    (op.method env a).run.cost = op.price := by
  cases op with
  | neg =>
    obtain ⟨m, active, fits, -⟩ := yields_unary.1 h
    exact cost_unary active fits
  | square =>
    obtain ⟨m, active, fits, -⟩ := yields_unary.1 h
    exact cost_unary active fits
  | invert =>
    obtain ⟨m, v, active, fits, -⟩ := yields_invert.1 h
    exact cost_invert active fits

theorem Binary.cost_of_yields {op : Binary} (h : Yields (op.method env a b) r) :
    (op.method env a b).run.cost = op.price := by
  cases op with
  | add | sub | mul =>
    obtain ⟨m, active, left, right, -⟩ := yields_binary.1 h
    exact cost_binary active left right
  | div =>
    obtain ⟨inverse, inverted, multiplied⟩ := yields_div.1 h
    obtain ⟨m, v, active, right, -, -⟩ := yields_invert.1 inverted
    obtain ⟨n, active', left, fresh, -⟩ := yields_mul.1 multiplied
    obtain rfl : m = n := Option.some.inj (active.symm.trans active')
    show (Element.div env a b).run.cost = _
    rw [Element.div, Counted.cost_bind_of_yields inverted, cost_invert active right,
      Element.mul, cost_binary active left fresh]
    rfl

/-! ## Folds -/

section

variable (active : env.active = some m)

include active

/-- One operation for each residue. -/
theorem cost_foldlM {op : Modulus → Int → Int → Counted Int} {price : Tally}
    (each : ∀ v w, (op m v w).cost = price) {l : List Element} (start : a.Fits m)
    (fits : ∀ b ∈ l, b.Fits m) :
    (l.foldlM (fun total b => Element.orPanic (binary env op total b)) a).run.cost =
      .times l.length price := by
  induction l generalizing a with
  | nil => simp
  | cons b rest ih =>
    obtain ⟨first, others⟩ := List.forall_mem_cons.1 fits
    have total : Yields (Element.orPanic (binary env op a b)) _ :=
      yields_orPanic.2 (yields_binary.2 ⟨m, active, start, first, rfl⟩)
    rw [List.foldlM_cons, Counted.cost_bind_of_yields total, ih (fits_residue _) others, orPanic,
      Counted.cost_adapt, cost_binary active start first, each, List.length_cons, Tally.times_succ]

theorem cost_zero : (zero env).run.cost = { fromInt64 := 1 } := by
  simp [zero, Ambient.modulus_eq_ok.2 active]
  rfl

theorem cost_one : (one env).run.cost = { fromInt64 := 1, reductions := 1 } := by
  simp [one, ofInt64, ofInt, Ambient.modulus_eq_ok.2 active]
  rfl

theorem cost_fold {op : Modulus → Int → Int → Counted Int} {x : Making Element} {v : Int}
    {price : Tally} (each : ∀ v w, (op m v w).cost = price) {l : List Element}
    (starts : Yields x (env.residue m v)) (fits : ∀ b ∈ l, b.Fits m) :
    (do l.foldlM (fun total b => Element.orPanic (binary env op total b)) (← makeOrPanic x) :
      Operation Element).run.cost = x.run.cost + .times l.length price := by
  rw [Counted.cost_bind_of_yields (yields_makeOrPanic.2 starts), makeOrPanic, Counted.cost_adapt,
    cost_foldlM active each (fits_residue v) fits]

theorem cost_sum {l : List Element} (fits : ∀ a ∈ l, a.Fits m) :
    (sum env l).run.cost = { adds := l.length, reductions := l.length, fromInt64 := 1 } := by
  have steps := cost_fold active (m.cost_add) ((yields_zero_of_active active).2 rfl) fits
  refine steps.trans ?_
  rw [cost_zero active]
  ext <;> simp [Tally.times]

/-- One is reduced before anything is multiplied by it. -/
theorem cost_product {l : List Element} (fits : ∀ a ∈ l, a.Fits m) :
    (product env l).run.cost =
      { mults := l.length, reductions := l.length + 1, fromInt64 := 1 } := by
  have steps := cost_fold active (m.cost_mul) ((yields_one_of_active active).2 rfl) fits
  refine steps.trans ?_
  rw [cost_one active]
  ext <;> simp [Tally.times, Nat.add_comm]

end

end Element

/-! ## Random residues -/

namespace Modulus

variable (m : Modulus) {source : ByteSource} {j k : Nat}

theorem cost_firstBelow_succ (source : ByteSource) (fuel k : Nat) :
    (m.firstBelow source (fuel + 1) k).cost = { fromBytes := 1 } +
      if m.contains (m.candidate source k) then 0 else (m.firstBelow source fuel (k + 1)).cost := by
  rw [firstBelow]
  show { fromBytes := 1 } +
    (ite (m.contains (m.candidate source k)) _ _ : Counted _).cost = _
  split <;> rfl

/-- Every block is read once, up to the one that is taken. -/
theorem cost_firstBelow (first : m.First source j) {fuel : Nat} (reached : j < k + fuel)
    (before : k ≤ j) : (m.firstBelow source fuel k).cost = { fromBytes := j + 1 - k } := by
  induction fuel generalizing k with
  | zero => omega
  | succ fuel ih =>
    rw [cost_firstBelow_succ]
    by_cases last : k = j
    · subst last
      rw [if_pos (contains_candidate.2 first.below), Tally.add_zero]
      simp
    · have above : ¬ m.contains (m.candidate source k) = true := by
        rw [contains_candidate]
        exact Int.not_lt.2 (first.before k (by omega))
      rw [if_neg above, ih (by omega) (by omega)]
      ext <;> simp
      omega

end Modulus

namespace Element

variable {env : Ambient} {m : Modulus} {k : Nat}

theorem cost_sample (active : env.active = some m) {source : ByteSource} (first : m.First source k)
    {fuel : Nat} (reached : k < fuel) :
    (sample env source fuel).run.cost = { fromBytes := k + 1 } := by
  have blocks : (m.firstBelow source fuel 0).cost = { fromBytes := k + 1 } :=
    m.cost_firstBelow first (by omega) (Nat.zero_le k)
  rw [sample, Ambient.modulus_eq_ok.2 active, Counted.free_ok_bind, Counted.cost_sure_bind, blocks]
  cases (m.firstBelow source fuel 0).value <;> rfl

theorem cost_random (active : env.active = some m) {bytes : List UInt8}
    (first : m.First (ByteSource.ofList bytes) k) :
    (random env bytes).run.cost = { fromBytes := k + 1 } := by
  have blocks : (m.draw bytes).cost = { fromBytes := k + 1 } :=
    m.cost_firstBelow first (by have := first.le_length; omega) (Nat.zero_le k)
  rw [random, Ambient.modulus_eq_ok.2 active, Counted.free_ok_bind, Counted.cost_sure_bind, blocks]
  rfl

end Element

end AmbientResidue
