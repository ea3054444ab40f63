import AmbientResidue.Proofs.Counted

/-! # What a priced computation costs

The parts that ran are paid for. A part that ends with an error is paid for as well, and nothing
after it is. -/

namespace AmbientResidue

namespace Tally

/-- The price of some operations of the same price. -/
def times (n : Nat) (t : Tally) : Tally where
  adds := n * t.adds
  subs := n * t.subs
  mults := n * t.mults
  reductions := n * t.reductions
  inverses := n * t.inverses
  fromInt64 := n * t.fromInt64
  fromDecimal := n * t.fromDecimal
  fromBytes := n * t.fromBytes

@[simp] theorem times_zero (t : Tally) : times 0 t = 0 := by
  ext <;> simp [times]

theorem times_succ (n : Nat) (t : Tally) : times (n + 1) t = t + times n t := by
  ext <;> simp [times, Nat.succ_mul, Nat.add_comm]

end Tally

namespace Counted

variable {ε δ α β : Type}

@[simp] theorem cost_sure (x : Counted α) : (sure x : ExceptT ε Counted α).run.cost = x.cost :=
  cost_map Except.ok x

@[simp] theorem cost_adapt (x : ExceptT ε Counted α) (f : ε → δ) :
    (x.adapt f).run.cost = x.run.cost := cost_map (·.mapError f) x.run

theorem cost_bind_of_yields {x : ExceptT ε Counted α} {f : α → ExceptT ε Counted β} {a : α}
    (h : Yields x a) : (x >>= f).run.cost = x.run.cost + (f a).run.cost := by
  rw [ExceptT.run_bind, cost_bind, show x.run.value = .ok a from h]

theorem cost_bind_of_refuses {x : ExceptT ε Counted α} {f : α → ExceptT ε Counted β} {e : ε}
    (h : Refuses x e) : (x >>= f).run.cost = x.run.cost := by
  rw [ExceptT.run_bind, cost_bind, show x.run.value = .error e from h]
  exact Tally.add_zero _

@[simp] theorem cost_sure_bind (x : Counted α) (f : α → ExceptT ε Counted β) :
    (sure x >>= f).run.cost = x.cost + (f x.value).run.cost := by
  rw [cost_bind_of_yields (yields_sure.2 rfl), cost_sure]

end Counted

end AmbientResidue
