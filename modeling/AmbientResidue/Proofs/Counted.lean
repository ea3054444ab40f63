import AmbientResidue.Tally

/-! # What a priced computation comes to

Only values matter here, not prices. Each way of putting computations together has one equivalence
for success and one for refusal, so that simplification reads off what a computation comes to from
what its parts come to. -/

namespace AmbientResidue.Counted

variable {ε δ α β : Type}

theorem mapError_eq_ok {x : Except ε α} {f : ε → δ} {a : α} :
    x.mapError f = .ok a ↔ x = .ok a := by
  cases x with
  | ok b => constructor <;> (intro h; cases h; rfl)
  | error e => constructor <;> (intro h; cases h)

@[simp] theorem value_map (f : α → β) (x : Counted α) : (f <$> x).value = f x.value := rfl

@[simp] theorem cost_map (f : α → β) (x : Counted α) : (f <$> x).cost = x.cost :=
  Tally.add_zero x.cost

/-- The computation succeeds with the value. -/
def Yields (x : ExceptT ε Counted α) (a : α) : Prop := x.run.value = .ok a

theorem yields_unique {x : ExceptT ε Counted α} {a b : α} (h : Yields x a) (k : Yields x b) :
    a = b := Except.ok.inj (h.symm.trans k)

@[simp] theorem yields_pure {a b : α} : Yields (pure a : ExceptT ε Counted α) b ↔ b = a := by
  simp [Yields, eq_comm]

@[simp] theorem yields_throw {e : ε} {a : α} :
    Yields (throw e : ExceptT ε Counted α) a ↔ False := by
  simp [Yields]

@[simp] theorem yields_sure {x : Counted α} {a : α} :
    Yields (sure x : ExceptT ε Counted α) a ↔ a = x.value := by
  simp [Yields, sure, eq_comm]

@[simp] theorem yields_free {x : Except ε α} {a : α} : Yields (free x) a ↔ x = .ok a := Iff.rfl

@[simp] theorem yields_bind {x : ExceptT ε Counted α} {f : α → ExceptT ε Counted β} {b : β} :
    Yields (x >>= f) b ↔ ∃ a, Yields x a ∧ Yields (f a) b := by
  simp only [Yields, ExceptT.run_bind, value_bind]
  cases x.run.value <;> simp

@[simp] theorem yields_map {x : ExceptT ε Counted α} {f : α → β} {b : β} :
    Yields (f <$> x) b ↔ ∃ a, Yields x a ∧ b = f a := by
  rw [← bind_pure_comp, yields_bind]
  simp only [yields_pure]

@[simp] theorem yields_adapt {x : ExceptT ε Counted α} {f : ε → δ} {a : α} :
    Yields (x.adapt f) a ↔ Yields x a := by
  show x.run.value.mapError f = .ok a ↔ x.run.value = .ok a
  exact mapError_eq_ok

/-- What has succeeded for free does not show. -/
@[simp] theorem free_ok_bind (a : α) (f : α → ExceptT ε Counted β) : free (.ok a) >>= f = f a :=
  pure_bind a f

/-! ## Refusals -/

theorem mapError_eq_error {x : Except ε α} {f : ε → δ} {d : δ} :
    x.mapError f = .error d ↔ ∃ e, x = .error e ∧ d = f e := by
  cases x with
  | ok a =>
    constructor
    · intro h
      cases h
    · rintro ⟨_, h, -⟩
      cases h
  | error e =>
    constructor
    · intro h
      cases h
      exact ⟨e, rfl, rfl⟩
    · rintro ⟨_, h, rfl⟩
      cases h
      rfl

/-- The computation ends with the error. -/
def Refuses (x : ExceptT ε Counted α) (e : ε) : Prop := x.run.value = .error e

@[simp] theorem refuses_pure {a : α} {e : ε} :
    Refuses (pure a : ExceptT ε Counted α) e ↔ False := by
  simp [Refuses]

@[simp] theorem refuses_throw {e d : ε} :
    Refuses (throw e : ExceptT ε Counted α) d ↔ d = e := by
  simp [Refuses, eq_comm]

@[simp] theorem refuses_sure {x : Counted α} {e : ε} :
    Refuses (sure x : ExceptT ε Counted α) e ↔ False := by
  simp [Refuses, sure]

@[simp] theorem refuses_free {x : Except ε α} {e : ε} : Refuses (free x) e ↔ x = .error e := Iff.rfl

@[simp] theorem refuses_bind {x : ExceptT ε Counted α} {f : α → ExceptT ε Counted β} {e : ε} :
    Refuses (x >>= f) e ↔ Refuses x e ∨ ∃ a, Yields x a ∧ Refuses (f a) e := by
  simp only [Refuses, Yields, ExceptT.run_bind, value_bind]
  cases x.run.value <;> simp

@[simp] theorem refuses_map {x : ExceptT ε Counted α} {f : α → β} {e : ε} :
    Refuses (f <$> x) e ↔ Refuses x e := by
  rw [← bind_pure_comp, refuses_bind]
  simp only [refuses_pure, and_false, exists_false, or_false]

@[simp] theorem refuses_adapt {x : ExceptT ε Counted α} {f : ε → δ} {d : δ} :
    Refuses (x.adapt f) d ↔ ∃ e, Refuses x e ∧ d = f e := by
  show x.run.value.mapError f = .error d ↔ ∃ e, x.run.value = .error e ∧ d = f e
  exact mapError_eq_error

theorem yields_or_refuses (x : ExceptT ε Counted α) : (∃ a, Yields x a) ∨ ∃ e, Refuses x e := by
  cases h : x.run.value with
  | ok a => exact .inl ⟨a, h⟩
  | error e => exact .inr ⟨e, h⟩

/-! ## Computations that say the same -/

/-- `y` comes to what `x` comes to, seen through `f`. Nothing is said where `x` ends with an excused
error. -/
structure Echoes (excused : ε → Prop) (f : α → β) (x : ExceptT ε Counted α)
    (y : ExceptT ε Counted β) : Prop where
  yields : ∀ {a}, Yields x a → Yields y (f a)
  refuses : ∀ {e}, Refuses x e → ¬ excused e → Refuses y e

namespace Echoes

variable {γ : Type} {excused : ε → Prop} {f : α → β}

theorem refl (x : ExceptT ε Counted α) : Echoes excused id x x where
  yields h := h
  refuses h _ := h

theorem pure {a : α} {b : β} (h : b = f a) :
    Echoes excused f (Pure.pure a : ExceptT ε Counted α) (Pure.pure b) where
  yields made := by rw [yields_pure] at made ⊢; rw [made, h]
  refuses refused := (refuses_pure.1 refused).elim

theorem throw (e : ε) :
    Echoes excused f (MonadExcept.throw e : ExceptT ε Counted α) (MonadExcept.throw e) where
  yields made := (yields_throw.1 made).elim
  refuses refused _ := refuses_throw.2 (refuses_throw.1 refused)

theorem bind {ρ : Type} {x : ExceptT ε Counted α} {y : ExceptT ε Counted β}
    {g : α → ExceptT ε Counted γ} {h : β → ExceptT ε Counted ρ} {k : γ → ρ}
    (first : Echoes excused f x y) (next : ∀ a, Echoes excused k (g a) (h (f a))) :
    Echoes excused k (x >>= g) (y >>= h) where
  yields made := by
    obtain ⟨a, made, rest⟩ := yields_bind.1 made
    exact yields_bind.2 ⟨f a, first.yields made, (next a).yields rest⟩
  refuses refused other := by
    rcases refuses_bind.1 refused with early | ⟨a, made, late⟩
    · exact refuses_bind.2 (.inl (first.refuses early other))
    · exact refuses_bind.2 (.inr ⟨f a, first.yields made, (next a).refuses late other⟩)

/-- A part that both computations share. -/
theorem shared {ρ : Type} (x : ExceptT ε Counted γ) {g : γ → ExceptT ε Counted α}
    {h : γ → ExceptT ε Counted ρ} {k : α → ρ} (next : ∀ c, Echoes excused k (g c) (h c)) :
    Echoes excused k (x >>= g) (x >>= h) :=
  (refl x).bind next

theorem map {ρ : Type} {x : ExceptT ε Counted α} {y : ExceptT ε Counted β} {g : α → γ}
    {h : β → ρ} {k : γ → ρ} (first : Echoes excused f x y) (next : ∀ a, h (f a) = k (g a)) :
    Echoes excused k (g <$> x) (h <$> y) := by
  rw [← bind_pure_comp, ← bind_pure_comp]
  exact first.bind fun a => .pure (next a)

theorem adapt {x : ExceptT ε Counted α} {y : ExceptT ε Counted β} {blame : ε → δ}
    {pardoned : δ → Prop} (h : Echoes (fun e => pardoned (blame e)) f x y) :
    Echoes pardoned f (x.adapt blame) (y.adapt blame) where
  yields made := yields_adapt.2 (h.yields (yields_adapt.1 made))
  refuses refused other := by
    obtain ⟨e, cause, rfl⟩ := refuses_adapt.1 refused
    exact refuses_adapt.2 ⟨e, h.refuses cause other, rfl⟩

theorem weaken {pardoned : ε → Prop} {x : ExceptT ε Counted α} {y : ExceptT ε Counted β}
    (h : Echoes excused f x y) (more : ∀ e, excused e → pardoned e) : Echoes pardoned f x y where
  yields := h.yields
  refuses refused other := h.refuses refused fun e => other (more _ e)

end Echoes

end AmbientResidue.Counted
