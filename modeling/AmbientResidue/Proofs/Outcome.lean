/-! # How stateful computations end

A computation returns or fails, and leaves a state in both cases. A sequence is taken apart into
the parts that ran. -/

namespace AmbientResidue

variable {ε σ α β : Type}

/-- The computation answers `a` from state `s` and leaves `t`. -/
def Returns (x : EStateM ε σ α) (s : σ) (a : α) (t : σ) : Prop := x.run s = .ok a t

/-- The computation fails with `e` from state `s` and leaves `t`. -/
def Fails (x : EStateM ε σ α) (s : σ) (e : ε) (t : σ) : Prop := x.run s = .error e t

theorem Returns.pure {a b : α} {s t : σ} (h : Returns (Pure.pure a : EStateM ε σ α) s b t) :
    b = a ∧ t = s := by
  cases h
  exact ⟨rfl, rfl⟩

theorem Returns.bind {x : EStateM ε σ α} {f : α → EStateM ε σ β} {b : β} {s u : σ}
    (h : Returns (x >>= f) s b u) : ∃ a t, Returns x s a t ∧ Returns (f a) t b u := by
  simp only [Returns, EStateM.run_bind] at h
  split at h
  · next a t hx => exact ⟨a, t, hx, h⟩
  · cases h

theorem Returns.andThen {x : EStateM ε σ α} {f : α → EStateM ε σ β} {a : α} {b : β} {s t u : σ}
    (hx : Returns x s a t) (hf : Returns (f a) t b u) : Returns (x >>= f) s b u := by
  rw [Returns] at hx hf ⊢
  rw [EStateM.run_bind, hx]
  exact hf

theorem Returns.andFail {x : EStateM ε σ α} {f : α → EStateM ε σ β} {a : α} {e : ε} {s t u : σ}
    (hx : Returns x s a t) (hf : Fails (f a) t e u) : Fails (x >>= f) s e u := by
  rw [Returns] at hx
  rw [Fails] at hf ⊢
  rw [EStateM.run_bind, hx]
  exact hf

theorem Fails.first {x : EStateM ε σ α} {f : α → EStateM ε σ β} {e : ε} {s t : σ}
    (hx : Fails x s e t) : Fails (x >>= f) s e t := by
  rw [Fails] at hx ⊢
  rw [EStateM.run_bind, hx]

theorem Returns.of_get {s t a : σ} (h : Returns (get : EStateM ε σ σ) s a t) :
    a = s ∧ t = s := by
  cases h
  exact ⟨rfl, rfl⟩

theorem Returns.of_modify {f : σ → σ} {s t : σ} {u : PUnit}
    (h : Returns (modify f : EStateM ε σ PUnit) s u t) : t = f s := by
  cases h
  rfl

theorem Fails.bind {x : EStateM ε σ α} {f : α → EStateM ε σ β} {e : ε} {s u : σ}
    (h : Fails (x >>= f) s e u) : Fails x s e u ∨ ∃ a t, Returns x s a t ∧ Fails (f a) t e u := by
  simp only [Fails, EStateM.run_bind] at h
  split at h
  · next a t hx => exact .inr ⟨a, t, hx, h⟩
  · next d t hx => cases h; exact .inl hx

/-- A sequence that fails after its first part has returned fails in what follows. -/
theorem Fails.rest {x : EStateM ε σ α} {f : α → EStateM ε σ β} {a : α} {e : ε} {s t u : σ}
    (h : Fails (x >>= f) s e u) (hx : Returns x s a t) : Fails (f a) t e u := by
  rw [Returns] at hx
  rw [Fails, EStateM.run_bind, hx] at h
  exact h

/-! ## Computations that cannot fail -/

def Sure (x : EStateM ε σ α) : Prop := ∀ ⦃s e t⦄, ¬ Fails x s e t

theorem Sure.elim {x : EStateM ε σ α} {s t : σ} {e : ε} {p : Prop} (hx : Sure x)
    (h : Fails x s e t) : p := absurd h (@hx s e t)

theorem Sure.pure (a : α) : Sure (Pure.pure a : EStateM ε σ α) := by
  intro s e t h
  cases h

theorem Sure.get : Sure (MonadState.get : EStateM ε σ σ) := by
  intro s e t h
  cases h

theorem Sure.modifyGet (f : σ → α × σ) : Sure (MonadState.modifyGet f : EStateM ε σ α) := by
  intro s e t h
  cases h

theorem Sure.bind {x : EStateM ε σ α} {f : α → EStateM ε σ β} (hx : Sure x)
    (hf : ∀ a, Sure (f a)) : Sure (x >>= f) := by
  intro s e u h
  rcases h.bind with h₁ | ⟨a, t, -, h₂⟩
  · exact hx h₁
  · exact hf a h₂

/-! ## Relations between the states before and after

A relation that composes is kept by a sequence when it is kept by its parts. -/

/-- Returning relates the state before to the state after. -/
def OnReturn (R : σ → σ → Prop) (x : EStateM ε σ α) : Prop := ∀ ⦃s a t⦄, Returns x s a t → R s t

/-- Failing relates the state before to the state after. -/
def OnFailure (R : σ → σ → Prop) (x : EStateM ε σ α) : Prop := ∀ ⦃s e t⦄, Fails x s e t → R s t

variable {R : σ → σ → Prop}

theorem OnReturn.pure (refl : ∀ s, R s s) (a : α) : OnReturn R (Pure.pure a : EStateM ε σ α) := by
  intro s b t h
  obtain ⟨-, rfl⟩ := h.pure
  exact refl t

theorem OnReturn.get (refl : ∀ s, R s s) : OnReturn R (MonadState.get : EStateM ε σ σ) := by
  intro s a t h
  obtain ⟨-, rfl⟩ := Returns.of_get h
  exact refl t

theorem OnReturn.bind (trans : ∀ s t u, R s t → R t u → R s u) {x : EStateM ε σ α}
    {f : α → EStateM ε σ β} (hx : OnReturn R x) (hf : ∀ a, OnReturn R (f a)) :
    OnReturn R (x >>= f) := by
  intro s b u h
  obtain ⟨a, t, h₁, h₂⟩ := h.bind
  exact trans _ _ _ (hx h₁) (hf a h₂)

theorem Sure.onFailure {x : EStateM ε σ α} (hx : Sure x) : OnFailure R x := by
  intro s e t h
  exact hx.elim h

theorem OnFailure.bind (trans : ∀ s t u, R s t → R t u → R s u) {x : EStateM ε σ α}
    {f : α → EStateM ε σ β} (hx : OnFailure R x) (rx : OnReturn R x) (hf : ∀ a, OnFailure R (f a)) :
    OnFailure R (x >>= f) := by
  intro s e u h
  rcases h.bind with h₁ | ⟨a, t, h₁, h₂⟩
  · exact hx h₁
  · exact trans _ _ _ (rx h₁) (hf a h₂)

/-- What comes last may do anything as long as it cannot fail. -/
theorem OnFailure.bind_sure {x : EStateM ε σ α} {f : α → EStateM ε σ β} (hx : OnFailure R x)
    (hf : ∀ a, Sure (f a)) : OnFailure R (x >>= f) := by
  intro s e u h
  rcases h.bind with h₁ | ⟨a, t, -, h₂⟩
  · exact hx h₁
  · exact (hf a).elim h₂

end AmbientResidue
