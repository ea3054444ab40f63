import AmbientResidue.Proofs.Outcome

/-! # Two computations side by side

Started from related states, two computations end in the same way, with related answers or with the
same error, and in related states again. -/

namespace AmbientResidue

variable {ε σ α β γ δ : Type}

/-- `x` and `y` keep states related by `R` and answer alike, up to `Q`. -/
def Tracks (R : σ → σ → Prop) (Q : α → β → Prop) (x : EStateM ε σ α) (y : EStateM ε σ β) : Prop :=
  ∀ ⦃s t⦄, R s t →
    (∃ a s' b t', Returns x s a s' ∧ Returns y t b t' ∧ Q a b ∧ R s' t') ∨
      ∃ e s' t', Fails x s e s' ∧ Fails y t e t' ∧ R s' t'

/-- From these two states, `x` and `y` end in the same way: with answers related by `Q` or with the
same error, in states related by `R`. -/
def Meets (R : σ → σ → Prop) (Q : α → β → Prop) (x : EStateM ε σ α) (y : EStateM ε σ β) (s t : σ) :
    Prop :=
  (∃ a s' b t', Returns x s a s' ∧ Returns y t b t' ∧ Q a b ∧ R s' t') ∨
    ∃ e s' t', Fails x s e s' ∧ Fails y t e t' ∧ R s' t'

variable {R : σ → σ → Prop} {Q : α → β → Prop} {P : γ → δ → Prop}

namespace Meets

variable {x : EStateM ε σ α} {y : EStateM ε σ β} {f : α → EStateM ε σ γ} {g : β → EStateM ε σ δ}
variable {s s' t t' : σ} {a : α} {b : β} {e : ε}

/-- Both go on from where their first parts have answered. -/
theorem andThen (hx : Returns x s a s') (hy : Returns y t b t')
    (rest : Meets R P (f a) (g b) s' t') : Meets R P (x >>= f) (y >>= g) s t := by
  rcases rest with ⟨c, u, d, w, fx, gy, p, r⟩ | ⟨e, u, w, fx, gy, r⟩
  · exact .inl ⟨c, u, d, w, hx.andThen fx, hy.andThen gy, p, r⟩
  · exact .inr ⟨e, u, w, hx.andFail fx, hy.andFail gy, r⟩

theorem first (hx : Fails x s e s') (hy : Fails y t e t') (r : R s' t') :
    Meets R P (x >>= f) (y >>= g) s t := .inr ⟨e, s', t', hx.first, hy.first, r⟩

theorem bind (hx : Meets R Q x y s t) (hf : ∀ a b, Q a b → Tracks R P (f a) (g b)) :
    Meets R P (x >>= f) (y >>= g) s t := by
  rcases hx with ⟨a, s₁, b, t₁, x₁, y₁, q, r₁⟩ | ⟨e, s₁, t₁, x₁, y₁, r₁⟩
  · exact andThen x₁ y₁ (hf a b q r₁)
  · exact first x₁ y₁ r₁

end Meets

namespace Tracks

theorem pure {a : α} {b : β} (h : Q a b) :
    Tracks R Q (Pure.pure a : EStateM ε σ α) (Pure.pure b) :=
  fun s t r => .inl ⟨a, s, b, t, rfl, rfl, h, r⟩

theorem get : Tracks R R (MonadState.get : EStateM ε σ σ) MonadState.get :=
  fun s t r => .inl ⟨s, s, t, t, rfl, rfl, r, r⟩

theorem update {f g : σ → σ} (h : ∀ ⦃s t⦄, R s t → R (f s) (g t)) :
    Tracks R Eq (modify f : EStateM ε σ PUnit) (modify g) :=
  fun s t r => .inl ⟨⟨⟩, f s, ⟨⟩, g t, rfl, rfl, rfl, h r⟩

theorem bind {x : EStateM ε σ α} {y : EStateM ε σ β} {f : α → EStateM ε σ γ}
    {g : β → EStateM ε σ δ} (hx : Tracks R Q x y) (hf : ∀ a b, Q a b → Tracks R P (f a) (g b)) :
    Tracks R P (x >>= f) (y >>= g) :=
  fun _ _ r => Meets.bind (hx r) hf

theorem meets {x : EStateM ε σ α} {y : EStateM ε σ β} {s t : σ} (h : Tracks R Q x y) (r : R s t) :
    Meets R Q x y s t := h r

/-- After the same answer the same computation goes on. -/
theorem same {x y : EStateM ε σ α} {f : α → EStateM ε σ γ} {g : α → EStateM ε σ δ}
    (hx : Tracks R Eq x y) (hf : ∀ a, Tracks R P (f a) (g a)) :
    Tracks R P (x >>= f) (y >>= g) :=
  hx.bind fun a _ q => q ▸ hf a

end Tracks

/-! ## Computations and their images

States are seen through a function that leaves something out, and answers through another. -/

variable {view : σ → σ} {excused : ε → Prop} {f : α → β} {g : γ → δ}

/-- On what is seen of a state, `y` does what is seen of what `x` does. Nothing is said where `x`
fails in an excused way. -/
structure Mirrors (view : σ → σ) (excused : ε → Prop) (f : α → β) (x : EStateM ε σ α)
    (y : EStateM ε σ β) : Prop where
  returns : ∀ {s a t}, Returns x s a t → Returns y (view s) (f a) (view t)
  fails : ∀ {s e t}, Fails x s e t → ¬ excused e → Fails y (view s) e (view t)

namespace Mirrors

theorem pure {a : α} {b : β} (h : b = f a) :
    Mirrors view excused f (Pure.pure a : EStateM ε σ α) (Pure.pure b) where
  returns r := by
    obtain ⟨rfl, rfl⟩ := r.pure
    rw [h]
    rfl
  fails r := (Sure.pure a).elim r

theorem get : Mirrors view excused view (MonadState.get : EStateM ε σ σ) MonadState.get where
  returns r := by
    obtain ⟨rfl, rfl⟩ := Returns.of_get r
    rfl
  fails r := Sure.get.elim r

theorem update {h k : σ → σ} (same : ∀ s, view (h s) = k (view s)) :
    Mirrors view excused id (modify h : EStateM ε σ PUnit) (modify k) where
  returns r := by
    obtain rfl := Returns.of_modify r
    rw [same]
    rfl
  fails r := (Sure.modifyGet _).elim r

theorem modifyGet {h k : σ → α × σ} (same : ∀ s, k (view s) = ((h s).1, view (h s).2)) :
    Mirrors view excused id (MonadState.modifyGet h : EStateM ε σ α) (MonadState.modifyGet k) where
  returns {s _ _} r := by
    cases r
    show EStateM.Result.ok (k (view s)).1 (k (view s)).2 = _
    rw [same]
    rfl
  fails r := (Sure.modifyGet _).elim r

theorem fail {x : EStateM ε σ α} {y : EStateM ε σ β} (e : ε) (hx : ∀ s, Fails x s e s)
    (hy : ∀ s, Fails y s e s) : Mirrors view excused f x y where
  returns {s _ _} r := by
    have failed := hx s
    rw [Returns] at r
    rw [Fails, r] at failed
    cases failed
  fails {s _ _} r _ := by
    have failed := hx s
    rw [Fails] at r
    rw [Fails, r] at failed
    cases failed
    exact hy (view s)

theorem bind {x : EStateM ε σ α} {y : EStateM ε σ β} {h : α → EStateM ε σ γ}
    {k : β → EStateM ε σ δ} (first : Mirrors view excused f x y)
    (next : ∀ a, Mirrors view excused g (h a) (k (f a))) :
    Mirrors view excused g (x >>= h) (y >>= k) where
  returns r := by
    obtain ⟨a, t, r₁, r₂⟩ := Returns.bind r
    exact (first.returns r₁).andThen ((next a).returns r₂)
  fails r other := by
    rcases Fails.bind r with early | ⟨a, t, r₁, late⟩
    · exact (first.fails early other).first
    · exact (first.returns r₁).andFail ((next a).fails late other)

end Mirrors

/-! ## Lists that go together until one stops -/

/-- The second list is the image of the first one up to the first entry that has stopped, that entry
included. What follows it may be anything. -/
inductive Abreast (stopped : α → Prop) (f : α → β) : List α → List β → Prop where
  | nil : Abreast stopped f [] []
  | cons {a l k} : ¬ stopped a → Abreast stopped f l k → Abreast stopped f (a :: l) (f a :: k)
  | stop {a l k} : stopped a → Abreast stopped f (a :: l) (f a :: k)

namespace Abreast

variable {stopped : α → Prop} {f : α → β} {l l' : List α} {k k' : List β}

theorem append (h : Abreast stopped f l k)
    (more : (∀ a ∈ l, ¬ stopped a) → Abreast stopped f l' k') :
    Abreast stopped f (l ++ l') (k ++ k') := by
  induction h with
  | nil => exact more fun _ ha => (List.not_mem_nil ha).elim
  | cons ha _ ih =>
    refine .cons ha (ih fun rest => more fun b hb => ?_)
    rcases List.mem_cons.1 hb with rfl | hb
    · exact ha
    · exact rest b hb
  | stop ha => exact .stop ha

/-- The second list has the images of what comes before an entry, and of that entry. -/
theorem split {earlier later : List α} {a : α} (h : Abreast stopped f (earlier ++ a :: later) k)
    (go : ∀ b ∈ earlier, ¬ stopped b) : ∃ rest, k = earlier.map f ++ f a :: rest := by
  induction earlier generalizing k with
  | nil => cases h <;> exact ⟨_, rfl⟩
  | cons b earlier ih =>
    cases h with
    | cons _ h =>
      obtain ⟨rest, rfl⟩ := ih h fun c hc => go c (List.mem_cons_of_mem b hc)
      exact ⟨rest, rfl⟩
    | stop hb => exact absurd hb (go b List.mem_cons_self)

end Abreast

end AmbientResidue
