import AmbientResidue.Proofs.Context.Outcome
import AmbientResidue.Proofs.Simulation

/-! # Contexts side by side

The operations on a context see its active modulus only. Two contexts of two stores that have the
same one answer alike and go on having the same one, whatever their journals say and whatever else
the stores hold. -/

namespace AmbientResidue

namespace Store

/-- In related stores `c` and `d` have the same modulus. Writing the same modulus to both and writing
the journals keeps the stores related. -/
structure Pairs (R : Store → Store → Prop) (c d : ContextId) : Prop where
  active : ∀ ⦃s t⦄, R s t → t.active d = s.active c
  write : ∀ ⦃s t⦄, R s t → ∀ m, R (s.write c m) (t.write d m)
  kept : ∀ ⦃s t s₁ t₁⦄, R s t → Kept s s₁ → Kept t t₁ → R s₁ t₁

namespace Pairs

variable {R : Store → Store → Prop} {c d : ContextId}

theorem modulus (pairs : Pairs R c d) : Tracks R Eq (modulus c) (modulus d) := by
  intro s t h
  have same := pairs.active h
  cases hm : s.active c with
  | none => exact .inr ⟨_, s, t, fails_modulus hm, fails_modulus (same.trans hm), h⟩
  | some m => exact .inl ⟨m, s, m, t, returns_modulus hm, returns_modulus (same.trans hm), rfl, h⟩

theorem install (pairs : Pairs R c d) (v : Int) : Tracks R Eq (install c v) (install d v) := by
  intro s t h
  cases hv : Modulus.ofInt v with
  | ok m =>
    obtain ⟨s₁, r₁, k₁⟩ := returns_install hv c s
    obtain ⟨t₁, r₂, k₂⟩ := returns_install hv d t
    exact .inl ⟨_, s₁, _, t₁, r₁, r₂, rfl, pairs.kept (pairs.write h m) k₁ k₂⟩
  | error e =>
    obtain ⟨s₁, r₁, k₁⟩ := fails_install hv c s
    obtain ⟨t₁, r₂, k₂⟩ := fails_install hv d t
    exact .inr ⟨e, s₁, t₁, r₁, r₂, pairs.kept h k₁ k₂⟩

/-- The snapshots hold the same modulus, each for its own context. -/
theorem save (pairs : Pairs R c d) :
    Tracks R (fun p q => ∃ m, p = ⟨c, m⟩ ∧ q = ⟨d, m⟩) (save c) (save d) := by
  intro s t h
  have same := pairs.active h
  cases hm : s.active c with
  | none => exact .inr ⟨_, s, t, fails_save hm, fails_save (same.trans hm), h⟩
  | some m =>
    obtain ⟨s₁, r₁, k₁⟩ := returns_save hm
    obtain ⟨t₁, r₂, k₂⟩ := returns_save (same.trans hm)
    exact .inl ⟨_, s₁, _, t₁, r₁, r₂, ⟨m, rfl, rfl⟩, pairs.kept h k₁ k₂⟩

/-- Both snapshots are restored, or both are foreign. -/
theorem restore (pairs : Pairs R c d) {p q : Snapshot} (own : p.context = c ↔ q.context = d)
    (same : p.modulus = q.modulus) : Tracks R Eq (restore c p) (restore d q) := by
  intro s t h
  by_cases mine : p.context = c
  · obtain ⟨s₁, r₁, k₁⟩ := returns_restore mine s
    obtain ⟨t₁, r₂, k₂⟩ := returns_restore (own.1 mine) t
    rw [← same] at k₂
    exact .inl ⟨_, s₁, _, t₁, r₁, r₂, rfl, pairs.kept (pairs.write h _) k₁ k₂⟩
  · obtain ⟨s₁, r₁, k₁⟩ := fails_restore mine s
    obtain ⟨t₁, r₂, k₂⟩ := fails_restore (fun its => mine (own.2 its)) t
    exact .inr ⟨_, s₁, t₁, r₁, r₂, pairs.kept h k₁ k₂⟩

/-- The guards remember the same modulus, each for its own context. -/
theorem openScope (pairs : Pairs R c d) (v : Int) :
    Tracks R
      (fun g k => ∃ m : Option Modulus, g = ⟨c, m.map (⟨c, ·⟩)⟩ ∧ k = ⟨d, m.map (⟨d, ·⟩)⟩)
      (openScope c v) (openScope d v) := by
  intro s t h
  cases hv : Modulus.ofInt v with
  | ok m =>
    obtain ⟨s₁, r₁, k₁⟩ := returns_openScope hv c s
    obtain ⟨t₁, r₂, k₂⟩ := returns_openScope hv d t
    have same := pairs.active h
    exact .inl ⟨_, s₁, _, t₁, r₁, r₂, ⟨s.active c, rfl, by rw [same]⟩,
      pairs.kept (pairs.write h m) k₁ k₂⟩
  | error e =>
    obtain ⟨s₁, r₁, k₁⟩ := fails_openScope hv c s
    obtain ⟨t₁, r₂, k₂⟩ := fails_openScope hv d t
    exact .inr ⟨e, s₁, t₁, r₁, r₂, pairs.kept h k₁ k₂⟩

theorem peek (pairs : Pairs R c d) (v : Int) : Tracks R Eq (peek c v) (peek d v) := by
  refine pairs.save.bind fun p q saved => ?_
  obtain ⟨m, rfl, rfl⟩ := saved
  have back : Tracks R Eq (Store.restore c ⟨c, m⟩) (Store.restore d ⟨d, m⟩) :=
    pairs.restore ⟨fun _ => rfl, fun _ => rfl⟩ rfl
  exact (pairs.install v).same fun _ => pairs.modulus.same fun _ => back.same fun _ => .pure rfl

theorem peekEach (pairs : Pairs R c d) (l : List Int) {s t : Store} (h : R s t) :
    (peekEach c l s).1 = (peekEach d l t).1 ∧ R (peekEach c l s).2 (peekEach d l t).2 := by
  induction l generalizing s t with
  | nil => exact ⟨rfl, h⟩
  | cons v rest ih =>
    simp only [Store.peekEach]
    rcases pairs.peek v h with ⟨seen, s₁, _, t₁, r, q, rfl, h₁⟩ | ⟨e, s₁, t₁, r, q, h₁⟩
    · rw [show Store.peek c v s = .ok seen s₁ from r, show Store.peek d v t = .ok seen t₁ from q]
      obtain ⟨more, after⟩ := ih h₁
      exact ⟨congrArg (Except.ok seen :: ·) more, after⟩
    · rw [show Store.peek c v s = .error e s₁ from r, show Store.peek d v t = .error e t₁ from q]
      obtain ⟨more, after⟩ := ih h₁
      exact ⟨congrArg (Except.error e :: ·) more, after⟩

end Pairs

/-- The same contexts with the same moduli. The captured default moduli are `a` and `b`. -/
structure Alike (a b : Option Snapshot) (s t : Store) : Prop where
  made : s.made = t.made
  active : s.active = t.active
  left : s.standard = a
  right : t.standard = b

namespace Alike

variable {a b : Option Snapshot} {s t : Store}

theorem write (h : Alike a b s t) (c : ContextId) (m : Modulus) :
    Alike a b (s.write c m) (t.write c m) := by
  refine ⟨h.made, ?_, h.left, h.right⟩
  funext d
  rw [active_write, active_write, h.active]

theorem kept {s₁ t₁ : Store} (h : Alike a b s t) (k : Kept s s₁) (l : Kept t t₁) :
    Alike a b s₁ t₁ :=
  ⟨(k.made.trans h.made).trans l.made.symm, (k.active.trans h.active).trans l.active.symm,
    k.standard.trans h.left, l.standard.trans h.right⟩

theorem closeScope (h : Alike a b s t) (guard : Guard) :
    Alike a b (s.closeScope guard) (t.closeScope guard) := by
  unfold Store.closeScope
  cases guard.previous with
  | none => exact h
  | some snapshot =>
    exact (h.write _ _).kept ((Kept.note s _ _).write _ _) ((Kept.note t _ _).write _ _)

/-- Every context is paired with itself. -/
theorem pairs (a b : Option Snapshot) (c : ContextId) : Pairs (Alike a b) c c where
  active _ _ h := (congrFun h.active c).symm
  write _ _ h m := h.write c m
  kept _ _ _ _ h k l := h.kept k l

end Alike

end Store

end AmbientResidue
