import AmbientResidue.Context.Store
import AmbientResidue.Proofs.Outcome

/-! # How the operations on contexts end

`Kept` compares stores by all but their journals. Every operation gets one lemma for each way it
ends, stated up to `Kept`: what a successful one writes, and that a refused one writes nothing. -/

namespace AmbientResidue

namespace Store

/-- Only the journal differs. -/
structure Kept (s t : Store) : Prop where
  made : t.made = s.made
  active : t.active = s.active
  standard : t.standard = s.standard

namespace Kept

theorem refl (s : Store) : Kept s s := ⟨rfl, rfl, rfl⟩

theorem symm {s t : Store} (h : Kept s t) : Kept t s :=
  ⟨h.made.symm, h.active.symm, h.standard.symm⟩

theorem trans {s t u : Store} (h : Kept s t) (k : Kept t u) : Kept s u :=
  ⟨k.made.trans h.made, k.active.trans h.active, k.standard.trans h.standard⟩

theorem note (s : Store) (c : ContextId) (e : Event) : Kept s (s.note c e) := ⟨rfl, rfl, rfl⟩

theorem write {s t : Store} (h : Kept s t) (c : ContextId) (m : Modulus) :
    Kept (s.write c m) (t.write c m) := by
  refine ⟨h.made, ?_, h.standard⟩
  funext d
  simp only [active_write, h.active]

theorem closeScope {s t : Store} (h : Kept s t) (guard : Guard) :
    Kept (s.closeScope guard) (t.closeScope guard) := by
  unfold Store.closeScope
  split
  · exact write (h.trans (note t _ _) |> (note s _ _).symm.trans) _ _
  · exact h

end Kept

theorem write_write (s : Store) (c : ContextId) (m n : Modulus) :
    (s.write c m).write c n = s.write c n := by
  simp only [write, Store.mk.injEq, true_and, and_true]
  funext d
  split <;> rfl

theorem write_active {s : Store} {c : ContextId} {m : Modulus} (h : s.active c = some m) :
    Kept s (s.write c m) := by
  refine ⟨rfl, ?_, rfl⟩
  funext d
  rw [active_write]
  split
  · next hd => rw [hd, h]
  · rfl

theorem made_closeScope (guard : Guard) (s : Store) : (s.closeScope guard).made = s.made := by
  unfold closeScope
  split <;> rfl

theorem standard_closeScope (guard : Guard) (s : Store) :
    (s.closeScope guard).standard = s.standard := by
  unfold closeScope
  split <;> rfl

/-! ## The operations on contexts -/

variable {s t : Store} {c : ContextId} {e : Refusal}

theorem modulus_returns {m : Modulus} (h : Returns (modulus c) s m t) :
    s.active c = some m ∧ t = s := by
  simp only [Returns, EStateM.run, modulus] at h
  split at h
  · next hm => cases h; exact ⟨hm, rfl⟩
  · cases h

theorem modulus_fails (h : Fails (modulus c) s e t) : s.active c = none ∧ t = s := by
  simp only [Fails, EStateM.run, modulus] at h
  split at h
  · cases h
  · next hm => cases h; exact ⟨hm, rfl⟩

theorem install_returns {v : Int} (h : Returns (install c v) s () t) :
    ∃ m, Modulus.ofInt v = .ok m ∧ Kept (s.write c m) t := by
  simp only [Returns, EStateM.run, install] at h
  split at h
  · next m hm => cases h; exact ⟨m, hm, ((Kept.note s _ _).write c m).trans (Kept.note _ _ _)⟩
  · cases h

theorem install_fails {v : Int} (h : Fails (install c v) s e t) :
    Modulus.ofInt v = .error e ∧ Kept s t := by
  simp only [Fails, EStateM.run, install] at h
  split at h
  · cases h
  · next hm => cases h; exact ⟨hm, Kept.note s _ _⟩

theorem save_returns {snapshot : Snapshot} (h : Returns (save c) s snapshot t) :
    ∃ m, s.active c = some m ∧ snapshot = ⟨c, m⟩ ∧ Kept s t := by
  simp only [Returns, EStateM.run, save] at h
  split at h
  · next m hm => cases h; exact ⟨m, hm, rfl, Kept.note s _ _⟩
  · cases h

theorem save_fails (h : Fails (save c) s e t) : s.active c = none ∧ t = s := by
  simp only [Fails, EStateM.run, save] at h
  split at h
  · cases h
  · next hm => cases h; exact ⟨hm, rfl⟩

theorem restore_returns {snapshot : Snapshot} (h : Returns (restore c snapshot) s () t) :
    snapshot.context = c ∧ Kept (s.write c snapshot.modulus) t := by
  simp only [Returns, EStateM.run, restore] at h
  split at h
  · next hc => cases h; exact ⟨hc, ((Kept.note s _ _).trans (Kept.note _ _ _)).write c _⟩
  · cases h

theorem restore_fails {snapshot : Snapshot} (h : Fails (restore c snapshot) s e t) :
    snapshot.context ≠ c ∧ e = .foreignSnapshot ∧ Kept s t := by
  simp only [Fails, EStateM.run, restore] at h
  split at h
  · cases h
  · next hc => cases h; exact ⟨hc, rfl, (Kept.note s _ _).trans (Kept.note _ _ _)⟩

theorem saveIfActive_spec (c : ContextId) (s : Store) :
    ∃ t, saveIfActive c s = .ok ((s.active c).map (⟨c, ·⟩)) t ∧ Kept s t := by
  simp only [saveIfActive, save]
  cases h : s.active c with
  | none => exact ⟨s, rfl, Kept.refl s⟩
  | some m => exact ⟨_, rfl, Kept.note s _ _⟩

theorem openScope_returns {v : Int} {guard : Guard} (h : Returns (openScope c v) s guard t) :
    ∃ m, Modulus.ofInt v = .ok m ∧ guard = ⟨c, (s.active c).map (⟨c, ·⟩)⟩ ∧
      Kept (s.write c m) t := by
  simp only [Returns, EStateM.run, openScope] at h
  split at h
  · next m hm =>
    obtain ⟨u, hu, hk⟩ := saveIfActive_spec c (s.note c (.scopeCalled (Integer.bits v)))
    rw [hu] at h
    cases h
    exact ⟨m, hm, rfl, ((Kept.note s _ _).trans hk).write c m⟩
  · cases h

theorem openScope_fails {v : Int} (h : Fails (openScope c v) s e t) :
    Modulus.ofInt v = .error e ∧ Kept s t := by
  simp only [Fails, EStateM.run, openScope] at h
  split at h
  · obtain ⟨u, hu, hk⟩ := saveIfActive_spec c (s.note c (.scopeCalled (Integer.bits v)))
    rw [hu] at h
    cases h
  · next hm => cases h; exact ⟨hm, Kept.note s _ _⟩

/-! ## Ending in a given way

The converse: what a store has to hold for an operation to end in one way or the other. -/

theorem returns_modulus {m : Modulus} (h : s.active c = some m) : Returns (modulus c) s m s := by
  rw [Returns, EStateM.run, modulus, h]

theorem fails_modulus (h : s.active c = none) : Fails (modulus c) s .uninitialized s := by
  rw [Fails, EStateM.run, modulus, h]

theorem returns_install {v : Int} {m : Modulus} (hv : Modulus.ofInt v = .ok m) (c : ContextId)
    (s : Store) : ∃ t, Returns (install c v) s () t ∧ Kept (s.write c m) t := by
  refine ⟨_, ?_, ((Kept.note s c (.installCalled (Integer.bits v))).write c m).trans
    (Kept.note _ c .installed)⟩
  simp only [Returns, EStateM.run, install, hv]

theorem fails_install {v : Int} (hv : Modulus.ofInt v = .error e) (c : ContextId) (s : Store) :
    ∃ t, Fails (install c v) s e t ∧ Kept s t := by
  refine ⟨_, ?_, Kept.note s c (.installCalled (Integer.bits v))⟩
  simp only [Fails, EStateM.run, install, hv]

theorem returns_save {m : Modulus} (h : s.active c = some m) :
    ∃ t, Returns (save c) s ⟨c, m⟩ t ∧ Kept s t := by
  refine ⟨_, ?_, Kept.note s c (.saved m.bits)⟩
  rw [Returns, EStateM.run, save, h]

theorem fails_save (h : s.active c = none) : Fails (save c) s .uninitialized s := by
  rw [Fails, EStateM.run, save, h]

theorem returns_restore {snapshot : Snapshot} (own : snapshot.context = c) (s : Store) :
    ∃ t, Returns (restore c snapshot) s () t ∧ Kept (s.write c snapshot.modulus) t :=
  ⟨_, if_pos own, ((Kept.note s _ _).trans (Kept.note _ _ _)).write c _⟩

theorem fails_restore {snapshot : Snapshot} (foreign : snapshot.context ≠ c) (s : Store) :
    ∃ t, Fails (restore c snapshot) s .foreignSnapshot t ∧ Kept s t :=
  ⟨_, if_neg foreign, (Kept.note s _ _).trans (Kept.note _ _ _)⟩

theorem returns_openScope {v : Int} {m : Modulus} (hv : Modulus.ofInt v = .ok m) (c : ContextId)
    (s : Store) : ∃ t,
      Returns (openScope c v) s ⟨c, (s.active c).map (⟨c, ·⟩)⟩ t ∧ Kept (s.write c m) t := by
  obtain ⟨u, hu, k⟩ := saveIfActive_spec c (s.note c (.scopeCalled (Integer.bits v)))
  refine ⟨u.write c m, ?_, ((Kept.note s _ _).trans k).write c m⟩
  simp only [Returns, EStateM.run, openScope, hv, hu, active_note]

theorem fails_openScope {v : Int} (hv : Modulus.ofInt v = .error e) (c : ContextId) (s : Store) :
    ∃ t, Fails (openScope c v) s e t ∧ Kept s t := by
  refine ⟨_, ?_, Kept.note s c (.scopeCalled (Integer.bits v))⟩
  simp only [Fails, EStateM.run, openScope, hv]

/-! ## Looks -/

/-- Whatever a look sees, it leaves the modulus that it found. -/
theorem peek_returns {v seen : Int} (h : Returns (peek c v) s seen t) : Kept s t := by
  obtain ⟨snapshot, s₁, h₁, r₁⟩ := Returns.bind h
  obtain ⟨_, s₂, h₂, r₂⟩ := Returns.bind r₁
  obtain ⟨_, s₃, h₃, r₃⟩ := Returns.bind r₂
  obtain ⟨_, s₄, h₄, r₄⟩ := Returns.bind r₃
  obtain ⟨m, hm, rfl, k₁⟩ := save_returns h₁
  obtain ⟨n, -, k₂⟩ := install_returns h₂
  obtain ⟨-, rfl⟩ := modulus_returns h₃
  obtain ⟨-, k₄⟩ := restore_returns h₄
  obtain ⟨-, rfl⟩ := Returns.pure r₄
  have back := ((k₁.write c n).trans k₂).write c m
  rw [write_write] at back
  exact (write_active hm).trans (back.trans k₄)

theorem peek_fails {v : Int} (h : Fails (peek c v) s e t) : Kept s t := by
  rcases Fails.bind h with h₁ | ⟨snapshot, s₁, h₁, r₁⟩
  · exact (save_fails h₁).2 ▸ Kept.refl s
  obtain ⟨m, hm, rfl, k₁⟩ := save_returns h₁
  rcases Fails.bind r₁ with h₂ | ⟨_, s₂, h₂, r₂⟩
  · exact k₁.trans (install_fails h₂).2
  obtain ⟨n, -, k₂⟩ := install_returns h₂
  -- The slot has just been filled and the snapshot is the context's own: nothing fails from here.
  have filled : s₂.active c = some n := by rw [k₂.active]; simp
  rcases Fails.bind r₂ with h₃ | ⟨_, s₃, h₃, r₃⟩
  · rw [(modulus_fails h₃).1] at filled
    cases filled
  rcases Fails.bind r₃ with h₄ | ⟨_, s₄, h₄, r₄⟩
  · exact absurd rfl (restore_fails h₄).1
  · exact (Sure.pure _).elim r₄

theorem peekEach_kept (c : ContextId) (l : List Int) (s : Store) :
    Kept s (peekEach c l s).2 := by
  induction l generalizing s with
  | nil => exact Kept.refl s
  | cons v rest ih =>
    simp only [peekEach]
    cases h : peek c v s with
    | ok seen t => exact (peek_returns h).trans (ih t)
    | error e t => exact (peek_fails h).trans (ih t)

end Store

end AmbientResidue
