import AmbientResidue.Proofs.Context.Outcome
import AmbientResidue.Proofs.Counted
import AmbientResidue.Session

/-! # How actions end

`Session.Kept` compares sessions by what their contexts and names hold, not by counters or journal.
Each primitive action gets one lemma for each way it ends; the instructions are taken apart into
primitives elsewhere and never unfold one. -/

namespace AmbientResidue

namespace Session

theorem charge_charge (s : Session) (build : Build) (c d : Tally) :
    (s.charge build c).charge build d = s.charge build (c + d) := by
  unfold charge
  split
  · simp only [Tally.add_assoc]
  · rfl

theorem charge_zero (s : Session) (build : Build) : s.charge build 0 = s := by
  unfold charge
  split
  · simp only [Tally.add_zero]
  · rfl

/-- Only the counters and the journal differ. -/
structure Kept (s t : Session) : Prop where
  store : Store.Kept s.store t.store
  elements : t.elements = s.elements
  snapshots : t.snapshots = s.snapshots
  guards : t.guards = s.guards
  contexts : t.contexts = s.contexts

namespace Kept

theorem refl (s : Session) : Kept s s := ⟨.refl _, rfl, rfl, rfl, rfl⟩

theorem of_eq {s t : Session} (h : t = s) : Kept s t := h ▸ refl s

theorem trans {s t u : Session} (h : Kept s t) (k : Kept t u) : Kept s u :=
  ⟨h.store.trans k.store, k.elements.trans h.elements, k.snapshots.trans h.snapshots,
    k.guards.trans h.guards, k.contexts.trans h.contexts⟩

theorem charge (s : Session) (build : Build) (cost : Tally) : Kept s (s.charge build cost) := by
  unfold Session.charge
  split
  · exact ⟨.refl _, rfl, rfl, rfl, rfl⟩
  · exact refl s

theorem withStore {s : Session} {store : Store} (h : Store.Kept s.store store) :
    Kept s { s with store } := ⟨h, rfl, rfl, rfl, rfl⟩

theorem ambient {s t : Session} (h : Kept s t) (build : Build) : t.ambient build = s.ambient build := by
  simp only [Session.ambient, h.store.active]

end Kept

/-- The context at a place. -/
def contextAt? (s : Session) : Place → Option ContextId
  | none => some .global
  | some name => s.contexts.find? name

/-- The session with a residue under a name, if a name is given for it. -/
def naming (s : Session) (name : Option String) (a : Element) : Session :=
  match name with
  | some name => { s with elements := s.elements.bind name a }
  | none => s

theorem Kept.contextAt? {s t : Session} (h : Kept s t) (place : Place) :
    t.contextAt? place = s.contextAt? place := by
  cases place with
  | none => rfl
  | some name => simp only [Session.contextAt?, h.contexts]

end Session

namespace Action

open Session (Kept)

variable {α β ε : Type} {build : Build} {s t : Session} {e : Failure}

/-- The session that an action leaves, however it ends. -/
def after (x : Action α) (s : Session) : Session :=
  match x.run s with
  | .ok _ t => t
  | .error _ t => t

theorem after_returns {x : Action α} {a : α} (h : Returns x s a t) : x.after s = t := by
  rw [Returns] at h
  rw [after, h]

theorem after_fails {x : Action α} (h : Fails x s e t) : x.after s = t := by
  rw [Fails] at h
  rw [after, h]

/-- An action ends in one way or the other. -/
theorem returns_or_fails (x : Action α) (s : Session) :
    (∃ a, Returns x s a (x.after s)) ∨ ∃ e, Fails x s e (x.after s) := by
  cases h : x.run s with
  | ok a t => exact .inl ⟨a, by rw [after_returns h]; exact h⟩
  | error e t => exact .inr ⟨e, by rw [after_fails h]; exact h⟩

/-- Success changes counters and the journal only. -/
abbrev Calm (x : Action α) : Prop := OnReturn Kept x

/-- Failure changes counters and the journal only. -/
abbrev Atomic (x : Action α) : Prop := OnFailure Kept x

theorem Calm.pure (a : α) : Calm (Pure.pure a : Action α) := OnReturn.pure Kept.refl a

theorem Calm.get : Calm (MonadState.get : Action Session) := OnReturn.get Kept.refl

theorem Calm.bind {x : Action α} {f : α → Action β} (hx : Calm x) (hf : ∀ a, Calm (f a)) :
    Calm (x >>= f) :=
  @OnReturn.bind _ _ _ _ Kept (fun _ _ _ => Kept.trans) x f hx hf

theorem Atomic.bind {x : Action α} {f : α → Action β} (hx : Atomic x) (cx : Calm x)
    (hf : ∀ a, Atomic (f a)) : Atomic (x >>= f) :=
  @OnFailure.bind _ _ _ _ Kept (fun _ _ _ => Kept.trans) x f hx cx hf

/-! ## Computations -/

theorem pay_returns {blame : ε → Failure} {x : ExceptT ε Counted α} {a : α}
    (h : Returns (pay build blame x) s a t) :
    x.run.value = .ok a ∧ t = s.charge build x.run.cost := by
  rw [Returns, run_pay] at h
  split at h
  · next b hb => cases h; exact ⟨hb, rfl⟩
  · cases h

theorem calm_pay {blame : ε → Failure} {x : ExceptT ε Counted α} : Calm (pay build blame x) := by
  intro s a t h
  obtain ⟨-, rfl⟩ := pay_returns h
  exact .charge _ _ _

theorem pay_fails {blame : ε → Failure} {x : ExceptT ε Counted α}
    (h : Fails (pay build blame x) s e t) :
    ∃ d, x.run.value = .error d ∧ e = blame d ∧ t = s.charge build x.run.cost := by
  rw [Fails, run_pay] at h
  split at h
  · cases h
  · next d hd => cases h; exact ⟨d, hd, rfl, rfl⟩

theorem atomic_pay {blame : ε → Failure} {x : ExceptT ε Counted α} :
    Atomic (pay build blame x) := by
  intro s e t h
  obtain ⟨d, -, -, rfl⟩ := pay_fails h
  exact .charge _ _ _

theorem compute_returns {blame : ε → Failure} {f : Ambient → ExceptT ε Counted α} {a : α}
    (h : Returns (compute build blame f) s a t) : (f (s.ambient build)).run.value = .ok a :=
  (pay_returns (by simpa only [Returns, run_compute] using h)).1

theorem calm_compute {blame : ε → Failure} {f : Ambient → ExceptT ε Counted α} :
    Calm (compute build blame f) := by
  intro s a t h
  exact calm_pay (by simpa only [Returns, run_compute] using h)

theorem atomic_compute {blame : ε → Failure} {f : Ambient → ExceptT ε Counted α} :
    Atomic (compute build blame f) := by
  intro s e t h
  exact atomic_pay (by simpa only [Fails, run_compute] using h)

/-- The literal denotes the integer. -/
def Denotes (lit : String) (v : Int) : Prop := (Integer.ofLiteral lit).run.value = .ok v

theorem literal_returns {lit : String} {v : Int} (h : Returns (literal build lit) s v t) :
    Denotes lit v ∧ Kept s t := ⟨(pay_returns h).1, calm_pay h⟩

theorem calm_literals (l : List String) : Calm (literals build l) := by
  unfold literals
  induction l with
  | nil => exact .pure []
  | cons lit rest ih =>
    rw [List.mapM_cons]
    exact calm_pay.bind fun v => ih.bind fun vs => .pure (v :: vs)

theorem atomic_literals (l : List String) : Atomic (literals build l) := by
  unfold literals
  induction l with
  | nil => exact (Sure.pure []).onFailure
  | cons lit rest ih =>
    rw [List.mapM_cons]
    exact atomic_pay.bind calm_pay fun v => ih.bind_sure fun vs => .pure (v :: vs)

/-! ## Contexts and names -/

theorem onStore_returns {f : Store.Operation α} {a : α} (h : Returns (onStore f) s a t) :
    ∃ store, Returns f s.store a store ∧ t = { s with store } := by
  rw [Returns, run_onStore] at h
  split at h
  · next b store hb => cases h; exact ⟨store, hb, rfl⟩
  · cases h

theorem onStore_fails {f : Store.Operation α} (h : Fails (onStore f) s e t) :
    ∃ r store, Fails f s.store r store ∧ e = refusal r ∧ t = { s with store } := by
  rw [Fails, run_onStore] at h
  split at h
  · cases h
  · next r store hr => cases h; exact ⟨r, store, hr, rfl, rfl⟩

theorem calm_onStore {f : Store.Operation α} (hf : OnReturn Store.Kept f) : Calm (onStore f) := by
  intro s a t h
  obtain ⟨store, hr, rfl⟩ := onStore_returns h
  exact .withStore (hf hr)

theorem atomic_onStore {f : Store.Operation α} (hf : OnFailure Store.Kept f) :
    Atomic (onStore f) := by
  intro s e t h
  obtain ⟨r, store, hr, -, rfl⟩ := onStore_fails h
  exact .withStore (hf hr)

theorem lookUp_returns {names : Session → Names α} {name : String} {a : α}
    (h : Returns (lookUp names name) s a t) : (names s).find? name = some a ∧ t = s := by
  rw [Returns, run_lookUp] at h
  split at h
  · next b hb => cases h; exact ⟨hb, rfl⟩
  · cases h

theorem lookUp_missing {names : Session → Names α} {name : String}
    (h : Fails (lookUp names name) s e t) :
    (names s).find? name = none ∧ e = .unknownName name ∧ t = s := by
  rw [Fails, run_lookUp] at h
  split at h
  · cases h
  · next missing => cases h; exact ⟨missing, rfl, rfl⟩

theorem lookUp_fails {names : Session → Names α} {name : String}
    (h : Fails (lookUp names name) s e t) : t = s := (lookUp_missing h).2.2

theorem calm_lookUp {names : Session → Names α} {name : String} : Calm (lookUp names name) := by
  intro s a t h
  exact .of_eq (lookUp_returns h).2

theorem atomic_lookUp {names : Session → Names α} {name : String} :
    Atomic (lookUp names name) := by
  intro s e t h
  exact .of_eq (lookUp_fails h)

theorem context_returns {place : Place} {c : ContextId} (h : Returns (context place) s c t) :
    s.contextAt? place = some c ∧ t = s := by
  cases place with
  | none => obtain ⟨rfl, rfl⟩ := Returns.pure h; exact ⟨rfl, rfl⟩
  | some name => exact lookUp_returns h

theorem context_fails {place : Place} (h : Fails (context place) s e t) : t = s := by
  cases place with
  | none => exact (Sure.pure _).elim h
  | some name => exact lookUp_fails h

theorem calm_context (place : Place) : Calm (context place) := by
  intro s c t h
  exact .of_eq (context_returns h).2

theorem atomic_context (place : Place) : Atomic (context place) := by
  intro s e t h
  exact .of_eq (context_fails h)

theorem elements_returns {names : List String} {l : List Element}
    (h : Returns (names.mapM element) s l t) :
    names.mapM s.elements.find? = some l ∧ t = s := by
  induction names generalizing l with
  | nil => obtain ⟨rfl, rfl⟩ := Returns.pure h; exact ⟨rfl, rfl⟩
  | cons name rest ih =>
    rw [List.mapM_cons] at h
    obtain ⟨a, u, ha, r₁⟩ := Returns.bind h
    obtain ⟨l, w, hl, r₂⟩ := Returns.bind r₁
    obtain ⟨rfl, rfl⟩ := Returns.pure r₂
    obtain ⟨ha, rfl⟩ := lookUp_returns ha
    obtain ⟨hl, rfl⟩ := ih hl
    simp [List.mapM_cons, ha, hl]

theorem calm_elements (names : List String) : Calm (names.mapM element) := by
  intro s l t h
  exact .of_eq (elements_returns h).2

theorem atomic_elements (names : List String) : Atomic (names.mapM element) := by
  induction names with
  | nil => exact (Sure.pure []).onFailure
  | cons name rest ih =>
    rw [List.mapM_cons]
    exact atomic_lookUp.bind calm_lookUp fun a => ih.bind_sure fun l => .pure (a :: l)

theorem bindElement_returns {name : Option String} {a : Element} {u : Unit}
    (h : Returns (bindElement name a) s u t) : t = s.naming name a := by
  cases name with
  | none => exact (Returns.pure h).2
  | some name => exact Returns.of_modify h

theorem sure_bindElement (name : Option String) (a : Element) : Sure (bindElement name a) := by
  cases name with
  | none => exact .pure ()
  | some name => exact .modifyGet _

/-! ## Ending in a given way -/

theorem returns_pay {blame : ε → Failure} {x : ExceptT ε Counted α} {a : α}
    (h : x.run.value = .ok a) (s : Session) :
    Returns (pay build blame x) s a (s.charge build x.run.cost) := by
  rw [Returns, run_pay, h]

theorem fails_pay {blame : ε → Failure} {x : ExceptT ε Counted α} {e : ε}
    (h : x.run.value = .error e) (s : Session) :
    Fails (pay build blame x) s (blame e) (s.charge build x.run.cost) := by
  rw [Fails, run_pay, h]

theorem returns_compute {blame : ε → Failure} {f : Ambient → ExceptT ε Counted α} {a : α}
    (h : Counted.Yields (f (s.ambient build)) a) :
    Returns (compute build blame f) s a (s.charge build (f (s.ambient build)).run.cost) := by
  rw [Returns, run_compute]
  exact returns_pay h s

theorem fails_compute {blame : ε → Failure} {f : Ambient → ExceptT ε Counted α} {e : ε}
    (h : Counted.Refuses (f (s.ambient build)) e) :
    Fails (compute build blame f) s (blame e) (s.charge build (f (s.ambient build)).run.cost) := by
  rw [Fails, run_compute]
  exact fails_pay h s

theorem returns_onStore {f : Store.Operation α} {a : α} {store : Store}
    (h : Returns f s.store a store) : Returns (onStore f) s a { s with store } := by
  rw [Returns] at h ⊢
  rw [run_onStore, h]

theorem fails_onStore {f : Store.Operation α} {e : Refusal} {store : Store}
    (h : Fails f s.store e store) : Fails (onStore f) s (refusal e) { s with store } := by
  rw [Fails] at h ⊢
  rw [run_onStore, h]

theorem returns_lookUp {names : Session → Names α} {name : String} {a : α}
    (h : (names s).find? name = some a) : Returns (lookUp names name) s a s := by
  rw [Returns, run_lookUp, h]

theorem fails_lookUp {names : Session → Names α} {name : String}
    (h : (names s).find? name = none) :
    Fails (lookUp names name) s (.unknownName name) s := by
  rw [Fails, run_lookUp, h]

theorem returns_elements {names : List String} {l : List Element}
    (h : names.mapM s.elements.find? = some l) : Returns (names.mapM element) s l s := by
  induction names generalizing l with
  | nil => cases h; rfl
  | cons name rest ih =>
    rw [List.mapM_cons] at h ⊢
    obtain ⟨a, ha, h⟩ := Option.bind_eq_some_iff.1 h
    obtain ⟨k, hk, h⟩ := Option.bind_eq_some_iff.1 h
    cases h
    have first : Returns (element name) s a s := returns_lookUp ha
    exact first.andThen ((ih hk).andThen rfl)

theorem returns_bindElement (name : Option String) (a : Element) (s : Session) :
    Returns (bindElement name a) s () (s.naming name a) := by
  cases name <;> rfl

theorem returns_context {place : Place} {c : ContextId} (h : s.contextAt? place = some c) :
    Returns (context place) s c s := by
  cases place with
  | none => cases h; rfl
  | some name => exact returns_lookUp h

end Action

end AmbientResidue
