import AmbientResidue.Proofs.Session.Residues

/-! # One context beside the others

A session with many contexts is compared with one that has seen the operations on a single context
only. That context has the same modulus in both; its snapshots and open scopes are there under the
same names, and the second session knows nothing of the other contexts. -/

namespace AmbientResidue

/-- What a context is called where no other local context has been made. -/
def ContextId.alone (c : ContextId) : ContextId := if c = .global then .global else ⟨1⟩

/-- What a guard of `c` is where there are no other contexts. A guard of another one is not there. -/
def Guard.alone (c : ContextId) (guard : Guard) : Option Guard :=
  if guard.context = c then
    some ⟨c.alone, guard.previous.map fun snapshot => ⟨c.alone, snapshot.modulus⟩⟩
  else none

theorem Guard.alone_own {c : ContextId} {guard : Guard} (own : guard.context = c) :
    guard.alone c =
      some ⟨c.alone, guard.previous.map fun snapshot => ⟨c.alone, snapshot.modulus⟩⟩ := if_pos own

theorem Guard.alone_foreign {c : ContextId} {guard : Guard} (foreign : guard.context ≠ c) :
    guard.alone c = none := if_neg foreign

/-- A guard gives back alone what it gives back among others. -/
theorem Guard.returns_alone (c : ContextId) (guard : Guard) :
    ((guard.alone c).bind fun guard => guard.returns c.alone) = guard.returns c := by
  by_cases own : guard.context = c
  · rw [guard.alone_own own, Option.bind_some, Guard.returns, Guard.returns, if_pos rfl, if_pos own,
      Option.map_map]
    rfl
  · rw [guard.alone_foreign own, Guard.returns, if_neg own]
    rfl

/-- The store `t` has `c` alone. -/
structure Store.Beside (c : ContextId) (s t : Store) : Prop where
  active : t.active c.alone = s.active c
  /-- The next context to be made alone is `c`, until it is made. -/
  made : s.made < c.index → t.made = 0
  standard : c = .global → s.standard = t.standard

theorem Store.Beside.pairs (c : ContextId) : Store.Pairs (Store.Beside c) c c.alone where
  active _ _ h := h.active
  write s t h m := by
    refine ⟨?_, h.made, h.standard⟩
    rw [active_write, active_write, if_pos rfl, if_pos rfl]
  kept s t s₁ t₁ h k l := by
    refine ⟨?_, ?_, ?_⟩
    · rw [l.active, k.active, h.active]
    · rw [l.made, k.made]
      exact h.made
    · rw [l.standard, k.standard]
      exact h.standard

open Session AmbientResidue.Action

namespace Session

/-- The session `t` has `c` alone, and everything of the global context if `c` is the global one. -/
structure Beside (c : ContextId) (s t : Session) : Prop where
  store : Store.Beside c s.store t.store
  context : ∀ name, s.contexts.find? name = some c → t.contexts.find? name = some c.alone
  snapshot : ∀ name m, s.snapshots.find? name = some ⟨c, m⟩ →
    t.snapshots.find? name = some ⟨c.alone, m⟩
  unsaved : ∀ name, s.snapshots.find? name = none → t.snapshots.find? name = none
  guard : ∀ name, t.guards.find? name = (s.guards.find? name).bind (Guard.alone c)
  elements : c = .global → s.elements = t.elements

namespace Beside

variable {build : Build} {c e : ContextId} {s t s₁ t₁ : Session} {i : Instruction} {v : Value}

theorem initial (c : ContextId) : Beside c initial initial where
  store := ⟨rfl, fun _ => rfl, fun _ => rfl⟩
  context _ named := by cases named
  snapshot _ _ named := by cases named
  unsaved _ _ := rfl
  guard _ := rfl
  elements _ := rfl

theorem kept (h : Beside c s t) (k : Kept s s₁) (l : Kept t t₁) : Beside c s₁ t₁ := by
  refine ⟨(Store.Beside.pairs c).kept h.store k.store l.store, ?_, ?_, ?_, ?_, ?_⟩
  · rw [k.contexts, l.contexts]
    exact h.context
  · rw [k.snapshots, l.snapshots]
    exact h.snapshot
  · rw [k.snapshots, l.snapshots]
    exact h.unsaved
  · rw [k.guards, l.guards]
    exact h.guard
  · rw [k.elements, l.elements]
    exact h.elements

theorem charge (h : Beside c s t) (cost : Tally) :
    Beside c (s.charge build cost) (t.charge build cost) :=
  h.kept (.charge s build cost) (.charge t build cost)

theorem withStore (h : Beside c s t) {p q : Store} (k : Store.Beside c p q) :
    Beside c { s with store := p } { t with store := q } := { h with store := k }

theorem contextAt (h : Beside c s t) {place : Place} (hc : s.contextAt? place = some c) :
    t.contextAt? place = some c.alone := by
  cases place with
  | none =>
    obtain rfl : ContextId.global = c := Option.some.inj hc
    rfl
  | some name => exact h.context name hc

theorem switch (h : Beside c s t) (m : Modulus) : Beside c (s.switch c m) (t.switch c.alone m) :=
  h.withStore ((Store.Beside.pairs c).write h.store m)

/-- Writing another context does not show. -/
theorem elsewhere (h : Beside c s t) (other : e ≠ c) (m : Modulus) : Beside c (s.switch e m) t := by
  refine { h with store := ⟨?_, h.store.made, h.store.standard⟩ }
  rw [Session.switch, Store.active_write, if_neg (Ne.symm other)]
  exact h.store.active

/-- Closing a scope of `c` closes it alone as well. Closing one of another context does not show. -/
theorem closing (h : Beside c s t) (guard : Option Guard) :
    Beside c (s.closing guard) (t.closing (guard.bind (Guard.alone c))) where
  store := by
    refine ⟨?_, ?_, ?_⟩
    · rw [active_closing, active_closing, h.store.active]
      cases guard with
      | none => rfl
      | some guard => exact congrArg (Option.or · _) (guard.returns_alone c)
    · rw [made_closing, made_closing]
      exact h.store.made
    · rw [standard_closing, standard_closing]
      exact h.store.standard
  context := by
    rw [contexts_closing, contexts_closing]
    exact h.context
  snapshot := by
    rw [snapshots_closing, snapshots_closing]
    exact h.snapshot
  unsaved := by
    rw [snapshots_closing, snapshots_closing]
    exact h.unsaved
  guard := by
    rw [guards_closing, guards_closing]
    exact h.guard
  elements := by
    rw [elements_closing, elements_closing]
    exact h.elements

theorem naming (h : Beside c s t) (name : Option String) (a : Element) :
    Beside c (s.naming name a) (t.naming name a) := by
  cases name with
  | none => exact h
  | some name =>
    exact { h with elements := fun here => congrArg (Names.bind · name a) (h.elements here) }

theorem namingElsewhere (h : Beside c s t) (other : c ≠ .global) (name : Option String)
    (a : Element) : Beside c (s.naming name a) t := by
  cases name with
  | none => exact h
  | some name => exact { h with elements := fun here => absurd here other }

/-- One name is given to a snapshot. Alone it stands for the same one, if that is one of `c`. -/
theorem withSnapshots (h : Beside c s t) (name : String) {g k : Names Snapshot} {p : Snapshot}
    (here : g.find? name = some p)
    (own : p.context = c → k.find? name = some ⟨c.alone, p.modulus⟩)
    (rest : ∀ other, other ≠ name → g.find? other = s.snapshots.find? other)
    (alone : ∀ other, other ≠ name → k.find? other = t.snapshots.find? other) :
    Beside c { s with snapshots := g } { t with snapshots := k } := by
  refine { h with snapshot := fun other m named => ?_, unsaved := fun other free => ?_ }
  · by_cases same : other = name
    · subst same
      obtain rfl : p = ⟨c, m⟩ := Option.some.inj (here.symm.trans named)
      exact own rfl
    · exact (alone other same).trans (h.snapshot other m ((rest other same).symm.trans named))
  · by_cases same : other = name
    · subst same
      cases here.symm.trans free
    · exact (alone other same).trans (h.unsaved other ((rest other same).symm.trans free))

theorem save (h : Beside c s t) (name : String) (m : Modulus) :
    Beside c { s with snapshots := s.snapshots.bind name ⟨c, m⟩ }
      { t with snapshots := t.snapshots.bind name ⟨c.alone, m⟩ } :=
  h.withSnapshots name (if_pos rfl) (fun _ => if_pos rfl) (fun _ other => if_neg other)
    fun _ other => if_neg other

/-- A name that is given to a snapshot of another context may go on standing for one of `c`. -/
theorem saveElsewhere (h : Beside c s t) (other : e ≠ c) (name : String) (m : Modulus) :
    Beside c { s with snapshots := s.snapshots.bind name ⟨e, m⟩ } t :=
  h.withSnapshots name (if_pos rfl) (fun own => absurd own other) (fun _ other => if_neg other)
    fun _ _ => rfl

/-- One name of a guard changes in one session or in both. -/
theorem withGuards (h : Beside c s t) (name : String) {g k : Names Guard}
    (here : k.find? name = (g.find? name).bind (Guard.alone c))
    (rest : ∀ other, other ≠ name → g.find? other = s.guards.find? other)
    (alone : ∀ other, other ≠ name → k.find? other = t.guards.find? other) :
    Beside c { s with guards := g } { t with guards := k } := by
  refine { h with guard := fun other => ?_ }
  by_cases same : other = name
  · rw [same]
    exact here
  · rw [alone other same, rest other same]
    exact h.guard other

theorem bindGuard (h : Beside c s t) (name : String) (guard : Guard) {own : Guard}
    (alone : guard.alone c = some own) :
    Beside c { s with guards := s.guards.bind name guard }
      { t with guards := t.guards.bind name own } := by
  refine h.withGuards name ?_ (fun _ other => if_neg other) fun _ other => if_neg other
  rw [Names.find?_bind, Names.find?_bind, if_pos rfl, if_pos rfl]
  exact alone.symm

theorem eraseGuard (h : Beside c s t) (name : String) :
    Beside c { s with guards := s.guards.erase name } { t with guards := t.guards.erase name } := by
  refine h.withGuards name ?_ (fun _ other => if_neg other) fun _ other => if_neg other
  rw [Names.find?_erase, Names.find?_erase, if_pos rfl, if_pos rfl]
  rfl

/-- A name goes to a guard of another context where it stands for none of `c`. -/
theorem bindForeign (h : Beside c s t) {name : String} (guard : Guard)
    (foreign : guard.context ≠ c) (free : t.guards.find? name = none) :
    Beside c { s with guards := s.guards.bind name guard } t := by
  refine h.withGuards name ?_ (fun _ other => if_neg other) fun _ _ => rfl
  rw [free, Names.find?_bind, if_pos rfl]
  exact (guard.alone_foreign foreign).symm

theorem eraseForeign (h : Beside c s t) {name : String} (free : t.guards.find? name = none) :
    Beside c { s with guards := s.guards.erase name } t := by
  refine h.withGuards name ?_ (fun _ other => if_neg other) fun _ _ => rfl
  rw [free, Names.find?_erase, if_pos rfl]
  rfl

/-- The context is made, alone as the first one. -/
theorem newContext (h : Beside c s t) (name : String) (latest : s.store.made + 1 = c.index) :
    Beside c
      { s with
        store := s.store.newContext.2
        contexts := s.contexts.bind name s.store.newContext.1 }
      { t with
        store := t.store.newContext.2
        contexts := t.contexts.bind name t.store.newContext.1 } := by
  have fresh : s.store.made < c.index := by omega
  have mine : (⟨s.store.made + 1⟩ : ContextId) = c := by rw [latest]
  have first : (⟨t.store.made + 1⟩ : ContextId) = c.alone := by
    have loc : c ≠ .global := by
      rintro rfl
      exact absurd fresh (Nat.not_lt_zero _)
    rw [h.store.made fresh, ContextId.alone, if_neg loc]
  refine { h with store := ⟨h.store.active, fun before => ?_, h.store.standard⟩, context := ?_ }
  · have after : s.store.made + 1 < c.index := before
    omega
  · intro other named
    rw [Names.find?_bind] at named ⊢
    by_cases same : other = name
    · rw [if_pos same]
      exact congrArg some first
    · rw [if_neg same] at named ⊢
      exact h.context other named

theorem newElsewhere (h : Beside c s t) (name : String) (other : s.store.made + 1 ≠ c.index) :
    Beside c
      { s with
        store := s.store.newContext.2
        contexts := s.contexts.bind name s.store.newContext.1 } t := by
  refine { h with store := ⟨h.store.active, fun before => ?_, h.store.standard⟩, context := ?_ }
  · have after : s.store.made + 1 < c.index := before
    exact h.store.made (by omega)
  · intro another named
    rw [Names.find?_bind] at named
    by_cases same : another = name
    · rw [if_pos same] at named
      have index : s.store.made + 1 = c.index := congrArg ContextId.index (Option.some.inj named)
      exact absurd index other
    · rw [if_neg same] at named
      exact h.context another named

/-- Operations on residues are operations on the global context. -/
theorem exposes : Exposes build (fun _ => True) (Beside .global) where
  ambient s t h := congrArg (Ambient.mk build) h.store.active.symm
  charge _ _ h cost := h.charge cost
  element _ _ h name _ := by rw [h.elements rfl]
  naming _ _ h name a := h.naming name a

end Beside

end Session

end AmbientResidue
