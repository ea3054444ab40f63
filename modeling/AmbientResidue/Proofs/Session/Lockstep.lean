import AmbientResidue.Proofs.Session.Residues

/-! # Instructions and runs in lockstep

Every primitive action keeps sessions alike and answers alike; instructions are put together from
primitives, and runs from instructions. -/

namespace AmbientResidue

open Session (Alike)

namespace Action

variable {α ε : Type} {build : Build} {N : Ref → Prop}

/-- The action does in one session what it does in the other. -/
abbrev Steady (N : Ref → Prop) (x : Action α) : Prop := Tracks (Alike N) Eq x x

/-- Sessions that are alike in the residues of `N` show them to operations on residues. -/
theorem exposes_alike : Exposes build (fun name => N (.element name)) (Alike N) where
  ambient _ _ h := h.ambient build
  charge _ _ h cost := h.charge build cost
  element _ _ h name hn := h.elements name hn
  naming _ _ h name a := h.naming name a

theorem steady_pay {blame : ε → Failure} {x : ExceptT ε Counted α} :
    Steady N (pay build blame x) := tracks_pay exposes_alike.charge

theorem steady_onStore {f : Store.Operation α} (hf : ∀ a b, Tracks (Store.Alike a b) Eq f f) :
    Steady N (onStore f) :=
  fun _ _ h => meets_onStore (hf _ _) h.store fun _ _ k => h.withStore k

theorem steady_context (place : Place) : Steady N (context place) := by
  cases place with
  | none => exact .pure rfl
  | some name => exact tracks_lookUp fun s t h => congrArg (Names.find? · name) h.contexts

theorem steady_modulus (c : ContextId) : Steady N (onStore (Store.modulus c)) :=
  steady_onStore fun a b => (Store.Alike.pairs a b c).modulus

theorem steady_install (c : ContextId) (v : Int) : Steady N (onStore (Store.install c v)) :=
  steady_onStore fun a b => (Store.Alike.pairs a b c).install v

theorem steady_save (c : ContextId) : Steady N (onStore (Store.save c)) := by
  refine steady_onStore fun a b s t h => ?_
  rcases (Store.Alike.pairs a b c).save h with ⟨p, s₁, q, t₁, r₁, r₂, ⟨m, rfl, rfl⟩, k⟩ | fails
  · exact .inl ⟨_, s₁, _, t₁, r₁, r₂, rfl, k⟩
  · exact .inr fails

theorem steady_restore (c : ContextId) (snapshot : Snapshot) :
    Steady N (onStore (Store.restore c snapshot)) :=
  steady_onStore fun a b => (Store.Alike.pairs a b c).restore Iff.rfl rfl

theorem steady_openScope (c : ContextId) (v : Int) : Steady N (onStore (Store.openScope c v)) := by
  refine steady_onStore fun a b s t h => ?_
  rcases (Store.Alike.pairs a b c).openScope v h with
    ⟨g, s₁, k, t₁, r₁, r₂, ⟨m, rfl, rfl⟩, after⟩ | fails
  · exact .inl ⟨_, s₁, _, t₁, r₁, r₂, rfl, after⟩
  · exact .inr fails

theorem steady_close (guard : Guard) : Steady N (close guard) :=
  .update fun _ _ h => h.withStore (h.store.closeScope guard)

/-! ## The default modulus -/

theorem standard_value : Config.standard.run.value =
    .ok ⟨340282366920938463463374607431768211297⟩ := by rfl

theorem standard_modulus : ∃ m, Modulus.ofInt 340282366920938463463374607431768211297 = .ok m :=
  ⟨_, rfl⟩

theorem installStandard_succeeds : Sure (installStandard build) := by
  intro s e t h
  rcases Fails.bind h with h₁ | ⟨config, s₁, h₁, r₁⟩
  · rw [Fails, run_pay, standard_value] at h₁
    cases h₁
  obtain ⟨hv, -⟩ := pay_returns h₁
  rw [standard_value] at hv
  cases hv
  rcases Fails.bind r₁ with h₂ | ⟨_, s₂, h₂, r₂⟩
  · obtain ⟨e, store, hi, -, -⟩ := onStore_fails h₂
    obtain ⟨m, hm⟩ := standard_modulus
    have refused := (Store.install_fails hi).1
    rw [hm] at refused
    cases refused
  obtain ⟨m, -, k⟩ := switch_returns h₂
  rcases Fails.bind r₂ with h₃ | ⟨snapshot, s₃, h₃, r₃⟩
  · obtain ⟨e, store, hs, -, -⟩ := onStore_fails h₃
    have missing := (Store.save_fails hs).1
    rw [k.store.active] at missing
    simp [Session.switch] at missing
  · exact Sure.elim ((Sure.modifyGet _).bind fun _ => .pure snapshot) r₃

theorem useStandard_succeeds {s t : Session} {e : Failure} (ready : Ready s.store.standard) :
    ¬ Fails (useStandard build) s e t := by
  intro h
  rcases Fails.bind h with h₁ | ⟨_, s₁, h₁, r₁⟩
  · cases h₁
  obtain ⟨rfl, rfl⟩ := Returns.of_get h₁
  rcases Fails.bind r₁ with h₂ | ⟨snapshot, s₂, h₂, r₂⟩
  · cases captured : s₁.store.standard with
    | none => rw [captured] at h₂; exact installStandard_succeeds h₂
    | some snapshot => rw [captured] at h₂; cases h₂
  obtain ⟨r, store, hr, -, -⟩ := onStore_fails r₂
  refine (Store.restore_fails hr).1 ?_
  cases captured : s₁.store.standard with
  | none =>
    rw [captured] at h₂
    obtain ⟨config, m, -, -, rfl, -⟩ := installStandard_returns h₂
    rfl
  | some own =>
    rw [captured] at h₂
    obtain ⟨rfl, rfl⟩ := Returns.pure h₂
    exact (ready _ captured).1

/-- Whether or not it has been captured before, the default modulus becomes the global one. -/
theorem useStandard_alike {s t : Session} {v : Value} (ready : Ready s.store.standard)
    (h : Returns (perform build .useStandard) s v t) :
    v = .done ∧ ∃ m, Instruction.useStandard.chosen = some m ∧ Alike N (s.switch .global m) t := by
  obtain ⟨u, effect, k⟩ := effect_of_returns h
  cases effect with
  | @useStandard config m captured hv hm =>
    have chosen : Instruction.useStandard.chosen = some m := chosen_config hv hm
    have own : Ready (some ⟨.global, m⟩) := by
      intro snapshot same
      cases same
      exact ⟨rfl, chosen⟩
    have installed : Alike N (s.switch .global m)
        { s with store := { s.store.write .global m with standard := some ⟨.global, m⟩ } } :=
      ⟨rfl, rfl, ready, own, rfl, fun _ _ => rfl, fun _ _ => rfl, fun _ _ => rfl⟩
    exact ⟨rfl, m, chosen, installed.trans (.of_kept k own)⟩
  | @useStandardAgain snapshot captured own =>
    exact ⟨rfl, _, (ready _ captured).2, .of_kept k ready⟩
  | look looks => cases looks

theorem steady_useStandard : Steady N (perform build .useStandard) := by
  have returns : ∀ u : Session, Ready u.store.standard →
      ∃ v w, Returns (perform build .useStandard) u v w := by
    intro u ready
    rcases returns_or_fails (perform build .useStandard) u with ⟨v, h⟩ | ⟨e, h⟩
    · exact ⟨v, _, h⟩
    rcases Fails.bind h with h₁ | ⟨_, s₁, -, r₁⟩
    · exact absurd h₁ (useStandard_succeeds ready)
    · cases r₁
  intro s t h
  obtain ⟨v, s₁, r₁⟩ := returns s h.left
  obtain ⟨w, t₁, r₂⟩ := returns t h.right
  obtain ⟨rfl, m, hm, k₁⟩ := useStandard_alike (N := N) h.left r₁
  obtain ⟨rfl, n, hn, k₂⟩ := useStandard_alike (N := N) h.right r₂
  obtain rfl : m = n := Option.some.inj (hm.symm.trans hn)
  exact .inl ⟨_, s₁, _, t₁, r₁, r₂, rfl, k₁.symm.trans ((h.switch .global m).trans k₂)⟩

/-! ## Instructions -/

theorem Steady.agree {x : Action Value} (hx : Steady N x) : Tracks (Alike N) Agree x x := by
  intro s t h
  rcases hx h with ⟨v, s₁, w, t₁, r₁, r₂, rfl, k⟩ | fails
  · exact .inl ⟨v, s₁, v, t₁, r₁, r₂, rfl, k⟩
  · exact .inr fails

theorem steady_perform (i : Instruction) (hN : ∀ r ∈ i.uses, N r) :
    Tracks (Alike N) Agree (perform build i) (perform build i) := by
  cases i with
  | counts => exact Tracks.get.bind fun s t _ => .pure rfl
  | useStandard => exact steady_useStandard.agree
  | newContext name =>
    exact Tracks.same (.update fun _ _ h => h.newContext name) fun _ => .pure rfl
  | install lit place =>
    exact steady_pay.same fun v => (steady_context place).same fun c =>
      (steady_install c v).same fun _ => .pure rfl
  | current place | active place =>
    exact (steady_context place).same fun c => (steady_modulus c).same fun m => .pure rfl
  | hasModulus place =>
    refine (steady_context place).same fun c => Tracks.get.bind fun s t h => .pure ?_
    rw [h.active]
    rfl
  | save name place =>
    exact (steady_context place).same fun c => (steady_save c).same fun snapshot =>
      Tracks.same (.update fun _ _ h => h.snapshots_bind name snapshot) fun _ => .pure rfl
  | restore name place =>
    have found : Steady N (lookUp Session.snapshots name) :=
      tracks_lookUp fun _ _ h => h.snapshots name (hN _ (by simp [Instruction.uses]))
    exact found.same fun snapshot => (steady_context place).same fun c =>
      (steady_restore c snapshot).same fun _ => .pure rfl
  | openScope name lit place =>
    refine steady_pay.same fun v => (steady_context place).same fun c =>
      (steady_openScope c v).same fun guard => Tracks.get.bind fun s t h => ?_
    refine Tracks.same (.update fun _ _ h => h.guards_bind name guard) fun _ => ?_
    dsimp only
    rw [h.guards name (hN _ (by simp [Instruction.uses]))]
    cases t.guards.find? name with
    | some older => exact (steady_close older).same fun _ => .pure rfl
    | none => exact Tracks.same (.pure rfl) fun _ => .pure rfl
  | closeScope name =>
    have found : Steady N (lookUp Session.guards name) :=
      tracks_lookUp fun _ _ h => h.guards name (hN _ (by simp [Instruction.uses]))
    exact found.same fun guard => (steady_close guard).same fun _ =>
      Tracks.same (.update fun _ _ h => h.guards_erase name) fun _ => .pure rfl
  | abandonLock place =>
    exact (steady_context place).same fun c => .pure rfl
  | threads moduli place =>
    have read : Steady N (literals build moduli) := tracks_literals exposes_alike.charge moduli
    refine read.same fun l => (steady_context place).same fun c => ?_
    refine Tracks.same (fun s t h => ?_) fun seen => .pure rfl
    obtain ⟨seen, after⟩ := (Store.Alike.pairs _ _ c).peekEach l h.store
    exact .inl ⟨_, _, _, _, rfl, rfl, seen, h.withStore after⟩
  | installConfig lit =>
    exact steady_pay.same fun v => (steady_install _ _).same fun _ => .pure rfl
  | installDocument text =>
    exact steady_pay.same fun c => (steady_install _ _).same fun _ => .pure rfl
  | reset scope => exact Tracks.same (.update fun _ _ h => { h with }) fun _ => .pure rfl
  | make | random | unary | binary | fold | same | display | check | write | fill =>
    exact exposes_alike.perform rfl fun name used => hN (.element name) used

end Action

namespace Session

variable {build : Build} {N : Ref → Prop}

mutual

theorem step_alike (build : Build) {s t : Session} (h : Alike N s t) :
    ∀ st, (∀ v ∈ visitsOf build s st, ∀ r ∈ v.instruction.uses, N r) →
      (step build s st).1.visible = (step build t st).1.visible ∧
        Alike N (step build s st).2 (step build t st).2
  | .single i, uses => by
    have tracks := @Action.steady_perform build N i (uses ⟨s, i⟩ List.mem_cons_self)
    simp only [step]
    rcases tracks h with ⟨v, s₁, w, t₁, r₁, r₂, same, k⟩ | ⟨e, s₁, t₁, r₁, r₂, k⟩
    · rw [Returns] at r₁ r₂
      rw [r₁, r₂]
      refine ⟨?_, k⟩
      simp only [Session.reply, Reply.visible, Except.map, k.active, visibleAll, Reply.mk.injEq,
        and_true, Except.ok.injEq]
      exact same
    · rw [Fails] at r₁ r₂
      rw [r₁, r₂]
      refine ⟨?_, k⟩
      simp only [Session.reply, Reply.visible, Except.map, k.active, visibleAll]
  | .locked place steps, uses => by
    simp only [step, visitsOf] at uses ⊢
    rcases Action.steady_context place h with ⟨c, s₁, d, t₁, r₁, r₂, -, k⟩ | ⟨e, s₁, t₁, r₁, r₂, k⟩
    · rw [Returns] at r₁ r₂
      rw [r₁] at uses
      rw [r₁, r₂]
      obtain ⟨inner, after⟩ := run_alike build k steps uses
      refine ⟨?_, after⟩
      simp only [Session.reply, Reply.visible, Except.map, after.active, inner]
    · rw [Fails] at r₁ r₂
      rw [r₁, r₂]
      refine ⟨?_, k⟩
      simp only [Session.reply, Reply.visible, Except.map, k.active, visibleAll]

/-- Sessions that are alike in what a run uses give the same replies to it. -/
theorem run_alike (build : Build) {s t : Session} (h : Alike N s t) :
    ∀ steps, (∀ v ∈ visits build s steps, ∀ r ∈ v.instruction.uses, N r) →
      visibleAll (run build s steps).1 = visibleAll (run build t steps).1 ∧
        Alike N (run build s steps).2 (run build t steps).2
  | [], _ => ⟨rfl, h⟩
  | first :: rest, uses => by
    simp only [visits, List.mem_append] at uses
    obtain ⟨reply, k⟩ := step_alike build h first fun v hv => uses v (.inl hv)
    obtain ⟨replies, after⟩ := run_alike build k rest fun v hv => uses v (.inr hv)
    simp only [run, visibleAll, reply, replies]
    exact ⟨trivial, after⟩

end

end Session

end AmbientResidue
