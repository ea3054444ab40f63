import AmbientResidue.Proofs.Session.Effect

/-! # Failing leaves everything as it was

An instruction that fails may have raised counters and written the journal. Nothing else of the
session changes: whatever writes comes after everything that can fail. -/

namespace AmbientResidue

namespace Action

open Session (Kept)

variable {α : Type} {build : Build}

theorem atomic_make (source : Source) : Atomic (make build source) := by
  cases source with
  | copy name => exact atomic_lookUp
  | integer lit => exact atomic_pay.bind calm_pay fun v => atomic_compute
  | frame bs validate compression => exact atomic_compute.bind_sure fun p => .pure p.1
  | _ => unfold make; exact atomic_compute

theorem atomic_naming {x : Action α} (hx : Atomic x) (name : Option String)
    (element : α → Element) (value : α → Value) :
    Atomic (do let a ← x; bindElement name (element a); return value a) :=
  hx.bind_sure fun a => (sure_bindElement name (element a)).bind fun _ => .pure (value a)

theorem atomic_install (c : ContextId) (v : Int) : Atomic (onStore (Store.install c v)) :=
  atomic_onStore fun _ _ _ h => (Store.install_fails h).2

theorem atomic_modulus (c : ContextId) : Atomic (onStore (Store.modulus c)) :=
  atomic_onStore fun _ _ _ h => (Store.modulus_fails h).2 ▸ .refl _

theorem atomic_save (c : ContextId) : Atomic (onStore (Store.save c)) :=
  atomic_onStore fun _ _ _ h => (Store.save_fails h).2 ▸ .refl _

theorem atomic_restore (c : ContextId) (snapshot : Snapshot) :
    Atomic (onStore (Store.restore c snapshot)) :=
  atomic_onStore fun _ _ _ h => (Store.restore_fails h).2.2

theorem atomic_openScope (c : ContextId) (v : Int) : Atomic (onStore (Store.openScope c v)) :=
  atomic_onStore fun _ _ _ h => (Store.openScope_fails h).2

/-- Once the default modulus is installed, capturing it cannot fail. -/
theorem atomic_installStandard : Atomic (installStandard build) := by
  refine atomic_pay.bind calm_pay fun config s e t h => ?_
  rcases Fails.bind h with h₁ | ⟨_, s₁, h₁, r₁⟩
  · exact atomic_install _ _ h₁
  obtain ⟨m, hm, k₁⟩ := switch_returns h₁
  rcases Fails.bind r₁ with h₂ | ⟨captured, s₂, h₂, r₂⟩
  · obtain ⟨r, store, hr, -, -⟩ := onStore_fails h₂
    have missing := (Store.save_fails hr).1
    rw [k₁.store.active] at missing
    simp [Session.switch] at missing
  · exact Sure.elim ((Sure.modifyGet _).bind fun _ => .pure captured) r₂

/-- Only a captured modulus of another context could be refused, before anything is written. -/
theorem atomic_useStandard : Atomic (useStandard build) := by
  refine Atomic.bind Sure.get.onFailure .get fun s => ?_
  cases captured : s.store.standard with
  | none =>
    intro s e t h
    rcases Fails.bind h with h₁ | ⟨snapshot, s₁, h₁, r₁⟩
    · exact atomic_installStandard h₁
    obtain ⟨config, m, hv, hm, rfl, k⟩ := installStandard_returns h₁
    obtain ⟨r, store, hr, -, -⟩ := onStore_fails r₁
    exact absurd rfl (Store.restore_fails hr).1
  | some snapshot =>
    exact Atomic.bind (Sure.pure _).onFailure (.pure _) fun _ => atomic_restore _ _

/-- A failing instruction leaves every context, every name and the default modulus as they were. -/
theorem atomic_perform (i : Instruction) : Atomic (perform build i) := by
  cases i with
  | newContext name => exact ((Sure.modifyGet _).bind fun _ => .pure _).onFailure
  | install lit place =>
    exact atomic_pay.bind calm_pay fun v => (atomic_context place).bind (calm_context place)
      fun c => (atomic_install c v).bind_sure fun _ => .pure _
  | current place | active place =>
    exact (atomic_context place).bind (calm_context place) fun c =>
      (atomic_modulus c).bind_sure fun m => .pure _
  | hasModulus place =>
    exact (atomic_context place).bind_sure fun c => Sure.get.bind fun _ => .pure _
  | save name place =>
    exact (atomic_context place).bind (calm_context place) fun c =>
      (atomic_save c).bind_sure fun snapshot => (Sure.modifyGet _).bind fun _ => .pure _
  | restore name place =>
    exact atomic_lookUp.bind calm_lookUp fun snapshot =>
      (atomic_context place).bind (calm_context place) fun c =>
        (atomic_restore c snapshot).bind_sure fun _ => .pure _
  | openScope name lit place =>
    refine atomic_pay.bind calm_pay fun v => (atomic_context place).bind (calm_context place)
      fun c => (atomic_openScope c v).bind_sure fun guard => Sure.get.bind fun s =>
        (Sure.modifyGet _).bind fun _ => ?_
    dsimp only
    split
    · exact (Sure.modifyGet _).bind fun _ => .pure _
    · exact .pure _
  | closeScope name =>
    exact atomic_lookUp.bind_sure fun guard => (Sure.modifyGet _).bind fun _ =>
      (Sure.modifyGet _).bind fun _ => .pure _
  | abandonLock place =>
    exact (atomic_context place).bind_sure fun c => .pure _
  | threads moduli place =>
    exact (atomic_literals moduli).bind (calm_literals moduli) fun l =>
      (atomic_context place).bind_sure fun c => (Sure.modifyGet _).bind fun seen => .pure _
  | useStandard =>
    exact atomic_useStandard.bind_sure fun _ => .pure _
  | installConfig lit =>
    exact atomic_pay.bind calm_pay fun v => (atomic_install _ v).bind_sure fun _ => .pure _
  | installDocument text =>
    exact atomic_pay.bind calm_pay fun c => (atomic_install _ _).bind_sure fun _ => .pure _
  | counts => exact (Sure.get.bind fun _ => .pure _).onFailure
  | reset scope => exact ((Sure.modifyGet _).bind fun _ => .pure _).onFailure
  | make source bind => exact atomic_naming (atomic_make source) bind _ _
  | random bs bind => exact atomic_naming atomic_compute bind _ _
  | unary op form x bind =>
    exact atomic_lookUp.bind calm_lookUp fun a => atomic_naming atomic_compute _ _ _
  | binary op form x y bind =>
    exact atomic_lookUp.bind calm_lookUp fun a => atomic_lookUp.bind calm_lookUp fun b =>
      atomic_naming atomic_compute _ _ _
  | fold op names bind =>
    exact (atomic_elements names).bind (calm_elements names) fun l =>
      atomic_naming atomic_compute _ _ _
  | same a b =>
    exact atomic_lookUp.bind calm_lookUp fun x => atomic_lookUp.bind_sure fun y => .pure _
  | display a | write a =>
    exact atomic_lookUp.bind_sure fun x => .pure _
  | check a =>
    exact atomic_lookUp.bind calm_lookUp fun x => atomic_compute.bind_sure fun _ => .pure _
  | fill a size =>
    refine atomic_lookUp.bind calm_lookUp fun x => ?_
    split
    · exact (Sure.pure _).onFailure
    · intro s e t h
      cases h
      exact .refl _

end Action

end AmbientResidue
