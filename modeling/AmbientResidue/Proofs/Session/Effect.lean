import AmbientResidue.Proofs.Session.Outcome

/-! # What an instruction does

`Effect` says everything that a successful instruction can do, up to the counters and the journal,
and what has to hold for it to succeed; `effect_of_returns` is the one place where instructions are
taken apart. -/

namespace AmbientResidue

namespace Session

/-- The session with another modulus in one context. -/
def switch (s : Session) (c : ContextId) (m : Modulus) : Session :=
  { s with store := s.store.write c m }

/-- The session after a scope is closed, if there is one to close. -/
def closing (s : Session) : Option Guard → Session
  | some guard => { s with store := s.store.closeScope guard }
  | none => s

@[simp] theorem elements_closing (s : Session) (guard : Option Guard) :
    (s.closing guard).elements = s.elements := by
  cases guard <;> rfl

@[simp] theorem snapshots_closing (s : Session) (guard : Option Guard) :
    (s.closing guard).snapshots = s.snapshots := by
  cases guard <;> rfl

@[simp] theorem guards_closing (s : Session) (guard : Option Guard) :
    (s.closing guard).guards = s.guards := by
  cases guard <;> rfl

@[simp] theorem contexts_closing (s : Session) (guard : Option Guard) :
    (s.closing guard).contexts = s.contexts := by
  cases guard <;> rfl

@[simp] theorem made_closing (s : Session) (guard : Option Guard) :
    (s.closing guard).store.made = s.store.made := by
  cases guard with
  | none => rfl
  | some guard => exact Store.made_closeScope guard s.store

@[simp] theorem standard_closing (s : Session) (guard : Option Guard) :
    (s.closing guard).store.standard = s.store.standard := by
  cases guard with
  | none => rfl
  | some guard => exact Store.standard_closeScope guard s.store

/-- What a guard of context `c` remembers: the modulus that is active there now, if any. -/
def capture (s : Session) (c : ContextId) : Guard := ⟨c, (s.store.active c).map (⟨c, ·⟩)⟩

namespace Kept

variable {s t : Session}

theorem switch (h : Kept s t) (c : ContextId) (m : Modulus) :
    Kept (s.switch c m) (t.switch c m) :=
  ⟨h.store.write c m, h.elements, h.snapshots, h.guards, h.contexts⟩

theorem closing (h : Kept s t) (guard : Option Guard) :
    Kept (s.closing guard) (t.closing guard) := by
  cases guard with
  | none => exact h
  | some guard =>
    exact ⟨h.store.closeScope guard, h.elements, h.snapshots, h.guards, h.contexts⟩

theorem naming (h : Kept s t) (name : Option String) (a : Element) :
    Kept (s.naming name a) (t.naming name a) := by
  cases name with
  | none => exact h
  | some name =>
    exact ⟨h.store, congrArg (Names.bind · name a) h.elements, h.snapshots, h.guards, h.contexts⟩

theorem snapshots_bind (h : Kept s t) (name : String) (snapshot : Snapshot) :
    Kept { s with snapshots := s.snapshots.bind name snapshot }
      { t with snapshots := t.snapshots.bind name snapshot } :=
  ⟨h.store, h.elements, congrArg (Names.bind · name snapshot) h.snapshots, h.guards, h.contexts⟩

theorem guards_bind (h : Kept s t) (name : String) (guard : Guard) :
    Kept { s with guards := s.guards.bind name guard }
      { t with guards := t.guards.bind name guard } :=
  ⟨h.store, h.elements, h.snapshots, congrArg (Names.bind · name guard) h.guards, h.contexts⟩

end Kept

end Session

/-- An instruction that only looks, or only moves the counters. -/
def Instruction.looks : Instruction → Bool
  | .current _ | .active _ | .hasModulus _ | .abandonLock _ | .threads _ _ | .counts | .reset _
  | .same _ _ | .display _ | .check _ | .write _ | .fill _ _ => true
  | _ => false

open Session AmbientResidue.Action

/-- What an instruction answers and leaves when it succeeds. -/
inductive Effect (build : Build) (s : Session) : Instruction → Value → Session → Prop where
  | newContext {name} : Effect build s (.newContext name) .done
      { s with store := s.store.newContext.2, contexts := s.contexts.bind name s.store.newContext.1 }
  | install {lit place v c m} : Denotes lit v → s.contextAt? place = some c →
      Modulus.ofInt v = .ok m → Effect build s (.install lit place) .done (s.switch c m)
  | save {name place c m} : s.contextAt? place = some c → s.store.active c = some m →
      Effect build s (.save name place) .done { s with snapshots := s.snapshots.bind name ⟨c, m⟩ }
  | restore {name place snapshot c} : s.snapshots.find? name = some snapshot →
      s.contextAt? place = some c → snapshot.context = c →
      Effect build s (.restore name place) .done (s.switch c snapshot.modulus)
  /-- The guard that had the name is closed after the switch. -/
  | openScope {name lit place v c m} : Denotes lit v → s.contextAt? place = some c →
      Modulus.ofInt v = .ok m → Effect build s (.openScope name lit place) .done
        (closing { s.switch c m with guards := s.guards.bind name (s.capture c) }
          (s.guards.find? name))
  | closeScope {name guard} : s.guards.find? name = some guard →
      Effect build s (.closeScope name) .done
        { s.closing (some guard) with guards := s.guards.erase name }
  | useStandard {config m} : s.store.standard = none → Config.standard.run.value = .ok config →
      Modulus.ofInt config.modulus = .ok m → Effect build s .useStandard .done
        { s with store := { s.store.write .global m with standard := some ⟨.global, m⟩ } }
  | useStandardAgain {snapshot} : s.store.standard = some snapshot →
      snapshot.context = .global →
      Effect build s .useStandard .done (s.switch .global snapshot.modulus)
  | installConfig {lit v m} : Denotes lit v → Modulus.ofInt v = .ok m →
      Effect build s (.installConfig lit) .done (s.switch .global m)
  | installDocument {text config m} : (Config.ofText text).run.value = .ok config →
      Modulus.ofInt config.modulus = .ok m →
      Effect build s (.installDocument text) .done (s.switch .global m)
  | make {source bind a t} : Returns (Action.make build source) s a t →
      Effect build s (.make source bind) (.integer a.representative) (s.naming bind a)
  | random {bs bind drawn} : (Element.random (s.ambient build) bs).run.value = .ok drawn →
      Effect build s (.random bs bind) (.drawn drawn.element.representative drawn.bytes)
        (s.naming bind drawn.element)
  | unary {op form x bind a r} : s.elements.find? x = some a →
      (if form = .method then op.method (s.ambient build) a
        else op.operator (s.ambient build) a).run.value = .ok r →
      Effect build s (.unary op form x bind) (.integer r.representative)
        (s.naming (Action.target form x bind) r)
  | binary {op form x y bind a b r} : s.elements.find? x = some a → s.elements.find? y = some b →
      (if form = .method then op.method (s.ambient build) a b
        else op.operator (s.ambient build) a b).run.value = .ok r →
      Effect build s (.binary op form x y bind) (.integer r.representative)
        (s.naming (Action.target form x bind) r)
  | sum {names bind l r} : names.mapM s.elements.find? = some l →
      (Element.sum (s.ambient build) l).run.value = .ok r →
      Effect build s (.fold .sum names bind) (.integer r.representative) (s.naming bind r)
  | product {names bind l r} : names.mapM s.elements.find? = some l →
      (Element.product (s.ambient build) l).run.value = .ok r →
      Effect build s (.fold .product names bind) (.integer r.representative) (s.naming bind r)
  | look {i v} : i.looks = true → Effect build s i v s

namespace Action

variable {build : Build} {s t : Session} {e : Failure}

/-! ## Making residues -/

theorem calm_make (source : Source) : Calm (make build source) := by
  cases source with
  | copy name => exact calm_lookUp
  | integer lit => exact calm_pay.bind fun v => calm_compute
  | frame bs validate compression => exact calm_compute.bind fun p => .pure p.1
  | _ => unfold make; exact calm_compute

/-- Computing a residue from a session and giving it a name. -/
theorem naming_returns {x : Action α} {name : Option String} {element : α → Element}
    {value : α → Value} {v : Value}
    (h : Returns (do let a ← x; bindElement name (element a); return value a) s v t) :
    ∃ a u, Returns x s a u ∧ v = value a ∧ t = u.naming name (element a) := by
  obtain ⟨a, u, ha, h⟩ := Returns.bind h
  obtain ⟨_, w, hb, h⟩ := Returns.bind h
  obtain ⟨rfl, rfl⟩ := Returns.pure h
  obtain rfl := bindElement_returns hb
  exact ⟨a, u, ha, rfl, rfl⟩

/-! ## Instructions that succeed -/

theorem switch_returns {c : ContextId} {v : Int} (h : Returns (onStore (Store.install c v)) s () t) :
    ∃ m, Modulus.ofInt v = .ok m ∧ Kept (s.switch c m) t := by
  obtain ⟨store, hi, rfl⟩ := onStore_returns h
  obtain ⟨m, hm, k⟩ := Store.install_returns hi
  exact ⟨m, hm, .withStore k⟩

theorem install_returns {lit : String} {place : Place} {v : Value}
    (h : Returns (perform build (.install lit place)) s v t) :
    ∃ u, Effect build s (.install lit place) v u ∧ Kept u t := by
  obtain ⟨n, s₁, h₁, r₁⟩ := Returns.bind h
  obtain ⟨c, s₂, h₂, r₂⟩ := Returns.bind r₁
  obtain ⟨_, s₃, h₃, r₃⟩ := Returns.bind r₂
  obtain ⟨rfl, rfl⟩ := Returns.pure r₃
  obtain ⟨hn, k₁⟩ := literal_returns h₁
  obtain ⟨hc, rfl⟩ := context_returns h₂
  obtain ⟨m, hm, k₃⟩ := switch_returns h₃
  rw [k₁.contextAt?] at hc
  exact ⟨_, .install hn hc hm, (k₁.switch c m).trans k₃⟩

theorem save_returns {name : String} {place : Place} {v : Value}
    (h : Returns (perform build (.save name place)) s v t) :
    ∃ u, Effect build s (.save name place) v u ∧ Kept u t := by
  obtain ⟨c, s₁, h₁, r₁⟩ := Returns.bind h
  obtain ⟨snapshot, s₂, h₂, r₂⟩ := Returns.bind r₁
  obtain ⟨_, s₃, h₃, r₃⟩ := Returns.bind r₂
  obtain ⟨rfl, rfl⟩ := Returns.pure r₃
  obtain ⟨hc, rfl⟩ := context_returns h₁
  obtain ⟨store, hs, rfl⟩ := onStore_returns h₂
  obtain ⟨m, hm, rfl, k⟩ := Store.save_returns hs
  obtain rfl := Returns.of_modify h₃
  exact ⟨_, .save hc hm, (Kept.withStore k).snapshots_bind name _⟩

theorem restore_returns {name : String} {place : Place} {v : Value}
    (h : Returns (perform build (.restore name place)) s v t) :
    ∃ u, Effect build s (.restore name place) v u ∧ Kept u t := by
  obtain ⟨snapshot, s₁, h₁, r₁⟩ := Returns.bind h
  obtain ⟨c, s₂, h₂, r₂⟩ := Returns.bind r₁
  obtain ⟨_, s₃, h₃, r₃⟩ := Returns.bind r₂
  obtain ⟨rfl, rfl⟩ := Returns.pure r₃
  obtain ⟨hs, rfl⟩ := lookUp_returns h₁
  obtain ⟨hc, rfl⟩ := context_returns h₂
  obtain ⟨store, hr, rfl⟩ := onStore_returns h₃
  obtain ⟨own, k⟩ := Store.restore_returns hr
  exact ⟨_, .restore hs hc own, .withStore k⟩

theorem openScope_returns {name lit : String} {place : Place} {v : Value}
    (h : Returns (perform build (.openScope name lit place)) s v t) :
    ∃ u, Effect build s (.openScope name lit place) v u ∧ Kept u t := by
  obtain ⟨n, s₁, h₁, r₁⟩ := Returns.bind h
  obtain ⟨c, s₂, h₂, r₂⟩ := Returns.bind r₁
  obtain ⟨guard, s₃, h₃, r₃⟩ := Returns.bind r₂
  obtain ⟨_, s₄, h₄, r₄⟩ := Returns.bind r₃
  obtain ⟨_, s₅, h₅, r₅⟩ := Returns.bind r₄
  obtain ⟨hn, k₁⟩ := literal_returns h₁
  obtain ⟨hc, rfl⟩ := context_returns h₂
  obtain ⟨store, ho, rfl⟩ := onStore_returns h₃
  obtain ⟨m, hm, rfl, k₃⟩ := Store.openScope_returns ho
  obtain ⟨rfl, rfl⟩ := Returns.of_get h₄
  obtain rfl := Returns.of_modify h₅
  rw [k₁.contextAt?] at hc
  have same : s.capture c = ⟨c, (s₂.store.active c).map (⟨c, ·⟩)⟩ := by
    rw [capture, k₁.store.active]
  have k₅ := ((k₁.switch c m).trans (.withStore k₃)).guards_bind name (s.capture c)
  have effect : Effect build s (.openScope name lit place) .done
      (closing { s.switch c m with guards := s.guards.bind name (s.capture c) }
        (s.guards.find? name)) := .openScope hn hc hm
  rw [← same] at r₅
  dsimp only at r₅
  rw [k₁.guards] at r₅
  cases older : s.guards.find? name with
  | none =>
    rw [older] at r₅ effect
    obtain ⟨rfl, rfl⟩ := Returns.pure r₅
    exact ⟨_, effect, k₁.guards ▸ k₅⟩
  | some guard =>
    rw [older] at r₅ effect
    obtain ⟨_, s₆, h₆, r₆⟩ := Returns.bind r₅
    obtain rfl := Returns.of_modify h₆
    obtain ⟨rfl, rfl⟩ := Returns.pure r₆
    exact ⟨_, effect, k₁.guards ▸ k₅.closing (some guard)⟩

theorem closeScope_returns {name : String} {v : Value}
    (h : Returns (perform build (.closeScope name)) s v t) :
    ∃ u, Effect build s (.closeScope name) v u ∧ Kept u t := by
  obtain ⟨guard, s₁, h₁, r₁⟩ := Returns.bind h
  obtain ⟨_, s₂, h₂, r₂⟩ := Returns.bind r₁
  obtain ⟨_, s₃, h₃, r₃⟩ := Returns.bind r₂
  obtain ⟨rfl, rfl⟩ := Returns.pure r₃
  obtain ⟨hg, rfl⟩ := lookUp_returns h₁
  obtain rfl := Returns.of_modify h₂
  obtain rfl := Returns.of_modify h₃
  exact ⟨_, .closeScope hg, .refl _⟩

theorem newContext_returns {name : String} {v : Value}
    (h : Returns (perform build (.newContext name)) s v t) :
    ∃ u, Effect build s (.newContext name) v u ∧ Kept u t := by
  obtain ⟨_, s₁, h₁, r₁⟩ := Returns.bind h
  obtain ⟨rfl, rfl⟩ := Returns.pure r₁
  obtain rfl := Returns.of_modify h₁
  exact ⟨_, .newContext, .refl _⟩

theorem installConfig_returns {lit : String} {v : Value}
    (h : Returns (perform build (.installConfig lit)) s v t) :
    ∃ u, Effect build s (.installConfig lit) v u ∧ Kept u t := by
  obtain ⟨n, s₁, h₁, r₁⟩ := Returns.bind h
  obtain ⟨_, s₂, h₂, r₂⟩ := Returns.bind r₁
  obtain ⟨rfl, rfl⟩ := Returns.pure r₂
  obtain ⟨hn, k₁⟩ := literal_returns h₁
  obtain ⟨m, hm, k₂⟩ := switch_returns h₂
  exact ⟨_, .installConfig hn hm, (k₁.switch .global m).trans k₂⟩

theorem installDocument_returns {text : String} {v : Value}
    (h : Returns (perform build (.installDocument text)) s v t) :
    ∃ u, Effect build s (.installDocument text) v u ∧ Kept u t := by
  obtain ⟨config, s₁, h₁, r₁⟩ := Returns.bind h
  obtain ⟨_, s₂, h₂, r₂⟩ := Returns.bind r₁
  obtain ⟨rfl, rfl⟩ := Returns.pure r₂
  obtain ⟨hv, rfl⟩ := pay_returns h₁
  obtain ⟨m, hm, k₂⟩ := switch_returns h₂
  exact ⟨_, .installDocument hv hm, ((Kept.charge s _ _).switch .global m).trans k₂⟩

/-- Installing and capturing the default modulus. -/
theorem installStandard_returns {snapshot : Snapshot}
    (h : Returns (installStandard build) s snapshot t) :
    ∃ config m, Config.standard.run.value = .ok config ∧ Modulus.ofInt config.modulus = .ok m ∧
      snapshot = ⟨.global, m⟩ ∧
      Kept { s with store := { s.store.write .global m with standard := some snapshot } } t := by
  obtain ⟨config, s₁, h₁, r₁⟩ := Returns.bind h
  obtain ⟨_, s₂, h₂, r₂⟩ := Returns.bind r₁
  obtain ⟨captured, s₃, h₃, r₃⟩ := Returns.bind r₂
  obtain ⟨_, s₄, h₄, r₄⟩ := Returns.bind r₃
  obtain ⟨rfl, rfl⟩ := Returns.pure r₄
  obtain ⟨hv, rfl⟩ := pay_returns h₁
  obtain ⟨m, hm, k₂⟩ := switch_returns h₂
  obtain ⟨store, hs, rfl⟩ := onStore_returns h₃
  obtain ⟨n, hn, rfl, k₃⟩ := Store.save_returns hs
  obtain rfl := Returns.of_modify h₄
  have k := (((Kept.charge s build _).switch .global m).trans k₂).trans (.withStore k₃)
  have : n = m := by
    have installed := k₂.store.active ▸ hn
    simpa [Session.switch, eq_comm] using installed
  subst this
  exact ⟨config, n, hv, hm, rfl, ⟨k.store.made, k.store.active, rfl⟩, k.elements, k.snapshots,
    k.guards, k.contexts⟩

theorem useStandard_returns {v : Value} (h : Returns (perform build .useStandard) s v t) :
    ∃ u, Effect build s .useStandard v u ∧ Kept u t := by
  obtain ⟨_, s₁, h₁, r₁⟩ := Returns.bind h
  obtain ⟨rfl, rfl⟩ := Returns.pure r₁
  obtain ⟨_, s₂, h₂, r₂⟩ := Returns.bind h₁
  obtain ⟨rfl, rfl⟩ := Returns.of_get h₂
  obtain ⟨snapshot, s₃, h₃, r₃⟩ := Returns.bind r₂
  obtain ⟨store, hr, rfl⟩ := onStore_returns r₃
  obtain ⟨own, k⟩ := Store.restore_returns hr
  cases captured : s₂.store.standard with
  | none =>
    rw [captured] at h₃
    obtain ⟨config, m, hv, hm, rfl, k₃⟩ := installStandard_returns h₃
    refine ⟨_, .useStandard captured hv hm, k₃.trans (.withStore ?_)⟩
    have active : s₃.store.active .global = some m := by rw [k₃.store.active]; simp
    exact (Store.write_active active).trans k
  | some captured' =>
    rw [captured] at h₃
    obtain ⟨rfl, rfl⟩ := Returns.pure h₃
    exact ⟨_, .useStandardAgain captured own, .withStore k⟩

theorem make_returns {source : Source} {bind : Option String} {v : Value}
    (h : Returns (perform build (.make source bind)) s v t) :
    ∃ u, Effect build s (.make source bind) v u ∧ Kept u t := by
  obtain ⟨a, u, ha, rfl, rfl⟩ := naming_returns h
  exact ⟨_, .make ha, (calm_make source ha).naming bind a⟩

theorem random_returns {bs : List UInt8} {bind : Option String} {v : Value}
    (h : Returns (perform build (.random bs bind)) s v t) :
    ∃ u, Effect build s (.random bs bind) v u ∧ Kept u t := by
  obtain ⟨drawn, u, hd, rfl, rfl⟩ := naming_returns h
  exact ⟨_, .random (compute_returns hd), (calm_compute hd).naming bind drawn.element⟩

theorem unary_returns {op : Element.Unary} {form : Form} {x : String} {bind : Option String}
    {v : Value} (h : Returns (perform build (.unary op form x bind)) s v t) :
    ∃ u, Effect build s (.unary op form x bind) v u ∧ Kept u t := by
  obtain ⟨a, s₁, h₁, r₁⟩ := Returns.bind h
  obtain ⟨ha, rfl⟩ := lookUp_returns h₁
  obtain ⟨r, u, hr, rfl, rfl⟩ := naming_returns r₁
  exact ⟨_, .unary ha (compute_returns hr), (calm_compute hr).naming _ r⟩

theorem binary_returns {op : Element.Binary} {form : Form} {x y : String} {bind : Option String}
    {v : Value} (h : Returns (perform build (.binary op form x y bind)) s v t) :
    ∃ u, Effect build s (.binary op form x y bind) v u ∧ Kept u t := by
  obtain ⟨a, s₁, h₁, r₁⟩ := Returns.bind h
  obtain ⟨b, s₂, h₂, r₂⟩ := Returns.bind r₁
  obtain ⟨ha, rfl⟩ := lookUp_returns h₁
  obtain ⟨hb, rfl⟩ := lookUp_returns h₂
  obtain ⟨r, u, hr, rfl, rfl⟩ := naming_returns r₂
  exact ⟨_, .binary ha hb (compute_returns hr), (calm_compute hr).naming _ r⟩

theorem fold_returns {op : Fold} {names : List String} {bind : Option String} {v : Value}
    (h : Returns (perform build (.fold op names bind)) s v t) :
    ∃ u, Effect build s (.fold op names bind) v u ∧ Kept u t := by
  obtain ⟨l, s₁, h₁, r₁⟩ := Returns.bind h
  obtain ⟨hl, rfl⟩ := elements_returns h₁
  obtain ⟨r, u, hr, rfl, rfl⟩ := naming_returns r₁
  have k := (calm_compute hr).naming bind r
  cases op with
  | sum => exact ⟨_, .sum hl (compute_returns hr), k⟩
  | product => exact ⟨_, .product hl (compute_returns hr), k⟩

theorem calm_modulus (c : ContextId) : Calm (onStore (Store.modulus c)) :=
  calm_onStore fun _ _ _ h => (Store.modulus_returns h).2 ▸ .refl _

theorem calm_looks {i : Instruction} (hi : i.looks = true) : Calm (perform build i) := by
  cases i with
  | current place | active place =>
    exact (calm_context place).bind fun c => (calm_modulus c).bind fun m => .pure _
  | hasModulus place =>
    exact (calm_context place).bind fun c => Calm.get.bind fun _ => .pure _
  | abandonLock place =>
    exact (calm_context place).bind fun c => .pure _
  | threads moduli place =>
    refine (calm_literals moduli).bind fun l => (calm_context place).bind fun c => ?_
    refine Calm.bind (fun s seen t h => ?_) fun seen => .pure _
    cases h
    exact .withStore (Store.peekEach_kept c l _)
  | counts =>
    exact Calm.get.bind fun _ => .pure _
  | reset scope =>
    refine Calm.bind (fun s u t h => ?_) fun _ => .pure _
    obtain rfl := Returns.of_modify h
    exact ⟨.refl _, rfl, rfl, rfl, rfl⟩
  | same a b =>
    exact calm_lookUp.bind fun x => calm_lookUp.bind fun y => .pure _
  | display a | write a =>
    exact calm_lookUp.bind fun x => .pure _
  | check a =>
    exact calm_lookUp.bind fun x => calm_compute.bind fun _ => .pure _
  | fill a size =>
    refine calm_lookUp.bind fun x => ?_
    split
    · exact .pure _
    · intro s v t h
      cases h
  | _ => cases hi

/-- Whatever an instruction does when it succeeds is one of its effects. -/
theorem effect_of_returns {i : Instruction} {v : Value} (h : Returns (perform build i) s v t) :
    ∃ u, Effect build s i v u ∧ Kept u t := by
  cases i with
  | newContext name => exact newContext_returns h
  | install lit place => exact install_returns h
  | save name place => exact save_returns h
  | restore name place => exact restore_returns h
  | openScope name lit place => exact openScope_returns h
  | closeScope name => exact closeScope_returns h
  | useStandard => exact useStandard_returns h
  | installConfig lit => exact installConfig_returns h
  | installDocument text => exact installDocument_returns h
  | make source bind => exact make_returns h
  | random bs bind => exact random_returns h
  | unary op form x bind => exact unary_returns h
  | binary op form x y bind => exact binary_returns h
  | fold op names bind => exact fold_returns h
  | _ => exact ⟨s, .look rfl, calm_looks rfl h⟩

end Action

end AmbientResidue
