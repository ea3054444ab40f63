import AmbientResidue.Proofs.Session.Lockstep
import AmbientResidue.Proofs.Session.Moduli

/-! # The default modulus

Whoever asks for the default modulus first reads its literal, installs it and captures it; whoever
asks later gets what was captured. No other instruction touches what was captured, so that it holds
the default modulus of the global context for good, and both ways lead to the same contexts. -/

namespace AmbientResidue

/-- The modulus when none is configured. -/
def Modulus.standard : Modulus := ⟨(Nat.pow 2 128 : Nat) - 159, 16, by decide⟩

/-- What is captured of it. -/
def Snapshot.standard : Snapshot := ⟨.global, .standard⟩

open Session AmbientResidue.Action

theorem chosen_useStandard : Instruction.useStandard.chosen = some Modulus.standard := by
  decide +kernel

theorem denotes_defaultLiteral : Denotes Config.defaultLiteral Modulus.standard.value := by
  rfl

theorem cost_standard : Config.standard.run.cost = { fromDecimal := 1 } := by
  decide +kernel

variable {build : Build} {s t : Session} {l : List Visit} {p : Snapshot} {v : Value}
  {i : Instruction}

theorem ready_iff {captured : Option Snapshot} :
    Ready captured ↔ ∀ p, captured = some p → p = .standard := by
  constructor
  · intro ready p same
    obtain ⟨context, modulus⟩ := ready p same
    rw [chosen_useStandard] at modulus
    obtain ⟨c, m⟩ := p
    cases context
    cases modulus
    rfl
  · intro standard p same
    rw [standard p same]
    exact ⟨rfl, chosen_useStandard⟩

namespace Session

/-- The session in which the default modulus is active and captured. -/
def standardized (s : Session) : Session :=
  { s with store := { s.store.write .global .standard with standard := some .standard } }

end Session

/-! ## Asking for it -/

theorem tally_installStandard (h : Returns (installStandard build) s p t) :
    t.tally = (s.charge build { fromDecimal := 1 }).tally := by
  obtain ⟨config, s₁, h₁, r₁⟩ := Returns.bind h
  obtain ⟨_, s₂, h₂, r₂⟩ := Returns.bind r₁
  obtain ⟨captured, s₃, h₃, r₃⟩ := Returns.bind r₂
  obtain ⟨_, s₄, h₄, r₄⟩ := Returns.bind r₃
  obtain ⟨rfl, rfl⟩ := Returns.pure r₄
  obtain ⟨-, rfl⟩ := pay_returns h₁
  obtain ⟨_, -, rfl⟩ := onStore_returns h₂
  obtain ⟨_, -, rfl⟩ := onStore_returns h₃
  obtain rfl := Returns.of_modify h₄
  rw [cost_standard]

/-- The literal is read where nothing has been captured, and nowhere else. -/
theorem tally_useStandard (h : Returns (perform build .useStandard) s v t) : t.tally =
    match s.store.standard with
    | none => (s.charge build { fromDecimal := 1 }).tally
    | some _ => s.tally := by
  obtain ⟨_, s₁, h₁, r₁⟩ := Returns.bind h
  obtain ⟨rfl, rfl⟩ := Returns.pure r₁
  obtain ⟨_, s₂, h₂, r₂⟩ := Returns.bind h₁
  obtain ⟨rfl, rfl⟩ := Returns.of_get h₂
  obtain ⟨snapshot, s₃, h₃, r₃⟩ := Returns.bind r₂
  obtain ⟨_, -, rfl⟩ := onStore_returns r₃
  cases captured : s₂.store.standard with
  | none =>
    rw [captured] at h₃
    have installed := tally_installStandard h₃
    exact installed
  | some own =>
    rw [captured] at h₃
    obtain ⟨rfl, rfl⟩ := Returns.pure h₃
    rfl

/-- Both ways lead to the same contexts. -/
theorem kept_useStandard (ready : Ready s.store.standard)
    (h : Returns (perform build .useStandard) s v t) : v = .done ∧ Kept s.standardized t := by
  obtain ⟨u, effect, k⟩ := effect_of_returns h
  cases effect with
  | @useStandard config m captured hv hm =>
    have chosen : Instruction.useStandard.chosen = some m := chosen_config hv hm
    rw [chosen_useStandard] at chosen
    cases chosen
    exact ⟨rfl, k⟩
  | @useStandardAgain snapshot captured own =>
    obtain rfl := ready_iff.1 ready snapshot captured
    have same : s.standardized = s.switch .global .standard := by
      rw [standardized, ← captured]
      rfl
    rw [same]
    exact ⟨rfl, k⟩
  | look looks => cases looks

theorem returns_useStandard (build : Build) (ready : Ready s.store.standard) :
    ∃ t, Returns (perform build .useStandard) s .done t ∧ Kept s.standardized t := by
  rcases returns_or_fails (perform build .useStandard) s with ⟨v, returned⟩ | ⟨e, failed⟩
  · obtain ⟨rfl, k⟩ := kept_useStandard ready returned
    exact ⟨_, returned, k⟩
  · rcases Fails.bind failed with refused | ⟨_, u, -, rest⟩
    · exact absurd refused (useStandard_succeeds ready)
    · cases rest

/-! ## What is captured -/

theorem standard_naming (s : Session) (name : Option String) (a : Element) :
    (s.naming name a).store.standard = s.store.standard := by
  cases name <;> rfl

/-- Only asking for the default modulus captures anything. -/
theorem standard_of_effect (effect : Effect build s i v t) (other : i ≠ .useStandard) :
    t.store.standard = s.store.standard := by
  cases effect with
  | useStandard | useStandardAgain => exact absurd rfl other
  | openScope => exact standard_closing _ _
  | closeScope => exact standard_closing _ _
  | make | random | unary | binary | sum | product => exact standard_naming _ _ _
  | newContext | install | save | restore | installConfig | installDocument | look => rfl

theorem standard_next_useStandard (ready : Ready s.store.standard) :
    (s.next build .useStandard).store.standard = some .standard := by
  obtain ⟨t, returned, k⟩ := returns_useStandard build ready
  have after : s.next build .useStandard = t := after_returns returned
  rw [after, k.store.standard]
  rfl

theorem standard_next_of_ne (build : Build) (s : Session) (other : i ≠ .useStandard) :
    (s.next build i).store.standard = s.store.standard := by
  rcases next_cases build ⟨s, i⟩ with ⟨-, k⟩ | ⟨-, v, u, effect, k⟩
  · exact k.store.standard
  · rw [k.store.standard]
    exact standard_of_effect effect other

theorem ready_next (ready : Ready s.store.standard) (i : Instruction) :
    Ready (s.next build i).store.standard := by
  by_cases asked : i = .useStandard
  · subst asked
    rw [standard_next_useStandard ready, ready_iff]
    intro p same
    exact (Option.some.inj same).symm
  · rwa [standard_next_of_ne build s asked]

namespace Session

/-- What has been captured is never captured anew. -/
theorem Path.standard_stays (path : Path build s l t) (ready : Ready s.store.standard)
    (captured : s.store.standard = some p) : t.store.standard = some p := by
  induction path with
  | nil => exact captured
  | @cons s i rest t path ih =>
    refine ih (ready_next ready i) ?_
    by_cases asked : i = .useStandard
    · subst asked
      rw [standard_next_useStandard ready, ready_iff.1 ready p captured]
    · rw [standard_next_of_ne build s asked, captured]

/-- Nothing is captured as long as nobody asks. -/
theorem Path.standard_eq_none_iff (path : Path build s l t) (ready : Ready s.store.standard) :
    t.store.standard = none ↔
      s.store.standard = none ∧ ∀ v ∈ l, v.instruction ≠ .useStandard := by
  induction path with
  | nil => simp
  | @cons s i rest t path ih =>
    rw [ih (ready_next ready i), List.forall_mem_cons]
    by_cases asked : i = .useStandard
    · subst asked
      simp [standard_next_useStandard ready]
    · rw [standard_next_of_ne build s asked]
      simp [asked]

/-- The default modulus, as a session has it and gets it. -/
structure Provides (build : Build) (l : List Visit) (s : Session) : Prop where
  /-- Asking for it succeeds and makes it the global modulus, with the same effect on the contexts
  each time. Its literal is read if nothing has been captured, and not read again. -/
  returns : ∃ t, Returns (perform build .useStandard) s .done t ∧
    t.store.active .global = some .standard ∧ Kept s.standardized t ∧ t.tally =
      match s.store.standard with
      | none => (s.charge build { fromDecimal := 1 }).tally
      | some _ => s.tally
  captured : ∀ p, s.store.standard = some p → p = .standard
  stays : ∀ v ∈ l, ∀ p, v.before.store.standard = some p → s.store.standard = some p
  first : s.store.standard = none ↔ ∀ v ∈ l, v.instruction ≠ .useStandard

theorem Path.provides (path : Path build .initial l s) : Provides build l s where
  returns := by
    have ready := (path.agrees .initial).standard
    obtain ⟨t, returned, k⟩ := returns_useStandard build ready
    refine ⟨t, returned, ?_, k, tally_useStandard returned⟩
    rw [k.store.active]
    rfl
  captured := ready_iff.1 (path.agrees .initial).standard
  stays v visited p captured := by
    obtain ⟨earlier, later, rfl⟩ := List.append_of_mem visited
    obtain ⟨before, after⟩ := path.visit
    have ready := (before.agrees .initial).standard
    exact (Path.cons after).standard_stays ready captured
  first := by
    rw [path.standard_eq_none_iff (Agrees.initial).standard]
    exact and_iff_right rfl

/-- Wherever a run has got to, the default modulus is there for the asking, the first time and ever
after, and what has been captured of it stays what it is. -/
theorem standard_provided :
    Modulus.standard.value = (Nat.pow 2 128 : Nat) - 159 ∧
    Denotes Config.defaultLiteral Modulus.standard.value ∧
    ∀ build steps, Provides build (visits build .initial steps) (run build .initial steps).2 ∧
      ∀ earlier v later, visits build .initial steps = earlier ++ v :: later →
        Provides build earlier v.before :=
  ⟨rfl, denotes_defaultLiteral, fun _ steps => run_throughout (fun path => path.provides) steps⟩

/-- The literal is read for the first time in a fresh session. After the 11 has replaced the default
modulus and a 0 has been refused, it comes back without being read. -/
theorem standard_provided_again :
    let s := (run .counted .initial [.single .useStandard, .single (.install "11" none),
      .single (.install "0" none)]).2
    (∃ t, Returns (perform .counted .useStandard) .initial .done t ∧
      t.tally = { fromDecimal := 1 }) ∧
      s.store.active .global = some ⟨11, 1, by decide⟩ ∧
      ∃ t, Returns (perform .counted .useStandard) s .done t ∧
        t.store.active .global = some .standard ∧ t.tally = s.tally := by
  intro s
  obtain ⟨-, -, sessions⟩ := standard_provided
  obtain ⟨t, first, -, -, paid⟩ := (sessions .counted []).1.returns
  have captured : s.store.standard = some .standard := by decide +kernel
  have eleven : s.store.active .global = some ⟨11, 1, by decide⟩ := by decide +kernel
  have later : Provides .counted _ s := (sessions .counted [.single .useStandard,
    .single (.install "11" none), .single (.install "0" none)]).1
  obtain ⟨u, again, active, -, unpaid⟩ := later.returns
  rw [captured] at unpaid
  exact ⟨⟨t, first, paid⟩, eleven, u, again, active, unpaid⟩

end Session

end AmbientResidue
