import AmbientResidue.Proofs.Session.Visits

/-! # Contexts as last-writer registers

A history lists the instructions that have succeeded, the latest one first. What a context, a
snapshot and a guard hold is read off the history alone, without any session: a context holds what
was written to it last, a snapshot what its context held when it was saved, a guard what its context
held when the scope was opened. -/

namespace AmbientResidue

abbrev History := List Instruction

/-- An instruction that neither names nor writes a context, a snapshot or a guard. -/
def Instruction.idle : Instruction → Bool
  | .newContext _ | .install _ _ | .save _ _ | .restore _ _ | .openScope _ _ _ | .closeScope _
  | .useStandard | .installConfig _ | .installDocument _ => false
  | _ => true

theorem Instruction.idle_of_looks {i : Instruction} (hi : i.looks = true) : i.idle = true := by
  cases i <;> first | rfl | cases hi

/-- The modulus that an instruction brings with it. -/
def Instruction.chosen : Instruction → Option Modulus
  | .install lit _ | .openScope _ lit _ | .installConfig lit =>
    (Integer.ofLiteral lit).run.value.toOption.bind fun v => (Modulus.ofInt v).toOption
  | .installDocument text =>
    (Config.ofText text).run.value.toOption.bind fun c => (Modulus.ofInt c.modulus).toOption
  | .useStandard =>
    Config.standard.run.value.toOption.bind fun c => (Modulus.ofInt c.modulus).toOption
  | _ => none

/-- What dropping the guard writes to a context. -/
def Guard.returns (guard : Guard) (c : ContextId) : Option Modulus :=
  if guard.context = c then guard.previous.map Snapshot.modulus else none

namespace History

/-- How many contexts have been made. -/
def made : History → Nat
  | [] => 0
  | .newContext _ :: h => made h + 1
  | _ :: h => made h

/-- What a name of a context stands for. Contexts are numbered in the order in which they were
made. -/
def contextNamed : History → String → Option ContextId
  | [], _ => none
  | .newContext name :: h, other =>
    if other = name then some ⟨made h + 1⟩ else contextNamed h other
  | _ :: h, other => contextNamed h other

def contextAt (h : History) : Place → Option ContextId
  | none => some .global
  | some name => contextNamed h name

mutual

/-- The modulus that was last written to a context, if any was. -/
def written : History → ContextId → Option Modulus
  | [], _ => none
  | i :: h, c =>
    (match i with
      | .install _ place => if contextAt h place = some c then i.chosen else none
      | .installConfig _ | .installDocument _ | .useStandard =>
        if ContextId.global = c then i.chosen else none
      | .restore name place =>
        if contextAt h place = some c then (snapshotAt h name).map Snapshot.modulus else none
      | .openScope name _ place =>
        -- The guard that had the name goes when the new scope is open already.
        ((guardAt h name).bind fun guard => guard.returns c).or
          (if contextAt h place = some c then i.chosen else none)
      | .closeScope name => (guardAt h name).bind fun guard => guard.returns c
      | _ => none).or (written h c)

/-- What a name of a snapshot stands for: what its context held when it was saved. -/
def snapshotAt : History → String → Option Snapshot
  | [], _ => none
  | .save name place :: h, other =>
    if other = name then (contextAt h place).bind fun c => (written h c).map (⟨c, ·⟩)
    else snapshotAt h other
  | _ :: h, other => snapshotAt h other

/-- What a name of a guard stands for: what its context held when the scope was opened. -/
def guardAt : History → String → Option Guard
  | [], _ => none
  | .openScope name _ place :: h, other =>
    if other = name then (contextAt h place).map fun c => ⟨c, (written h c).map (⟨c, ·⟩)⟩
    else guardAt h other
  | .closeScope name :: h, other => if other = name then none else guardAt h other
  | _ :: h, other => guardAt h other

end

end History

/-- The captured default modulus, if it has been captured, is what it should be. -/
def Ready (captured : Option Snapshot) : Prop :=
  ∀ snapshot, captured = some snapshot →
    snapshot.context = .global ∧ Instruction.useStandard.chosen = some snapshot.modulus

open Session AmbientResidue.Action

variable {build : Build} {s t : Session} {h : History} {i : Instruction}

/-- The session holds what the history says. -/
structure Agrees (h : History) (s : Session) : Prop where
  made : s.store.made = h.made
  context : ∀ name, s.contexts.find? name = h.contextNamed name
  active : ∀ c, s.store.active c = h.written c
  snapshot : ∀ name, s.snapshots.find? name = h.snapshotAt name
  guard : ∀ name, s.guards.find? name = h.guardAt name
  standard : Ready s.store.standard

namespace Agrees

theorem initial : Agrees [] .initial where
  made := rfl
  context _ := rfl
  active _ := rfl
  snapshot _ := rfl
  guard _ := rfl
  standard _ captured := by cases captured

theorem kept (a : Agrees h s) (k : Kept s t) : Agrees h t where
  made := k.store.made.trans a.made
  context name := k.contexts ▸ a.context name
  active c := k.store.active ▸ a.active c
  snapshot name := k.snapshots ▸ a.snapshot name
  guard name := k.guards ▸ a.guard name
  standard := k.store.standard ▸ a.standard

end Agrees

theorem Agrees.contextAt (a : Agrees h s) (place : Place) :
    s.contextAt? place = h.contextAt place := by
  cases place with
  | none => rfl
  | some name => exact a.context name

/-- The instruction gives no name to a context, a snapshot or a guard. -/
structure Still (i : Instruction) (h : History) : Prop where
  made : History.made (i :: h) = h.made
  context : ∀ name, History.contextNamed (i :: h) name = h.contextNamed name
  snapshot : ∀ name, History.snapshotAt (i :: h) name = h.snapshotAt name
  guard : ∀ name, History.guardAt (i :: h) name = h.guardAt name

theorem Still.of_idle (hi : i.idle = true) : Still i h := by
  cases i with
  | newContext | install | save | restore | openScope | closeScope | useStandard | installConfig
    | installDocument => cases hi
  | _ => exact ⟨rfl, fun _ => rfl, fun _ => rfl, fun _ => rfl⟩

theorem written_of_idle (hi : i.idle = true) (c : ContextId) :
    History.written (i :: h) c = h.written c := by
  cases i with
  | newContext | install | save | restore | openScope | closeScope | useStandard | installConfig
    | installDocument => cases hi
  | _ => rfl

namespace Agrees

theorem idle (a : Agrees h s) (hi : i.idle = true) : Agrees (i :: h) s where
  made := a.made.trans (Still.of_idle hi).made.symm
  context name := (a.context name).trans ((Still.of_idle hi).context name).symm
  active c := (a.active c).trans (written_of_idle hi c).symm
  snapshot name := (a.snapshot name).trans ((Still.of_idle hi).snapshot name).symm
  guard name := (a.guard name).trans ((Still.of_idle hi).guard name).symm
  standard := a.standard

theorem naming (a : Agrees h s) (name : Option String) (r : Element) :
    Agrees h (s.naming name r) := by
  cases name with
  | none => exact a
  | some name => exact { a with }

/-- Switching one context is what the history has to say, and all it has to say. -/
theorem switch (a : Agrees h s) (still : Still i h) {c : ContextId} {m : Modulus}
    (writes : ∀ d, History.written (i :: h) d = if d = c then some m else h.written d) :
    Agrees (i :: h) (s.switch c m) where
  made := a.made.trans still.made.symm
  context name := (a.context name).trans (still.context name).symm
  active d := by rw [Session.switch, Store.active_write, writes, a.active]
  snapshot name := (a.snapshot name).trans (still.snapshot name).symm
  guard name := (a.guard name).trans (still.guard name).symm
  standard := a.standard

end Agrees

theorem chosen_literal {lit : String} {v : Int} {m : Modulus} (hv : Denotes lit v)
    (hm : Modulus.ofInt v = .ok m) :
    ((Integer.ofLiteral lit).run.value.toOption.bind fun v => (Modulus.ofInt v).toOption) =
      some m := by
  rw [show (Integer.ofLiteral lit).run.value = .ok v from hv]
  simp [Except.toOption, hm]

theorem chosen_config {ε : Type} {x : Except ε Config} {config : Config} {m : Modulus}
    (hx : x = .ok config) (hm : Modulus.ofInt config.modulus = .ok m) :
    (x.toOption.bind fun config => (Modulus.ofInt config.modulus).toOption) = some m := by
  simp [hx, Except.toOption, hm]

theorem or_ite (c d : ContextId) (m : Modulus) (x : Option Modulus) :
    (if c = d then some m else none).or x = if d = c then some m else x := by
  by_cases same : c = d
  · simp [same]
  · simp [same, Ne.symm same]

theorem active_closing (s : Session) (guard : Option Guard) (c : ContextId) :
    (s.closing guard).store.active c =
      (guard.bind fun guard => guard.returns c).or (s.store.active c) := by
  cases guard with
  | none => rfl
  | some guard =>
    rw [closing, Store.active_closeScope, Option.bind_some, Guard.returns]
    cases guard.previous with
    | none => simp
    | some snapshot => exact (or_ite guard.context c snapshot.modulus _).symm

/-- What an instruction does is what the history says it does. -/
theorem Agrees.effect {v : Value} (a : Agrees h s) (effect : Effect build s i v t) :
    Agrees (i :: h) t := by
  cases effect with
  | @newContext name =>
    refine ⟨?_, fun other => ?_, a.active, a.snapshot, a.guard, a.standard⟩
    · exact congrArg (· + 1) a.made
    · simp only [Names.find?_bind, History.contextNamed, a.context, Store.newContext, a.made]
  | install hv hc hm =>
    refine a.switch ⟨rfl, fun _ => rfl, fun _ => rfl, fun _ => rfl⟩ fun d => ?_
    rw [a.contextAt] at hc
    simp only [History.written, hc, Instruction.chosen, chosen_literal hv hm, Option.some.injEq,
      or_ite]
  | @save name place c m hc hm =>
    refine ⟨a.made, a.context, a.active, fun other => ?_, a.guard, a.standard⟩
    rw [a.contextAt] at hc
    rw [a.active] at hm
    simp only [Names.find?_bind, History.snapshotAt, a.snapshot, hc, hm, Option.bind_some,
      Option.map_some]
  | restore hs hc own =>
    refine a.switch ⟨rfl, fun _ => rfl, fun _ => rfl, fun _ => rfl⟩ fun d => ?_
    rw [a.contextAt] at hc
    rw [a.snapshot] at hs
    simp only [History.written, hc, hs, Option.map_some, Option.some.injEq, or_ite]
  | @openScope name lit place v c m hv hc hm =>
    rw [a.contextAt] at hc
    refine ⟨?_, ?_, fun d => ?_, ?_, fun other => ?_, ?_⟩
    · rw [made_closing]; exact a.made
    · rw [contexts_closing]; exact a.context
    · rw [active_closing, a.guard]
      simp only [Session.switch, Store.active_write, a.active, History.written, hc,
        Instruction.chosen, chosen_literal hv hm, Option.some.injEq, Option.or_assoc, or_ite]
    · rw [snapshots_closing]; exact a.snapshot
    · rw [guards_closing]
      simp only [Names.find?_bind, a.guard, capture, a.active, History.guardAt, hc, Option.map_some]
    · rw [standard_closing]; exact a.standard
  | @closeScope name guard hg =>
    rw [a.guard] at hg
    refine ⟨?_, ?_, fun d => ?_, ?_, fun other => ?_, ?_⟩
    · exact (made_closing s (some guard)).trans a.made
    · exact a.context
    · refine (active_closing s (some guard) d).trans ?_
      simp only [a.active, History.written, hg]
    · exact a.snapshot
    · simp only [Names.find?_erase, a.guard, History.guardAt]
    · exact (standard_closing s (some guard)).symm ▸ a.standard
  | @useStandard config m _ hv hm =>
    have chosen : Instruction.useStandard.chosen = some m := chosen_config hv hm
    have b : Agrees (.useStandard :: h) (s.switch .global m) := by
      refine a.switch ⟨rfl, fun _ => rfl, fun _ => rfl, fun _ => rfl⟩ fun d => ?_
      simp only [History.written, chosen, or_ite]
    refine ⟨b.made, b.context, b.active, b.snapshot, b.guard, fun snapshot captured => ?_⟩
    cases captured
    exact ⟨rfl, chosen⟩
  | useStandardAgain captured own =>
    refine a.switch ⟨rfl, fun _ => rfl, fun _ => rfl, fun _ => rfl⟩ fun d => ?_
    simp only [History.written, (a.standard _ captured).2, or_ite]
  | installConfig hv hm =>
    refine a.switch ⟨rfl, fun _ => rfl, fun _ => rfl, fun _ => rfl⟩ fun d => ?_
    simp only [History.written, Instruction.chosen, chosen_literal hv hm, or_ite]
  | installDocument hv hm =>
    refine a.switch ⟨rfl, fun _ => rfl, fun _ => rfl, fun _ => rfl⟩ fun d => ?_
    simp only [History.written, Instruction.chosen, chosen_config hv hm, or_ite]
  | look hi => exact a.idle (Instruction.idle_of_looks hi)
  | _ => exact (a.idle rfl).naming _ _

end AmbientResidue
