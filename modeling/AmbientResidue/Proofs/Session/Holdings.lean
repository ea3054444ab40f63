import AmbientResidue.Proofs.Session.Canonical
import AmbientResidue.Proofs.Session.Moduli

/-! # The moduli that a session holds

Contexts, snapshots, open scopes, the captured default and the residues of the checked build all
hold moduli. None of them was put together by hand: each was made of an integer by an instruction of
the run, whichever way it has travelled since. -/

namespace AmbientResidue

namespace Session

/-- The modulus is held somewhere in the session. -/
inductive Has (s : Session) : Modulus → Prop where
  | active {c m} : s.store.active c = some m → Has s m
  | snapshot {name p} : s.snapshots.find? name = some p → Has s p.modulus
  | guard {name guard p} : s.guards.find? name = some guard → guard.previous = some p →
      Has s p.modulus
  | standard {p} : s.store.standard = some p → Has s p.modulus
  | tag {a m} : s.Holds a → a.tag = some m → Has s m

variable {build : Build} {l : List Visit} {s : Session} {m n : Modulus}

/-- A residue remembers the modulus that was active when it was made. -/
theorem Path.active_of_tag {a : Element} (p : Path build .initial l s) (held : s.Holds a)
    (tagged : a.tag = some m) : ∃ v ∈ l, v.before.store.active .global = some m := by
  obtain ⟨v, visited, -, canonical⟩ := p.accounted a held
  obtain ⟨n, active, -, -, tag⟩ := canonical
  rw [tagged] at tag
  by_cases tags : build.tags = true
  · have same : some m = some n := by rw [tag]; exact if_pos tags
    rw [same]
    exact ⟨v, visited, active⟩
  · have none : some m = none := by rw [tag]; exact if_neg tags
    cases none

theorem Path.regular_of_has (p : Path build .initial l s) (held : s.Has m) : m.Regular := by
  have agrees := p.agrees .initial
  have regular := History.regular (history build l ++ [])
  cases held with
  | active held =>
    rw [agrees.active] at held
    exact regular.written held
  | snapshot named =>
    rw [agrees.snapshot] at named
    exact regular.snapshot named
  | guard named previous =>
    rw [agrees.guard] at named
    exact regular.guard named previous
  | standard captured => exact Instruction.regular_chosen (agrees.standard _ captured).2
  | tag held tagged =>
    obtain ⟨v, visited, active⟩ := p.active_of_tag held tagged
    exact p.regular_before visited active

/-- What visits came across, they came across on the way here. -/
theorem Path.regular_of_had {v : Visit} (p : Path build .initial l s) (visited : v ∈ l)
    (held : v.before.Has m) : m.Regular := by
  obtain ⟨earlier, leads⟩ := p.before visited
  exact leads.regular_of_has held

/-- Every modulus in the session is as good as new, and no context has lost its own. -/
structure Sound (build : Build) (l : List Visit) (s : Session) : Prop where
  /-- A modulus is the one that is made of its value: it is positive and knows its width. -/
  regular : ∀ m, s.Has m → Modulus.ofInt m.value = .ok m ∧ 1 ≤ m.value ∧
    m.width = Integer.width m.value
  /-- Two moduli are equal when their values are, though one of them may be gone by now. -/
  equal : ∀ m n, s.Has m → (s.Has n ∨ ∃ v ∈ l, v.before.Has n) → (m = n ↔ m.value = n.value)
  /-- A context that was active is active. -/
  active : ∀ v ∈ l, ∀ c, (v.before.store.active c).isSome → (s.store.active c).isSome

theorem Path.sound (p : Path build .initial l s) : Sound build l s := by
  refine ⟨fun m held => ?_, fun m n hm hn => ?_,
    fun v visited c active => p.stays_active visited active⟩
  · have width := p.regular_of_has held
    exact ⟨Modulus.ofInt_eq_ok_iff.2 ⟨rfl, width⟩, m.value_pos, width⟩
  have regular : n.Regular := by
    rcases hn with held | ⟨v, visited, held⟩
    · exact p.regular_of_has held
    · exact p.regular_of_had visited held
  exact ⟨fun same => congrArg Modulus.value same, (p.regular_of_has hm).eq regular⟩

/-- Wherever a run has got to, every modulus that is held is positive, has the width of its value
and is the only one with that value; and every context that was ever active is active. -/
theorem moduli_sound (build : Build) (steps : List Step) :
    Sound build (visits build .initial steps) (run build .initial steps).2 ∧
      ∀ earlier v later, visits build .initial steps = earlier ++ v :: later →
        Sound build earlier v.before := by
  have p := run_path build .initial steps
  refine ⟨p.sound, fun earlier v later split => ?_⟩
  exact (split ▸ p).visit.1.sound

/-- A scope that found its context without a modulus leaves one behind, a refused 0 does not take
the 11 away, and the 11 that the residue remembers is the 11 that the snapshot holds. -/
theorem moduli_sound_after_refusal :
    let steps : List Step := [.single (.newContext "k"), .single (.openScope "g" "5" (some "k")),
      .single (.closeScope "g"), .single (.install "11" none), .single (.make (.int64 9) (some "a")),
      .single (.save "p" none), .single (.install "0" none)]
    let s := (run .checked .initial steps).2
    (∃ a, s.elements.find? "a" = some a ∧
      a.tag = (s.snapshots.find? "p").map Snapshot.modulus) ∧
      (s.store.active ⟨1⟩).isSome ∧ (s.store.active .global).isSome := by
  intro steps s
  have sound := (moduli_sound .checked steps).1
  have named : s.elements.find? "a" = some ⟨9, some ⟨11, 1, by decide⟩⟩ := by decide +kernel
  have saved : s.snapshots.find? "p" = some ⟨.global, ⟨11, 1, by decide⟩⟩ := by decide +kernel
  have tagged : s.Has ⟨11, 1, by decide⟩ := .tag ⟨"a", named⟩ rfl
  have same := (sound.equal _ _ tagged (.inl (.snapshot saved))).2 rfl
  refine ⟨⟨_, named, ?_⟩, ?_, ?_⟩
  · rw [saved]
    exact congrArg some same
  · exact sound.active ⟨_, .closeScope "g"⟩ (List.mem_of_getElem? (i := 2) rfl) ⟨1⟩
      (by decide +kernel)
  · exact sound.active ⟨_, .install "0" none⟩ (List.mem_of_getElem? (i := 6) rfl) .global
      (by decide +kernel)

end Session

end AmbientResidue
