import AmbientResidue.Proofs.Session.Failure

/-! # The instructions a run carries out

A run is taken apart into visits: an instruction and the session it found. Locked steps are carried
out where they stand, so that every run is a `Path`, and what a single instruction does to a session
is what a run is made of. -/

namespace AmbientResidue

namespace Session

/-- An instruction that is carried out, and the session that it finds. -/
structure Visit where
  before : Session
  instruction : Instruction

/-- Whether the instruction succeeds. -/
def Visit.succeeds (build : Build) (v : Visit) : Bool :=
  match (Action.perform build v.instruction).run v.before with
  | .ok _ _ => true
  | .error _ _ => false

/-- What a visit leaves for its caller to see. -/
def Visit.reply (build : Build) (v : Visit) : Reply := (step build v.before (.single v.instruction)).1

mutual

/-- The visits of a step. The steps under a lock that no context has are not carried out. -/
def visitsOf (build : Build) (s : Session) : Step → List Visit
  | .single i => [⟨s, i⟩]
  | .locked place steps =>
    match (Action.context place).run s with
    | .ok _ entered => visits build entered steps
    | .error _ _ => []

/-- The visits of steps that are taken one after another. -/
def visits (build : Build) (s : Session) : List Step → List Visit
  | [] => []
  | first :: rest => visitsOf build s first ++ visits build (step build s first).2 rest

end

/-- The session that an instruction leaves, whether or not it succeeds. -/
def next (build : Build) (s : Session) (i : Instruction) : Session :=
  (Action.perform build i).after s

/-- One visit after another, each from the session that the one before it left. -/
inductive Path (build : Build) : Session → List Visit → Session → Prop where
  | nil {s} : Path build s [] s
  | cons {s i rest t} : Path build (s.next build i) rest t → Path build s (⟨s, i⟩ :: rest) t

variable {build : Build} {s t u : Session}

namespace Path

theorem append {l k : List Visit} (p : Path build s l t) (q : Path build t k u) :
    Path build s (l ++ k) u := by
  induction p with
  | nil => exact q
  | cons _ ih => exact .cons (ih q)

theorem split {l k : List Visit} (p : Path build s (l ++ k) u) :
    ∃ t, Path build s l t ∧ Path build t k u := by
  induction l generalizing s with
  | nil => exact ⟨s, .nil, p⟩
  | cons v l ih =>
    cases p with
    | cons p =>
      obtain ⟨t, hl, hk⟩ := ih p
      exact ⟨t, .cons hl, hk⟩

/-- A path passes through the session that a visit finds and the one that it leaves. -/
theorem visit {earlier later : List Visit} {v : Visit}
    (p : Path build s (earlier ++ v :: later) u) :
    Path build s earlier v.before ∧ Path build (v.before.next build v.instruction) later u := by
  obtain ⟨t, first, rest⟩ := p.split
  cases rest with
  | cons last => exact ⟨first, last⟩

/-- What a visit finds, a path leads to. -/
theorem before {l : List Visit} {v : Visit} (p : Path build s l t) (visited : v ∈ l) :
    ∃ earlier, Path build s earlier v.before := by
  obtain ⟨earlier, later, rfl⟩ := List.append_of_mem visited
  exact ⟨earlier, p.visit.1⟩

end Path

theorem step_single (build : Build) (s : Session) (i : Instruction) :
    (step build s (.single i)).2 = s.next build i := by
  simp only [step, next, Action.after]
  cases (Action.perform build i).run s <;> rfl

theorem reply_of_returns {i : Instruction} {w : Value}
    (h : Returns (Action.perform build i) s w t) :
    (Visit.reply build ⟨s, i⟩).answer = .ok w ∧ s.next build i = t := by
  refine ⟨?_, Action.after_returns h⟩
  rw [Returns] at h
  rw [Visit.reply, step, h]
  rfl

theorem reply_of_fails {i : Instruction} {e : Failure}
    (h : Fails (Action.perform build i) s e t) :
    (Visit.reply build ⟨s, i⟩).answer = .error e ∧ s.next build i = t := by
  refine ⟨?_, Action.after_fails h⟩
  rw [Fails] at h
  rw [Visit.reply, step, h]
  rfl

theorem visits_single (build : Build) (s : Session) (i : Instruction) (rest : List Step) :
    visits build s (.single i :: rest) = ⟨s, i⟩ :: visits build (s.next build i) rest := by
  rw [visits, step_single, visitsOf, List.singleton_append]

mutual

theorem step_path (build : Build) (s : Session) :
    ∀ st, Path build s (visitsOf build s st) (step build s st).2
  | .single i => by
    rw [step_single]
    exact .cons .nil
  | .locked place steps => by
    simp only [visitsOf, step]
    cases h : (Action.context place).run s with
    | ok c entered =>
      obtain ⟨-, rfl⟩ := Action.context_returns h
      exact run_path build entered steps
    | error e after =>
      obtain rfl := Action.context_fails h
      exact .nil

/-- Every run is a path along its visits. -/
theorem run_path (build : Build) (s : Session) :
    ∀ steps, Path build s (visits build s steps) (run build s steps).2
  | [] => .nil
  | first :: rest => (step_path build s first).append (run_path build _ rest)

end

/-- What holds of every session that some visits lead to holds wherever a run has got to. -/
theorem run_throughout {P : List Visit → Session → Prop}
    (h : ∀ {l s}, Path build .initial l s → P l s) (steps : List Step) :
    P (visits build .initial steps) (run build .initial steps).2 ∧
      ∀ earlier v later, visits build .initial steps = earlier ++ v :: later →
        P earlier v.before := by
  have p := run_path build .initial steps
  refine ⟨h p, fun earlier v later split => ?_⟩
  exact h (split ▸ p).visit.1

theorem returns_of_succeeds {v : Visit} (h : v.succeeds build = true) :
    ∃ w, Returns (Action.perform build v.instruction) v.before w
      (v.before.next build v.instruction) := by
  rcases Action.returns_or_fails (Action.perform build v.instruction) v.before with
    returns | ⟨e, fails⟩
  · exact returns
  · rw [Fails] at fails
    simp [Visit.succeeds, fails] at h

theorem fails_of_not_succeeds {v : Visit} (h : v.succeeds build = false) :
    ∃ e, Fails (Action.perform build v.instruction) v.before e
      (v.before.next build v.instruction) := by
  rcases Action.returns_or_fails (Action.perform build v.instruction) v.before with
    ⟨w, returns⟩ | fails
  · rw [Returns] at returns
    simp [Visit.succeeds, returns] at h
  · exact fails

/-- A visit fails and changes nothing but counters and the journal, or it succeeds and has its
effect. -/
theorem next_cases (build : Build) (w : Visit) :
    w.succeeds build = false ∧ Kept w.before (w.before.next build w.instruction) ∨
      w.succeeds build = true ∧ ∃ v u, Effect build w.before w.instruction v u ∧
        Kept u (w.before.next build w.instruction) := by
  cases h : w.succeeds build with
  | false =>
    obtain ⟨e, fails⟩ := fails_of_not_succeeds h
    exact .inl ⟨rfl, Action.atomic_perform w.instruction fails⟩
  | true =>
    obtain ⟨v, returns⟩ := returns_of_succeeds h
    obtain ⟨u, effect, k⟩ := Action.effect_of_returns returns
    exact .inr ⟨rfl, v, u, effect, k⟩

end Session

end AmbientResidue
