import AmbientResidue.Proofs.Session.Lockstep

/-! # Runs with instructions left out

The instructions of a run are taken again from a session of their own, some of them left out and
some replaced. As long as every visit keeps the two sessions related, the instructions that were not
left out are answered alike. Failing instructions can be left out of any run in this way. -/

namespace AmbientResidue

namespace Session

variable {build : Build} {s s' t : Session} {l : List Visit}

/-- The steps that a run takes in place of these visits. -/
def resume (keep : Visit → Option Instruction) (l : List Visit) : List Step :=
  (l.filterMap keep).map .single

/-- A visit that is left out keeps the sessions related, and one that is not is answered alike. -/
structure Resumes (build : Build) (R : Session → Session → Prop) (keep : Visit → Option Instruction)
    {γ : Type} (view : Reply → γ) (v : Visit) : Prop where
  left : ∀ t, R v.before t → keep v = none → R (v.before.next build v.instruction) t
  taken : ∀ t i, R v.before t → keep v = some i →
    view (v.reply build) = view (Visit.reply build ⟨t, i⟩) ∧
      R (v.before.next build v.instruction) (t.next build i)

theorem run_single (build : Build) (s : Session) (i : Instruction) (rest : List Step) :
    run build s (.single i :: rest) =
      (Visit.reply build ⟨s, i⟩ :: (run build (s.next build i) rest).1,
        (run build (s.next build i) rest).2) := by
  rw [run, ← step_single]
  rfl

theorem Path.resume {R : Session → Session → Prop} {keep : Visit → Option Instruction} {γ : Type}
    {view : Reply → γ} (p : Path build s l s') (related : R s t)
    (each : ∀ v ∈ l, Resumes build R keep view v) :
    (l.filter fun v => (keep v).isSome).map (fun v => view (v.reply build)) =
        (run build t (resume keep l)).1.map view ∧
      R s' (run build t (resume keep l)).2 := by
  induction p generalizing t with
  | nil => exact ⟨rfl, related⟩
  | @cons s i rest s' p ih =>
    have first := each ⟨s, i⟩ List.mem_cons_self
    have others := fun v hv => each v (List.mem_cons_of_mem _ hv)
    cases kept : keep ⟨s, i⟩ with
    | none =>
      have same : Session.resume keep (⟨s, i⟩ :: rest) = Session.resume keep rest := by
        simp only [Session.resume, List.filterMap_cons, kept]
      rw [same, List.filter_cons_of_neg (by rw [kept]; exact Bool.false_ne_true)]
      exact ih (first.left t related kept) others
    | some j =>
      have same : Session.resume keep (⟨s, i⟩ :: rest) = .single j :: Session.resume keep rest := by
        simp only [Session.resume, List.filterMap_cons, kept, List.map_cons]
      obtain ⟨answer, after⟩ := first.taken t j related kept
      obtain ⟨answers, last⟩ := ih after others
      rw [same, run_single, List.filter_cons_of_pos (by rw [kept]; rfl), List.map_cons, answer,
        answers]
      exact ⟨rfl, last⟩

/-! ## Leaving out what fails -/

/-- An instruction that succeeds is taken again. -/
def Visit.success (build : Build) (v : Visit) : Option Instruction :=
  if v.succeeds build then some v.instruction else none

theorem isSome_success (v : Visit) : (v.success build).isSome = v.succeeds build := by
  unfold Visit.success
  split
  · next done => exact done.symm
  · next failed => exact (Bool.eq_false_iff.2 failed).symm

theorem Kept.eq (k : Kept s t) :
    t = { s with tally := t.tally, store := { s.store with journal := t.store.journal } } := by
  obtain ⟨⟨made, active, standard⟩, elements, snapshots, guards, contexts⟩ := k
  obtain ⟨⟨_, _, _, _⟩, _, _, _, _, _⟩ := s
  obtain ⟨⟨_, _, _, _⟩, _, _, _, _, _⟩ := t
  subst made active standard elements snapshots guards contexts
  rfl

theorem resumes_success (v : Visit) :
    Resumes build (Alike fun _ => True) (Visit.success build) Reply.visible v where
  left t alike failed := by
    have fails : v.succeeds build = false := by
      rw [← isSome_success, failed]
      rfl
    obtain ⟨e, fails⟩ := fails_of_not_succeeds fails
    have k := Action.atomic_perform v.instruction fails
    exact (Alike.of_kept k alike.left).symm.trans alike
  taken t i alike succeeded := by
    rw [Visit.success] at succeeded
    split at succeeded
    · obtain rfl := Option.some.inj succeeded
      obtain ⟨reply, after⟩ := step_alike build alike (.single v.instruction) fun _ _ _ _ => trivial
      rw [step_single, step_single] at after
      exact ⟨reply, after⟩
    · cases succeeded

/-- A step that is answered with an error leaves everything but counters and journal. -/
theorem step_error {st : Step} {e : Failure} (h : (step build s st).1.answer = .error e) :
    Kept s (step build s st).2 := by
  cases st with
  | single i =>
    rcases Action.returns_or_fails (Action.perform build i) s with ⟨v, r⟩ | ⟨e, r⟩
    · have answered : (step build s (.single i)).1.answer = .ok v := (reply_of_returns r).1
      rw [answered] at h
      cases h
    · have k := Action.atomic_perform i r
      rwa [step_single]
  | locked place steps =>
    rcases Action.returns_or_fails (Action.context place) s with ⟨c, r⟩ | ⟨e, r⟩
    · rw [Returns] at r
      rw [step, r] at h
      cases h
    · have unknown := Action.context_fails r
      rw [Fails] at r
      rw [step, r]
      exact .of_eq unknown

theorem visibleAll_eq_map (l : List Reply) : visibleAll l = l.map Reply.visible := by
  induction l with
  | nil => rfl
  | cons r rest ih => rw [visibleAll, ih, List.map_cons]

theorem resume_success (l : List Visit) :
    resume (Visit.success build) l =
      (l.filter (Visit.succeeds build)).map fun v => .single v.instruction := by
  induction l with
  | nil => rfl
  | cons v rest ih =>
    rw [resume] at ih ⊢
    by_cases done : v.succeeds build = true
    · have taken : v.success build = some v.instruction := if_pos done
      rw [List.filterMap_cons_some taken, List.filter_cons_of_pos done, List.map_cons,
        List.map_cons, ih]
    · have left : v.success build = none := if_neg done
      rw [List.filterMap_cons_none left, List.filter_cons_of_neg done, ih]

/-- A step that is answered with an error, and a look that is refused, change counters and the
journal and nothing else: every context, snapshot, open scope and residue and the captured default
are what they were. A run can do without the instructions that fail in it; the others do not notice. -/
theorem failures_leave_no_trace (build : Build) :
    (∀ s st e, (step build s st).1.answer = .error e →
      ∃ tally journal, (step build s st).2 =
        { s with tally, store := { s.store with journal } }) ∧
    (∀ c value store e after, Fails (Store.peek c value) store e after →
      ∃ journal, after = { store with journal }) ∧
    ∀ steps,
      let succeeding := (visits build .initial steps).filter (Visit.succeeds build)
      succeeding.map (fun v => (v.reply build).visible) =
        visibleAll (replies build (succeeding.map fun v => .single v.instruction)) := by
  refine ⟨fun s st e failed => ⟨_, _, (step_error failed).eq⟩, ?_, ?_⟩
  · intro c value store e after failed
    obtain ⟨made, active, standard⟩ := Store.peek_fails failed
    refine ⟨after.journal, ?_⟩
    rw [← made, ← active, ← standard]
  · intro steps succeeding
    have start : Alike (fun _ => True) initial initial :=
      .of_kept (.refl _) fun _ captured => by cases captured
    have again := (run_path build .initial steps).resume start fun v _ => resumes_success v
    rw [resume_success] at again
    simp only [isSome_success] at again
    rw [visibleAll_eq_map]
    exact again.1

/-- In the checked build a 3 that was made under 7 stops an addition that was to replace it while 11
is active. It is still that 3 afterwards, and 11 is still the modulus. -/
theorem failures_leave_no_trace_assignment :
    let steps : List Step := [.single (.install "7" none), .single (.make (.int64 3) (some "a")),
      .single (.install "11" none), .single (.make (.int64 5) (some "b"))]
    let s := (run .checked .initial steps).2
    let addition : Step := .single (.binary .add .assignment "a" "b" none)
    let t := (step .checked s addition).2
    (step .checked s addition).1.answer = .error (.fault (.mismatchPanic 7 11)) ∧
      t.elements.find? "a" = s.elements.find? "a" ∧
      t.store.active .global = some ⟨11, 1, by decide⟩ := by
  intro steps s addition t
  have failed : (step .checked s addition).1.answer = .error (.fault (.mismatchPanic 7 11)) := rfl
  obtain ⟨tally, journal, unchanged⟩ := (failures_leave_no_trace .checked).1 s addition _ failed
  have active : s.store.active .global = some ⟨11, 1, by decide⟩ := rfl
  have same : t = { s with tally, store := { s.store with journal } } := unchanged
  rw [same]
  exact ⟨failed, rfl, active⟩

end Session

end AmbientResidue
