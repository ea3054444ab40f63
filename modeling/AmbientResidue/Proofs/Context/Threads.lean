import AmbientResidue.Context.Threads
import AmbientResidue.Proofs.Context.Outcome

/-! # Sections under the lock are serializable

Whatever the schedule, the thread that holds the lock finds the context as the section before it left
it, and leaves it so. Each thread is answered as if it had the context for itself. -/

namespace AmbientResidue.Threads

/-! ## What a section is answered -/

namespace Section

/-- The value that every look of a section sees: that of the modulus which it installs, unless that
is refused. -/
def seen (m₀ : Modulus) (s : Section) : Int := if 0 < s.modulus then s.modulus else m₀.value

def installed (s : Section) : Answer :=
  if 0 < s.modulus then .done else .refused (.invalidModulus s.modulus)

/-- What the calls of a section are answered if the context has `m₀` and nobody else is there. -/
def answers (m₀ : Modulus) (s : Section) : List Answer :=
  .done :: .done :: s.installed :: (s.looks.map (Look.answer (s.seen m₀)) ++ [.done, .done])

/-- The modulus that is active while the section looks. -/
def during (m₀ : Modulus) (s : Section) : Modulus := (Modulus.ofInt s.modulus).toOption.getD m₀

variable (m₀ : Modulus) (s : Section)

theorem value_during : (s.during m₀).value = s.seen m₀ := by
  unfold during seen
  by_cases positive : 0 < s.modulus
  · rw [Modulus.ofInt, dif_pos positive, if_pos positive]
    rfl
  · rw [Modulus.ofInt, dif_neg positive, if_neg positive]
    rfl

/-- The holder of the lock is between two calls of the section. It has been given some answers and
has some calls left; `snapshot` is what it has saved and `active` what the context has. -/
inductive Midway (c : ContextId) (m₀ : Modulus) (s : Section) (snapshot : Option Snapshot)
    (active : Option Modulus) : List Answer → List Call → Prop where
  | locked : active = some m₀ →
      Midway c m₀ s snapshot active [.done]
        (.save :: .install s.modulus :: (s.looks.map .look ++ [.restore, .unlock]))
  | saved : active = some m₀ → snapshot = some ⟨c, m₀⟩ →
      Midway c m₀ s snapshot active [.done, .done]
        (.install s.modulus :: (s.looks.map .look ++ [.restore, .unlock]))
  | looking {before after} : s.looks = before ++ after → active = some (s.during m₀) →
      snapshot = some ⟨c, m₀⟩ →
      Midway c m₀ s snapshot active
        (.done :: .done :: s.installed :: before.map (Look.answer (s.seen m₀)))
        (after.map .look ++ [.restore, .unlock])
  | restored : active = some m₀ →
      Midway c m₀ s snapshot active
        (.done :: .done :: s.installed :: (s.looks.map (Look.answer (s.seen m₀)) ++ [.done]))
        [.unlock]

variable {c : ContextId} {m₀ : Modulus} {s : Section} {snapshot : Option Snapshot}
variable {active : Option Modulus} {given : List Answer} {left : List Call}

/-- The answers so far are the first ones of the section, one for each call that has been made. -/
theorem Midway.made (h : Midway c m₀ s snapshot active given left) :
    ∃ made rest, s.calls = made ++ left ∧ s.answers m₀ = given ++ rest ∧
      made.length = given.length := by
  cases h with
  | locked => exact ⟨[.lock], _, rfl, rfl, rfl⟩
  | saved => exact ⟨[.lock, .save], _, rfl, rfl, rfl⟩
  | @looking before after looks =>
    refine ⟨.lock :: .save :: .install s.modulus :: before.map .look,
      after.map (Look.answer (s.seen m₀)) ++ [.done, .done], ?_, ?_, ?_⟩
    · simp only [calls, looks, List.map_append, List.append_assoc, List.cons_append]
    · simp only [answers, looks, List.map_append, List.append_assoc, List.cons_append]
    · simp only [List.length_cons, List.length_map]
  | restored =>
    refine ⟨.lock :: .save :: .install s.modulus :: (s.looks.map .look ++ [.restore]), [.done],
      ?_, ?_, ?_⟩
    · simp only [calls, List.append_assoc, List.cons_append, List.nil_append]
    · simp only [answers, List.append_assoc, List.cons_append, List.nil_append]
    · simp only [List.length_cons, List.length_append, List.length_map, List.length_nil]

end Section

theorem length_answers (m₀ : Modulus) (sections : List Section) :
    (sections.flatMap Section.calls).length = (sections.flatMap (Section.answers m₀)).length := by
  induction sections with
  | nil => rfl
  | cons s rest ih =>
    simp only [List.flatMap_cons, List.length_append, ih, Section.calls, Section.answers,
      List.length_cons, List.length_map, List.length_nil]

/-! ## Threads between their calls -/

/-- The thread does not hold the lock: some of its sections are over and the others have not begun. -/
inductive Waiting (m₀ : Modulus) (sections : List Section) (t : Thread) : Prop where
  | intro (past future) : sections = past ++ future →
      t.answers = past.flatMap (Section.answers m₀) → t.calls = future.flatMap Section.calls →
      Waiting m₀ sections t

/-- The thread is in the section `s` of its sections. In it, it has been given some answers and has
some calls left. -/
structure Inside (m₀ : Modulus) (sections past : List Section) (s : Section)
    (future : List Section) (given : List Answer) (left : List Call) (t : Thread) : Prop where
  split : sections = past ++ s :: future
  answers : t.answers = past.flatMap (Section.answers m₀) ++ given
  calls : t.calls = left ++ future.flatMap Section.calls

/-- The thread holds the lock and is in the middle of a section. -/
inductive Busy (c : ContextId) (m₀ : Modulus) (sections : List Section) (t : Thread)
    (active : Option Modulus) : Prop where
  | intro {past s future given left} : Inside m₀ sections past s future given left t →
      Section.Midway c m₀ s t.snapshot active given left → Busy c m₀ sections t active

/-- What the thread has been answered is the beginning of what its sections are answered, and it has
the calls before it that have not been answered yet. -/
structure OnCourse (m₀ : Modulus) (sections : List Section) (t : Thread) : Prop where
  answers : t.answers <+: sections.flatMap (Section.answers m₀)
  calls : t.calls = (sections.flatMap Section.calls).drop t.answers.length

variable {c : ContextId} {m₀ : Modulus} {sections past future : List Section} {s : Section}
variable {given : List Answer} {call : Call} {left : List Call} {t : Thread}

theorem Inside.head (h : Inside m₀ sections past s future given (call :: left) t) :
    t.calls.head? = some call := by
  rw [h.calls]
  rfl

/-- The next call of the section is answered. -/
theorem Inside.answered (h : Inside m₀ sections past s future given (call :: left) t)
    (a : Answer) : Inside m₀ sections past s future (given ++ [a]) left (t.answered a) where
  split := h.split
  answers := (congrArg (· ++ [a]) h.answers).trans (List.append_assoc _ _ _)
  calls := congrArg List.tail h.calls

/-- The last call of the section is answered. -/
theorem Inside.done {a : Answer} (h : Inside m₀ sections past s future given [call] t)
    (last : given ++ [a] = s.answers m₀) : Waiting m₀ sections (t.answered a) := by
  have h := h.answered a
  refine .intro (past ++ [s]) future ?_ ?_ h.calls
  · rw [h.split, List.append_assoc]
    rfl
  · rw [h.answers, last, List.flatMap_append, List.flatMap_singleton]

theorem OnCourse.of_split (made : List Call) (rest : List Answer)
    (calls : sections.flatMap Section.calls = made ++ t.calls)
    (answers : sections.flatMap (Section.answers m₀) = t.answers ++ rest)
    (length : made.length = t.answers.length) : OnCourse m₀ sections t := by
  refine ⟨⟨rest, answers.symm⟩, ?_⟩
  rw [calls, ← length, List.drop_left]

theorem Waiting.onCourse (h : Waiting m₀ sections t) : OnCourse m₀ sections t := by
  cases h with
  | intro past future split answers calls =>
    refine .of_split (past.flatMap Section.calls) (future.flatMap (Section.answers m₀)) ?_ ?_ ?_
    · rw [split, List.flatMap_append, calls]
    · rw [split, List.flatMap_append, answers]
    · rw [answers]
      exact length_answers m₀ past

theorem Busy.onCourse {active : Option Modulus} (h : Busy c m₀ sections t active) :
    OnCourse m₀ sections t := by
  cases h with
  | @intro past s future given left inside midway =>
    obtain ⟨made, rest, program, expected, length⟩ := midway.made
    refine .of_split (past.flatMap Section.calls ++ made)
      (rest ++ future.flatMap (Section.answers m₀)) ?_ ?_ ?_
    · rw [inside.split, List.flatMap_append, List.flatMap_cons, inside.calls, program,
        List.append_assoc, List.append_assoc]
    · rw [inside.split, List.flatMap_append, List.flatMap_cons, inside.answers, expected,
        List.append_assoc, List.append_assoc]
    · rw [inside.answers, List.length_append, List.length_append, length, length_answers m₀ past]

/-! ## Turns -/

namespace Crowd

variable {ι α : Type}

/-- The holder of the lock is in the middle of a section and the other threads are not. Without a
holder the context has its own modulus. -/
structure Orderly (c : ContextId) (m₀ : Modulus) (programs : ι → List Section) (x : Crowd ι) :
    Prop where
  waiting : ∀ i, x.holder ≠ some i → Waiting m₀ (programs i) (x.threads i)
  busy : ∀ i, x.holder = some i → Busy c m₀ (programs i) (x.threads i) (x.store.active c)
  free : x.holder = none → x.store.active c = some m₀

theorem Orderly.start (store : Store) (programs : ι → List Section) (active : store.active c = some m₀) :
    Orderly c m₀ programs (.start store programs) where
  waiting i _ := .intro [] (programs i) rfl rfl rfl
  busy _ held := by cases held
  free _ := active

variable [DecidableEq ι] {x y : Crowd ι} {i j : ι} {store : Store}
variable {programs : ι → List Section}

@[simp] theorem store_settle : (x.settle i t store).store = store := rfl

@[simp] theorem threads_settle_self : (x.settle i t store).threads i = t := if_pos rfl

theorem threads_settle_other (other : j ≠ i) : (x.settle i t store).threads j = x.threads j :=
  if_neg other

theorem conclude_returns {answer : α → Answer} {op : Store.Operation α} {a : α}
    (h : Returns op x.store a store) :
    x.conclude i answer (op x.store) = x.settle i ((x.threads i).answered (answer a)) store := by
  have ends : op x.store = .ok a store := h
  rw [ends]
  rfl

theorem conclude_fails {answer : α → Answer} {op : Store.Operation α} {e : Refusal}
    (h : Fails op x.store e store) :
    x.conclude i answer (op x.store) = x.settle i ((x.threads i).answered (.refused e)) store := by
  have ends : op x.store = .error e store := h
  rw [ends]
  rfl

/-- The thread has made its next call. It is in the middle of a section now and holds the lock, or it
has left the context as it found it. -/
structure Moves (c : ContextId) (m₀ : Modulus) (sections : List Section) (x : Crowd ι) (i : ι)
    (y : Crowd ι) : Prop where
  others : ∀ j, j ≠ i → y.threads j = x.threads j
  calls : (x.threads i).calls ≠ [] ∧ (y.threads i).calls = (x.threads i).calls.tail
  after : y.holder = some i ∧ Busy c m₀ sections (y.threads i) (y.store.active c) ∨
    y.holder = none ∧ Waiting m₀ sections (y.threads i) ∧ y.store.active c = some m₀

/-- A call inside a section is answered. -/
theorem Moves.within {a : Answer}
    (inside : Inside m₀ sections past s future given (call :: left) (x.threads i))
    (held : x.holder = some i) (answers : t.answers = ((x.threads i).answered a).answers)
    (calls : t.calls = ((x.threads i).answered a).calls)
    (midway : Section.Midway c m₀ s t.snapshot (store.active c) (given ++ [a]) left) :
    Moves c m₀ sections x i (x.settle i t store) := by
  have next := inside.answered a
  refine ⟨fun j other => threads_settle_other other, ⟨?_, ?_⟩, .inl ⟨held, ?_⟩⟩
  · rw [inside.calls]
    exact List.cons_ne_nil _ _
  · rw [threads_settle_self, calls]
    rfl
  · rw [threads_settle_self, store_settle]
    exact .intro ⟨next.split, answers.trans next.answers, calls.trans next.calls⟩ midway

theorem moves_save (held : x.holder = some i) (active : x.store.active c = some m₀)
    (inside : Inside m₀ sections past s future [.done]
      (.save :: .install s.modulus :: (s.looks.map .look ++ [.restore, .unlock]))
      (x.threads i)) :
    Moves c m₀ sections x i (x.turn c i) := by
  obtain ⟨store, saves, k⟩ := Store.returns_save active
  have turned : x.turn c i =
      x.settle i { (x.threads i).answered .done with snapshot := some ⟨c, m₀⟩ } store := by
    simp only [turn, inside.head]
    rw [show Store.save c x.store = .ok ⟨c, m₀⟩ store from saves]
  rw [turned]
  refine .within inside held rfl rfl (.saved ?_ rfl)
  rw [k.active, active]

/-- Installing answers what it should, and leaves the modulus that the looks are to see. -/
theorem moves_install (held : x.holder = some i) (active : x.store.active c = some m₀)
    (saved : (x.threads i).snapshot = some ⟨c, m₀⟩)
    (inside : Inside m₀ sections past s future [.done, .done]
      (.install s.modulus :: (s.looks.map .look ++ [.restore, .unlock])) (x.threads i)) :
    Moves c m₀ sections x i (x.turn c i) := by
  have turned : x.turn c i =
      x.conclude i (fun _ => .done) (Store.install c s.modulus x.store) := by
    simp only [turn, inside.head]
  have looks : s.looks = [] ++ s.looks := rfl
  rw [turned]
  by_cases positive : 0 < s.modulus
  · have made : Modulus.ofInt s.modulus = .ok (s.during m₀) := by
      rw [Section.during, Modulus.ofInt, dif_pos positive]
      rfl
    obtain ⟨store, installs, k⟩ := Store.returns_install made c x.store
    have now : store.active c = some (s.during m₀) := by
      rw [k.active, Store.active_write, if_pos rfl]
    have midway := Section.Midway.looking looks now saved
    rw [show s.installed = .done from if_pos positive] at midway
    rw [conclude_returns installs]
    exact .within inside held rfl rfl midway
  · have made : Modulus.ofInt s.modulus = .error (.invalidModulus s.modulus) := by
      rw [Modulus.ofInt, dif_neg positive]
    obtain ⟨store, refuses, k⟩ := Store.fails_install made c x.store
    have still : store.active c = some (s.during m₀) := by
      rw [k.active, active, Section.during, made]
      rfl
    have midway := Section.Midway.looking looks still saved
    rw [show s.installed = .refused (.invalidModulus s.modulus) from if_neg positive] at midway
    rw [conclude_fails refuses]
    exact .within inside held rfl rfl midway

theorem moves_look {before after : List Look} {how : Look} (held : x.holder = some i)
    (looks : s.looks = before ++ how :: after) (active : x.store.active c = some (s.during m₀))
    (saved : (x.threads i).snapshot = some ⟨c, m₀⟩)
    (inside : Inside m₀ sections past s future
      (.done :: .done :: s.installed :: before.map (Look.answer (s.seen m₀)))
      (.look how :: (after.map .look ++ [.restore, .unlock])) (x.threads i)) :
    Moves c m₀ sections x i (x.turn c i) := by
  have turned : x.turn c i = x.conclude i (fun m : Modulus => how.answer m.value)
      (Store.modulus c x.store) := by
    simp only [turn, inside.head]
  have farther : s.looks = (before ++ [how]) ++ after := by
    rw [looks, List.append_assoc]
    rfl
  have midway := Section.Midway.looking farther active saved
  rw [List.map_append] at midway
  rw [turned, conclude_returns (Store.returns_modulus active), s.value_during m₀]
  exact .within inside held rfl rfl midway

theorem moves_restore (held : x.holder = some i)
    (saved : (x.threads i).snapshot = some ⟨c, m₀⟩)
    (inside : Inside m₀ sections past s future
      (.done :: .done :: s.installed :: s.looks.map (Look.answer (s.seen m₀)))
      [.restore, .unlock] (x.threads i)) :
    Moves c m₀ sections x i (x.turn c i) := by
  have turned : x.turn c i =
      x.conclude i (fun _ => .done) (Store.restore c ⟨c, m₀⟩ x.store) := by
    simp only [turn, inside.head, saved]
  have own : (⟨c, m₀⟩ : Snapshot).context = c := rfl
  obtain ⟨store, restores, k⟩ := Store.returns_restore own x.store
  rw [turned, conclude_returns restores]
  refine .within inside held rfl rfl (.restored ?_)
  rw [k.active, Store.active_write, if_pos rfl]

theorem moves_unlock (active : x.store.active c = some m₀)
    (inside : Inside m₀ sections past s future
      (.done :: .done :: s.installed :: (s.looks.map (Look.answer (s.seen m₀)) ++ [.done]))
      [.unlock] (x.threads i)) :
    Moves c m₀ sections x i (x.turn c i) := by
  have turned : x.turn c i =
      { x.settle i ((x.threads i).answered .done) x.store with holder := none } := by
    simp only [turn, inside.head]
  have settled : (x.settle i ((x.threads i).answered .done) x.store).threads i =
      (x.threads i).answered .done := threads_settle_self
  rw [turned]
  refine ⟨fun j other => if_neg other, ⟨?_, congrArg Thread.calls settled⟩,
    .inr ⟨rfl, ?_, active⟩⟩
  · rw [inside.calls]
    exact List.cons_ne_nil _ _
  · show Waiting m₀ sections ((x.settle i _ x.store).threads i)
    rw [settled]
    refine inside.done ?_
    simp only [Section.answers, List.append_assoc, List.cons_append, List.nil_append]

/-- The holder of the lock can always make its next call. -/
theorem moves_of_busy (held : x.holder = some i)
    (busy : Busy c m₀ sections (x.threads i) (x.store.active c)) :
    Moves c m₀ sections x i (x.turn c i) := by
  cases busy with
  | intro inside midway =>
    cases midway with
    | locked active => exact moves_save held active inside
    | saved active saved => exact moves_install held active saved inside
    | @looking before after looks active saved =>
      cases after with
      | nil =>
        rw [List.append_nil] at looks
        rw [← looks] at inside
        exact moves_restore held saved inside
      | cons how after => exact moves_look held looks active saved inside
    | restored active => exact moves_unlock active inside

/-- A thread that finds the lock free begins its next section. -/
theorem moves_of_free (free : x.holder = none) (waiting : Waiting m₀ sections (x.threads i))
    (more : (x.threads i).calls ≠ []) (active : x.store.active c = some m₀) :
    Moves c m₀ sections x i (x.turn c i) := by
  cases waiting with
  | intro past future split answers calls =>
    cases future with
    | nil => exact absurd calls more
    | cons s future =>
      have turned : x.turn c i =
          { x.settle i ((x.threads i).answered .done) x.store with holder := some i } := by
        simp only [turn, calls, List.flatMap_cons, Section.calls, List.cons_append,
          List.head?_cons, free]
      have settled : (x.settle i ((x.threads i).answered .done) x.store).threads i =
          (x.threads i).answered .done := threads_settle_self
      rw [turned]
      refine ⟨fun j other => if_neg other, ⟨more, congrArg Thread.calls settled⟩,
        .inl ⟨rfl, ?_⟩⟩
      show Busy c m₀ sections ((x.settle i _ x.store).threads i) (x.store.active c)
      rw [settled]
      refine .intro ⟨split, ?_, ?_⟩ (.locked active)
      · exact congrArg (· ++ [Answer.done]) answers
      · exact congrArg List.tail calls

namespace Orderly

/-- Only one thread moves, and nobody else holds the lock before or after that. -/
theorem moves (h : Orderly c m₀ programs x) (alone : ∀ j, j ≠ i → x.holder ≠ some j)
    (m : Moves c m₀ (programs i) x i y) : Orderly c m₀ programs y := by
  have others : ∀ j, j ≠ i → y.holder ≠ some j := by
    intro j other held
    rcases m.after with ⟨mine, -⟩ | ⟨none, -⟩
    · rw [mine] at held
      exact other (Option.some.inj held).symm
    · rw [none] at held
      cases held
  refine ⟨fun j idle => ?_, fun j held => ?_, fun none => ?_⟩
  · by_cases same : j = i
    · subst same
      rcases m.after with ⟨mine, -⟩ | ⟨-, waiting, -⟩
      · exact absurd mine idle
      · exact waiting
    · rw [m.others j same]
      exact h.waiting j (alone j same)
  · by_cases same : j = i
    · subst same
      rcases m.after with ⟨-, busy⟩ | ⟨none, -⟩
      · exact busy
      · rw [none] at held
        cases held
    · exact absurd held (others j same)
  · rcases m.after with ⟨mine, -⟩ | ⟨-, -, active⟩
    · rw [none] at mine
      cases mine
    · exact active

/-- A thread that does not move has made all its calls, or another one holds the lock. -/
theorem turn_cases (h : Orderly c m₀ programs x) (i : ι) :
    (Moves c m₀ (programs i) x i (x.turn c i) ∧ ∀ j, j ≠ i → x.holder ≠ some j) ∨
      x.turn c i = x ∧ ((x.threads i).calls = [] ∨ ∃ j, j ≠ i ∧ x.holder = some j) := by
  cases held : x.holder with
  | none =>
    by_cases ended : (x.threads i).calls = []
    · refine .inr ⟨?_, .inl ended⟩
      simp only [turn, ended, List.head?_nil]
    · have idle : x.holder ≠ some i := by
        rw [held]
        nofun
      refine .inl ⟨moves_of_free held (h.waiting i idle) ended (h.free held), fun j _ => ?_⟩
      nofun
  | some j =>
    by_cases mine : j = i
    · subst mine
      refine .inl ⟨moves_of_busy held (h.busy j held), fun k other same => ?_⟩
      exact other (Option.some.inj same).symm
    · have idle : x.holder ≠ some i := by
        rw [held]
        exact fun same => mine (Option.some.inj same)
      refine .inr ⟨?_, .inr ⟨j, mine, rfl⟩⟩
      -- A waiting thread stands before a section, and a section begins with the lock.
      cases h.waiting i idle with
      | intro past future split answers calls =>
        cases future with
        | nil => simp only [turn, calls, List.flatMap_nil, List.head?_nil]
        | cons s future =>
          simp only [turn, calls, List.flatMap_cons, Section.calls, List.cons_append,
            List.head?_cons, held]

theorem turn (h : Orderly c m₀ programs x) (i : ι) : Orderly c m₀ programs (x.turn c i) := by
  rcases h.turn_cases i with ⟨moves, alone⟩ | ⟨same, -⟩
  · exact h.moves alone moves
  · rw [same]
    exact h

theorem run (h : Orderly c m₀ programs x) (schedule : List ι) :
    Orderly c m₀ programs (x.run c schedule) := by
  induction schedule generalizing x with
  | nil => exact h
  | cons i rest ih => exact ih (h.turn i)

theorem onCourse (h : Orderly c m₀ programs x) (i : ι) :
    OnCourse m₀ (programs i) (x.threads i) := by
  by_cases held : x.holder = some i
  · exact (h.busy i held).onCourse
  · exact (h.waiting i held).onCourse

/-- Nobody waits for ever: as long as some thread has calls to make, some thread can make one. -/
theorem progress (h : Orderly c m₀ programs x) (more : (x.threads i).calls ≠ []) :
    ∃ j, (x.threads j).calls ≠ [] ∧
      ((x.turn c j).threads j).calls = (x.threads j).calls.tail := by
  cases held : x.holder with
  | none =>
    have idle : x.holder ≠ some i := by
      rw [held]
      nofun
    exact ⟨i, (moves_of_free held (h.waiting i idle) more (h.free held)).calls⟩
  | some j => exact ⟨j, (moves_of_busy held (h.busy j held)).calls⟩

end Orderly

end Crowd

/-! ## Looks in turn -/

/-- A look under a modulus of its own sees that modulus. -/
theorem returns_peek {store : Store} {v : Int} (active : store.active c = some m₀)
    (positive : 0 < v) : ∃ after, Returns (Store.peek c v) store v after := by
  obtain ⟨m, made⟩ : ∃ m, Modulus.ofInt v = .ok m := ⟨_, dif_pos positive⟩
  obtain ⟨s₁, saves, -⟩ := Store.returns_save active
  obtain ⟨s₂, installs, k⟩ := Store.returns_install made c s₁
  have now : s₂.active c = some m := by
    rw [k.active, Store.active_write, if_pos rfl]
  have own : (⟨c, m₀⟩ : Snapshot).context = c := rfl
  obtain ⟨s₃, restores, -⟩ := Store.returns_restore own s₂
  have looks : Returns (Store.peek c v) store m.value s₃ :=
    saves.andThen (installs.andThen ((Store.returns_modulus now).andThen (restores.andThen rfl)))
  rw [(Modulus.ofInt_eq_ok_iff.1 made).1] at looks
  exact ⟨s₃, looks⟩

theorem fails_peek {store : Store} {v : Int} (active : store.active c = some m₀)
    (positive : ¬ 0 < v) : ∃ after, Fails (Store.peek c v) store (.invalidModulus v) after := by
  have made : Modulus.ofInt v = .error (.invalidModulus v) := dif_neg positive
  obtain ⟨s₁, saves, -⟩ := Store.returns_save active
  obtain ⟨s₂, refuses, -⟩ := Store.fails_install made c s₁
  exact ⟨s₂, saves.andFail refuses.first⟩

/-- Threads that take one look each, one after another, see what their sections see. -/
theorem peekEach_sees {store : Store} (active : store.active c = some m₀) (values : List Int) :
    (Store.peekEach c values store).1 =
      values.map fun v => if 0 < v then .ok v else .error (.invalidModulus v) := by
  induction values generalizing store with
  | nil => rfl
  | cons v rest ih =>
    simp only [Store.peekEach, List.map_cons]
    by_cases positive : 0 < v
    · obtain ⟨after, looks⟩ := returns_peek active positive
      have kept := Store.peek_returns looks
      rw [show Store.peek c v store = .ok v after from looks, if_pos positive,
        ih (kept.active ▸ active)]
    · obtain ⟨after, refuses⟩ := fails_peek active positive
      have kept := Store.peek_fails refuses
      rw [show Store.peek c v store = .error _ after from refuses, if_neg positive,
        ih (kept.active ▸ active)]

/-! ## Schedules -/

/-- However the calls of the threads are interleaved, every section is answered as if it were alone:
its looks see the modulus that it installs, or `m₀` where that is refused, and it restores `m₀`. Nobody
who does not hold the lock can find another modulus, and nobody waits for ever. Looks that are taken
in turn see the same. -/
theorem sections_serialize {ι : Type} [DecidableEq ι] (c : ContextId) (m₀ : Modulus)
    (store : Store) (active : store.active c = some m₀) (programs : ι → List Section)
    (schedule : List ι) :
    let x := (Crowd.start store programs).run c schedule
    (∀ i, OnCourse m₀ (programs i) (x.threads i)) ∧
      (x.holder = none → x.store.active c = some m₀) ∧
      (∀ i, (x.threads i).calls ≠ [] → ∃ j, (x.threads j).calls ≠ [] ∧
        ((x.turn c j).threads j).calls = (x.threads j).calls.tail) ∧
      ∀ values, (Store.peekEach c values store).1 =
        values.map fun v => if 0 < v then .ok v else .error (.invalidModulus v) := by
  intro x
  have orderly := (Crowd.Orderly.start store programs active).run schedule
  refine ⟨fun i => orderly.onCourse i, orderly.free, fun i more => ?_, fun values => ?_⟩
  · exact orderly.progress more
  · exact peekEach_sees active values

/-- Two threads switch a context that has 13. The second one asks for the lock while the first one
holds it, and gets it between the sections of the first one. -/
theorem sections_serialize_crossed :
    let thirteen : Modulus := ⟨13, 1, by decide⟩
    let store := Store.initial.write .global thirteen
    let programs : Bool → List Section := fun second =>
      if second then [⟨5, [.text]⟩] else [⟨7, [.value]⟩, ⟨0, [.value]⟩]
    let schedule := [false, true, false, false, true, false, false, true, false] ++
      List.replicate 6 true ++ List.replicate 6 false
    store.active .global = some thirteen ∧
      ∃ x, x = (Crowd.start store programs).run .global schedule ∧
        (x.threads true).answers = [.done, .done, .done, .text (Decimal.text 5), .done, .done] ∧
        (x.threads false).answers =
          [.done, .done, .done, .integer 7, .done, .done,
            .done, .done, .refused (.invalidModulus 0), .integer 13, .done, .done] ∧
        x.store.active .global = some thirteen := by
  intro thirteen store programs schedule
  have active : store.active .global = some thirteen := rfl
  obtain ⟨course, free, -, -⟩ :=
    sections_serialize .global thirteen store active programs schedule
  obtain ⟨x, reached⟩ : ∃ x, x = (Crowd.start store programs).run .global schedule := ⟨_, rfl⟩
  rw [← reached] at course free
  have second : (x.threads true).answers.length = 6 := by
    rw [reached]
    decide +kernel
  have first : (x.threads false).answers.length = 12 := by
    rw [reached]
    decide +kernel
  have unlocked : x.holder = none := by
    rw [reached]
    decide +kernel
  refine ⟨active, x, reached, ?_, ?_, free unlocked⟩
  · exact (course true).answers.eq_of_length second
  · exact (course false).answers.eq_of_length first

end AmbientResidue.Threads
