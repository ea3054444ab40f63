import AmbientResidue.Proofs.Session.History

/-! # Every run refines the history it leaves

What the contexts of a reachable session answer is read off the instructions that have succeeded so
far: looking at a context finds what was written last, and a snapshot restores what its own context
held when it was taken. -/

namespace AmbientResidue

open Session AmbientResidue.Action

variable {build : Build} {s t : Session}

namespace Action

/-! ## Looking and restoring -/

theorem returns_current {place : Place} {c : ContextId} {m : Modulus}
    (hc : s.contextAt? place = some c) (hm : s.store.active c = some m) :
    Returns (perform build (.current place)) s (.integer m.value) s := by
  have look := returns_onStore (Store.returns_modulus hm)
  exact (returns_context hc).andThen (look.andThen rfl)

theorem fails_current {place : Place} {c : ContextId} (hc : s.contextAt? place = some c)
    (hm : s.store.active c = none) :
    Fails (perform build (.current place)) s (refusal .uninitialized) s := by
  have look := fails_onStore (Store.fails_modulus hm)
  exact (returns_context hc).andFail look.first

theorem returns_restore {name : String} {place : Place} {snapshot : Snapshot}
    (hs : s.snapshots.find? name = some snapshot)
    (hc : s.contextAt? place = some snapshot.context) :
    ∃ t, Returns (perform build (.restore name place)) s .done t ∧
      Kept (s.switch snapshot.context snapshot.modulus) t := by
  obtain ⟨store, restores, k⟩ := Store.returns_restore rfl s.store
  refine ⟨{ s with store }, ?_, .withStore k⟩
  exact (returns_lookUp hs).andThen ((returns_context hc).andThen
    ((returns_onStore restores).andThen rfl))

theorem fails_restore {name : String} {place : Place} {snapshot : Snapshot} {d : ContextId}
    (hs : s.snapshots.find? name = some snapshot) (hc : s.contextAt? place = some d)
    (foreign : snapshot.context ≠ d) :
    ∃ t, Fails (perform build (.restore name place)) s (refusal .foreignSnapshot) t ∧
      Kept s t := by
  obtain ⟨store, refuses, k⟩ := Store.fails_restore foreign s.store
  refine ⟨{ s with store }, ?_, .withStore k⟩
  exact (returns_lookUp hs).andFail ((returns_context hc).andFail (fails_onStore refuses).first)

end Action

namespace Session

/-! ## Histories of runs -/

/-- The instructions that succeed, the latest one first. -/
def history (build : Build) (l : List Visit) : History :=
  ((l.filter (·.succeeds build)).map Visit.instruction).reverse

theorem history_append (l k : List Visit) :
    history build (l ++ k) = history build k ++ history build l := by
  simp [history]

/-- One visit takes a history to the next. -/
theorem agrees_next {h : History} (a : Agrees h s) (i : Instruction) :
    Agrees (history build [⟨s, i⟩] ++ h) (s.next build i) := by
  rcases next_cases build ⟨s, i⟩ with ⟨failed, k⟩ | ⟨done, v, u, effect, k⟩
  · have nothing : history build [⟨s, i⟩] = [] := by simp [history, failed]
    rw [nothing]
    exact a.kept k
  · have latest : history build [⟨s, i⟩] = [i] := by simp [history, done]
    rw [latest]
    exact (a.effect effect).kept k

theorem Path.agrees {l : List Visit} {h : History} (p : Path build s l t) (a : Agrees h s) :
    Agrees (history build l ++ h) t := by
  induction p generalizing h with
  | nil => exact a
  | @cons s i rest t p ih =>
    have step := ih (agrees_next a i)
    rwa [← List.append_assoc, ← history_append] at step

/-- A name stands for the same snapshot until it is given to another one. -/
theorem snapshotAt_append {later h : History} {name : String}
    (kept : ∀ place, .save name place ∉ later) :
    History.snapshotAt (later ++ h) name = History.snapshotAt h name := by
  induction later with
  | nil => rfl
  | cons i later ih =>
    have rest := ih fun place hp => kept place (List.mem_cons_of_mem i hp)
    cases i with
    | save other place =>
      have different : name ≠ other := by
        rintro rfl
        exact kept place List.mem_cons_self
      rw [List.cons_append, History.snapshotAt, if_neg different, rest]
    | _ => exact rest

/-- The session answers as the visits that led to it make it answer. -/
structure Reflects (build : Build) (l : List Visit) (s : Session) : Prop where
  /-- Looking at a context finds what was written to it last. -/
  current : ∀ place c, s.contextAt? place = some c →
    match (history build l).written c with
    | some m => Returns (perform build (.current place)) s (.integer m.value) s
    | none => Fails (perform build (.current place)) s (refusal .uninitialized) s
  /-- A snapshot brings back what was current when it was taken, in its own context only. -/
  restore : ∀ earlier v later name taken, l = earlier ++ v :: later →
    v.instruction = .save name taken → v.succeeds build = true →
    (∀ again, .save name again ∉ history build later) →
    ∃ c m, v.before.contextAt? taken = some c ∧ v.before.store.active c = some m ∧
      ∀ place d, s.contextAt? place = some d →
        if d = c then
          ∃ t, Returns (perform build (.restore name place)) s .done t ∧ Kept (s.switch c m) t ∧
            Returns (perform build (.current place)) t (.integer m.value) t
        else
          ∃ t, Fails (perform build (.restore name place)) s (refusal .foreignSnapshot) t ∧
            Kept s t

theorem Path.snapshot {earlier later : List Visit} {v : Visit} {name : String} {taken : Place}
    (p : Path build .initial (earlier ++ v :: later) s) (saves : v.instruction = .save name taken)
    (succeeds : v.succeeds build = true)
    (kept : ∀ again, .save name again ∉ history build later) :
    ∃ c m, v.before.contextAt? taken = some c ∧ v.before.store.active c = some m ∧
      s.snapshots.find? name = some ⟨c, m⟩ := by
  obtain ⟨first, last⟩ := p.visit
  have before := first.agrees Agrees.initial
  rw [List.append_nil] at before
  obtain ⟨w, returns⟩ := returns_of_succeeds succeeds
  rw [saves] at returns last
  obtain ⟨u, effect, k⟩ := effect_of_returns returns
  have found := ((last.agrees ((before.effect effect).kept k)).snapshot name).trans
    (snapshotAt_append kept)
  cases effect with
  | @save _ _ c m hc hm =>
    refine ⟨c, m, hc, hm, found.trans ?_⟩
    rw [History.snapshotAt, if_pos rfl, ← before.contextAt, hc, Option.bind_some,
      ← before.active, hm]
    rfl
  | look looks => cases looks

theorem Path.reflects {l : List Visit} (p : Path build .initial l s) : Reflects build l s := by
  have a := p.agrees Agrees.initial
  rw [List.append_nil] at a
  refine ⟨fun place c hc => ?_, fun earlier v later name taken split saves succeeds kept => ?_⟩
  · cases hm : (history build l).written c with
    | some m => exact returns_current hc ((a.active c).trans hm)
    | none => exact fails_current hc ((a.active c).trans hm)
  · obtain ⟨c, m, hc, hm, hs⟩ := Path.snapshot (split ▸ p) saves succeeds kept
    refine ⟨c, m, hc, hm, fun place d hd => ?_⟩
    split
    · next same =>
      subst same
      obtain ⟨t, returns, k⟩ := @returns_restore build _ _ _ _ hs hd
      refine ⟨t, returns, k, returns_current ((k.contextAt? place).trans hd) ?_⟩
      rw [k.store.active]
      simp [Session.switch]
    · next other => exact fails_restore hs hd (Ne.symm other)

/-- Every session that a run comes through answers as the history of the run says. -/
theorem runs_reflect_history (build : Build) (steps : List Step) :
    Reflects build (visits build .initial steps) (run build .initial steps).2 ∧
      ∀ earlier v later, visits build .initial steps = earlier ++ v :: later →
        Reflects build earlier v.before := by
  have p := run_path build .initial steps
  refine ⟨p.reflects, fun earlier v later split => ?_⟩
  exact (split ▸ p).visit.1.reflects

/-- The snapshot of the global context brings back its 11 there and is refused elsewhere. -/
theorem runs_reflect_history_two_contexts :
    let steps : List Step := [.single (.newContext "k"), .single (.install "11" none),
      .single (.save "p" none), .single (.install "5" (some "k")), .single (.install "7" none)]
    let s := (run .plain .initial steps).2
    Returns (perform .plain (.current none)) s (.integer 7) s ∧
      (∃ t, Returns (perform .plain (.restore "p" none)) s .done t ∧
        Returns (perform .plain (.current none)) t (.integer 11) t) ∧
      ∃ t, Fails (perform .plain (.restore "p" (some "k"))) s (refusal .foreignSnapshot) t ∧
        Kept s t := by
  intro steps s
  have reflects := (runs_reflect_history .plain steps).1
  have last : (history .plain (visits .plain .initial steps)).written .global =
      some ⟨7, 1, by decide⟩ := by decide +kernel
  have looks := reflects.current none .global rfl
  rw [last] at looks
  have rest : history .plain ((visits .plain .initial steps).drop 3) =
      [.install "7" none, .install "5" (some "k")] := rfl
  obtain ⟨c, m, hc, hm, restores⟩ := reflects.restore
    ((visits .plain .initial steps).take 2) _ ((visits .plain .initial steps).drop 3) "p" none
    rfl rfl (by decide +kernel) (by rw [rest]; simp)
  obtain rfl : ContextId.global = c := Option.some.inj hc
  obtain rfl : (⟨11, 1, by decide⟩ : Modulus) = m :=
    Option.some.inj (Eq.trans (by decide +kernel) hm)
  have own := restores none .global rfl
  have other := restores (some "k") ⟨1⟩ (by decide +kernel)
  rw [if_pos rfl] at own
  rw [if_neg (by decide)] at other
  obtain ⟨t, restored, -, shows⟩ := own
  exact ⟨looks, ⟨t, restored, shows⟩, other⟩

end Session

end AmbientResidue
