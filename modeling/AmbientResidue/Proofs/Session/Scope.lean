import AmbientResidue.Proofs.Session.LastWriter
import AmbientResidue.Proofs.Session.Lockstep

/-! # Scopes undo themselves

A guard remembers what its context held just before the scope was opened, and dropping it puts that
back, in whatever order guards are dropped. A block that stays on its context therefore leaves the
contexts as it found them, and what comes after it cannot tell that it was there. -/

namespace AmbientResidue

open Session AmbientResidue.Action

/-- Carried out in this session, the instruction writes to no context but `c` and makes none. -/
def Instruction.within (s : Session) (c : ContextId) : Instruction → Bool
  | .newContext _ => false
  | .install _ place | .restore _ place => s.contextAt? place = some c
  | .openScope name _ place =>
    s.contextAt? place = some c && (s.guards.find? name).all fun guard => guard.context = c
  | .closeScope name => (s.guards.find? name).all fun guard => guard.context = c
  | .useStandard | .installConfig _ | .installDocument _ => c = .global
  | _ => true

namespace Session

variable {build : Build} {s t u : Session} {i : Instruction} {v : Value} {c : ContextId}

/-! ## What a block leaves alone -/

/-- No other context than `c` has changed. -/
structure Confined (c : ContextId) (s t : Session) : Prop where
  made : t.store.made = s.store.made
  contexts : t.contexts = s.contexts
  active : ∀ d, d ≠ c → t.store.active d = s.store.active d

namespace Confined

theorem refl (s : Session) : Confined c s s := ⟨rfl, rfl, fun _ _ => rfl⟩

theorem trans (h : Confined c s t) (k : Confined c t u) : Confined c s u :=
  ⟨k.made.trans h.made, k.contexts.trans h.contexts,
    fun d hd => (k.active d hd).trans (h.active d hd)⟩

theorem of_kept (k : Kept s t) : Confined c s t :=
  ⟨k.store.made, k.contexts, fun d _ => congrFun k.store.active d⟩

theorem switch (s : Session) (m : Modulus) : Confined c s (s.switch c m) :=
  ⟨rfl, rfl, fun _ hd => if_neg hd⟩

theorem closing (s : Session) {guard : Option Guard}
    (own : (guard.all fun g => g.context = c) = true) : Confined c s (s.closing guard) := by
  refine ⟨made_closing s guard, contexts_closing s guard, fun d hd => ?_⟩
  rw [active_closing]
  cases guard with
  | none => rfl
  | some guard =>
    have other : guard.context ≠ d := fun same => hd (same.symm.trans (of_decide_eq_true own))
    rw [Option.bind_some, Guard.returns, if_neg other]
    rfl

theorem naming (s : Session) (name : Option String) (a : Element) :
    Confined c s (s.naming name a) := by
  cases name <;> exact ⟨rfl, rfl, fun _ _ => rfl⟩

end Confined

theorem confined_of_effect (effect : Effect build s i v t) (h : i.within s c = true) :
    Confined c s t := by
  cases effect with
  | newContext => cases h
  | install _ hc _ | restore _ hc _ =>
    obtain rfl := Option.some.inj (hc.symm.trans (of_decide_eq_true h))
    exact .switch s _
  | save => exact ⟨rfl, rfl, fun _ _ => rfl⟩
  | @openScope name lit place v d m hv hc hm =>
    obtain ⟨here, older⟩ := Bool.and_eq_true_iff.1 h
    obtain rfl := Option.some.inj (hc.symm.trans (of_decide_eq_true here))
    have opened : Confined d s { s.switch d m with guards := s.guards.bind name (s.capture d) } :=
      ⟨rfl, rfl, (Confined.switch s m).active⟩
    exact opened.trans (.closing _ older)
  | @closeScope name guard hg =>
    rw [Instruction.within, hg] at h
    have closed : Confined c s (s.closing (some guard)) := .closing s h
    exact ⟨closed.made, closed.contexts, closed.active⟩
  | useStandard =>
    obtain rfl : c = .global := of_decide_eq_true h
    exact ⟨rfl, rfl, (Confined.switch s _).active⟩
  | useStandardAgain | installConfig | installDocument =>
    obtain rfl : c = .global := of_decide_eq_true h
    exact .switch s _
  | look => exact .refl s
  | _ => exact .naming s _ _

/-- The name stands for the same value. -/
def Same (s t : Session) : Ref → Prop
  | .element name => t.elements.find? name = s.elements.find? name
  | .snapshot name => t.snapshots.find? name = s.snapshots.find? name
  | .guard name => t.guards.find? name = s.guards.find? name

theorem Same.trans {r : Ref} (h : Same s t r) (k : Same t u r) : Same s u r := by
  cases r with
  | element name | snapshot name | guard name => exact Eq.trans k h

theorem Same.of_kept (k : Kept s t) (r : Ref) : Same s t r := by
  cases r with
  | element name => exact congrArg (Names.find? · name) k.elements
  | snapshot name => exact congrArg (Names.find? · name) k.snapshots
  | guard name => exact congrArg (Names.find? · name) k.guards

theorem Same.naming (s : Session) {name : Option String} (a : Element) {r : Ref}
    (h : r ∉ name.toList.map Ref.element) : Same s (s.naming name a) r := by
  cases name with
  | none => cases r <;> rfl
  | some name =>
    cases r with
    | element other =>
      have different : other ≠ name := by
        rintro rfl
        exact h (by simp)
      exact if_neg different
    | snapshot other | guard other => rfl

/-- An instruction changes no names but those that it assigns. -/
theorem same_of_effect (effect : Effect build s i v t) {r : Ref} (h : r ∉ i.assigns) :
    Same s t r := by
  cases effect with
  | make | random | unary | binary | sum | product => exact .naming s _ h
  | @save name =>
    cases r with
    | snapshot other =>
      have different : other ≠ name := by
        rintro rfl
        exact h (by simp [Instruction.assigns])
      exact if_neg different
    | element other | guard other => rfl
  | @openScope name =>
    cases r with
    | guard other =>
      have different : other ≠ name := by
        rintro rfl
        exact h (by simp [Instruction.assigns])
      rw [Same, guards_closing]
      exact if_neg different
    | element other => rw [Same, elements_closing]; rfl
    | snapshot other => rw [Same, snapshots_closing]; rfl
  | @closeScope name =>
    cases r with
    | guard other =>
      have different : other ≠ name := by
        rintro rfl
        exact h (by simp [Instruction.assigns])
      exact if_neg different
    | element other | snapshot other => rfl
  | _ => cases r <;> rfl

/-- No visit that succeeds assigns the name. -/
def Untouched (build : Build) (l : List Visit) (r : Ref) : Prop :=
  ∀ v ∈ l, v.succeeds build = true → r ∉ v.instruction.assigns

/-- Every visit that succeeds stays on the context. -/
def Within (build : Build) (c : ContextId) (l : List Visit) : Prop :=
  ∀ v ∈ l, v.succeeds build = true → v.instruction.within v.before c = true

instance (build : Build) (l : List Visit) (r : Ref) : Decidable (Untouched build l r) :=
  inferInstanceAs (Decidable (∀ v ∈ l, v.succeeds build = true → r ∉ v.instruction.assigns))

instance (build : Build) (c : ContextId) (l : List Visit) : Decidable (Within build c l) :=
  inferInstanceAs (Decidable (∀ v ∈ l, v.succeeds build = true →
    v.instruction.within v.before c = true))

namespace Path

variable {l : List Visit}

theorem same (p : Path build s l t) {r : Ref} (h : Untouched build l r) : Same s t r := by
  induction p with
  | nil => cases r <;> rfl
  | @cons s i rest t p ih =>
    have tail := ih fun w hw => h w (List.mem_cons_of_mem _ hw)
    refine Same.trans ?_ tail
    rcases next_cases build ⟨s, i⟩ with ⟨-, k⟩ | ⟨done, v, u, effect, k⟩
    · exact .of_kept k r
    · exact (same_of_effect effect (h _ List.mem_cons_self done)).trans (.of_kept k r)

theorem confined (p : Path build s l t) (h : Within build c l) : Confined c s t := by
  induction p with
  | nil => exact .refl _
  | @cons s i rest t p ih =>
    have tail := ih fun w hw => h w (List.mem_cons_of_mem _ hw)
    refine Confined.trans ?_ tail
    rcases next_cases build ⟨s, i⟩ with ⟨-, k⟩ | ⟨done, v, u, effect, k⟩
    · exact .of_kept k
    · exact (confined_of_effect effect (h _ List.mem_cons_self done)).trans (.of_kept k)

end Path

/-! ## Opening and dropping -/

variable {name lit : String} {place : Place} {guard : Guard}

theorem capture_returns (s : Session) (c d : ContextId) (x : Option Modulus) :
    ((s.capture c).returns d).or x = if d = c then (s.store.active c).or x else x := by
  by_cases same : c = d
  · subst same
    cases h : s.store.active c <;> simp [capture, Guard.returns, h]
  · simp [capture, Guard.returns, same, Ne.symm same]

/-- A scope that has been opened is guarded by what its context held. -/
theorem opened (hc : s.contextAt? place = some c)
    (succeeds : Visit.succeeds build ⟨s, .openScope name lit place⟩ = true) :
    (s.next build (.openScope name lit place)).guards.find? name = some (s.capture c) := by
  obtain ⟨v, returns⟩ := returns_of_succeeds succeeds
  obtain ⟨u, effect, k⟩ := effect_of_returns returns
  dsimp only at k
  cases effect with
  | @openScope _ _ _ _ d m _ hd _ =>
    obtain rfl : c = d := Option.some.inj (hc.symm.trans hd)
    rw [k.guards, guards_closing]
    exact if_pos rfl
  | look looks => cases looks

/-- A guard can always be dropped. -/
theorem dropped (hg : t.guards.find? name = some guard) :
    Returns (perform build (.closeScope name)) t .done (t.next build (.closeScope name)) ∧
      ∀ d, (t.next build (.closeScope name)).store.active d =
        (guard.returns d).or (t.store.active d) := by
  have returns : Returns (perform build (.closeScope name)) t .done
      { t with
        store := t.store.closeScope guard
        guards := t.guards.erase name } := by
    exact (returns_lookUp hg).andThen rfl
  rw [next, after_returns returns]
  exact ⟨returns, fun d => active_closing t (some guard) d⟩

/-- Giving the name of a guard to a new one drops the guard after the switch. -/
theorem replaced (hg : t.guards.find? name = some guard)
    (succeeds : Visit.succeeds build ⟨t, .openScope name lit place⟩ = true) :
    ∃ d m, t.contextAt? place = some d ∧ (Instruction.openScope name lit place).chosen = some m ∧
      ∀ e, (t.next build (.openScope name lit place)).store.active e =
        (guard.returns e).or ((t.switch d m).store.active e) := by
  obtain ⟨v, returns⟩ := returns_of_succeeds succeeds
  obtain ⟨u, effect, k⟩ := effect_of_returns returns
  dsimp only at k
  cases effect with
  | @openScope _ _ _ _ d m hv hd hm =>
    refine ⟨d, m, hd, chosen_literal hv hm, fun e => ?_⟩
    rw [k.store.active, active_closing, hg]
    rfl
  | look looks => cases looks

/-- A block that leaves the moduli of all contexts as they were leaves a session that is like the
one that it found, in all names that it does not assign. -/
theorem Path.alike {l : List Visit} (p : Path build s l t) (ready : Ready s.store.standard)
    (readyAfter : Ready t.store.standard) (h : Confined c s t)
    (back : t.store.active c = s.store.active c) : Alike (Untouched build l) t s where
  made := h.made
  active := by
    funext d
    by_cases same : d = c
    · rw [same, back]
    · exact h.active d same
  left := readyAfter
  right := ready
  contexts := h.contexts
  elements _ hn := p.same hn
  snapshots _ hn := p.same hn
  guards _ hn := p.same hn

/-- What the name of a scope stands for until it is assigned again: what the context of the scope
held when it was opened. -/
theorem Path.guarded {l : List Visit} (p : Path build (s.next build (.openScope name lit place)) l t)
    (hc : s.contextAt? place = some c)
    (succeeds : Visit.succeeds build ⟨s, .openScope name lit place⟩ = true)
    (untouched : Untouched build l (.guard name)) :
    t.guards.find? name = some (s.capture c) := by
  have still : t.guards.find? name = (s.next build (.openScope name lit place)).guards.find? name :=
    p.same untouched
  exact still.trans (opened hc succeeds)

theorem ite_capture (s w : Session) (c d : ContextId) :
    ((s.capture c).returns d).or (w.store.active d) =
      if d = c then (s.store.active c).or (w.store.active c) else w.store.active d := by
  rw [capture_returns]
  by_cases same : d = c
  · rw [if_pos same, if_pos same, same]
  · rw [if_neg same, if_neg same]

/-- Dropping a guard puts back what its context held just before the scope was opened, if it held
anything, whatever has happened since; and a block that stays on a context that held something
cannot be told from no block, by whatever uses no value that the block assigns. -/
theorem scopes_undo_themselves (build : Build) (steps : List Step) (earlier body rest : List Visit)
    (opening closing : Visit) (name lit : String) (place : Place) (c : ContextId)
    (run_splits : visits build .initial steps = earlier ++ opening :: (body ++ closing :: rest))
    (opens : opening.instruction = .openScope name lit place)
    (succeeds : opening.succeeds build = true)
    (hc : opening.before.contextAt? place = some c)
    (untouched : Untouched build body (.guard name)) :
    let s := opening.before
    let w := closing.before
    let x := w.next build closing.instruction
    (closing.instruction = .closeScope name →
      Returns (perform build (.closeScope name)) w .done x ∧
      ∀ d, x.store.active d =
        if d = c then (s.store.active c).or (w.store.active c) else w.store.active d) ∧
    (∀ lit' place', closing.instruction = .openScope name lit' place' →
      closing.succeeds build = true →
      ∃ d m, w.contextAt? place' = some d ∧ closing.instruction.chosen = some m ∧
        ∀ e, x.store.active e =
          if e = c then (s.store.active c).or ((w.switch d m).store.active c)
          else (w.switch d m).store.active e) ∧
    (∀ m, s.store.active c = some m → closing.instruction = .closeScope name →
      Within build c (opening :: body) →
      ∀ later, (∀ v ∈ visits build x later, ∀ r ∈ v.instruction.uses,
        Untouched build (opening :: body ++ [closing]) r) →
      visibleAll (run build x later).1 = visibleAll (run build s later).1) := by
  obtain ⟨s, i⟩ := opening
  obtain ⟨w, k⟩ := closing
  dsimp only at opens hc
  subst opens
  intro s' w' x
  have p := run_path build .initial steps
  rw [run_splits] at p
  obtain ⟨before, onward⟩ := p.visit
  obtain ⟨inside, -⟩ := onward.visit
  have guarded : w.guards.find? name = some (s.capture c) := inside.guarded hc succeeds untouched
  refine ⟨fun closes => ?_, fun lit' place' opens again => ?_, fun m hm closes within later uses => ?_⟩
  · obtain rfl : k = .closeScope name := closes
    obtain ⟨returns, drops⟩ := @dropped build w name _ guarded
    exact ⟨returns, fun d => (drops d).trans (ite_capture s w c d)⟩
  · obtain rfl : k = .openScope name lit' place' := opens
    obtain ⟨d, m, hd, chosen, active⟩ := replaced guarded again
    exact ⟨d, m, hd, chosen, fun e => (active e).trans (ite_capture s (w.switch d m) c e)⟩
  · obtain rfl : k = .closeScope name := closes
    have block : Path build s (⟨s, .openScope name lit place⟩ :: body ++ [⟨w, .closeScope name⟩]) x :=
      .cons (inside.append (.cons .nil))
    have stays : Within build c
        (⟨s, .openScope name lit place⟩ :: body ++ [⟨w, .closeScope name⟩]) := by
      intro v hv done
      rcases List.mem_append.1 hv with hv | hv
      · exact within v hv done
      obtain rfl := List.mem_singleton.1 hv
      rw [Instruction.within, guarded]
      exact decide_eq_true rfl
    have back : x.store.active c = s.store.active c := by
      have drops := (@dropped build w name _ guarded).2 c
      rw [ite_capture, if_pos rfl, show s.store.active c = some m from hm] at drops
      exact drops.trans hm.symm
    have alike : Alike (Untouched build _) x s :=
      block.alike (before.agrees .initial).standard ((before.append block).agrees .initial).standard
        (block.confined stays) back
    exact (run_alike build alike later uses).1

/-- The block opens another scope that outlives it, fails to install zero, restores and uses the
default modulus. -/
theorem scopes_undo_themselves_crossed :
    let before : List Step := [.single (.install "11" none),
      .single (.make (.int64 9) (some "a")), .single (.save "p" none)]
    let block : List Step := [.single (.openScope "h" "5" none), .single (.install "0" none),
      .single (.make (.int64 3) (some "b")), .single (.restore "p" none), .single .useStandard]
    let s := ((initial.next .plain (.install "11" none)).next .plain
      (.make (.int64 9) (some "a"))).next .plain (.save "p" none)
    let u := s.next .plain (.openScope "g" "7" none)
    let w := ((((u.next .plain (.openScope "h" "5" none)).next .plain (.install "0" none)).next .plain
      (.make (.int64 3) (some "b"))).next .plain (.restore "p" none)).next .plain .useStandard
    let x := w.next .plain (.closeScope "g")
    let later : List Step := [.single (.binary .add .method "a" "a" none),
      .single (.restore "p" none), .single .useStandard, .single (.current none)]
    visits .plain .initial
        (before ++ .single (.openScope "g" "7" none) :: (block ++ [.single (.closeScope "g")])) =
        visits .plain .initial before ++
          ⟨s, .openScope "g" "7" none⟩ :: (visits .plain u block ++ ⟨w, .closeScope "g"⟩ :: []) ∧
      s.store.active .global = some ⟨11, 1, by decide⟩ ∧
      x.store.active .global = some ⟨11, 1, by decide⟩ ∧
      visibleAll (run .plain x later).1 = visibleAll (run .plain s later).1 := by
  intro before block s u w x later
  have active : s.store.active .global = some ⟨11, 1, by decide⟩ := by decide +kernel
  have splits : visits .plain .initial
      (before ++ .single (.openScope "g" "7" none) :: (block ++ [.single (.closeScope "g")])) =
      visits .plain .initial before ++
        ⟨s, .openScope "g" "7" none⟩ :: (visits .plain u block ++ ⟨w, .closeScope "g"⟩ :: []) := by
    simp only [before, block, List.cons_append, List.nil_append, visits_single, visits]
    rfl
  obtain ⟨drops, -, transparent⟩ := scopes_undo_themselves .plain _ _ _ _ _ _ "g" "7" none .global
    splits rfl (by decide +kernel) rfl (by decide +kernel)
  obtain ⟨-, restored⟩ := drops rfl
  have back : x.store.active .global = some ⟨11, 1, by decide⟩ := by
    rw [restored, if_pos rfl, active]
    rfl
  exact ⟨splits, active, back, transparent _ active rfl (by decide +kernel) later (by decide +kernel)⟩

end Session

end AmbientResidue
