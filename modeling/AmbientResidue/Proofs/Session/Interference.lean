import AmbientResidue.Proofs.Session.Beside
import AmbientResidue.Proofs.Session.LastWriter
import AmbientResidue.Proofs.Session.Replay

/-! # Contexts do not interfere

Take the operations on one context out of a run and carry them out alone: they are answered as they
were among the others. What an operation on the context looks at is there in both sessions; what an
operation on another context writes is not looked at. -/

namespace AmbientResidue

open Session AmbientResidue.Action

/-- Carried out in this session, the instruction is an operation on the context `c`. Bringing a
foreign snapshot to `c` is not: it is refused wherever it is tried. -/
def Instruction.concerns (s : Session) (c : ContextId) : Instruction → Bool
  | .newContext _ => s.store.made + 1 = c.index
  | .install _ place | .current place | .active place | .hasModulus place | .save _ place
  | .openScope _ _ place | .abandonLock place | .threads _ place => s.contextAt? place = some c
  | .restore name place =>
    s.contextAt? place = some c &&
      (s.snapshots.find? name).all fun snapshot => snapshot.context = c
  | .closeScope name => (s.guards.find? name).any fun guard => guard.context = c
  | .counts | .reset _ => false
  | .useStandard | .installConfig _ | .installDocument _ => c = .global
  | .make _ _ | .random _ _ | .unary _ _ _ _ | .binary _ _ _ _ _ | .fold _ _ _ | .same _ _
  | .display _ | .check _ | .write _ | .fill _ _ => c = .global

/-- Giving a new scope the name of an open one drops the older guard. That is an operation on the
older guard's context, whichever context the new scope is opened on. -/
def Instruction.releases (s : Session) (c : ContextId) : Instruction → Option Instruction
  | .openScope name _ _ =>
    if (s.guards.find? name).any fun guard => guard.context = c then some (.closeScope name)
    else none
  | _ => none

/-- The operation on `c` that the visit is, or that it brings with it, if there is one. -/
def Session.Visit.own (build : Build) (c : ContextId) (v : Visit) : Option Instruction :=
  if v.instruction.concerns v.before c then some v.instruction
  else if v.succeeds build then v.instruction.releases v.before c
  else none

/-- The answer with the counters left out. -/
def Reply.told (r : Reply) : Except Failure Value := r.answer.map Value.visible

namespace Session

variable {α β : Type} {build : Build} {c e : ContextId} {s t u : Session} {i j : Instruction} {w : Value}

namespace Beside

variable {P : α → β → Prop}

theorem onStore {Q : α → β → Prop} {f : Store.Operation α} {g : Store.Operation β}
    (hf : Tracks (Store.Beside c) Q f g) : Tracks (Beside c) Q (onStore f) (onStore g) :=
  fun _ _ h => meets_onStore hf h.store fun _ _ k => h.withStore k

/-! ## Operations on the context -/

/-- Literals come first. Reading them moves nothing that has a name. -/
theorem reads {γ : Type} {x : Action γ} {f : γ → Action α} {g : γ → Action β}
    (same : Tracks (Beside c) Eq x x) (calm : Calm x) {place : Place}
    (h : Beside c s t) (hc : s.contextAt? place = some c)
    (rest : ∀ a s₁ t₁, Beside c s₁ t₁ → s₁.contextAt? place = some c →
      Meets (Beside c) P (f a) (g a) s₁ t₁) :
    Meets (Beside c) P (x >>= f) (x >>= g) s t := by
  rcases same h with ⟨a, s₁, b, t₁, r₁, r₂, rfl, h₁⟩ | ⟨e, s₁, t₁, r₁, r₂, h₁⟩
  · have hc₁ := ((calm r₁).contextAt? place).trans hc
    exact .andThen r₁ r₂ (rest a s₁ t₁ h₁ hc₁)
  · exact .first r₁ r₂ h₁

theorem place {f : ContextId → Action α} {g : ContextId → Action β} {place : Place}
    (h : Beside c s t) (hc : s.contextAt? place = some c)
    (rest : Meets (Beside c) P (f c) (g c.alone) s t) :
    Meets (Beside c) P (Action.context place >>= f) (Action.context place >>= g) s t :=
  .andThen (returns_context hc) (returns_context (h.contextAt hc)) rest

theorem literal (lit : String) :
    Tracks (Beside c) Eq (Action.literal build lit) (Action.literal build lit) :=
  tracks_pay fun _ _ h cost => h.charge cost

theorem install {lit : String} {place : Place} (h : Beside c s t)
    (hc : s.contextAt? place = some c) :
    Meets (Beside c) Agree (perform build (.install lit place)) (perform build (.install lit place))
      s t := by
  refine reads (literal lit) calm_pay h hc fun v s₁ t₁ h₁ hc₁ => h₁.place hc₁ ?_
  have installs := onStore ((Store.Beside.pairs c).install v)
  exact Tracks.meets (installs.same fun _ => .pure rfl) h₁

theorem restore {name : String} {place : Place} (h : Beside c s t)
    (hc : s.contextAt? place = some c)
    (own : ∀ snapshot, s.snapshots.find? name = some snapshot → snapshot.context = c) :
    Meets (Beside c) Agree (perform build (.restore name place))
      (perform build (.restore name place)) s t := by
  cases found : s.snapshots.find? name with
  | none => exact .first (fails_lookUp found) (fails_lookUp (h.unsaved name found)) h
  | some snapshot =>
    obtain ⟨d, m⟩ := snapshot
    obtain rfl : d = c := own _ found
    refine .andThen (returns_lookUp found) (returns_lookUp (h.snapshot name m found))
      (h.place hc ?_)
    have restores : Tracks (Store.Beside d) Eq (Store.restore d ⟨d, m⟩)
        (Store.restore d.alone ⟨d.alone, m⟩) :=
      (Store.Beside.pairs d).restore ⟨fun _ => rfl, fun _ => rfl⟩ rfl
    exact Tracks.meets ((onStore restores).same fun _ => .pure rfl) h

theorem openScope {name lit : String} {place : Place} (h : Beside c s t)
    (hc : s.contextAt? place = some c) :
    Meets (Beside c) Agree (perform build (.openScope name lit place))
      (perform build (.openScope name lit place)) s t := by
  refine reads (literal lit) calm_pay h hc fun v s₁ t₁ h₁ hc₁ => h₁.place hc₁ ?_
  refine Meets.bind (onStore ((Store.Beside.pairs c).openScope v) h₁) fun g k opened => ?_
  obtain ⟨m, rfl, rfl⟩ := opened
  refine Tracks.get.bind fun s₂ t₂ h₂ => ?_
  have named : (⟨c, m.map (⟨c, ·⟩)⟩ : Guard).alone c = some ⟨c.alone, m.map (⟨c.alone, ·⟩)⟩ := by
    rw [Guard.alone, if_pos rfl, Option.map_map]
    rfl
  refine Tracks.same (.update fun s₃ t₃ h₃ => h₃.bindGuard name _ named) fun _ => ?_
  dsimp only
  rw [h₂.guard name]
  -- The older guard is dropped in both sessions, or in the first one only, or there is none.
  cases s₂.guards.find? name with
  | none => exact Tracks.same (.pure rfl) fun _ => .pure rfl
  | some older =>
    rw [Option.bind_some]
    cases alone : older.alone c with
    | none =>
      intro s₃ t₃ h₃
      have closed := h₃.closing (some older)
      rw [Option.bind_some, alone] at closed
      exact .inl ⟨_, _, _, _, rfl, rfl, rfl, closed⟩
    | some own =>
      refine Tracks.same (.update fun s₃ t₃ h₃ => ?_) fun _ => .pure rfl
      have closed := h₃.closing (some older)
      rw [Option.bind_some, alone] at closed
      exact closed

theorem closeScope {name : String} {guard : Guard} (h : Beside c s t)
    (found : s.guards.find? name = some guard) (own : guard.context = c) :
    Meets (Beside c) Agree (perform build (.closeScope name)) (perform build (.closeScope name))
      s t := by
  have alone := guard.alone_own own
  have there : t.guards.find? name = some _ :=
    (h.guard name).trans ((congrArg (Option.bind · _) found).trans alone)
  refine .andThen (returns_lookUp found) (returns_lookUp there) ?_
  have closed := h.closing (some guard)
  rw [Option.bind_some, alone] at closed
  exact .inl ⟨_, _, _, _, rfl, rfl, rfl, closed.eraseGuard name⟩

theorem installStandard :
    Tracks (Beside .global) Eq (Action.installStandard build) (Action.installStandard build) := by
  refine Tracks.same (tracks_pay fun _ _ h cost => h.charge cost) fun config => ?_
  have installs := onStore ((Store.Beside.pairs .global).install config.modulus)
  refine installs.same fun _ => ?_
  refine (onStore (Store.Beside.pairs .global).save).bind fun p q saved => ?_
  obtain ⟨m, rfl, rfl⟩ := saved
  refine Tracks.same (.update fun _ _ h => ?_) fun _ => .pure rfl
  exact h.withStore { h.store with standard := fun _ => rfl }

theorem useStandard :
    Tracks (Beside .global) Agree (perform build .useStandard) (perform build .useStandard) := by
  refine Tracks.same (Tracks.get.bind fun s t h => ?_) fun _ => .pure rfl
  have restores (snapshot : Snapshot) : Tracks (Beside .global) Eq
      (Action.onStore (Store.restore .global snapshot))
      (Action.onStore (Store.restore .global snapshot)) :=
    onStore ((Store.Beside.pairs .global).restore Iff.rfl rfl)
  rw [h.store.standard rfl]
  cases t.store.standard with
  | none => exact installStandard.same restores
  | some snapshot => exact Tracks.same (.pure rfl) restores

/-- An operation on the context is answered among the others as it is alone. -/
theorem meets (h : Beside c s t) (hi : i.concerns s c = true) :
    Meets (Beside c) Agree (perform build i) (perform build i) s t := by
  cases i with
  | newContext name =>
    have latest := of_decide_eq_true hi
    exact .inl ⟨_, _, _, _, rfl, rfl, rfl, h.newContext name latest⟩
  | install lit place => exact h.install (of_decide_eq_true hi)
  | current place | active place =>
    refine h.place (of_decide_eq_true hi) ?_
    have looks := onStore (Store.Beside.pairs c).modulus
    exact Tracks.meets (looks.same fun m => .pure rfl) h
  | hasModulus place =>
    refine h.place (of_decide_eq_true hi) ?_
    refine Tracks.bind Tracks.get (fun s t h => .pure ?_) h
    rw [h.store.active]
    rfl
  | save name place =>
    refine h.place (of_decide_eq_true hi) ?_
    refine Meets.bind (onStore (Store.Beside.pairs c).save h) fun p q saved => ?_
    obtain ⟨m, rfl, rfl⟩ := saved
    exact Tracks.same (.update fun _ _ h => h.save name m) fun _ => .pure rfl
  | restore name place =>
    obtain ⟨hc, own⟩ := Bool.and_eq_true_iff.1 hi
    refine h.restore (of_decide_eq_true hc) fun snapshot found => ?_
    rw [found] at own
    exact of_decide_eq_true own
  | openScope name lit place => exact h.openScope (of_decide_eq_true hi)
  | closeScope name =>
    obtain ⟨guard, found, own⟩ := (Option.any_eq_true _ _).1 hi
    exact h.closeScope found (of_decide_eq_true own)
  | abandonLock place => exact h.place (of_decide_eq_true hi) (Tracks.meets (.pure rfl) h)
  | threads moduli place =>
    have read : Tracks (Beside c) Eq (literals build moduli) (literals build moduli) :=
      tracks_literals (fun _ _ h cost => h.charge cost) moduli
    refine reads read (calm_literals moduli) h (of_decide_eq_true hi) fun l s₁ t₁ h₁ hc₁ =>
      h₁.place hc₁ ?_
    obtain ⟨seen, after⟩ := (Store.Beside.pairs c).peekEach l h₁.store
    exact .inl ⟨_, _, _, _, rfl, rfl, congrArg Value.seen seen, h₁.withStore after⟩
  | useStandard =>
    obtain rfl : c = .global := of_decide_eq_true hi
    exact useStandard h
  | installConfig lit =>
    obtain rfl : c = .global := of_decide_eq_true hi
    have installs (v : Int) := onStore ((Store.Beside.pairs .global).install v)
    exact Tracks.meets ((literal lit).same fun v => (installs v).same fun _ => .pure rfl) h
  | installDocument text =>
    obtain rfl : c = .global := of_decide_eq_true hi
    have installs (v : Int) := onStore ((Store.Beside.pairs .global).install v)
    refine Tracks.same (tracks_pay fun _ _ h cost => h.charge cost) (fun config => ?_) h
    exact (installs config.modulus).same fun _ => .pure rfl
  | make | random | unary | binary | fold | same | display | check | write | fill =>
    obtain rfl : c = .global := of_decide_eq_true hi
    exact exposes.perform rfl (fun _ _ => trivial) h
  | counts | reset => cases hi

/-! ## Operations on other contexts -/

/-- A name that stands for no guard of `c` stands for none at all alone. -/
theorem guard_free (h : Beside c s t) {name : String}
    (foreign : ((s.guards.find? name).any fun guard => guard.context = c) = false) :
    (s.guards.find? name).bind (Guard.alone c) = none ∧ t.guards.find? name = none := by
  have free : (s.guards.find? name).bind (Guard.alone c) = none := by
    cases found : s.guards.find? name with
    | none => rfl
    | some guard =>
      rw [found] at foreign
      exact guard.alone_foreign (of_decide_eq_false foreign)
  exact ⟨free, (h.guard name).trans free⟩

theorem foreign_of_place {place : Place} (hc : s.contextAt? place = some e)
    (other : decide (s.contextAt? place = some c) = false) : e ≠ c := by
  rintro rfl
  exact of_decide_eq_false other hc

/-- Operations on other contexts do not show. -/
theorem left (h : Beside c s t) (effect : Effect build s i w u) (other : i.concerns s c = false)
    (held : i.releases s c = none) : Beside c u t := by
  cases effect with
  | newContext => exact h.newElsewhere _ (of_decide_eq_false other)
  | install _ hc _ => exact h.elsewhere (foreign_of_place hc other) _
  | save hc _ => exact h.saveElsewhere (foreign_of_place hc other) _ _
  | @restore name place snapshot e hs hc own =>
    refine h.elsewhere ?_ snapshot.modulus
    rintro rfl
    rw [Instruction.concerns, hs] at other
    simp [hc, own] at other
  | @openScope name _ _ _ e m _ hc _ =>
    have foreign : e ≠ c := foreign_of_place hc other
    have none : ((s.guards.find? name).any fun guard => guard.context = c) = false := by
      rw [Instruction.releases] at held
      split at held
      · cases held
      · next none => exact Bool.eq_false_iff.2 none
    obtain ⟨nothing, free⟩ := h.guard_free none
    have opened := (h.elsewhere foreign m).bindForeign (s.capture e) foreign free
    have closed := opened.closing (s.guards.find? name)
    rw [nothing] at closed
    exact closed
  | @closeScope name guard hg =>
    obtain ⟨nothing, free⟩ := h.guard_free other
    rw [hg] at nothing
    have closed := h.closing (some guard)
    rw [nothing] at closed
    have erased := closed.eraseForeign free
    rw [guards_closing] at erased
    exact erased
  | @useStandard _ m _ _ _ =>
    have loc : c ≠ .global := of_decide_eq_false other
    have switched := h.elsewhere (Ne.symm loc) m
    refine { switched with store := ?_ }
    exact { switched.store with standard := fun here => absurd here loc }
  | useStandardAgain | installConfig | installDocument =>
    have loc : c ≠ .global := of_decide_eq_false other
    exact h.elsewhere (Ne.symm loc) _
  | make | random | unary | binary | sum | product =>
    have loc : c ≠ .global := of_decide_eq_false other
    exact h.namingElsewhere loc _ _
  | look => exact h

/-- Dropping the older guard of `c` is all that shows of a scope that is opened elsewhere under its
name. -/
theorem released (h : Beside c s t) (effect : Effect build s i w u)
    (other : i.concerns s c = false) (held : i.releases s c = some j) :
    w = .done ∧ ∃ v, Returns (perform build j) t .done v ∧ Beside c u v := by
  cases i with
  | openScope name lit place =>
    cases effect with
    | @openScope _ _ _ _ e m _ hc _ =>
      have foreign : e ≠ c := foreign_of_place hc other
      rw [Instruction.releases] at held
      split at held
      · next own =>
        cases held
        obtain ⟨guard, found, own⟩ := (Option.any_eq_true _ _).1 own
        have alone := guard.alone_own (of_decide_eq_true own)
        have there : t.guards.find? name = some _ :=
          (h.guard name).trans ((congrArg (Option.bind · _) found).trans alone)
        have closed := (h.elsewhere foreign m).closing (some guard)
        rw [Option.bind_some, alone] at closed
        refine ⟨rfl, _, (returns_lookUp there).andThen rfl, ?_⟩
        rw [found]
        have renamed := closed.eraseGuard name
        refine renamed.withGuards name ?_ (fun _ other => ?_) fun _ _ => rfl
        · have gone : (t.guards.erase name).find? name = none := if_pos rfl
          have new : (s.guards.bind name (s.capture e)).find? name = some (s.capture e) :=
            if_pos rfl
          show (t.guards.erase name).find? name =
            ((s.guards.bind name (s.capture e)).find? name).bind (Guard.alone c)
          rw [gone, new]
          exact ((s.capture e).alone_foreign foreign).symm
        · exact (if_neg other).trans (if_neg other).symm
      · cases held
    | look hi => cases hi
  | _ => cases held

end Beside

/-! ## Runs -/

theorem told_of_meets {R : Session → Session → Prop}
    (h : Meets R Agree (perform build i) (perform build j) s t) :
    (Visit.reply build ⟨s, i⟩).told = (Visit.reply build ⟨t, j⟩).told ∧
      R (s.next build i) (t.next build j) := by
  rcases h with ⟨v, s₁, w, t₁, r₁, r₂, agree, after⟩ | ⟨e, s₁, t₁, r₁, r₂, after⟩
  · obtain ⟨left, rfl⟩ := reply_of_returns r₁
    obtain ⟨right, rfl⟩ := reply_of_returns r₂
    rw [Reply.told, Reply.told, left, right]
    exact ⟨congrArg Except.ok agree, after⟩
  · obtain ⟨left, rfl⟩ := reply_of_fails r₁
    obtain ⟨right, rfl⟩ := reply_of_fails r₂
    rw [Reply.told, Reply.told, left, right]
    exact ⟨rfl, after⟩

/-- Every visit keeps the session beside the one that has the context alone. -/
theorem resumes_own (c : ContextId) (v : Visit) :
    Resumes build (Beside c) (Visit.own build c) Reply.told v where
  left t h nothing := by
    rw [Visit.own] at nothing
    split at nothing
    · cases nothing
    · next other =>
      rcases next_cases build v with ⟨-, k⟩ | ⟨done, w, u, effect, k⟩
      · exact h.kept k (.refl t)
      · rw [if_pos done] at nothing
        exact (h.left effect (Bool.eq_false_iff.2 other) nothing).kept k (.refl t)
  taken t j h something := by
    rw [Visit.own] at something
    split at something
    · next mine =>
      cases something
      exact told_of_meets (h.meets mine)
    · next other =>
      split at something
      · next done =>
        obtain ⟨w, returns⟩ := returns_of_succeeds done
        obtain ⟨u, effect, k⟩ := effect_of_returns returns
        obtain ⟨rfl, t₁, dropped, after⟩ := h.released effect (Bool.eq_false_iff.2 other) something
        obtain ⟨right, rfl⟩ := reply_of_returns dropped
        have left := (reply_of_returns returns).1
        have same : (v.reply build).told = (Visit.reply build ⟨t, j⟩).told := by
          rw [Reply.told, Reply.told, right]
          exact congrArg (Except.map Value.visible) left
        exact ⟨same, after.kept k (.refl _)⟩
      · cases something

/-- Wherever a run has got to, there is a session that has the context alone. -/
theorem Path.beside {l : List Visit} (p : Path build .initial l s) (c : ContextId) :
    ∃ t, Beside c s t := ⟨_, (p.resume (Beside.initial c) fun v _ => resumes_own c v).2⟩

/-- The operations on a context are answered as they are without the operations on all the others. A
snapshot of another context is always refused, and refusing it changes nothing. An operation on a
local context never changes what an operation on residues answers next. -/
theorem contexts_do_not_interfere (build : Build) (c : ContextId) (steps : List Step) :
    let found := visits build .initial steps
    (found.filter fun v => (v.own build c).isSome).map (fun v => (v.reply build).told) =
        (replies build (resume (Visit.own build c) found)).map Reply.told ∧
      (∀ v ∈ found, ∀ name place snapshot, v.instruction = .restore name place →
        v.before.contextAt? place = some c → v.before.snapshots.find? name = some snapshot →
        snapshot.context ≠ c →
        (v.reply build).answer = .error (refusal .foreignSnapshot) ∧
          Kept v.before (v.before.next build v.instruction)) ∧
      ∀ v ∈ found, v.own build .global = none → ∀ i, i.onResidues = true →
        (Visit.reply build ⟨v.before.next build v.instruction, i⟩).told =
          (Visit.reply build ⟨v.before, i⟩).told := by
  intro found
  have p := run_path build .initial steps
  refine ⟨(p.resume (Beside.initial c) fun v _ => resumes_own c v).1, ?_, ?_⟩
  · intro v _ name place snapshot restores here named foreign
    obtain ⟨s, i⟩ := v
    obtain rfl : i = .restore name place := restores
    obtain ⟨t, refused, k⟩ := @fails_restore build _ _ _ _ _ named here foreign
    obtain ⟨answer, rfl⟩ := reply_of_fails refused
    exact ⟨answer, k⟩
  · intro v visited nothing i residues
    obtain ⟨earlier, leads⟩ := p.before visited
    obtain ⟨t, before⟩ := leads.beside .global
    have after := (resumes_own .global v).left t before nothing
    have answered {s : Session} (h : Beside .global s t) :
        (Visit.reply build ⟨s, i⟩).told = (Visit.reply build ⟨t, i⟩).told :=
      (told_of_meets (Beside.exposes.perform residues (fun _ _ => trivial) h)).1
    exact (answered after).trans (answered before).symm

/-- The scope on the global context is closed when a scope on `k` takes its name, and the snapshot of
`k` is refused. Alone, the global context is told the same, by a run that knows nothing of `k`. -/
theorem contexts_do_not_interfere_name_taken :
    let steps : List Step := [.single (.newContext "k"), .single (.install "11" none),
      .single (.install "5" (some "k")), .single (.save "p" (some "k")),
      .single (.openScope "g" "7" none), .single (.openScope "g" "3" (some "k")),
      .single (.restore "p" none), .single (.make (.int64 20) (some "a"))]
    let alone : List Step := [.single (.install "11" none), .single (.openScope "g" "7" none),
      .single (.closeScope "g"), .single (.make (.int64 20) (some "a"))]
    let found := visits .plain .initial steps
    (found.filter fun v => (v.own .plain .global).isSome).map (fun v => (v.reply .plain).told) =
        (replies .plain alone).map Reply.told ∧
      ∃ v ∈ found, v.instruction = .restore "p" none ∧
        (v.reply .plain).answer = .error (refusal .foreignSnapshot) := by
  intro steps alone found
  obtain ⟨told, refused, -⟩ := contexts_do_not_interfere .plain .global steps
  refine ⟨told, ?_⟩
  obtain ⟨v, seventh⟩ : ∃ v, found[6]? = some v := ⟨_, rfl⟩
  have visited : v ∈ found := List.mem_of_getElem? seventh
  cases seventh
  refine ⟨_, visited, rfl, ?_⟩
  exact (refused _ visited "p" none ⟨⟨1⟩, ⟨5, 1, by decide⟩⟩ rfl rfl rfl (by decide)).1

end Session

end AmbientResidue
