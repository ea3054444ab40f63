import AmbientResidue.Proofs.Context.Journal
import AmbientResidue.Proofs.Session.Standard

/-! # What the journal of a run tells

`Instruction.requests` lists the calls on contexts that an instruction makes. It makes these and no
others: the contexts and the journal end up as these calls leave them. So the replies of a run show
what its calls have written, and what a call has written is true of that call. -/

namespace AmbientResidue

open Store (Request SameView)

/-- The integer that a literal denotes, if any. -/
def denoted? (lit : String) : Option Int := (Integer.ofLiteral lit).run.value.toOption

/-- The calls on contexts that an instruction makes. One that fails before it has got to its calls
makes none. -/
def Instruction.requests (i : Instruction) (s : Session) : List Request :=
  match i with
  | .install lit place =>
    (denoted? lit).elim [] fun v => (s.contextAt? place).elim [] fun c => [.install c v]
  | .save _ place => (s.contextAt? place).elim [] fun c => [.save c]
  | .restore name place =>
    (s.snapshots.find? name).elim [] fun p => (s.contextAt? place).elim [] fun c => [.restore c p]
  -- A guard that loses its name to the new one is dropped, unless the new one is refused.
  | .openScope name lit place =>
    (denoted? lit).elim [] fun v => (s.contextAt? place).elim [] fun c => .openScope c v ::
      if 0 < v then (s.guards.find? name).elim [] fun older => [.closeScope older] else []
  | .closeScope name => (s.guards.find? name).elim [] fun guard => [.closeScope guard]
  | .threads moduli place =>
    (moduli.mapM denoted?).elim [] fun l => (s.contextAt? place).elim [] fun c =>
      l.flatMap (Request.look c (s.store.active c))
  | .useStandard =>
    match s.store.standard with
    | none => [.install .global Modulus.standard.value, .save .global, .restore .global .standard]
    | some p => [.restore .global p]
  | .installConfig lit => (denoted? lit).elim [] fun v => [.install .global v]
  | .installDocument text =>
    (Config.ofText text).run.value.toOption.elim [] fun c => [.install .global c.modulus]
  | _ => []

namespace Action

variable {α β ε : Type} {build : Build} {s t : Session} {l k : List Request}

/-- The action leaves the contexts and the journal as the requests leave them. -/
def Makes (x : Action α) (s : Session) (l : List Request) : Prop :=
  SameView (s.store.afterAll l) (x.after s).store

/-- The action makes no requests. -/
def Quiet (x : Action α) : Prop := ∀ s, Makes x s []

/-- The action answers with what is there, or fails because nothing is. -/
structure Reads (x : Action α) (s : Session) (found : Option α) : Prop where
  returned : ∀ a t, Returns x s a t → found = some a
  failed : ∀ e t, Fails x s e t → found = none
  tallied : ∃ tally, x.after s = { s with tally }

theorem charge_eq (s : Session) (build : Build) (cost : Tally) :
    s.charge build cost = { s with tally := (s.charge build cost).tally } := by
  unfold Session.charge
  split <;> rfl

/-! ## Sequences -/

theorem after_bind {x : Action α} {f : α → Action β} {a : α} (h : Returns x s a t) :
    (x >>= f).after s = (f a).after t := by
  rw [Returns] at h
  simp only [after, EStateM.run_bind, h]

theorem Makes.bind {x : Action α} {f : α → Action β} (first : Makes x s l)
    (returned : ∀ a t, Returns x s a t → Makes (f a) t k)
    (failed : ∀ e t, Fails x s e t → k = []) : Makes (x >>= f) s (l ++ k) := by
  rcases returns_or_fails x s with ⟨a, h⟩ | ⟨e, h⟩
  · have rest := returned a _ h
    rw [Makes, after_bind h, Store.afterAll_append]
    exact (first.afterAll k).trans rest
  · rw [failed e _ h, List.append_nil, Makes, after_fails h.first]
    exact first

theorem Makes.cons {x : Action α} {f : α → Action β} {r : Request} (first : Makes x s [r])
    (returned : ∀ a t, Returns x s a t → Makes (f a) t k)
    (failed : ∀ e t, Fails x s e t → k = []) : Makes (x >>= f) s (r :: k) :=
  first.bind returned failed

theorem Quiet.first {x : Action α} {f : α → Action β} (first : Quiet x) (sure : Sure x)
    (returned : ∀ a t, Returns x s a t → Makes (f a) t k) : Makes (x >>= f) s k :=
  (first s).bind returned fun _ _ failed => sure.elim failed

theorem Makes.andQuiet {x : Action α} {f : α → Action β} (first : Makes x s l)
    (rest : ∀ a, Quiet (f a)) : Makes (x >>= f) s l := by
  rw [← List.append_nil l]
  exact first.bind (fun a t _ => rest a t) fun _ _ _ => rfl

theorem Quiet.bind {x : Action α} {f : α → Action β} (first : Quiet x) (rest : ∀ a, Quiet (f a)) :
    Quiet (x >>= f) := fun s => (first s).andQuiet rest

theorem Reads.quiet {x : Action α} {found : Option α} (h : Reads x s found) : Makes x s [] := by
  obtain ⟨tally, after⟩ := h.tallied
  rw [Makes, after]
  exact .refl _

/-- What comes after a reading sees the session with its tally changed. -/
theorem Reads.bind {x : Action α} {f : α → Action β} {found : Option α} {k : α → List Request}
    (h : Reads x s found)
    (rest : ∀ a tally, Makes (f a) { s with tally } (k a)) : Makes (x >>= f) s (found.elim [] k) := by
  refine h.quiet.bind (fun a t returned => ?_) fun e t failed => ?_
  · obtain ⟨tally, after⟩ := h.tallied
    obtain rfl := h.returned a t returned
    rw [← after_returns returned, after]
    exact rest a tally
  · obtain rfl := h.failed e t failed
    rfl

/-! ## Readings -/

theorem reads_pay {blame : ε → Failure} (x : ExceptT ε Counted α) (s : Session) :
    Reads (pay build blame x) s x.run.value.toOption where
  returned a t h := by rw [(pay_returns h).1]; rfl
  failed e t h := by
    obtain ⟨d, value, -, -⟩ := pay_fails h
    rw [value]
    rfl
  tallied := by
    cases value : x.run.value with
    | ok a => exact ⟨_, (after_returns (returns_pay value s)).trans (charge_eq s build _)⟩
    | error d => exact ⟨_, (after_fails (fails_pay value s)).trans (charge_eq s build _)⟩

theorem reads_literal (lit : String) (s : Session) :
    Reads (literal build lit) s (denoted? lit) := reads_pay _ s

theorem reads_lookUp (names : Session → Names α) (name : String) (s : Session) :
    Reads (lookUp names name) s ((names s).find? name) where
  returned a t h := (lookUp_returns h).1
  failed e t h := (lookUp_missing h).1
  tallied := by
    rcases returns_or_fails (lookUp names name) s with ⟨a, h⟩ | ⟨e, h⟩
    · exact ⟨s.tally, (lookUp_returns h).2⟩
    · exact ⟨s.tally, lookUp_fails h⟩

theorem reads_context (place : Place) (s : Session) :
    Reads (context place) s (s.contextAt? place) := by
  cases place with
  | none =>
    refine ⟨fun a t h => ?_, fun e t h => ?_, s.tally, rfl⟩
    · rw [(Returns.pure h).1]
      rfl
    · exact (Sure.pure _).elim h
  | some name => exact reads_lookUp _ name s

theorem Reads.pure (a : α) (s : Session) : Reads (Pure.pure a) s (some a) where
  returned _ _ h := congrArg some (Returns.pure h).1.symm
  failed _ _ h := (Sure.pure a).elim h
  tallied := ⟨s.tally, rfl⟩

/-- Readings one after another are a reading. -/
theorem Reads.andThen {x : Action α} {f : α → Action β} {found : Option α} {g : α → Option β}
    (h : Reads x s found) (rest : ∀ a tally, Reads (f a) { s with tally } (g a)) :
    Reads (x >>= f) s (found.bind g) := by
  obtain ⟨tally, after⟩ := h.tallied
  have follow (a t) (returned : Returns x s a t) : found = some a ∧ t = { s with tally } :=
    ⟨h.returned a t returned, (after_returns returned).symm.trans after⟩
  refine ⟨fun b u last => ?_, fun e u last => ?_, ?_⟩
  · obtain ⟨a, t, first, last⟩ := Returns.bind last
    obtain ⟨rfl, rfl⟩ := follow a t first
    exact (rest a tally).returned b u last
  · rcases Fails.bind last with first | ⟨a, t, first, last⟩
    · rw [h.failed e u first, Option.bind_none]
    · obtain ⟨rfl, rfl⟩ := follow a t first
      exact (rest a tally).failed e u last
  · rcases returns_or_fails x s with ⟨a, first⟩ | ⟨e, first⟩
    · obtain ⟨tally', last⟩ := (rest a tally).tallied
      rw [after] at first
      exact ⟨tally', (after_bind first).trans last⟩
    · exact ⟨tally, (after_fails first.first).trans ((after_fails first).symm.trans after)⟩

theorem reads_literals (l : List String) (s : Session) :
    Reads (literals build l) s (l.mapM denoted?) := by
  unfold literals
  induction l generalizing s with
  | nil => exact .pure [] s
  | cons lit rest ih =>
    rw [List.mapM_cons, List.mapM_cons]
    exact (reads_literal lit s).andThen fun v _ => (ih _).andThen fun vs _ => .pure _ _

/-! ## Actions that make no requests -/

theorem Reads.alwaysQuiet {x : Action α} {found : Session → Option α}
    (h : ∀ s, Reads x s (found s)) : Quiet x := fun s => (h s).quiet

theorem quiet_pure (a : α) : Quiet (pure a : Action α) := fun s => .refl s.store

theorem quiet_get : Quiet (get : Action Session) := fun s => .refl s.store

theorem quiet_fail (e : Failure) : Quiet (fail e : Action α) := fun s => .refl s.store

theorem quiet_modify {f : Session → Session} (h : ∀ s, SameView s.store (f s).store) :
    Quiet (modify f : Action Unit) := h

theorem quiet_compute {blame : ε → Failure} (f : Ambient → ExceptT ε Counted α) :
    Quiet (compute build blame f) := fun s => (reads_pay (f (s.ambient build)) s).quiet

theorem quiet_element (name : String) : Quiet (element name) :=
  Reads.alwaysQuiet (reads_lookUp _ name)

theorem quiet_context (place : Place) : Quiet (context place) :=
  Reads.alwaysQuiet (reads_context place)

theorem quiet_elements (names : List String) : Quiet (names.mapM element) := by
  induction names with
  | nil => exact quiet_pure []
  | cons name rest ih =>
    rw [List.mapM_cons]
    exact (quiet_element name).bind fun a => ih.bind fun l => quiet_pure _

theorem quiet_modulus (c : ContextId) : Quiet (onStore (Store.modulus c)) := by
  intro s
  have same : ((onStore (Store.modulus c)).after s).store = s.store := by
    rcases returns_or_fails (onStore (Store.modulus c)) s with ⟨m, h⟩ | ⟨e, h⟩
    · obtain ⟨store, seen, after⟩ := onStore_returns h
      rw [after, (Store.modulus_returns seen).2]
    · obtain ⟨r, store, missing, -, after⟩ := onStore_fails h
      rw [after, (Store.modulus_fails missing).2]
  rw [Makes, same]
  exact .refl s.store

theorem quiet_make (source : Source) : Quiet (make build source) := by
  cases source with
  | copy name => exact quiet_element name
  | integer lit =>
    exact (Reads.alwaysQuiet (reads_literal lit)).bind fun v => quiet_compute _
  | frame bs validate compression => exact (quiet_compute _).bind fun p => quiet_pure p.1
  | _ => unfold make; exact quiet_compute _

theorem Quiet.naming {x : Action α} (h : Quiet x) (name : Option String) (element : α → Element)
    (value : α → Value) :
    Quiet (do let a ← x; bindElement name (element a); return value a) := by
  refine h.bind fun a => Quiet.bind ?_ fun _ => quiet_pure _
  cases name with
  | none => exact quiet_pure ()
  | some name => exact quiet_modify fun s => .refl s.store

/-! ## Actions that make requests -/

theorem store_onStore (f : Store.Operation α) (s : Session) :
    ((onStore f).after s).store = (Store.settle (f s.store)).2 := by
  rw [after, run_onStore, EStateM.run]
  cases f s.store <;> rfl

theorem makes_onStore {f : Store.Operation α} {r : Request}
    (same : (Store.settle (f s.store)).2 = r.after s.store) : Makes (onStore f) s [r] := by
  rw [Makes, store_onStore, same]
  exact .refl _

theorem makes_close (guard : Guard) (s : Session) : Makes (close guard) s [.closeScope guard] :=
  .refl _

theorem makes_openScope (name lit : String) (place : Place) (s : Session) :
    Makes (perform build (.openScope name lit place)) s
      ((Instruction.openScope name lit place).requests s) := by
  refine (reads_literal lit s).bind fun v tally => (reads_context place _).bind fun c tally => ?_
  refine (makes_onStore rfl).cons (fun guard t h => ?_) fun e t h => ?_
  · obtain ⟨store, opened, rfl⟩ := onStore_returns h
    obtain ⟨m, made, -, -⟩ := Store.openScope_returns opened
    have positive : 0 < v := (Modulus.ofInt_eq_ok_iff.1 made).1 ▸ m.value_pos
    rw [if_pos positive]
    -- The older guard is looked up before the new one takes its name.
    refine quiet_get.first .get fun now t h => ?_
    obtain ⟨rfl, rfl⟩ := Returns.of_get h
    refine Quiet.first (quiet_modify fun s => .refl s.store) (.modifyGet _) fun _ t h => ?_
    obtain rfl := Returns.of_modify h
    dsimp only
    cases s.guards.find? name with
    | none => exact quiet_pure Value.done _
    | some older => exact (makes_close older _).andQuiet fun _ => quiet_pure Value.done
  · obtain ⟨r, store, refused, -, -⟩ := onStore_fails h
    have negative : ¬ 0 < v :=
      Int.not_lt.2 (Modulus.ofInt_eq_error_iff.1 (Store.openScope_fails refused).1).1
    exact if_neg negative

theorem installStandard_captures {p : Snapshot} (h : Returns (installStandard build) s p t) :
    p = .standard := by
  obtain ⟨config, m, value, made, rfl, -⟩ := installStandard_returns h
  have chosen : Instruction.useStandard.chosen = some m := chosen_config value made
  rw [chosen_useStandard] at chosen
  cases chosen
  rfl

theorem makes_installStandard (build : Build) (s : Session) : Makes (installStandard build) s
    [.install .global Modulus.standard.value, .save .global] := by
  rcases returns_or_fails (installStandard build) s with ⟨p, h⟩ | ⟨e, h⟩
  · obtain ⟨config, s₁, h₁, r₁⟩ := Returns.bind h
    obtain ⟨_, s₂, h₂, r₂⟩ := Returns.bind r₁
    obtain ⟨captured, s₃, h₃, r₃⟩ := Returns.bind r₂
    obtain ⟨_, s₄, h₄, r₄⟩ := Returns.bind r₃
    obtain ⟨-, after⟩ := Returns.pure r₄
    obtain ⟨value, rfl⟩ := pay_returns h₁
    obtain rfl : (⟨Modulus.standard.value⟩ : Config) = config := Except.ok.inj value
    obtain ⟨store₁, installed, rfl⟩ := onStore_returns h₂
    obtain ⟨store₂, saved, rfl⟩ := onStore_returns h₃
    have first : (Request.install .global Modulus.standard.value).after _ = store₁ :=
      Store.settle_returns installed
    have second : (Request.save .global).after store₁ = store₂ := Store.settle_returns saved
    rw [Makes, after, Returns.of_modify h₄, ← second, ← first, charge_eq]
    exact ⟨rfl, rfl⟩
  · exact installStandard_succeeds.elim h

theorem makes_useStandard (build : Build) (s : Session) :
    Makes (useStandard build) s (Instruction.useStandard.requests s) := by
  refine quiet_get.first .get fun now t h => ?_
  obtain ⟨rfl, rfl⟩ := Returns.of_get h
  simp only [Instruction.requests]
  cases t.store.standard with
  | none =>
    refine (makes_installStandard build t).bind (fun p u h => ?_) fun e u h => ?_
    · obtain rfl := installStandard_captures h
      exact makes_onStore rfl
    · exact installStandard_succeeds.elim h
  | some p =>
    refine (quiet_pure p).first (.pure p) fun q u h => ?_
    obtain ⟨rfl, rfl⟩ := Returns.pure h
    exact makes_onStore rfl

/-- An instruction that is none of those makes no requests. -/
theorem quiet_perform {i : Instruction} (idle : i.idle = true) (alone : ∀ l place, i ≠ .threads l place) :
    Quiet (perform build i) := by
  cases i with
  | current place | active place =>
    exact (quiet_context place).bind fun c => (quiet_modulus c).bind fun m => quiet_pure _
  | hasModulus place =>
    exact (quiet_context place).bind fun c => quiet_get.bind fun now => quiet_pure _
  | abandonLock place => exact (quiet_context place).bind fun c => quiet_pure _
  | threads moduli place => exact absurd rfl (alone moduli place)
  | counts => exact quiet_get.bind fun now => quiet_pure _
  | reset scope => exact Quiet.bind (quiet_modify fun s => .refl s.store) fun _ => quiet_pure _
  | make source bind => exact (quiet_make source).naming bind _ _
  | random bs bind => exact (quiet_compute _).naming bind _ _
  | unary op form a bind =>
    exact (quiet_element a).bind fun x => (quiet_compute _).naming _ _ _
  | binary op form a b bind =>
    exact (quiet_element a).bind fun x => (quiet_element b).bind fun y =>
      (quiet_compute _).naming _ _ _
  | fold op operands bind =>
    exact (quiet_elements operands).bind fun l => (quiet_compute _).naming _ _ _
  | same a b =>
    exact (quiet_element a).bind fun x => (quiet_element b).bind fun y => quiet_pure _
  | display a | write a => exact (quiet_element a).bind fun x => quiet_pure _
  | check a =>
    exact (quiet_element a).bind fun x => (quiet_compute _).bind fun _ => quiet_pure _
  | fill a size =>
    refine (quiet_element a).bind fun x => ?_
    split
    · exact quiet_pure _
    · exact quiet_fail _
  | _ => cases idle

/-- An instruction makes its requests and no others. -/
theorem makes_requests (build : Build) (i : Instruction) (s : Session) :
    Makes (perform build i) s (i.requests s) := by
  cases i with
  | newContext name => exact ⟨rfl, rfl⟩
  | install lit place =>
    exact (reads_literal lit s).bind fun v _ => (reads_context place _).bind fun c _ =>
      (makes_onStore rfl).andQuiet fun _ => quiet_pure _
  | save name place =>
    exact (reads_context place s).bind fun c _ => (makes_onStore rfl).andQuiet fun snapshot =>
      Quiet.bind (quiet_modify fun s => .refl s.store) fun _ => quiet_pure _
  | restore name place =>
    exact (reads_lookUp _ name s).bind fun snapshot _ => (reads_context place _).bind fun c _ =>
      (makes_onStore rfl).andQuiet fun _ => quiet_pure _
  | openScope name lit place => exact makes_openScope name lit place s
  | closeScope name =>
    exact (reads_lookUp _ name s).bind fun guard _ => (makes_close guard _).andQuiet fun _ =>
      Quiet.bind (quiet_modify fun s => .refl s.store) fun _ => quiet_pure _
  | threads moduli place =>
    refine (reads_literals moduli s).bind fun l _ => (reads_context place _).bind fun c _ => ?_
    refine Makes.andQuiet ?_ fun seen => quiet_pure _
    rw [Makes, ← Store.peekEach_eq]
    exact .refl _
  | useStandard => exact (makes_useStandard build s).andQuiet fun _ => quiet_pure _
  | installConfig lit =>
    exact (reads_literal lit s).bind fun v _ => (makes_onStore rfl).andQuiet fun _ => quiet_pure _
  | installDocument text =>
    exact (reads_pay _ s).bind fun c _ => (makes_onStore rfl).andQuiet fun _ => quiet_pure _
  | _ => exact quiet_perform rfl (by simp) s

end Action

mutual

/-- The journal entries that a reply shows, those of the steps inside it after its own. -/
def Reply.entries : Reply → List JournalEntry
  | ⟨_, _, _, journal, inner⟩ => journal ++ entriesAll inner

def entriesAll : List Reply → List JournalEntry
  | [] => []
  | r :: rest => r.entries ++ entriesAll rest

end

namespace Session

variable {build : Build} {s t : Session} {l : List Visit}

/-- The calls on contexts that the visits make. -/
def requests (l : List Visit) : List Request := l.flatMap fun v => v.instruction.requests v.before

/-- What the replies of a run from `s` to `t` tell of the calls on contexts that it makes. -/
structure Told (s : Session) (calls : List Request) (replies : List Reply) (t : Session) : Prop where
  /-- The journal grows by what the calls write, each in its turn, and callers are shown all of it. -/
  journal : t.store.journal = s.store.journal ++ s.store.narrative calls
  shown : entriesAll replies = s.store.narrative calls
  active : t.store.active = (s.store.afterAll calls).active
  /-- No modulus becomes active unannounced. -/
  changes : ∀ c, t.store.active c = s.store.active c ∨ ∃ m, t.store.active c = some m ∧
    ∃ e : Event, ⟨c, e⟩ ∈ entriesAll replies ∧ e.announces = some m.bits

theorem Path.requests (p : Path build s l t) :
    SameView (s.store.afterAll (requests l)) t.store := by
  induction p with
  | nil => exact .refl _
  | @cons s i rest t p ih =>
    rw [Session.requests, List.flatMap_cons, Store.afterAll_append]
    exact ((Action.makes_requests build i s).afterAll _).trans ih

/-- A reply shows what the journal has grown by. -/
theorem entries_reply {answer : Except Failure Value} {told : List JournalEntry}
    (grown : t.store.journal = s.store.journal ++ told) : (s.reply t answer).entries = told := by
  simp [reply, Reply.entries, entriesAll, grown]

mutual

theorem step_entries (build : Build) (s : Session) :
    ∀ st, (step build s st).2.store.journal = s.store.journal ++ (step build s st).1.entries
  | .single i => by
    have grown : (s.next build i).store.journal =
        s.store.journal ++ s.store.narrative (i.requests s) :=
      (Action.makes_requests build i s).journal.trans (Store.journal_afterAll _ _)
    simp only [step, next, Action.after] at grown ⊢
    cases h : (Action.perform build i).run s with
    | ok v t | error e t =>
      rw [h] at grown
      dsimp only at grown ⊢
      rw [entries_reply grown, grown]
  | .locked place steps => by
    simp only [step]
    cases h : (Action.context place).run s with
    | ok c entered =>
      obtain ⟨-, rfl⟩ := Action.context_returns h
      have inner := run_entries build entered steps
      simpa [reply, Reply.entries] using inner
    | error e after =>
      obtain rfl := Action.context_fails h
      simp [reply, Reply.entries, entriesAll]

theorem run_entries (build : Build) (s : Session) : ∀ steps,
    (run build s steps).2.store.journal = s.store.journal ++ entriesAll (run build s steps).1
  | [] => (List.append_nil _).symm
  | first :: rest => by
    simp only [run, entriesAll]
    rw [run_entries, step_entries, List.append_assoc]

end

theorem told (build : Build) (s : Session) (steps : List Step) :
    Told s (requests (visits build s steps)) (run build s steps).1 (run build s steps).2 := by
  have view := (run_path build s steps).requests
  have journal := view.journal.trans (Store.journal_afterAll _ _)
  have shown : entriesAll (run build s steps).1 =
      s.store.narrative (requests (visits build s steps)) :=
    List.append_cancel_left ((run_entries build s steps).symm.trans journal)
  refine ⟨journal, shown, view.active, fun c => ?_⟩
  rw [view.active, shown]
  exact Store.changes_afterAll s.store _ c

/-- What a call on a context writes to the journal is true of the call, however it ends. A run
writes what its calls write and nothing else, so that no modulus changes without an entry that gives
its length; and no two entries are printed alike. -/
theorem journal_tells_truth :
    Function.Injective Event.line ∧
    (∀ (s : Store) (r : Request),
      Store.Truthful s r (r.granted s) (r.emitted s) (r.after s).active) ∧
    ∀ build s steps,
      Told s (requests (visits build s steps)) (run build s steps).1 (run build s steps).2 :=
  ⟨Event.line_injective, Store.truthful, told⟩

/-- The scope saves the default modulus before the seven replaces it. Another context rejects what
the global one has saved, and writes that it does. -/
theorem journal_tells_truth_of_rejection :
    let steps : List Step := [.single (.openScope "scope" "7" none),
      .locked none [.single (.save "seven" none), .single (.newContext "other"),
        .single (.restore "seven" (some "other"))]]
    let s := (run .plain .initial [.single .useStandard]).2
    entriesAll (run .plain s steps).1 =
      [⟨.global, .scopeCalled 3⟩, ⟨.global, .saved 128⟩, ⟨.global, .saved 3⟩,
        ⟨⟨1⟩, .restoreCalled⟩, ⟨⟨1⟩, .foreignSnapshot⟩] := by
  intro steps s
  obtain ⟨-, -, told⟩ := journal_tells_truth
  rw [(told .plain s steps).shown]
  decide +kernel

end Session

end AmbientResidue
