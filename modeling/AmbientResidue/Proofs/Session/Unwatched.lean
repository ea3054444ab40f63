import AmbientResidue.Proofs.Element.Unwatched
import AmbientResidue.Proofs.Session.Visits
import AmbientResidue.Proofs.Simulation

/-! # The builds differ in what they watch

A build is compared with the plain one by leaving out of sessions, answers and replies what only that
build has: counts in the counted build, tags in the checked one. Every instruction then does the same
in both, and so does every run, up to the first instruction that a tag stops. -/

namespace AmbientResidue

/-- The failure of an instruction with an operand that was made under another modulus. -/
def Failure.isMismatch : Failure → Bool
  | .fault f => f.isMismatch
  | _ => false

/-- What is only seen where residues are tagged. -/
def Failure.Excused (build : Build) (e : Failure) : Prop := build.tags = true ∧ e.isMismatch = true

/-- The counts, where the build keeps none. -/
def Tally.unwatched (build : Build) (t : Tally) : Tally := if build.counts then 0 else t

/-- The answer without counts and tags. -/
def Value.unwatched (build : Build) : Value → Value
  | .tally t => .tally (t.unwatched build)
  | .shown a => .shown (a.unwatched build)
  | .written a => .written (a.unwatched build)
  | v => v

mutual

/-- The reply without counts and tags. The journal and the modulus stay. -/
def Reply.unwatched (build : Build) : Reply → Reply
  | ⟨answer, modulus, tally, journal, inner⟩ =>
    ⟨answer.map (Value.unwatched build), modulus, tally.unwatched build, journal,
      unwatchedAll build inner⟩

def unwatchedAll (build : Build) : List Reply → List Reply
  | [] => []
  | r :: rest => r.unwatched build :: unwatchedAll build rest

end

/-- The same names for what becomes of the values. -/
def Names.map {α β : Type} (f : α → β) (names : Names α) : Names β :=
  ⟨fun name => (names.find? name).map f⟩

theorem Names.map_bind {α β : Type} (f : α → β) (names : Names α) (name : String) (a : α) :
    (names.bind name a).map f = (names.map f).bind name (f a) := by
  ext1
  funext other
  simp only [map, find?_bind]
  split <;> rfl

theorem Tally.unwatched_reset (build : Build) (t : Tally) (scope : Tally.Scope) :
    (t.reset scope).unwatched build = (t.unwatched build).reset scope := by
  unfold unwatched
  cases build.counts with
  | false => rfl
  | true => cases scope <;> rfl

namespace Session

variable {build : Build}

/-- The session without counts and tags. -/
def unwatched (build : Build) (s : Session) : Session :=
  { s with
    tally := s.tally.unwatched build
    elements := s.elements.map (Element.unwatched build) }

/-- Only the counted build is charged, and its counts are left out. -/
theorem unwatched_charge (s : Session) (build : Build) (cost : Tally) :
    (s.charge build cost).unwatched build = s.unwatched build := by
  unfold charge
  split
  · next counts => simp only [unwatched, Tally.unwatched, counts, if_true]
  · rfl

theorem unwatched_naming (s : Session) (build : Build) (name : Option String) (a : Element) :
    (s.naming name a).unwatched build = (s.unwatched build).naming name (a.unwatched build) := by
  cases name with
  | none => rfl
  | some name => simp only [naming, unwatched, Names.map_bind]

end Session

namespace Action

open Session (unwatched)

variable {α β γ δ ε : Type} {build : Build}

/-- The action does in a build what the other one does in the plain build. -/
abbrev Mirrored (build : Build) (f : α → β) (x : Action α) (y : Action β) : Prop :=
  Mirrors (unwatched build) (Failure.Excused build) f x y

theorem mirrored_pay {blame : ε → Failure} {f : α → β} {x : ExceptT ε Counted α}
    {y : ExceptT ε Counted β}
    (h : Counted.Echoes (fun e => Failure.Excused build (blame e)) f x y) :
    Mirrored build f (pay build blame x) (pay .plain blame y) where
  returns r := by
    obtain ⟨made, rfl⟩ := pay_returns r
    rw [Session.unwatched_charge]
    exact returns_pay (h.yields made) _
  fails r other := by
    obtain ⟨d, refused, rfl, rfl⟩ := pay_fails r
    rw [Session.unwatched_charge]
    exact fails_pay (h.refuses refused other) _

theorem mirrored_compute {blame : ε → Failure} {f : α → β} {x : Ambient → ExceptT ε Counted α}
    {y : Ambient → ExceptT ε Counted β}
    (h : ∀ env, env.build = build →
      Counted.Echoes (fun e => Failure.Excused build (blame e)) f (x env) (y env.unwatched)) :
    Mirrored build f (compute build blame x) (compute .plain blame y) where
  returns {s _ _} r := (mirrored_pay (h (s.ambient build) rfl)).returns r
  fails {s _ _} r := (mirrored_pay (h (s.ambient build) rfl)).fails r

/-- What does not depend on residues is paid for alike. -/
theorem mirrored_shared (blame : ε → Failure) (x : ExceptT ε Counted α) :
    Mirrored build id (pay build blame x) (pay .plain blame x) := mirrored_pay (.refl x)

theorem mirrored_onStore (f : Store.Operation α) : Mirrored build id (onStore f) (onStore f) where
  returns r := by
    obtain ⟨store, done, rfl⟩ := onStore_returns r
    exact returns_onStore (s := unwatched build _) done
  fails r _ := by
    obtain ⟨e, store, refused, rfl, rfl⟩ := onStore_fails r
    exact fails_onStore (s := unwatched build _) refused

theorem mirrored_lookUp {names : Session → Names α} {name : String}
    (same : ∀ s, names (unwatched build s) = names s) :
    Mirrored build id (lookUp names name) (lookUp names name) where
  returns r := by
    obtain ⟨found, rfl⟩ := lookUp_returns r
    exact returns_lookUp ((same _).symm ▸ found)
  fails r _ := by
    obtain ⟨missing, rfl, rfl⟩ := lookUp_missing r
    exact fails_lookUp ((same _).symm ▸ missing)

theorem mirrored_context (place : Place) : Mirrored build id (context place) (context place) := by
  cases place with
  | none => exact .pure rfl
  | some name => exact mirrored_lookUp fun _ => rfl

theorem mirrored_element (name : String) :
    Mirrored build (Element.unwatched build) (element name) (element name) where
  returns {s a t} r := by
    obtain ⟨found, rfl⟩ := lookUp_returns r
    have known : (unwatched build t).elements.find? name = some (a.unwatched build) := by
      simp only [unwatched, Names.map, found, Option.map_some]
    exact returns_lookUp known
  fails {s e t} r _ := by
    obtain ⟨missing, rfl, rfl⟩ := lookUp_missing r
    have unknown : (unwatched build t).elements.find? name = none := by
      simp only [unwatched, Names.map, missing, Option.map_none]
    exact fails_lookUp unknown

theorem mirrored_elements (names : List String) :
    Mirrored build (List.map (Element.unwatched build)) (names.mapM element)
      (names.mapM element) := by
  induction names with
  | nil => exact .pure rfl
  | cons name rest ih =>
    rw [List.mapM_cons]
    exact (mirrored_element name).bind fun a => ih.bind fun l => .pure rfl

theorem mirrored_literals (l : List String) :
    Mirrored build id (literals build l) (literals .plain l) := by
  unfold literals
  induction l with
  | nil => exact .pure rfl
  | cons lit rest ih =>
    rw [List.mapM_cons, List.mapM_cons]
    exact (mirrored_shared _ _).bind fun v => ih.bind fun vs => .pure rfl

theorem mirrored_bindElement (name : Option String) (a : Element) :
    Mirrored build id (bindElement name a) (bindElement name (a.unwatched build)) := by
  cases name with
  | none => exact .pure rfl
  | some name => exact .update fun s => s.unwatched_naming build (some name) a

/-- Computing a residue and giving it a name. -/
theorem mirrored_naming {x : Action α} {y : Action β} {f : α → β} (h : Mirrored build f x y)
    (name : Option String) {element : α → Element} {value : α → Value} {element' : β → Element}
    {value' : β → Value} (residue : ∀ a, element' (f a) = (element a).unwatched build)
    (answer : ∀ a, value' (f a) = (value a).unwatched build) :
    Mirrored build (Value.unwatched build)
      (do let a ← x; bindElement name (element a); return value a)
      (do let b ← y; bindElement name (element' b); return value' b) := by
  refine h.bind fun a => ?_
  rw [residue]
  exact (mirrored_bindElement name (element a)).bind fun _ => .pure (answer a)

/-! ## Instructions -/

theorem mirrored_installConfig (c : Config) :
    Mirrored build id (installConfig c) (installConfig c) := mirrored_onStore _

theorem mirrored_useStandard : Mirrored build id (useStandard build) (useStandard .plain) := by
  refine Mirrors.get.bind fun s => ?_
  show Mirrored build id (s.store.standard.elim (installStandard build) pure >>= _)
    (s.store.standard.elim (installStandard .plain) pure >>= _)
  have captured : Mirrored build id (s.store.standard.elim (installStandard build) pure)
      (s.store.standard.elim (installStandard .plain) pure) := by
    cases s.store.standard with
    | some snapshot => exact .pure rfl
    | none =>
      exact (mirrored_shared _ _).bind fun c => (mirrored_installConfig c).bind fun _ =>
        (mirrored_onStore _).bind fun snapshot =>
          Mirrors.bind (f := id) (.update fun _ => rfl) fun _ => .pure rfl
  exact captured.bind fun snapshot => mirrored_onStore _

theorem mirrored_make (source : Source) :
    Mirrored build (Element.unwatched build) (make build source) (make .plain source) := by
  cases source with
  | copy a => exact mirrored_element a
  | integer lit =>
    refine (mirrored_shared _ _).bind fun v => mirrored_compute fun env h => ?_
    exact h ▸ Element.echoes_ofInt v
  | frame bs validate compression =>
    have reads : Mirrored build (Prod.map (Element.unwatched build) id)
        (compute build .frame fun env => Element.ofFrame env compression validate bs)
        (compute .plain .frame fun env => Element.ofFrame env compression validate bs) :=
      mirrored_compute fun env h => h ▸ Element.echoes_ofFrame compression validate bs
    exact reads.bind fun read => .pure rfl
  | zero =>
    unfold make
    exact mirrored_compute fun env h => h ▸ Element.echoes_zero
  | one =>
    unfold make
    exact mirrored_compute fun env h => h ▸ Element.echoes_ofInt64 1
  | zeroOrPanic =>
    unfold make
    exact mirrored_compute fun env h => h ▸ Element.echoes_makeOrPanic Element.echoes_zero
  | oneOrPanic =>
    unfold make
    exact mirrored_compute fun env h => h ▸ Element.echoes_makeOrPanic (Element.echoes_ofInt64 1)
  | int64 v =>
    unfold make
    exact mirrored_compute fun env h => h ▸ Element.echoes_ofInt64 v
  | literal lit =>
    unfold make
    exact mirrored_compute fun env h => h ▸ Element.echoes_ofLiteral lit
  | bytes bs | buffer bs =>
    unfold make
    exact mirrored_compute fun env h => h ▸ Element.echoes_ofBytes bs
  | json text =>
    unfold make
    exact mirrored_compute fun env h => h ▸ Element.echoes_ofJson text
  | messagePack bs =>
    unfold make
    exact mirrored_compute fun env h => h ▸ Element.echoes_ofMessagePack bs

theorem mirrored_unary (op : Element.Unary) (form : Form) (a : Element) :
    Mirrored build (Element.unwatched build)
      (compute build .fault fun env =>
        if form = .method then op.method env a else op.operator env a)
      (compute .plain .fault fun env =>
        if form = .method then op.method env (a.unwatched build)
        else op.operator env (a.unwatched build)) := by
  refine mirrored_compute fun env h => ?_
  subst h
  split
  · exact Element.echoes_unaryMethod op a
  · exact Element.echoes_orPanic (Element.echoes_unaryMethod op a)

theorem mirrored_binary (op : Element.Binary) (form : Form) (a b : Element) :
    Mirrored build (Element.unwatched build)
      (compute build .fault fun env =>
        if form = .method then op.method env a b else op.operator env a b)
      (compute .plain .fault fun env =>
        if form = .method then op.method env (a.unwatched build) (b.unwatched build)
        else op.operator env (a.unwatched build) (b.unwatched build)) := by
  refine mirrored_compute fun env h => ?_
  subst h
  split
  · exact Element.echoes_binaryMethod op a b
  · exact Element.echoes_orPanic (Element.echoes_binaryMethod op a b)

/-- Every instruction does in a build what it does in the plain one. -/
theorem mirrored_perform (i : Instruction) :
    Mirrored build (Value.unwatched build) (perform build i) (perform .plain i) := by
  cases i with
  | newContext name => exact Mirrors.bind (f := id) (.update fun _ => rfl) fun _ => .pure rfl
  | install lit place =>
    exact (mirrored_shared _ _).bind fun v => (mirrored_context place).bind fun c =>
      (mirrored_onStore _).bind fun _ => .pure rfl
  | current place | active place =>
    exact (mirrored_context place).bind fun c => (mirrored_onStore _).bind fun m => .pure rfl
  | hasModulus place =>
    exact (mirrored_context place).bind fun c => Mirrors.get.bind fun s => .pure rfl
  | save name place =>
    exact (mirrored_context place).bind fun c => (mirrored_onStore _).bind fun snapshot =>
      Mirrors.bind (f := id) (.update fun _ => rfl) fun _ => .pure rfl
  | restore name place =>
    exact (mirrored_lookUp fun _ => rfl).bind fun snapshot => (mirrored_context place).bind fun c =>
      (mirrored_onStore _).bind fun _ => .pure rfl
  | openScope name lit place =>
    refine (mirrored_shared _ _).bind fun v => (mirrored_context place).bind fun c =>
      (mirrored_onStore _).bind fun guard => Mirrors.get.bind fun s =>
        Mirrors.bind (f := id) (.update fun _ => rfl) fun _ => ?_
    have same : (s.unwatched build).guards = s.guards := rfl
    rw [same]
    cases s.guards.find? name with
    | some older => exact Mirrors.bind (f := id) (.update fun _ => rfl) fun _ => .pure rfl
    | none => exact .pure rfl
  | closeScope name =>
    exact (mirrored_lookUp fun _ => rfl).bind fun guard =>
      Mirrors.bind (f := id) (.update fun _ => rfl) fun _ =>
        Mirrors.bind (f := id) (.update fun _ => rfl) fun _ => .pure rfl
  | abandonLock place => exact (mirrored_context place).bind fun c => .pure rfl
  | threads moduli place =>
    exact (mirrored_literals moduli).bind fun l => (mirrored_context place).bind fun c =>
      Mirrors.bind (f := id) (.modifyGet fun _ => rfl) fun seen => .pure rfl
  | useStandard => exact mirrored_useStandard.bind fun _ => .pure rfl
  | installConfig lit =>
    exact (mirrored_shared _ _).bind fun v => (mirrored_installConfig _).bind fun _ => .pure rfl
  | installDocument text =>
    exact (mirrored_shared _ _).bind fun c => (mirrored_installConfig c).bind fun _ => .pure rfl
  | counts => exact Mirrors.get.bind fun s => .pure rfl
  | reset scope =>
    refine Mirrors.bind (f := id) (.update fun s => ?_) fun _ => .pure rfl
    simp only [unwatched, Tally.unwatched_reset]
  | make source bind =>
    exact mirrored_naming (mirrored_make source) bind (fun _ => rfl) fun _ => rfl
  | random bs bind =>
    have draws : Mirrored build (Element.Drawn.unwatched build)
        (compute build refusal fun env => Element.random env bs)
        (compute .plain refusal fun env => Element.random env bs) :=
      mirrored_compute fun env h => h ▸ Element.echoes_random bs
    exact mirrored_naming draws bind (fun _ => rfl) fun _ => rfl
  | unary op form a bind =>
    exact (mirrored_element a).bind fun x =>
      mirrored_naming (mirrored_unary op form x) _ (fun _ => rfl) fun _ => rfl
  | binary op form a b bind =>
    exact (mirrored_element a).bind fun x => (mirrored_element b).bind fun y =>
      mirrored_naming (mirrored_binary op form x y) _ (fun _ => rfl) fun _ => rfl
  | fold op names bind =>
    refine (mirrored_elements names).bind fun l =>
      mirrored_naming (f := Element.unwatched build) ?_ bind (fun _ => rfl) fun _ => rfl
    cases op with
    | sum => exact mirrored_compute fun env h => h ▸ Element.echoes_sum l
    | product => exact mirrored_compute fun env h => h ▸ Element.echoes_product l
  | same a b =>
    exact (mirrored_element a).bind fun x => (mirrored_element b).bind fun y => .pure rfl
  | display a | write a => exact (mirrored_element a).bind fun x => .pure rfl
  | check a =>
    refine (mirrored_element a).bind fun x => Mirrors.bind (f := id) ?_ fun _ => .pure rfl
    exact mirrored_compute fun env _ => .refl (Counted.free (x.check env))
  | fill a size =>
    refine (mirrored_element a).bind fun x => ?_
    have same : (x.unwatched build).frame .compressed = x.frame .compressed := rfl
    rw [same]
    cases Frame.fill? size (x.frame .compressed) with
    | some buffer => exact .pure rfl
    | none => exact .fail (.frame .short) (fun _ => rfl) fun _ => rfl

end Action

/-! ## Runs -/

namespace Session

variable {build : Build} {s : Session}

/-- Whether an operand that was made under another modulus stops the caller. -/
def Visit.mismatches (build : Build) (v : Visit) : Bool :=
  match (Action.perform build v.instruction).run v.before with
  | .ok _ _ => false
  | .error e _ => e.isMismatch

/-- The same instruction, found by the session without counts and tags. -/
def Visit.unwatched (build : Build) (v : Visit) : Visit := ⟨v.before.unwatched build, v.instruction⟩

/-- A tag stops the visit. -/
def Visit.Stopped (build : Build) (v : Visit) : Prop :=
  build.tags = true ∧ v.mismatches build = true

theorem unwatched_reply (build : Build) (before after : Session) (answer : Except Failure Value) :
    (before.reply after answer).unwatched build =
      (before.unwatched build).reply (after.unwatched build)
        (answer.map (Value.unwatched build)) := by
  simp only [Session.reply, Reply.unwatched, unwatchedAll]
  rfl

theorem single_unwatched {v : Visit} (go : ¬ v.Stopped build) :
    (v.reply build).unwatched build = (v.unwatched build).reply .plain ∧
      (v.before.next build v.instruction).unwatched build =
        (v.before.unwatched build).next .plain v.instruction := by
  have mirrored := @Action.mirrored_perform build v.instruction
  rcases Action.returns_or_fails (Action.perform build v.instruction) v.before with
    ⟨w, r⟩ | ⟨e, r⟩
  · have image := mirrored.returns r
    refine ⟨?_, (Action.after_returns image).symm⟩
    rw [Returns] at r image
    simp only [Visit.reply, Visit.unwatched, step, r, image, unwatched_reply]
    rfl
  · have excused : ¬ Failure.Excused build e := by
      rintro ⟨tags, mismatch⟩
      refine go ⟨tags, ?_⟩
      rw [Fails] at r
      simp only [Visit.mismatches, r, mismatch]
    have image := mirrored.fails r excused
    refine ⟨?_, (Action.after_fails image).symm⟩
    rw [Fails] at r image
    simp only [Visit.reply, Visit.unwatched, step, r, image, unwatched_reply]
    rfl

mutual

theorem step_unwatched (build : Build) (s : Session) :
    ∀ st, Abreast (Visit.Stopped build) (Visit.unwatched build) (visitsOf build s st)
        (visitsOf .plain (s.unwatched build) st) ∧
      ((∀ v ∈ visitsOf build s st, ¬ v.Stopped build) →
        (step build s st).1.unwatched build = (step .plain (s.unwatched build) st).1 ∧
          (step build s st).2.unwatched build = (step .plain (s.unwatched build) st).2)
  | .single i => by
    constructor
    · by_cases stopped : Visit.Stopped build ⟨s, i⟩
      · exact .stop stopped
      · exact .cons stopped .nil
    · intro go
      obtain ⟨reply, after⟩ := single_unwatched (go ⟨s, i⟩ List.mem_cons_self)
      refine ⟨reply, ?_⟩
      rw [step_single, step_single]
      exact after
  | .locked place steps => by
    have mirrored := @Action.mirrored_context build place
    simp only [visitsOf, step]
    cases h : (Action.context place).run s with
    | ok c entered =>
      have image : (Action.context place).run (s.unwatched build) = .ok c (entered.unwatched build) :=
        mirrored.returns h
      obtain ⟨together, whole⟩ := run_unwatched build entered steps
      rw [image]
      refine ⟨together, fun go => ?_⟩
      obtain ⟨inner, after⟩ := whole go
      refine ⟨?_, after⟩
      simp only [Session.reply, Reply.unwatched, inner, ← after]
      rfl
    | error e after =>
      have image : (Action.context place).run (s.unwatched build) = .error e (after.unwatched build) := by
        refine mirrored.fails h fun excused => ?_
        cases place with
        | none => cases h
        | some name =>
          obtain ⟨-, rfl, -⟩ := Action.lookUp_missing h
          cases excused.2
      rw [image]
      exact ⟨.nil, fun _ => ⟨unwatched_reply build s after (.error e), rfl⟩⟩

/-- A run goes as the plain one until a tag stops an instruction; if none does, to its end. -/
theorem run_unwatched (build : Build) (s : Session) :
    ∀ steps, Abreast (Visit.Stopped build) (Visit.unwatched build) (visits build s steps)
        (visits .plain (s.unwatched build) steps) ∧
      ((∀ v ∈ visits build s steps, ¬ v.Stopped build) →
        unwatchedAll build (run build s steps).1 = (run .plain (s.unwatched build) steps).1 ∧
          (run build s steps).2.unwatched build = (run .plain (s.unwatched build) steps).2)
  | [] => ⟨.nil, fun _ => ⟨rfl, rfl⟩⟩
  | first :: rest => by
    obtain ⟨together, whole⟩ := step_unwatched build s first
    obtain ⟨onward, complete⟩ := run_unwatched build (step build s first).2 rest
    simp only [visits, run, unwatchedAll]
    refine ⟨together.append fun go => ?_, fun go => ?_⟩
    · rw [← (whole go).2]
      exact onward
    · obtain ⟨reply, after⟩ := whole fun v hv => go v (List.mem_append_left _ hv)
      obtain ⟨replies, last⟩ := complete fun v hv => go v (List.mem_append_right _ hv)
      rw [← after, ← replies, ← last, reply]
      exact ⟨rfl, rfl⟩

end

end Session

end AmbientResidue
