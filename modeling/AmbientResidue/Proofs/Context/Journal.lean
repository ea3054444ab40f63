import AmbientResidue.Proofs.Context.Outcome
import AmbientResidue.Proofs.Decimal.Canonical
import Mathlib.Data.List.Nodup

/-! # What the journal tells

A request to a context is one call of an operation, from wherever it is made. `Ends` lists how a
request can end, with the entries that it has written by then; that an entry stands in the journal
exactly where its request has been granted, and that it gives the length of the right modulus, is
read off that list. -/

namespace AmbientResidue

/-- The length of the modulus that an entry announces as the next active one. -/
def Event.announces : Event → Option Nat
  | .installCalled bits | .scopeCalled bits | .restored bits | .scopeClosed bits => some bits
  | .installed | .saved _ | .restoreCalled | .foreignSnapshot => none

namespace Store

/-- A call of an operation on contexts. -/
inductive Request where
  | install (c : ContextId) (value : Int)
  | save (c : ContextId)
  | restore (c : ContextId) (snapshot : Snapshot)
  | openScope (c : ContextId) (value : Int)
  | closeScope (guard : Guard)
deriving DecidableEq, Repr

/-- Whether an operation has succeeded, and the store that it leaves. -/
def settle {α : Type} : EStateM.Result Refusal Store α → Bool × Store
  | .ok _ t => (true, t)
  | .error _ t => (false, t)

theorem settle_returns {α : Type} {f : Operation α} {s t : Store} {a : α} (h : Returns f s a t) :
    (settle (f s)).2 = t := congrArg (fun result => (settle result).2) h

theorem settle_fails {α : Type} {f : Operation α} {s t : Store} {e : Refusal} (h : Fails f s e t) :
    (settle (f s)).2 = t := congrArg (fun result => (settle result).2) h

namespace Request

def context : Request → ContextId
  | .install c _ | .save c | .restore c _ | .openScope c _ => c
  | .closeScope guard => guard.context

/-- Dropping a guard cannot fail. -/
def outcome (r : Request) (s : Store) : Bool × Store :=
  match r with
  | .install c value => settle (Store.install c value s)
  | .save c => settle (Store.save c s)
  | .restore c snapshot => settle (Store.restore c snapshot s)
  | .openScope c value => settle (Store.openScope c value s)
  | .closeScope guard => (true, s.closeScope guard)

def granted (r : Request) (s : Store) : Bool := (r.outcome s).1

def after (r : Request) (s : Store) : Store := (r.outcome s).2

/-- The entries that the request adds to the journal. -/
def emitted (r : Request) (s : Store) : List JournalEntry :=
  (r.after s).journal.drop s.journal.length

end Request

/-- How a request can end: whether it is granted, what it has written by then, and what is active
where. -/
inductive Ends (s : Store) : Request → Bool → List Event → Store → Prop where
  | installed {c value m} : Modulus.ofInt value = .ok m →
      Ends s (.install c value) true [.installCalled m.bits, .installed] (s.write c m)
  | notInstalled {c value e} : Modulus.ofInt value = .error e →
      Ends s (.install c value) false [.installCalled (Integer.bits value)] s
  | saved {c m} : s.active c = some m → Ends s (.save c) true [.saved m.bits] s
  | notSaved {c} : s.active c = none → Ends s (.save c) false [] s
  | restored {c snapshot} : snapshot.context = c →
      Ends s (.restore c snapshot) true [.restoreCalled, .restored snapshot.modulus.bits]
        (s.write c snapshot.modulus)
  | rejected {c snapshot} : snapshot.context ≠ c →
      Ends s (.restore c snapshot) false [.restoreCalled, .foreignSnapshot] s
  | opened {c value m} : Modulus.ofInt value = .ok m →
      Ends s (.openScope c value) true
        (.scopeCalled m.bits :: (s.active c).toList.map (.saved ·.bits)) (s.write c m)
  | notOpened {c value e} : Modulus.ofInt value = .error e →
      Ends s (.openScope c value) false [.scopeCalled (Integer.bits value)] s
  | closed {guard snapshot} : guard.previous = some snapshot →
      Ends s (.closeScope guard) true [.scopeClosed snapshot.modulus.bits]
        (s.write guard.context snapshot.modulus)
  | dropped {guard} : guard.previous = none → Ends s (.closeScope guard) true [] s

theorem bits_ofInt {value : Int} {m : Modulus} (made : Modulus.ofInt value = .ok m) :
    m.bits = Integer.bits value := by
  rw [Modulus.bits, (Modulus.ofInt_eq_ok_iff.1 made).1]

/-! ## Requests are carried out -/

/-- The request has ended in one of the ways, and the journal is longer by what it has written. -/
def Ended (s : Store) (r : Request) (outcome : Bool × Store) : Prop :=
  ∃ told t, Ends s r outcome.1 told t ∧ Kept t outcome.2 ∧
    outcome.2.journal = s.journal ++ told.map (⟨r.context, ·⟩)

variable {s t : Store} {r : Request} {c : ContextId}

theorem ended_install (c : ContextId) (value : Int) (s : Store) :
    Ended s (.install c value) ((Request.install c value).outcome s) := by
  simp only [Request.outcome, install]
  cases made : Modulus.ofInt value with
  | ok m =>
    refine ⟨_, _, .installed made, ((Kept.note s _ _).write c m).trans (.note _ _ _), ?_⟩
    simp [settle, Request.context, bits_ofInt made]
  | error e => exact ⟨_, _, .notInstalled made, .note _ _ _, rfl⟩

theorem ended_save (c : ContextId) (s : Store) :
    Ended s (.save c) ((Request.save c).outcome s) := by
  simp only [Request.outcome, save]
  cases active : s.active c with
  | some m => exact ⟨_, _, .saved active, .note _ _ _, rfl⟩
  | none => exact ⟨_, _, .notSaved active, .refl s, (List.append_nil _).symm⟩

theorem ended_restore (c : ContextId) (snapshot : Snapshot) (s : Store) :
    Ended s (.restore c snapshot) ((Request.restore c snapshot).outcome s) := by
  simp only [Request.outcome, restore]
  have called : Kept s (s.note c .restoreCalled) := .note _ _ _
  by_cases own : snapshot.context = c
  · rw [if_pos own]
    refine ⟨_, _, .restored own, (called.trans (.note _ _ _)).write c snapshot.modulus, ?_⟩
    simp [settle, Request.context]
  · rw [if_neg own]
    refine ⟨_, _, .rejected own, called.trans (.note _ _ _), ?_⟩
    simp [settle, Request.context]

theorem ended_openScope (c : ContextId) (value : Int) (s : Store) :
    Ended s (.openScope c value) ((Request.openScope c value).outcome s) := by
  simp only [Request.outcome, openScope]
  cases made : Modulus.ofInt value with
  | ok m =>
    have called : Kept s (s.note c (.scopeCalled (Integer.bits value))) := .note _ _ _
    simp only [saveIfActive, save, active_note]
    cases active : s.active c with
    | some n =>
      refine ⟨_, _, .opened made, (called.trans (.note _ _ _)).write c m, ?_⟩
      simp [settle, Request.context, bits_ofInt made, active]
    | none =>
      refine ⟨_, _, .opened made, called.write c m, ?_⟩
      simp [settle, Request.context, bits_ofInt made, active]
  | error e => exact ⟨_, _, .notOpened made, .note _ _ _, rfl⟩

theorem ended_closeScope (guard : Guard) (s : Store) :
    Ended s (.closeScope guard) ((Request.closeScope guard).outcome s) := by
  simp only [Request.outcome, closeScope]
  cases previous : guard.previous with
  | some snapshot =>
    exact ⟨_, _, .closed previous, (Kept.note _ _ _).write guard.context snapshot.modulus, rfl⟩
  | none => exact ⟨_, _, .dropped previous, .refl s, (List.append_nil _).symm⟩

theorem ended_outcome (r : Request) (s : Store) : Ended s r (r.outcome s) := by
  cases r with
  | install c value => exact ended_install c value s
  | save c => exact ended_save c s
  | restore c snapshot => exact ended_restore c snapshot s
  | openScope c value => exact ended_openScope c value s
  | closeScope guard => exact ended_closeScope guard s

theorem journal_after (r : Request) (s : Store) :
    (r.after s).journal = s.journal ++ r.emitted s := by
  obtain ⟨told, t, -, -, journal⟩ := ended_outcome r s
  rw [Request.emitted, Request.after, journal, List.drop_left]

/-! ## The entries are true -/

/-- What a request has written tells how it has ended and what is active now. -/
structure Truthful (s : Store) (r : Request) (granted : Bool) (told : List JournalEntry)
    (active : ContextId → Option Modulus) : Prop where
  once : told.Nodup
  installed : ∀ c, ⟨c, .installed⟩ ∈ told ↔ granted = true ∧ ∃ value, r = .install c value
  /-- The call of an install that succeeds gives the length of the modulus that is active then. -/
  installCalled : ∀ c value, r = .install c value → granted = true → ∃ m, active c = some m ∧
    told = [⟨c, .installCalled m.bits⟩, ⟨c, .installed⟩]
  restored : ∀ c bits, ⟨c, .restored bits⟩ ∈ told ↔
    granted = true ∧ (∃ snapshot, r = .restore c snapshot) ∧
      (active c).map Modulus.bits = some bits
  scopeClosed : ∀ c bits, ⟨c, .scopeClosed bits⟩ ∈ told ↔
    (∃ snapshot, r = .closeScope ⟨c, some snapshot⟩) ∧ (active c).map Modulus.bits = some bits
  /-- Opening a scope saves what was active before. -/
  saved : ∀ c bits, ⟨c, .saved bits⟩ ∈ told ↔
    granted = true ∧ (r = .save c ∨ ∃ value, r = .openScope c value) ∧
      (s.active c).map Modulus.bits = some bits
  rejected : ∀ c, ⟨c, .foreignSnapshot⟩ ∈ told ↔
    granted = false ∧ ∃ snapshot, r = .restore c snapshot
  changes : ∀ c, active c = s.active c ∨ ∃ m, active c = some m ∧
    ∃ e : Event, ⟨c, e⟩ ∈ told ∧ e.announces = some m.bits

theorem mem_entries {d : ContextId} {e : Event} {told : List Event} :
    (⟨d, e⟩ : JournalEntry) ∈ told.map (⟨c, ·⟩) ↔ d = c ∧ e ∈ told := by
  rw [List.mem_map]
  constructor
  · rintro ⟨_, member, same⟩
    cases same
    exact ⟨rfl, member⟩
  · rintro ⟨rfl, member⟩
    exact ⟨e, member, rfl⟩

/-- What is written has been announced. -/
theorem changes_of_write {e : Event} {told : List Event} {m : Modulus} (member : e ∈ told)
    (announces : e.announces = some m.bits) (d : ContextId) :
    (s.write c m).active d = s.active d ∨ ∃ n, (s.write c m).active d = some n ∧
      ∃ e : Event, (⟨d, e⟩ : JournalEntry) ∈ told.map (⟨c, ·⟩) ∧ e.announces = some n.bits := by
  by_cases here : d = c
  · exact .inr ⟨m, if_pos here, e, mem_entries.2 ⟨here, member⟩, announces⟩
  · exact .inl (if_neg here)

theorem Ends.truthful {b : Bool} {told : List Event} (ends : Ends s r b told t) :
    Truthful s r b (told.map (⟨r.context, ·⟩)) t.active where
  once := by
    cases ends with
    | @opened c value m => cases s.active c <;> simp
    | _ => simp
  installed d := by
    rw [mem_entries]
    cases ends <;> grind [Request.context]
  installCalled d value asked granted := by
    subst asked
    cases ends with
    | @installed _ _ m => exact ⟨m, if_pos rfl, rfl⟩
    | notInstalled => cases granted
  restored d bits := by
    rw [mem_entries]
    cases ends <;> grind [Request.context, active_write]
  scopeClosed d bits := by
    rw [mem_entries]
    cases ends <;> grind [Request.context, active_write, Guard]
  saved d bits := by
    rw [mem_entries]
    cases ends with
    | @opened c value m =>
      simp only [List.mem_cons, reduceCtorEq, false_or, List.mem_map, Option.mem_toList,
        Event.saved.injEq, Option.map_eq_some_iff, true_and]
      grind [Request.context]
    | _ => grind [Request.context]
  rejected d := by
    rw [mem_entries]
    cases ends <;> grind [Request.context]
  changes d := by
    cases ends with
    | installed | opened | closed => exact changes_of_write List.mem_cons_self rfl d
    | restored => exact changes_of_write (List.mem_cons_of_mem _ List.mem_cons_self) rfl d
    | notInstalled | notSaved | saved | rejected | notOpened | dropped => exact .inl rfl

theorem truthful (s : Store) (r : Request) :
    Truthful s r (r.granted s) (r.emitted s) (r.after s).active := by
  obtain ⟨told, t, ends, k, journal⟩ := ended_outcome r s
  have written : r.emitted s = told.map (⟨r.context, ·⟩) := by
    rw [Request.emitted, Request.after, journal, List.drop_left]
  rw [written, Request.after, k.active]
  exact ends.truthful

/-! ## One request after another -/

/-- The store that the requests leave. -/
def afterAll (s : Store) (l : List Request) : Store := l.foldl (fun s r => r.after s) s

/-- The requests, each with the store that it finds. -/
def found (s : Store) : List Request → List (Store × Request)
  | [] => []
  | r :: rest => (s, r) :: found (r.after s) rest

/-- What the requests write to the journal, each in its turn. -/
def narrative (s : Store) (l : List Request) : List JournalEntry :=
  (s.found l).flatMap fun x => x.2.emitted x.1

theorem afterAll_append (s : Store) (l k : List Request) :
    s.afterAll (l ++ k) = (s.afterAll l).afterAll k := List.foldl_append

theorem journal_afterAll (s : Store) (l : List Request) :
    (s.afterAll l).journal = s.journal ++ s.narrative l := by
  induction l generalizing s with
  | nil => exact (List.append_nil _).symm
  | cons r rest ih =>
    calc ((r.after s).afterAll rest).journal
      _ = (r.after s).journal ++ (r.after s).narrative rest := ih _
      _ = s.journal ++ (r.emitted s ++ (r.after s).narrative rest) := by
        rw [journal_after, List.append_assoc]

/-- Whatever the requests have made active, one of them has announced it: the last that has written
to the context. -/
theorem changes_afterAll (s : Store) (l : List Request) (c : ContextId) :
    (s.afterAll l).active c = s.active c ∨ ∃ m, (s.afterAll l).active c = some m ∧
      ∃ e : Event, ⟨c, e⟩ ∈ s.narrative l ∧ e.announces = some m.bits := by
  induction l generalizing s with
  | nil => exact .inl rfl
  | cons r rest ih =>
    have split : s.narrative (r :: rest) = r.emitted s ++ (r.after s).narrative rest := rfl
    rw [split]
    rcases ih (r.after s) with same | ⟨m, active, e, told, announces⟩
    · rcases (truthful s r).changes c with untouched | ⟨m, active, e, told, announces⟩
      · exact .inl (same.trans untouched)
      · exact .inr ⟨m, same.trans active, e, List.mem_append_left _ told, announces⟩
    · exact .inr ⟨m, active, e, List.mem_append_right _ told, announces⟩

/-- The stores have the same active moduli and the same journal. -/
structure SameView (s t : Store) : Prop where
  active : t.active = s.active
  journal : t.journal = s.journal

namespace SameView

variable {u : Store}

theorem refl (s : Store) : SameView s s := ⟨rfl, rfl⟩

theorem trans (h : SameView s t) (k : SameView t u) : SameView s u :=
  ⟨k.active.trans h.active, k.journal.trans h.journal⟩

theorem eq (h : SameView s t) : t = { s with made := t.made, standard := t.standard } := by
  obtain ⟨made, active, standard, journal⟩ := t
  obtain ⟨rfl, rfl⟩ := h
  rfl

end SameView

/-- Requests do not look at anything else. -/
theorem after_with (r : Request) (s : Store) (made : Nat) (standard : Option Snapshot) :
    r.after { s with made, standard } = { r.after s with made, standard } := by
  cases r with
  | install c value =>
    simp only [Request.after, Request.outcome, install]
    cases Modulus.ofInt value <;> rfl
  | save c =>
    simp only [Request.after, Request.outcome, save]
    cases s.active c <;> rfl
  | restore c snapshot =>
    simp only [Request.after, Request.outcome, restore]
    split <;> rfl
  | openScope c value =>
    simp only [Request.after, Request.outcome, openScope, saveIfActive, save, active_note]
    cases Modulus.ofInt value with
    | ok m => cases s.active c <;> rfl
    | error e => rfl
  | closeScope guard =>
    simp only [Request.after, Request.outcome, closeScope]
    cases guard.previous <;> rfl

theorem SameView.after (h : SameView s t) (r : Request) : SameView (r.after s) (r.after t) := by
  have same : r.after t = { r.after s with made := t.made, standard := t.standard } :=
    (congrArg r.after h.eq).trans (after_with r s t.made t.standard)
  rw [same]
  exact ⟨rfl, rfl⟩

theorem SameView.afterAll (h : SameView s t) (l : List Request) :
    SameView (s.afterAll l) (t.afterAll l) := by
  induction l generalizing s t with
  | nil => exact h
  | cons r rest ih => exact ih (h.after r)

/-! ## Looks -/

/-- The requests of a look at a context where this is active. -/
def Request.look (c : ContextId) (found : Option Modulus) (value : Int) : List Request :=
  match found with
  | none => [.save c]
  | some m => .save c :: .install c value :: if 0 < value then [.restore c ⟨c, m⟩] else []

theorem settle_peek (c : ContextId) (value : Int) (s : Store) :
    (settle (peek c value s)).2 = s.afterAll (Request.look c (s.active c) value) := by
  cases active : s.active c with
  | none =>
    have unsaved : Fails (save c) s .uninitialized s := fails_save active
    have refused : Fails (peek c value) s .uninitialized s := unsaved.first
    exact (settle_fails refused).trans (settle_fails unsaved).symm
  | some m =>
    obtain ⟨s₁, h₁, -⟩ := returns_save active
    have saved : (Request.save c).after s = s₁ := settle_returns h₁
    cases made : Modulus.ofInt value with
    | error e =>
      obtain ⟨s₂, h₂, -⟩ := fails_install made c s₁
      have called : (Request.install c value).after s₁ = s₂ := settle_fails h₂
      have refused : Fails (peek c value) s e s₂ := h₁.andFail h₂.first
      have negative : ¬ 0 < value := Int.not_lt.2 (Modulus.ofInt_eq_error_iff.1 made).1
      simp only [settle_fails refused, Request.look, if_neg negative, ← called, ← saved]
      rfl
    | ok n =>
      obtain ⟨s₂, h₂, k₂⟩ := returns_install made c s₁
      have installed : (Request.install c value).after s₁ = s₂ := settle_returns h₂
      have filled : s₂.active c = some n := by rw [k₂.active, active_write, if_pos rfl]
      have own : (Snapshot.mk c m).context = c := rfl
      obtain ⟨s₃, h₃, -⟩ := returns_restore own s₂
      have restored : (Request.restore c ⟨c, m⟩).after s₂ = s₃ := settle_returns h₃
      have seen : Returns (peek c value) s n.value s₃ :=
        h₁.andThen (h₂.andThen ((returns_modulus filled).andThen (h₃.andThen rfl)))
      have positive : 0 < value := (Modulus.ofInt_eq_ok_iff.1 made).1 ▸ n.value_pos
      simp only [settle_returns seen, Request.look, if_pos positive, ← restored, ← installed,
        ← saved]
      rfl

/-- Every look finds what the first one has found. -/
theorem peekEach_eq (c : ContextId) (values : List Int) (s : Store) :
    (peekEach c values s).2 = s.afterAll (values.flatMap (Request.look c (s.active c))) := by
  induction values generalizing s with
  | nil => rfl
  | cons value rest ih =>
    have first := settle_peek c value s
    have kept := peekEach_kept c [value] s
    rw [List.flatMap_cons, afterAll_append, ← first]
    simp only [peekEach] at kept ⊢
    cases seen : peek c value s with
    | ok n t | error e t =>
      rw [seen] at kept
      rw [← kept.active]
      exact ih t

end Store

/-! ## Lines of the journal

The printed lines tell as much as the entries. -/

namespace Event

/-- The words that a line begins with. -/
def words : Event → String
  | installCalled _ => "INFO span install bits="
  | installed => "DEBUG event installed modulus"
  | saved _ => "DEBUG event saved modulus bits="
  | restoreCalled => "INFO span restore"
  | restored _ => "DEBUG event restored modulus bits="
  | foreignSnapshot => "WARN event rejecting snapshot taken from another context"
  | scopeCalled _ => "INFO span with_modulus bits="
  | scopeClosed _ => "DEBUG event restoring modulus on guard drop bits="

/-- What follows them. -/
def number : Event → String
  | installCalled bits | saved bits | restored bits | scopeCalled bits | scopeClosed bits =>
    Decimal.text bits
  | installed | restoreCalled | foreignSnapshot => ""

theorem line_eq (e : Event) : e.line = e.words ++ e.number := by
  cases e <;> rfl

/-- The beginnings of lines, one of each sort. -/
def starts : List String :=
  [installCalled 0, installed, saved 0, restoreCalled, restored 0, foreignSnapshot, scopeCalled 0,
    scopeClosed 0].map words

theorem words_mem_starts (e : Event) : e.words ∈ starts := by
  cases e <;> simp [starts, words]

/-- Twenty characters tell them apart. -/
theorem nodup_starts : (starts.map fun start => start.toList.take 20).Nodup := by
  simp [starts, words]

theorem take_line (e : Event) : e.line.toList.take 20 = e.words.toList.take 20 := by
  rw [line_eq, String.toList_append]
  cases e with
  | installed | restoreCalled | foreignSnapshot => simp [number]
  | _ => exact List.take_append_of_le_length (by simp [words])

theorem text_natCast_inj {m n : Nat} : Decimal.text m = Decimal.text n ↔ m = n :=
  Decimal.text_injective.eq_iff.trans Int.natCast_inj

theorem line_injective : Function.Injective line := by
  intro d e same
  have words : d.words = e.words := by
    refine List.inj_on_of_nodup_map nodup_starts d.words_mem_starts e.words_mem_starts ?_
    rw [← take_line, ← take_line, same]
  have number : d.number = e.number := by
    rw [line_eq, line_eq, words] at same
    exact String.append_right_inj _ |>.1 same
  cases d <;> cases e <;> simp_all [Event.words, Event.number, text_natCast_inj]

end Event

end AmbientResidue
