import AmbientResidue.Engine.Trace
import AmbientResidue.Proofs.Counted
import Mathlib.Data.List.Induction
import Mathlib.Logic.Function.Iterate

/-! # What the counters count

The engines of a process share their counters. A counter goes up by one with every call that a
tracked engine takes of its own operation, whether or not the call yields an integer, and goes back
to zero with every reset that covers it. So it tells how many such calls there have been since the
latest such reset. A tracked engine around another tracked one takes a call and makes it again, so
that it is counted in both. All but the byte length is answered as the innermost engine answers. -/

namespace AmbientResidue

/-- The counters, by the operations that they belong to. -/
inductive Counter where
  | adds
  | subs
  | mults
  | reductions
  | inverses
  | fromInt64
  | fromDecimal
  | fromBytes
deriving DecidableEq, Repr

/-- The counters when one call of the operation has been taken. -/
def Counter.once : Counter → Tally
  | .adds => { adds := 1 }
  | .subs => { subs := 1 }
  | .mults => { mults := 1 }
  | .reductions => { reductions := 1 }
  | .inverses => { inverses := 1 }
  | .fromInt64 => { fromInt64 := 1 }
  | .fromDecimal => { fromDecimal := 1 }
  | .fromBytes => { fromBytes := 1 }

namespace Tally

def read (t : Tally) : Counter → Nat
  | .adds => t.adds
  | .subs => t.subs
  | .mults => t.mults
  | .reductions => t.reductions
  | .inverses => t.inverses
  | .fromInt64 => t.fromInt64
  | .fromDecimal => t.fromDecimal
  | .fromBytes => t.fromBytes

@[simp] theorem read_zero (k : Counter) : (0 : Tally).read k = 0 := by
  cases k <;> rfl

@[simp] theorem read_add (s t : Tally) (k : Counter) : (s + t).read k = s.read k + t.read k := by
  cases k <;> rfl

@[simp] theorem read_once (j k : Counter) : j.once.read k = if j = k then 1 else 0 := by
  cases j <;> cases k <;> rfl

/-- Counters that read the same are the same. -/
theorem eq_of_read {s t : Tally} (same : ∀ k, s.read k = t.read k) : s = t := by
  ext
  exacts [same .adds, same .subs, same .mults, same .reductions, same .inverses, same .fromInt64,
    same .fromDecimal, same .fromBytes]

/-- The counters that a reset clears. The three conversions are cleared together. -/
def Scope.covers : Scope → Counter → Bool
  | .adds, .adds | .subs, .subs | .mults, .mults | .reductions, .reductions
  | .inverses, .inverses => true
  | .conversions, .fromInt64 | .conversions, .fromDecimal | .conversions, .fromBytes => true
  | .all, _ => true
  | _, _ => false

theorem read_reset (t : Tally) (scope : Scope) (k : Counter) :
    (t.reset scope).read k = if scope.covers k then 0 else t.read k := by
  cases scope <;> cases k <;> rfl

end Tally

namespace Engine

variable {α : Type} {e : Engine α} {k : Counter}

/-! ## One call through tracked engines -/

namespace Call

/-- The counter of the call's operation, for the operations that have one. -/
def counter? : Call α → Option Counter
  | .ofInt64 _ => some .fromInt64
  | .ofDecimal _ => some .fromDecimal
  | .ofBytes _ => some .fromBytes
  | .add _ _ => some .adds
  | .sub _ _ => some .subs
  | .mul _ _ => some .mults
  | .reduce _ _ => some .reductions
  | .inverse _ _ => some .inverses
  | .decimal _ | .bytes _ | .bitLength _ | .byteLength _ | .isZero _ | .isNegative _ => none

/-- The call that a tracked engine makes of the wrapped one when it takes this one. -/
def forwarded : Call α → Call α
  | .byteLength a => .bitLength a
  | c => c

/-- The call that comes out of so many tracked engines. -/
def behind : Nat → Call α → Call α
  | 0, c => c
  | _ + 1, c => c.forwarded

theorem counter?_forwarded (c : Call α) : c.forwarded.counter? = c.counter? := by
  cases c <;> rfl

theorem behind_forwarded (layers : Nat) (c : Call α) :
    c.forwarded.behind layers = c.behind (layers + 1) := by
  cases layers with
  | zero => rfl
  | succ layers => cases c <;> rfl

end Call

/-- A tracked engine counts the call, if its operation has a counter, and makes one call. -/
theorem cost_answer_tracked (e : Engine α) (c : Call α) :
    (e.tracked.answer c).cost = c.counter?.elim 0 Counter.once + (e.answer c.forwarded).cost := by
  cases c <;> simp [answer, tracked, Call.counter?, Call.forwarded, Counter.once]

theorem read_cost_answer_tracked (e : Engine α) (c : Call α) (k : Counter) :
    (e.tracked.answer c).cost.read k =
      (if c.counter? = some k then 1 else 0) + (e.answer c.forwarded).cost.read k := by
  rw [cost_answer_tracked, Tally.read_add]
  cases c.counter? <;> simp

/-- The call is counted in every layer. -/
theorem read_cost_answer_iterate (e : Engine α) (layers : Nat) (c : Call α) (k : Counter) :
    ((tracked^[layers] e).answer c).cost.read k =
      (if c.counter? = some k then layers else 0) + (e.answer (c.behind layers)).cost.read k := by
  induction layers generalizing c with
  | zero => simp [Call.behind]
  | succ layers ih =>
    rw [Function.iterate_succ_apply', read_cost_answer_tracked, ih, Call.counter?_forwarded,
      Call.behind_forwarded]
    split <;> omega

theorem value_answer_iterate (e : Engine α) (layers : Nat) {c : Call α}
    (passed : ∀ a, c ≠ .byteLength a) :
    ((tracked^[layers] e).answer c).value = (e.answer c).value := by
  induction layers with
  | zero => rfl
  | succ layers ih =>
    rw [Function.iterate_succ_apply', ← ih]
    cases c with
    | byteLength a => exact absurd rfl (passed a)
    | _ => rfl

/-- The outermost tracked engine asks for the bits. -/
theorem value_answer_byteLength (e : Engine α) (layers : Nat) (a : α) :
    ((tracked^[layers + 1] e).answer (.byteLength a)).value =
      .length (((e.bitLength a).value + 7) / 8) := by
  have bits : Answer.length ((tracked^[layers] e).bitLength a).value =
      .length (e.bitLength a).value := value_answer_iterate e layers (c := .bitLength a) nofun
  rw [Function.iterate_succ_apply', ← Answer.length.inj bits]
  rfl

/-- No tracked engine is called in any operation. -/
def Untracked (e : Engine α) : Prop := ∀ c, (e.answer c).cost = 0

theorem untracked_standard : standard.Untracked := by
  intro c
  cases c <;> rfl

/-- Nothing is lost where the byte length is what the bits tell. -/
theorem forall_value_answer_iff (e : Engine α) :
    (∀ layers c, ((tracked^[layers] e).answer c).value = (e.answer c).value) ↔
      ∀ a, (e.byteLength a).value = ((e.bitLength a).value + 7) / 8 := by
  constructor
  · intro same a
    have asked := same 1 (.byteLength a)
    rw [value_answer_byteLength] at asked
    exact (Answer.length.inj asked).symm
  · intro told layers c
    cases c with
    | byteLength a =>
      cases layers with
      | zero => rfl
      | succ layers =>
        rw [value_answer_byteLength, ← told]
        rfl
    | _ => exact value_answer_iterate e layers nofun

/-! ## Sequences of calls and resets -/

/-- Something that happens in a process: a call of an engine inside so many tracked ones, or a
reset. -/
inductive Occurrence where
  | call {α : Type} (e : Engine α) (layers : Nat) (c : Call α)
  | reset (scope : Tally.Scope)

namespace Occurrence

def event : Occurrence → Event
  | .call e layers c => .call (tracked^[layers] e) c
  | .reset scope => .reset scope

/-- How many calls of the counter's operation are taken by tracked engines: one in each layer, and
those that the innermost engine makes on its own account. -/
def calls (k : Counter) : Occurrence → Nat
  | .call e layers c =>
    (if c.counter? = some k then layers else 0) + (e.answer (c.behind layers)).cost.read k
  | .reset _ => 0

/-- The occurrence is a reset that covers the counter. -/
def clears (k : Counter) : Occurrence → Bool
  | .call _ _ _ => false
  | .reset scope => scope.covers k

/-- What has happened since the latest reset that covers the counter. -/
def sinceReset (k : Counter) (log : List Occurrence) : List Occurrence :=
  (log.reverse.takeWhile fun o => !o.clears k).reverse

/-- How many calls of the counter's operation tracked engines have taken. -/
def total (k : Counter) : List Occurrence → Nat
  | [] => 0
  | o :: log => o.calls k + total k log

/-- What an occurrence does to a counter. -/
theorem read_advance (t : Tally) (o : Occurrence) (k : Counter) :
    (o.event.advance t).read k = if o.clears k then 0 else t.read k + o.calls k := by
  cases o with
  | call e layers c =>
    simp only [event, Event.advance, Tally.read_add, read_cost_answer_iterate]
    rfl
  | reset scope => exact Tally.read_reset t scope k

theorem sinceReset_append_singleton (k : Counter) (log : List Occurrence) (o : Occurrence) :
    sinceReset k (log ++ [o]) = if o.clears k then [] else sinceReset k log ++ [o] := by
  rw [sinceReset, List.reverse_append, List.reverse_singleton, List.singleton_append,
    List.takeWhile_cons]
  by_cases cleared : o.clears k <;> simp [cleared, sinceReset]

theorem total_append (k : Counter) (log rest : List Occurrence) :
    total k (log ++ rest) = total k log + total k rest := by
  induction log with
  | nil => exact (Nat.zero_add _).symm
  | cons o log ih => rw [List.cons_append, total, total, ih, Nat.add_assoc]

theorem tallyAfter_append_singleton (t : Tally) (log : List Occurrence) (o : Occurrence) :
    tallyAfter t ((log ++ [o]).map event) = o.event.advance (tallyAfter t (log.map event)) := by
  rw [tallyAfter, List.map_append, List.foldl_append, ← tallyAfter]
  rfl

/-- From the end of the log: each occurrence does to the count what it does to the counter. -/
theorem read_tallyAfter (log : List Occurrence) (k : Counter) :
    (tallyAfter 0 (log.map event)).read k = total k (sinceReset k log) := by
  induction log using List.reverseRecOn with
  | nil => exact Tally.read_zero k
  | append_singleton log o ih =>
    rw [tallyAfter_append_singleton, read_advance, ih, sinceReset_append_singleton]
    split
    · rfl
    · rw [total_append]
      rfl

theorem total_sinceReset_le (k : Counter) (log : List Occurrence) :
    total k (sinceReset k log) ≤ total k log := by
  let before := (log.reverse.dropWhile fun o => !o.clears k).reverse
  have whole : before ++ sinceReset k log = log := by
    rw [sinceReset, ← List.reverse_append, List.takeWhile_append_dropWhile, List.reverse_reverse]
  calc total k (sinceReset k log)
    _ ≤ total k before + total k (sinceReset k log) := Nat.le_add_left _ _
    _ = total k log := by rw [← total_append, whole]

/-- An untracked engine leaves the counters to the layers around it. -/
theorem calls_of_untracked (untracked : e.Untracked) (layers : Nat) (c : Call α) (k : Counter) :
    (call e layers c).calls k = if c.counter? = some k then layers else 0 := by
  rw [calls, untracked, Tally.read_zero, Nat.add_zero]

theorem advance_eq_self_iff (untracked : e.Untracked) (layers : Nat) (c : Call α) :
    (∀ t, (call e layers c).event.advance t = t) ↔ layers = 0 ∨ c.counter? = none := by
  have made := calls_of_untracked untracked layers c
  constructor
  · intro same
    cases counted : c.counter? with
    | none => exact .inr rfl
    | some k =>
      have raised := read_advance 0 (call e layers c) k
      rw [same, made, if_pos counted, Tally.read_zero, Nat.zero_add] at raised
      exact .inl raised.symm
  · intro free t
    refine Tally.eq_of_read fun k => ?_
    have raised := read_advance t (call e layers c) k
    rw [made] at raised
    rcases free with rfl | free
    · simpa [clears] using raised
    · simpa [clears, free] using raised

end Occurrence

/-- What the tracked engines around an engine do. -/
structure Tracks (e : Engine α) : Prop where
  /-- A call is counted in every layer, if its operation has a counter, and made of the engine. -/
  counts : ∀ layers c k,
    ((tracked^[layers] e).answer c).cost.read k = (Occurrence.call e layers c).calls k
  layered : e.Untracked → ∀ layers c k,
    (Occurrence.call e layers c).calls k = if c.counter? = some k then layers else 0
  quiet : e.Untracked → ∀ layers c,
    (∀ t, (Occurrence.call e layers c).event.advance t = t) ↔ layers = 0 ∨ c.counter? = none
  passes : ∀ layers c, (∀ a, c ≠ .byteLength a) →
    ((tracked^[layers] e).answer c).value = (e.answer c).value
  /-- The byte length is made from the bits, whatever byte length the engine has. -/
  replaces : ∀ layers a, ((tracked^[layers + 1] e).answer (.byteLength a)).value =
    .length (((e.bitLength a).value + 7) / 8)
  agrees : (∀ layers c, ((tracked^[layers] e).answer c).value = (e.answer c).value) ↔
    ∀ a, (e.byteLength a).value = ((e.bitLength a).value + 7) / 8

theorem tracks (e : Engine α) : Tracks e where
  counts := read_cost_answer_iterate e
  layered untracked := Occurrence.calls_of_untracked untracked
  quiet untracked := Occurrence.advance_eq_self_iff untracked
  passes layers _ := value_answer_iterate e layers
  replaces := value_answer_byteLength e
  agrees := forall_value_answer_iff e

/-- Whatever calls and resets there have been, each counter holds the number of the calls of its own
operation that tracked engines have taken since the latest reset that covers it, and never more than
they have taken at all. All but the byte length is answered as the wrapped engine answers it. -/
theorem counters_count_calls :
    (∀ (log : List Occurrence) k,
      (tallyAfter 0 (log.map Occurrence.event)).read k =
        Occurrence.total k (Occurrence.sinceReset k log) ∧
      Occurrence.total k (Occurrence.sinceReset k log) ≤ Occurrence.total k log) ∧
    (∀ (α : Type) (e : Engine α), Tracks e) ∧ standard.Untracked :=
  ⟨fun log k => ⟨Occurrence.read_tallyAfter log k, Occurrence.total_sinceReset_le k log⟩,
    fun _ => tracks, untracked_standard⟩

/-- An inverse that does not exist is counted, twice where a tracked engine is tracked. A conversion
is not counted after its reset, and a call of the bare engine never is. -/
theorem counters_count_calls_after_reset :
    let log : List Occurrence := [.call standard 1 (.ofInt64 6), .call standard 2 (.inverse 6 9),
      .reset .conversions, .call standard 1 (.ofDecimal "9"), .call standard 0 (.add 6 9)]
    ((tracked^[2] standard).answer (.inverse 6 9)).value = .nothing ∧
      (tallyAfter 0 (log.map Occurrence.event)).read .inverses = 2 ∧
      (tallyAfter 0 (log.map Occurrence.event)).read .fromInt64 = 0 ∧
      (tallyAfter 0 (log.map Occurrence.event)).read .fromDecimal = 1 ∧
      (∀ t, (Occurrence.call standard 0 (.add 6 9)).event.advance t = t) ∧
      ((tracked^[2] standard).answer (.byteLength 256)).value = .length 2 := by
  intro log
  obtain ⟨counts, tracks, untracked⟩ := counters_count_calls
  have standard := tracks Int standard
  have shared : Euclid.inverse? 6 9 = none := by decide +kernel
  refine ⟨?_, (counts log _).1, (counts log _).1, (counts log _).1, ?_, standard.replaces 1 256⟩
  · rw [standard.passes 2 (.inverse 6 9) fun _ => nofun]
    exact congrArg Answer.ofOption shared
  · exact (standard.quiet untracked 0 _).2 (.inl rfl)

/-- An engine may have it that zero takes a byte. The tracked engine around it makes no byte of no
bits. -/
theorem byteLength_not_passed :
    let e : Engine Int :=
      { standard with byteLength a := return max 1 (AmbientResidue.byteLength a.natAbs) }
    (e.answer (.byteLength 0)).value = .length 1 ∧
      (e.tracked.answer (.byteLength 0)).value = .length 0 ∧
      (e.tracked.answer (.byteLength 0)).value ≠ (e.answer (.byteLength 0)).value :=
  ⟨rfl, rfl, fun same => Nat.zero_ne_one (Answer.length.inj same)⟩

end Engine

end AmbientResidue
