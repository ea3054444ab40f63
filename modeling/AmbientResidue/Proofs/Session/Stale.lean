import AmbientResidue.Proofs.Session.Moduli
import AmbientResidue.Proofs.Session.Operands

/-! # Stale operands

In the checked build an operation stops at an operand that was built under a modulus of another value
than the active one. Division is the exception to the rule that every operand is looked at: it inverts
its divisor first, and a divisor without an inverse hides where the dividend comes from. -/

namespace AmbientResidue

open Counted (Yields Refuses)

/-- The operands whose tags the instruction looks at, in order. -/
def Instruction.examined (m : Modulus) : Instruction → List Element → List Element
  | .binary .div _ _ _ _, [a, b] => Element.divides m a b
  | _, l => l

namespace Session

open AmbientResidue.Action

/-- One of the visits made the residue while the modulus was active. -/
def BuiltUnder (l : List Visit) (a : Element) (n : Modulus) : Prop :=
  ∃ v ∈ l, Produces .checked v.before v.instruction a ∧ v.before.store.active .global = some n

variable {s t : Session} {l : List Visit} {i : Instruction} {args : List Element}
  {f : Ambient → Operation Element} {a b : Element} {m n : Modulus}

theorem BuiltUnder.tagged (h : BuiltUnder l a n) : a.tag = some n := by
  obtain ⟨v, -, made, active⟩ := h
  obtain ⟨k, active', -, -, tag⟩ := made.made.canonical
  obtain rfl : k = n := Option.some.inj (active'.symm.trans active)
  exact tag

theorem Path.built (p : Path .checked .initial l s) (held : s.Holds a) : ∃ n, BuiltUnder l a n := by
  obtain ⟨v, visited, made, n, active, -⟩ := p.accounted a held
  exact ⟨n, v, visited, made, active⟩

/-- Tags are compared as wholes, which for the moduli of a run is the same as comparing values. -/
theorem Path.fits_iff (p : Path .checked .initial l s) (active : s.store.active .global = some m)
    (built : BuiltUnder l a n) : a.Fits m ↔ n.value = m.value := by
  constructor
  · intro fits
    rw [fits n built.tagged]
  · intro same k tagged
    obtain rfl : k = n := Option.some.inj (tagged.symm.trans built.tagged)
    obtain ⟨v, visited, -, before⟩ := built
    exact (p.regular_before visited before).eq (p.regular active) same

theorem Path.built_under_tag (p : Path .checked .initial l s) (held : s.Holds a)
    (tagged : a.tag = some n) : BuiltUnder l a n := by
  obtain ⟨k, built⟩ := p.built held
  obtain rfl : k = n := Option.some.inj (built.tagged.symm.trans tagged)
  exact built

theorem Path.fresh_iff (p : Path .checked .initial l s) (active : s.store.active .global = some m)
    (held : s.Holds a) : a.Fits m ↔ ∃ n, BuiltUnder l a n ∧ n.value = m.value := by
  constructor
  · intro fits
    obtain ⟨n, built⟩ := p.built held
    exact ⟨n, built, (p.fits_iff active built).1 fits⟩
  · rintro ⟨n, built, same⟩
    exact (p.fits_iff active built).2 same

theorem Path.stale_iff (p : Path .checked .initial l s) (active : s.store.active .global = some m)
    (held : s.Holds a) : ¬ a.Fits m ↔ ∃ n, BuiltUnder l a n ∧ n.value ≠ m.value := by
  constructor
  · intro other
    obtain ⟨n, built⟩ := p.built held
    exact ⟨n, built, fun same => other ((p.fits_iff active built).2 same)⟩
  · rintro ⟨n, built, other⟩ fits
    exact other ((p.fits_iff active built).1 fits)

theorem mem_examined (asks : s.Asks i args f) (member : a ∈ i.examined m args) : a ∈ args := by
  cases asks with
  | @binary op form x y bind b c hx hy =>
    cases op with
    | div =>
      change a ∈ Element.divides m b c at member
      unfold Element.divides at member
      split at member
      · exact List.mem_cons_of_mem b member
      · simpa [or_comm] using member
    | _ => exact member
  | _ => exact member

/-- What an operation looks at does not depend on how it is asked for. -/
theorem Asks.examines (asks : s.Asks i args f) {env : Ambient} (active : env.active = some m) :
    Element.Examines m (f env) (i.examined m args) := by
  cases asks with
  | @unary op form x bind a =>
    have method : Element.Examines m (op.method env a) [a] := Element.examines_unary active op
    dsimp only
    split
    · exact method
    · exact method.orPanic
  | @binary op form x y bind a b =>
    have method : Element.Examines m (op.method env a b)
        ((Instruction.binary op form x y bind).examined m [a, b]) := by
      cases op with
      | div => exact Element.examines_div active
      | _ => exact Element.examines_binary active
    dsimp only
    split
    · exact method
    · exact method.orPanic
  | sum => exact Element.examines_sum active args
  | product => exact Element.examines_product active args

/-- In the session that the visits lead to, the checked build notices stale operands. -/
structure Notices (l : List Visit) (s : Session) : Prop where
  /-- Every residue with a name was built under one modulus. -/
  built : ∀ a, s.Holds a → ∃ n, BuiltUnder l a n ∧ ∀ k, BuiltUnder l a k → k = n
  /-- An operation stops with a mismatch exactly if it looks at a stale operand. -/
  stops : ∀ m, s.store.active .global = some m → ∀ i args f, s.Asks i args f →
    ((∃ n k t, Fails (perform .checked i) s (.fault (.mismatchPanic n k)) t) ↔
      ∃ a ∈ i.examined m args, ∃ n, BuiltUnder l a n ∧ n.value ≠ m.value)
  /-- The message names the modulus of the first of them, and the active one. -/
  names : ∀ m, s.store.active .global = some m → ∀ i args f, s.Asks i args f → ∀ b k t,
    Fails (perform .checked i) s (.fault (.mismatchPanic b k)) t →
      ∃ earlier a later n, i.examined m args = earlier ++ a :: later ∧
        (∀ c ∈ earlier, ∃ n, BuiltUnder l c n ∧ n.value = m.value) ∧
        BuiltUnder l a n ∧ n.value ≠ m.value ∧ b = n.value ∧ k = m.value
  /-- A divisor without an inverse is refused, whatever the dividend was built under. -/
  hides : ∀ m, s.store.active .global = some m → ∀ form x y bind a b n,
    s.elements.find? x = some a → s.elements.find? y = some b → BuiltUnder l b n →
    n.value = m.value → (m.inverse? b.representative).value = none →
      ∃ t, Fails (perform .checked (.binary .div form x y bind)) s
        (.fault (form.shows (.error (.notInvertible b.representative m.value)))) t

/-- An instruction stops with a mismatch just where the tags that it looks at stop it. -/
theorem Asks.mismatch_iff (asks : s.Asks i args f) (active : s.store.active .global = some m)
    {b k : Int} : (∃ t, Fails (perform .checked i) s (.fault (.mismatchPanic b k)) t) ↔
      Element.checkTags m (i.examined m args) = .error (.mismatchPanic b k) := by
  have here : (s.ambient .checked).active = some m := active
  rw [asks.fails_iff, ← asks.examines here b k]
  constructor
  · rintro ⟨d, refused, same⟩
    cases same
    exact refused
  · intro refused
    exact ⟨_, refused, rfl⟩

theorem Path.notices (p : Path .checked .initial l s) : Notices l s where
  built a held := by
    obtain ⟨n, built⟩ := p.built held
    refine ⟨n, built, fun k other => ?_⟩
    exact Option.some.inj (other.tagged.symm.trans built.tagged)
  stops m active i args f asks := by
    have stale : ∀ a ∈ i.examined m args, ¬ a.Fits m ↔ ∃ n, BuiltUnder l a n ∧ n.value ≠ m.value :=
      fun a member => p.stale_iff active (asks.holds (mem_examined asks member))
    calc (∃ n k t, Fails (perform .checked i) s (.fault (.mismatchPanic n k)) t)
      _ ↔ ∃ n k, Element.checkTags m (i.examined m args) = .error (.mismatchPanic n k) := by
          simp only [asks.mismatch_iff active]
      _ ↔ ∃ a ∈ i.examined m args, ¬ a.Fits m := Element.checkTags_stops
      _ ↔ ∃ a ∈ i.examined m args, ∃ n, BuiltUnder l a n ∧ n.value ≠ m.value :=
          exists_congr fun a => and_congr_right (stale a)
  names m active i args f asks b k t failed := by
    obtain ⟨earlier, a, later, n, split, before, tagged, other, same⟩ :=
      Element.checkTags_eq_error.1 ((asks.mismatch_iff active).1 ⟨t, failed⟩)
    cases same
    have held : ∀ c ∈ earlier ++ a :: later, s.Holds c := fun c member =>
      asks.holds (mem_examined asks (split ▸ member))
    have built := p.built_under_tag (held a (by simp)) tagged
    refine ⟨earlier, a, later, n, split, fun c member => ?_, built, ?_, rfl, rfl⟩
    · exact (p.fresh_iff active (held c (List.mem_append_left _ member))).1 (before c member)
    · intro same
      exact other ((p.fits_iff active built).2 same n tagged)
  hides m active form x y bind a b n hx hy built same unit := by
    have refused : Refuses (Element.div (s.ambient .checked) a b)
        (.error (.notInvertible b.representative m.value)) := by
      rw [Element.refuses_div active, Element.refuses_invert active]
      exact .inl (.inr ⟨(p.fits_iff active built).2 same, unit, rfl⟩)
    have asks : s.Asks (.binary .div form x y bind) [a, b] _ := .binary hx hy
    exact asks.fails ((form.refuses_iff).2 ⟨_, refused, rfl⟩)

/-- In every session that a run of the checked build comes through, an operation stops with a
mismatch exactly if one of the operands that it looks at was built under a modulus of another value
than the active one; it looks at all of them, but for the dividend of a divisor without an inverse. -/
theorem checked_runs_notice (steps : List Step) :
    Notices (visits .checked .initial steps) (run .checked .initial steps).2 ∧
      ∀ earlier v later, visits .checked .initial steps = earlier ++ v :: later →
        Notices earlier v.before := by
  have p := run_path .checked .initial steps
  refine ⟨p.notices, fun earlier v later split => ?_⟩
  exact (split ▸ p).visit.1.notices

/-- A 5 that was made under 11 is stale under 7, and no longer once 11 is installed again. -/
theorem checked_runs_notice_reinstalled :
    let steps : List Step := [.single (.install "11" none), .single (.make (.int64 5) (some "a")),
      .single (.install "7" none), .single (.make (.int64 3) (some "b")),
      .single (.install "11" none)]
    let s := (run .checked .initial steps).2
    let u := (run .checked .initial (steps.take 4)).2
    (∃ n k t, Fails (perform .checked (.binary .add .operator "b" "a" none)) u
      (.fault (.mismatchPanic n k)) t) ∧
    ¬ ∃ n k t, Fails (perform .checked (.unary .neg .method "a" none)) s
      (.fault (.mismatchPanic n k)) t := by
  intro steps s u
  obtain ⟨now, past⟩ := checked_runs_notice steps
  have before := past ((visits .checked .initial steps).take 4) ⟨u, .install "11" none⟩ [] rfl
  have a : u.elements.find? "a" = some ⟨5, some ⟨11, 1, by decide⟩⟩ := by decide +kernel
  have b : u.elements.find? "b" = some ⟨3, some ⟨7, 1, by decide⟩⟩ := by decide +kernel
  have a' : s.elements.find? "a" = some ⟨5, some ⟨11, 1, by decide⟩⟩ := by decide +kernel
  constructor
  · obtain ⟨n, built, -⟩ := before.built _ ⟨"a", a⟩
    obtain rfl := Option.some.inj built.tagged
    exact (before.stops ⟨7, 1, by decide⟩ (by decide +kernel) _ _ _ (.binary b a)).2
      ⟨_, List.mem_cons_of_mem _ List.mem_cons_self, _, built, by decide⟩
  · intro stopped
    obtain ⟨c, member, n, built, other⟩ :=
      (now.stops ⟨11, 1, by decide⟩ (by decide +kernel) _ _ _ (.unary a')).1 stopped
    obtain rfl := List.mem_singleton.1 member
    obtain rfl := Option.some.inj built.tagged
    exact other rfl

/-- The 5 that was made under 11 is divided by zero under 7: only the divisor is looked at. -/
theorem notices_overlook_dividend :
    let steps : List Step := [.single (.install "11" none), .single (.make (.int64 5) (some "a")),
      .single (.install "7" none), .single (.make .zero (some "z"))]
    let l := visits .checked .initial steps
    let s := (run .checked .initial steps).2
    let i : Instruction := .binary .div .method "a" "z" none
    s.store.active .global = some ⟨7, 1, by decide⟩ ∧
      ∃ args f, s.Asks i args f ∧ (∃ a ∈ args, ∃ n, BuiltUnder l a n ∧ n.value ≠ 7) ∧
        ¬ ∃ n k t, Fails (perform .checked i) s (.fault (.mismatchPanic n k)) t := by
  intro steps l s i
  have active : s.store.active .global = some ⟨7, 1, by decide⟩ := by decide +kernel
  have dividend : s.elements.find? "a" = some ⟨5, some ⟨11, 1, by decide⟩⟩ := by decide +kernel
  have divisor : s.elements.find? "z" = some ⟨0, some ⟨7, 1, by decide⟩⟩ := by decide +kernel
  have asks : s.Asks i [⟨5, some ⟨11, 1, by decide⟩⟩, ⟨0, some ⟨7, 1, by decide⟩⟩] _ :=
    .binary dividend divisor
  refine ⟨active, _, _, asks, ?_, ?_⟩
  · obtain ⟨n, built⟩ := (run_path .checked .initial steps).built ⟨"a", dividend⟩
    obtain rfl := Option.some.inj built.tagged
    exact ⟨_, List.mem_cons_self, _, built, by decide⟩
  · rintro ⟨n, k, t, failed⟩
    have stopped := (asks.mismatch_iff active).1 ⟨t, failed⟩
    have looks : i.examined ⟨7, 1, by decide⟩ [⟨5, some ⟨11, 1, by decide⟩⟩,
        ⟨0, some ⟨7, 1, by decide⟩⟩] = [⟨0, some ⟨7, 1, by decide⟩⟩] := by decide +kernel
    rw [looks] at stopped
    obtain ⟨c, member, stale⟩ := Element.checkTags_stops.1 ⟨n, k, stopped⟩
    obtain rfl := List.mem_singleton.1 member
    exact stale fun m tagged => (Option.some.inj tagged).symm

end Session

end AmbientResidue
