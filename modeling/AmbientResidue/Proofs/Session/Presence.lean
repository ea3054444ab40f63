import AmbientResidue.Proofs.Element.Documents
import AmbientResidue.Proofs.Session.Expression
import AmbientResidue.Proofs.Session.Moduli
import AmbientResidue.Proofs.Session.Operands

/-! # Where there are residues there is a modulus

A residue is only made while the global context has a modulus, and no context ever loses its modulus.
So an operation on residues never finds the modulus missing, and where residues are not tagged, all
that can go wrong with it is a divisor without an inverse. -/

namespace AmbientResidue

open Counted (Yields Refuses)

/-- An instruction that has to find an inverse. -/
def Instruction.inverts : Instruction → Bool
  | .unary .invert _ _ _ | .binary .div _ _ _ _ => true
  | _ => false

namespace Session

open AmbientResidue.Action

variable {build : Build} {s : Session} {l : List Visit} {i : Instruction} {args : List Element}
  {f : Ambient → Operation Element} {a b : Element} {m : Modulus}

/-- Whatever a visit could make, it could make under a modulus that was active. -/
theorem Path.present {v : Visit} (p : Path build .initial l s) (visited : v ∈ l)
    (made : Element.Made (v.before.ambient build) a) : ∃ m, s.store.active .global = some m := by
  obtain ⟨m, active, -⟩ := made.canonical
  have was : (v.before.store.active .global).isSome := Option.isSome_iff_exists.2 ⟨m, active⟩
  exact Option.isSome_iff_exists.1 (p.stays_active visited was)

theorem Path.active_of_holds (p : Path build .initial l s) (held : s.Holds a) :
    ∃ m, s.store.active .global = some m := by
  obtain ⟨v, visited, made, -⟩ := p.accounted a held
  exact p.present visited made.made

/-- An operation that has no inverse to find answers, if its operands may be used. -/
theorem Asks.answers (asks : s.Asks i args f) {env : Ambient} (active : env.active = some m)
    (fits : ∀ a ∈ args, a.Fits m) (whole : i.inverts = false) : ∃ r, Yields (f env) r := by
  cases asks with
  | @unary op form x bind a =>
    have fit := fits a List.mem_cons_self
    have method : ∃ r, Yields (op.method env a) r := by
      cases op with
      | invert => cases whole
      | neg | square => exact ⟨_, Element.yields_unary.2 ⟨m, active, fit, rfl⟩⟩
    obtain ⟨r, made⟩ := method
    exact ⟨r, form.yields_iff.2 made⟩
  | @binary op form x y bind a b =>
    have left := fits a List.mem_cons_self
    have right := fits b (List.mem_cons_of_mem a List.mem_cons_self)
    have method : ∃ r, Yields (op.method env a b) r := by
      cases op with
      | div => cases whole
      | add | sub | mul => exact ⟨_, Element.yields_binary.2 ⟨m, active, left, right, rfl⟩⟩
    obtain ⟨r, made⟩ := method
    exact ⟨r, form.yields_iff.2 made⟩
  | sum => exact Element.sum_answers active fits
  | product => exact Element.product_answers active fits

theorem fails_check_iff {x : String} {e : Failure} (found : s.elements.find? x = some a) :
    (∃ t, Fails (perform build (.check x)) s e t) ↔
      ∃ d, a.check (s.ambient build) = .error d ∧ e = .frame d := by
  constructor
  · rintro ⟨t, failed⟩
    rcases Fails.bind failed with missing | ⟨b, u, looked, rest⟩
    · obtain ⟨none_, -, -⟩ := lookUp_missing missing
      rw [found] at none_
      cases none_
    · obtain ⟨same, rfl⟩ := lookUp_returns looked
      obtain rfl : a = b := Option.some.inj (found.symm.trans same)
      rcases Fails.bind rest with refused | ⟨_, _, -, done⟩
      · obtain ⟨d, error, rfl, -⟩ := pay_fails refused
        exact ⟨d, error, rfl⟩
      · exact (Sure.pure _).elim done
  · rintro ⟨d, error, rfl⟩
    have refused : Refuses (Counted.free (a.check (s.ambient build))) d := error
    exact ⟨_, (returns_lookUp found).andFail (fails_compute refused).first⟩

/-- What is left to fail on residues in a build that does not tag them. -/
structure Dependable (build : Build) (s : Session) : Prop where
  /-- Operations other than inversion and division answer. -/
  answers : ∀ i args f, s.Asks i args f → args ≠ [] → i.inverts = false →
    ∃ r t, Returns (perform build i) s (.integer r) t
  invert : ∀ form x bind a, s.elements.find? x = some a → ∀ e t,
    Fails (perform build (.unary .invert form x bind)) s e t →
      ∃ m, s.store.active .global = some m ∧
        e = .fault (form.shows (.error (.notInvertible a.representative m.value)))
  div : ∀ form x y bind a b, s.elements.find? x = some a → s.elements.find? y = some b → ∀ e t,
    Fails (perform build (.binary .div form x y bind)) s e t →
      ∃ m, s.store.active .global = some m ∧
        e = .fault (form.shows (.error (.notInvertible b.representative m.value)))
  /-- A check fails for a representative that is not below the active modulus, and only then. -/
  check : ∀ x a, s.elements.find? x = some a → ∃ m, s.store.active .global = some m ∧ ∀ e,
    (∃ t, Fails (perform build (.check x)) s e t) ↔ m.value ≤ a.representative ∧ e = .frame .invalid

theorem Path.dependable (p : Path build .initial l s) (forgetful : build.tags = false) :
    Dependable build s where
  answers i args f asks some_ whole := by
    obtain ⟨a, member⟩ := List.exists_mem_of_ne_nil args some_
    obtain ⟨m, active⟩ := p.active_of_holds (asks.holds member)
    have fits : ∀ a ∈ args, a.Fits m := fun a member =>
      .of_untagged m (p.untagged forgetful (asks.holds member))
    have here : (s.ambient build).active = some m := active
    obtain ⟨r, made⟩ := asks.answers here fits whole
    exact ⟨_, asks.returns made⟩
  invert form x bind a found e t failed := by
    obtain ⟨m, active⟩ := p.active_of_holds ⟨x, found⟩
    have asks : s.Asks (.unary .invert form x bind) [a] _ := .unary found
    obtain ⟨d, refused, rfl⟩ := asks.fails_iff.1 ⟨t, failed⟩
    obtain ⟨c, cause, rfl⟩ := form.refuses_iff.1 refused
    have fits := Element.Fits.of_untagged m (p.untagged forgetful ⟨x, found⟩)
    obtain rfl := Element.refuses_invert_of_fits active fits cause
    exact ⟨m, active, rfl⟩
  div form x y bind a b hx hy e t failed := by
    obtain ⟨m, active⟩ := p.active_of_holds ⟨x, hx⟩
    have asks : s.Asks (.binary .div form x y bind) [a, b] _ := .binary hx hy
    obtain ⟨d, refused, rfl⟩ := asks.fails_iff.1 ⟨t, failed⟩
    obtain ⟨c, cause, rfl⟩ := form.refuses_iff.1 refused
    have left := Element.Fits.of_untagged m (p.untagged forgetful ⟨x, hx⟩)
    have right := Element.Fits.of_untagged m (p.untagged forgetful ⟨y, hy⟩)
    obtain rfl := Element.refuses_div_of_fits active left right cause
    exact ⟨m, active, rfl⟩
  check x a found := by
    obtain ⟨m, active⟩ := p.active_of_holds ⟨x, found⟩
    obtain ⟨v, -, -, n, -, positive, -⟩ := p.accounted a ⟨x, found⟩
    refine ⟨m, active, fun e => ?_⟩
    have here : (s.ambient build).active = some m := active
    simp only [fails_check_iff found, Element.check_eq_error here positive, exists_and_left, and_assoc,
      exists_eq_left]

/-- The visits that led to the session made no residue, or it has a modulus. -/
structure Equipped (build : Build) (l : List Visit) (s : Session) : Prop where
  /-- It does not matter whether the residue got a name, or only came up on the way. -/
  made : ∀ v ∈ l, ∀ a, Element.Made (v.before.ambient build) a → ∃ m, s.store.active .global = some m
  held : ∀ a, s.Holds a → ∃ m, s.store.active .global = some m
  dependable : build.tags = false → Dependable build s

theorem Path.equipped (p : Path build .initial l s) : Equipped build l s where
  made _ visited _ made := p.present visited made
  held _ held := p.active_of_holds held
  dependable := p.dependable

/-- In every session that a run comes through, a residue that was ever made means that a modulus is
active. Operations on named residues never miss it: in a build that does not tag residues they
answer, or an inverse does not exist. -/
theorem residues_imply_modulus (build : Build) (steps : List Step) :
    Equipped build (visits build .initial steps) (run build .initial steps).2 ∧
      ∀ earlier v later, visits build .initial steps = earlier ++ v :: later →
        Equipped build earlier v.before := by
  have p := run_path build .initial steps
  refine ⟨p.equipped, fun earlier v later split => ?_⟩
  exact (split ▸ p).visit.1.equipped

/-- The scope opened without a modulus around it leaves its 11 behind; a residue made inside it is
squared after it, and a check refuses it once 7 is installed. -/
theorem residues_imply_modulus_after_scope :
    let steps : List Step := [.single (.openScope "g" "11" none),
      .single (.make (.int64 9) (some "a")), .single (.closeScope "g"),
      .single (.install "7" none)]
    let s := (run .plain .initial steps).2
    let u := (run .plain .initial (steps.take 3)).2
    (∃ m, u.store.active .global = some m) ∧
      (∃ r t, Returns (perform .plain (.unary .square .method "a" none)) u (.integer r) t) ∧
      (∃ t, Fails (perform .plain (.check "a")) s (.frame .invalid) t) ∧
      ∀ e t, Fails (perform .plain (.binary .div .operator "a" "a" none)) s e t →
        e = .fault (.operatorPanic (.notInvertible 9 7)) := by
  intro steps s u
  obtain ⟨now, past⟩ := residues_imply_modulus .plain steps
  have before := past ((visits .plain .initial steps).take 3) ⟨u, .install "7" none⟩ [] rfl
  have a : u.elements.find? "a" = some ⟨9, none⟩ := by decide +kernel
  have a' : s.elements.find? "a" = some ⟨9, none⟩ := by decide +kernel
  have seven : s.store.active .global = some ⟨7, 1, by decide⟩ := by decide +kernel
  refine ⟨before.held _ ⟨"a", a⟩, ?_, ?_, ?_⟩
  · exact (before.dependable rfl).answers _ _ _ (.unary a) (by simp) rfl
  · obtain ⟨m, active, fails⟩ := (now.dependable rfl).check "a" _ a'
    obtain rfl : (⟨7, 1, by decide⟩ : Modulus) = m := Option.some.inj (seven.symm.trans active)
    exact (fails _).2 ⟨by decide, rfl⟩
  · intro e t failed
    obtain ⟨m, active, same⟩ := (now.dependable rfl).div _ _ _ _ _ _ a' a' e t failed
    obtain rfl : (⟨7, 1, by decide⟩ : Modulus) = m := Option.some.inj (seven.symm.trans active)
    exact same

end Session

end AmbientResidue
