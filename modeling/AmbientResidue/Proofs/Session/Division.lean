import AmbientResidue.Proofs.Element.Division
import AmbientResidue.Proofs.Session.Expression
import AmbientResidue.Proofs.Session.Holdings
import AmbientResidue.Proofs.Session.Operands

/-! # Inverses and quotients of named residues

A named residue counts as the integer that it stores, even if that has long ceased to lie below the
active modulus. Whether the instruction answers, and what, is then decided by that integer and the
modulus alone; only the checked build looks at where the residue comes from. -/

namespace AmbientResidue

open Counted (Yields Refuses)
open Euclid (IsInverse IsQuotient)

/-- The residue remembers no modulus of another value. -/
def Element.Current (m : Modulus) (a : Element) : Prop := ∀ n, a.tag = some n → n.value = m.value

namespace Session

open AmbientResidue.Action

variable {build : Build} {l : List Visit} {s : Session} {i : Instruction} {args : List Element}
  {f : Ambient → Operation Element} {m n : Modulus} {a b : Element} {x y : String}
  {bind : Option String}

/-- The instruction answers the integer that is asked for where there is one, and stops with the
failure where there is none. -/
structure Solves (build : Build) (s : Session) (i : Instruction) (solvable : Prop)
    (answer : Int → Prop) (e : Failure) : Prop where
  succeeds : (∃ v t, Returns (perform build i) s v t) ↔ solvable
  returns : ∀ v, (∃ t, Returns (perform build i) s v t) ↔ ∃ r, v = .integer r ∧ answer r
  fails : ∀ d, (∃ t, Fails (perform build i) s d t) ↔ ¬ solvable ∧ d = e

/-- It is enough that the operation yields a residue of what is asked for, or is refused. -/
theorem Asks.solves (asks : s.Asks i args f) {solvable : Prop} {answer : Int → Prop} {e : Fault}
    (solution : (∃ r, answer r) ↔ solvable)
    (yields : ∀ r, Yields (f (s.ambient build)) r ↔
      ∃ v, answer v ∧ r = (s.ambient build).residue m v)
    (refuses : ∀ d, Refuses (f (s.ambient build)) d ↔ ¬ solvable ∧ d = e) :
    Solves build s i solvable answer (.fault e) := by
  have returns : ∀ v, (∃ t, Returns (perform build i) s v t) ↔ ∃ r, v = .integer r ∧ answer r := by
    intro v
    rw [asks.returns_iff]
    constructor
    · rintro ⟨r, made, rfl⟩
      obtain ⟨v, solved, rfl⟩ := (yields r).1 made
      exact ⟨v, rfl, solved⟩
    · rintro ⟨r, rfl, solved⟩
      exact ⟨_, (yields _).2 ⟨r, solved, rfl⟩, rfl⟩
  refine ⟨?_, returns, fun d => ?_⟩
  · simp only [returns]
    rw [← solution]
    constructor
    · rintro ⟨v, r, -, solved⟩
      exact ⟨r, solved⟩
    · rintro ⟨r, solved⟩
      exact ⟨_, r, rfl, solved⟩
  · rw [asks.fails_iff]
    constructor
    · rintro ⟨c, refused, rfl⟩
      obtain ⟨unsolvable, rfl⟩ := (refuses c).1 refused
      exact ⟨unsolvable, rfl⟩
    · rintro ⟨unsolvable, rfl⟩
      exact ⟨e, (refuses e).2 ⟨unsolvable, rfl⟩, rfl⟩

/-! ## Inverses -/

theorem Path.fits_of_current (p : Path build .initial l s)
    (active : s.store.active .global = some m) (held : s.Holds a) (current : a.Current m) :
    a.Fits m := by
  intro n tagged
  exact (p.regular_of_has (.tag held tagged)).eq (p.regular active) (current n tagged)

theorem solves_invert (active : s.store.active .global = some m)
    (found : s.elements.find? x = some a) (fits : a.Fits m) :
    Solves build s (.unary .invert .method x bind) (Int.gcd a.representative m.value = 1)
      (IsInverse a.representative m.value)
      (.fault (.error (.notInvertible a.representative m.value))) := by
  have here : (s.ambient build).active = some m := active
  have asks : s.Asks (.unary .invert .method x bind) [a] _ := .unary found
  refine asks.solves (m := m) (Euclid.exists_isInverse_iff m.value_pos) (fun r => ?_) fun d => ?_
  · exact Element.yields_invert_of_fits here fits
  · exact Element.refuses_invert_iff here fits

/-- What comes of inverting named residues. -/
structure Inverts (build : Build) (s : Session) : Prop where
  /-- A residue of no other modulus has the inverse that its representative has, if any. -/
  current : ∀ m, s.store.active .global = some m → ∀ x a, s.elements.find? x = some a →
    a.Current m → ∀ bind, Solves build s (.unary .invert .method x bind)
      (Int.gcd a.representative m.value = 1) (IsInverse a.representative m.value)
      (.fault (.error (.notInvertible a.representative m.value)))
  /-- A residue of another modulus stops the caller. -/
  stale : ∀ m, s.store.active .global = some m → ∀ x a, s.elements.find? x = some a →
    ∀ n, a.tag = some n → n.value ≠ m.value → ∀ bind,
      ∃ t, Fails (perform build (.unary .invert .method x bind)) s
        (.fault (.mismatchPanic n.value m.value)) t
  /-- Only the checked build has residues of other moduli. -/
  forgets : build.tags = false → ∀ m a, s.Holds a → a.Current m

theorem Path.inverts (p : Path build .initial l s) : Inverts build s where
  current m active x a found current bind :=
    solves_invert active found (p.fits_of_current active ⟨x, found⟩ current)
  stale m active x a found n tagged other bind := by
    have here : (s.ambient build).active = some m := active
    have apart : n ≠ m := fun same => other (congrArg Modulus.value same)
    have refused : Refuses (Element.invert (s.ambient build) a)
        (.mismatchPanic n.value m.value) :=
      (Element.refuses_invert here).2 (.inl (Element.checkTag_eq_error.2 ⟨n, tagged, apart, rfl⟩))
    have asks : s.Asks (.unary .invert .method x bind) [a] _ := .unary found
    exact asks.fails refused
  forgets forgetful m a held n tagged := by
    rw [p.untagged forgetful held] at tagged
    cases tagged

/-- The engine finds the inverse of an integer modulo any positive one if there is one, and then
there is no other. A residue has that inverse of its representative in every session of every run,
unless it is of another modulus than the active one and the build looks. -/
theorem inverses_exact :
    (∀ a m x : Int, 0 < m →
      ((Engine.standard.inverse? a m).value = some x ↔ IsInverse a m x)) ∧
    (∀ a m : Int, 0 < m → ((Engine.standard.inverse? a m).value.isSome ↔ Int.gcd a m = 1)) ∧
    (∀ a : Int, (Engine.standard.inverse? a 1).value = some 0) ∧
    (∀ (m : Modulus) a, (m.inverse? a).value = (Engine.standard.inverse? a m.value).value) ∧
    ∀ build steps, Inverts build (run build .initial steps).2 ∧
      ∀ earlier v later, visits build .initial steps = earlier ++ v :: later →
        Inverts build v.before := by
  refine ⟨fun a m x => Euclid.inverse?_eq_some_iff, fun a m => Euclid.isSome_inverse?_iff,
    fun a => ?_, fun m a => rfl, fun build steps => ?_⟩
  · exact (Euclid.inverse?_eq_some_iff Int.one_pos).2 ⟨by decide, by decide, Int.modEq_one⟩
  · exact run_throughout (P := fun _ => Inverts build) (fun p => p.inverts) steps

/-- The 9 that was made under 11 has the inverse 4 under 7, which the checked build does not say. -/
theorem inverses_exact_nine :
    let steps : List Step := [.single (.install "11" none), .single (.make (.int64 9) (some "a")),
      .single (.install "7" none)]
    let s := (run .plain .initial steps).2
    let u := (run .checked .initial steps).2
    (Engine.standard.inverse? (-3) 10).value = some 3 ∧
      (∃ t, Returns (perform .plain (.unary .invert .method "a" none)) s (.integer 4) t) ∧
      ∃ t, Fails (perform .checked (.unary .invert .method "a" none)) u
        (.fault (.mismatchPanic 11 7)) t := by
  intro steps s u
  obtain ⟨engine, -, -, -, sessions⟩ := inverses_exact
  have plain := (sessions .plain steps).1
  have checked := (sessions .checked steps).1
  have active : s.store.active .global = some ⟨7, 1, by decide⟩ := by decide +kernel
  have active' : u.store.active .global = some ⟨7, 1, by decide⟩ := by decide +kernel
  have a : s.elements.find? "a" = some ⟨9, none⟩ := by decide +kernel
  have a' : u.elements.find? "a" = some ⟨9, some ⟨11, 1, by decide⟩⟩ := by decide +kernel
  have current := plain.forgets rfl ⟨7, 1, by decide⟩ _ ⟨"a", a⟩
  refine ⟨(engine _ _ _ (by decide)).2 ⟨by decide, by decide, by decide⟩, ?_, ?_⟩
  · exact ((plain.current _ active _ _ a current none).returns _).2
      ⟨4, rfl, by decide, by decide, by decide⟩
  · exact checked.stale _ active' _ _ a' _ rfl (by decide) none

/-- A unit without an inverse: in the checked build the 9 that was made under 11 shares no factor
with 7, and inverting it under 7 answers nothing. -/
theorem stale_unit_not_inverted :
    let s := (run .checked .initial [.single (.install "11" none),
      .single (.make (.int64 9) (some "a")), .single (.install "7" none)]).2
    s.store.active .global = some ⟨7, 1, by decide⟩ ∧
      ∃ a, s.elements.find? "a" = some a ∧ Int.gcd a.representative 7 = 1 ∧
        ¬ ∃ v t, Returns (perform .checked (.unary .invert .method "a" none)) s v t := by
  intro s
  have active : s.store.active .global = some ⟨7, 1, by decide⟩ := by decide +kernel
  have found : s.elements.find? "a" = some ⟨9, some ⟨11, 1, by decide⟩⟩ := by decide +kernel
  refine ⟨active, _, found, by decide, ?_⟩
  rintro ⟨v, t, returned⟩
  obtain ⟨u, failed⟩ := (run_path .checked .initial _).inverts.stale _ active _ _ found _ rfl
    (by decide) none
  rw [Returns, failed] at returned
  cases returned

/-! ## Quotients -/

theorem solves_div (active : s.store.active .global = some m) (hx : s.elements.find? x = some a)
    (hy : s.elements.find? y = some b) (fa : a.Fits m) (fb : b.Fits m) :
    Solves build s (.binary .div .method x y bind) (Int.gcd b.representative m.value = 1)
      (fun c => b.CoprimeTo m ∧ IsQuotient a.representative b.representative m.value c)
      (.fault (.error (.notInvertible b.representative m.value))) := by
  have here : (s.ambient build).active = some m := active
  have asks : s.Asks (.binary .div .method x y bind) [a, b] _ := .binary hx hy
  refine asks.solves (m := m) ?_ (fun r => ?_) fun d => ?_
  · constructor
    · rintro ⟨c, coprime, -⟩
      exact coprime
    · intro coprime
      obtain ⟨c, quotient, -⟩ := Euclid.existsUnique_isQuotient m.value_pos coprime
      exact ⟨c, coprime, quotient⟩
  · show Yields (Element.div (s.ambient build) a b) r ↔ _
    rw [Element.yields_div_of_fits here fa fb]
    simp only [and_assoc, exists_and_left]
  · exact Element.refuses_div_iff here fa fb

/-- Taking products, quotients and inverses in a row, while one modulus is active. -/
structure Cancels (env : Ambient) (m : Modulus) (a b d : Element) : Prop where
  inverts : (∃ r, Yields (Element.invert env b) r) ↔ b.CoprimeTo m
  mul_div : b.CoprimeTo m →
    Yields (do Element.div env (← Element.mul env a b) b)
      (env.residue m (a.representative % m.value))
  div_mul : b.CoprimeTo m →
    Yields (do Element.mul env (← Element.div env a b) b)
      (env.residue m (a.representative % m.value))
  div_div : b.CoprimeTo m → d.CoprimeTo m →
    ∃ r, Yields (do Element.div env (← Element.div env a b) d) r ∧
      Yields (do Element.div env a (← Element.mul env b d)) r
  invert_invert : b.CoprimeTo m →
    Yields (do Element.invert env (← Element.invert env b))
      (env.residue m (b.representative % m.value))
  inverts_mul : (∃ r, Yields (do Element.invert env (← Element.mul env b d)) r) ↔
    b.CoprimeTo m ∧ d.CoprimeTo m
  invert_mul : b.CoprimeTo m → d.CoprimeTo m →
    ∃ r, Yields (do Element.invert env (← Element.mul env b d)) r ∧
      Yields (do Element.mul env (← Element.invert env b) (← Element.invert env d)) r

/-- What comes of dividing named residues, where nothing remembers which modulus they come from. -/
structure Divides (build : Build) (s : Session) : Prop where
  /-- The divisor decides whether there is a quotient, even where a divisor without an inverse has
  one. -/
  solves : ∀ m, s.store.active .global = some m → ∀ x a, s.elements.find? x = some a →
    ∀ y b, s.elements.find? y = some b → ∀ bind, Solves build s (.binary .div .method x y bind)
      (Int.gcd b.representative m.value = 1)
      (fun c => b.CoprimeTo m ∧ IsQuotient a.representative b.representative m.value c)
      (.fault (.error (.notInvertible b.representative m.value)))
  /-- A divisor with an inverse leaves one quotient. -/
  unique : ∀ m, s.store.active .global = some m → ∀ a b, s.Holds a → s.Holds b →
    b.CoprimeTo m → ∃! c, IsQuotient a.representative b.representative m.value c
  cancels : ∀ m, s.store.active .global = some m → ∀ a b d, s.Holds a → s.Holds b → s.Holds d →
    Cancels (s.ambient build) m a b d

theorem Path.fits_of_forgetful (p : Path build .initial l s) (forgetful : build.tags = false)
    (m : Modulus) (held : s.Holds a) : a.Fits m :=
  .of_untagged m (p.untagged forgetful held)

theorem Path.divides (p : Path build .initial l s) (forgetful : build.tags = false) :
    Divides build s where
  solves m active x a hx y b hy bind :=
    solves_div active hx hy (p.fits_of_forgetful forgetful m ⟨x, hx⟩)
      (p.fits_of_forgetful forgetful m ⟨y, hy⟩)
  unique m active a b ha hb coprime := Euclid.existsUnique_isQuotient m.value_pos coprime
  cancels m active a b d ha hb hd := by
    have here : (s.ambient build).active = some m := active
    have fa := p.fits_of_forgetful forgetful m ha
    have fb := p.fits_of_forgetful forgetful m hb
    have fd := p.fits_of_forgetful forgetful m hd
    exact {
      inverts := Element.inverts_iff here fb
      mul_div := Element.yields_mul_div here fa fb
      div_mul := Element.yields_div_mul here fa fb
      div_div := Element.yields_div_div here fa fb fd
      invert_invert := Element.yields_invert_invert here fb
      inverts_mul := Element.inverts_mul_iff here fb fd
      invert_mul := Element.yields_invert_mul here fb fd }

/-- In the builds that do not tag, division in every session of every run is exact, whichever moduli
its operands come from, and undoes multiplication. -/
theorem division_exact (build : Build) (forgetful : build.tags = false) (steps : List Step) :
    Divides build (run build .initial steps).2 ∧
      ∀ earlier v later, visits build .initial steps = earlier ++ v :: later →
        Divides build v.before :=
  run_throughout (P := fun _ => Divides build) (fun p => p.divides forgetful) steps

/-- The 8 and the 10 that were made under 11 have a quotient under 7. Under 4 the 8 is twice the 10,
but the 10 has no inverse. -/
theorem division_exact_stale :
    let steps : List Step := [.single (.install "11" none), .single (.make (.int64 8) (some "a")),
      .single (.make (.int64 10) (some "b")), .single (.install "4" none),
      .single (.install "7" none)]
    let s := (run .counted .initial steps).2
    let u := (run .counted .initial (steps.take 4)).2
    Build.counted.tags = false ∧
      (∃ t, Returns (perform .counted (.binary .div .method "a" "b" none)) s (.integer 5) t) ∧
      (∃ t, Fails (perform .counted (.binary .div .method "a" "b" none)) u
        (.fault (.error (.notInvertible 10 4))) t) ∧
      Yields (do
        let product ← Element.mul (s.ambient .counted) ⟨8, none⟩ ⟨10, none⟩
        Element.div (s.ambient .counted) product ⟨10, none⟩) ⟨1, none⟩ := by
  intro steps s u
  obtain ⟨now, past⟩ := division_exact .counted rfl steps
  have before := past ((visits .counted .initial steps).take 4) ⟨u, .install "7" none⟩ [] rfl
  have a : s.elements.find? "a" = some ⟨8, none⟩ := by decide +kernel
  have b : s.elements.find? "b" = some ⟨10, none⟩ := by decide +kernel
  have a' : u.elements.find? "a" = some ⟨8, none⟩ := by decide +kernel
  have b' : u.elements.find? "b" = some ⟨10, none⟩ := by decide +kernel
  have seven : s.store.active .global = some ⟨7, 1, by decide⟩ := by decide +kernel
  have four : u.store.active .global = some ⟨4, 1, by decide⟩ := by decide +kernel
  refine ⟨rfl, ?_, ?_, ?_⟩
  · exact ((now.solves _ seven _ _ a _ _ b none).returns _).2
      ⟨5, rfl, by decide, by decide, by decide, by decide⟩
  · exact ((before.solves _ four _ _ a' _ _ b' none).fails _).2 ⟨by decide, rfl⟩
  · exact (now.cancels _ seven _ _ _ ⟨"a", a⟩ ⟨"b", b⟩ ⟨"b", b⟩).mul_div (by decide)

end Session

end AmbientResidue
