import AmbientResidue.Proofs.Session.Folds
import AmbientResidue.Proofs.Session.Presence
import AmbientResidue.Proofs.Session.Sampling

/-! # What the counted build counts

An evaluation is paid for node by node, and the price of a node depends on its operation alone. So
the counters tell how often each operation stands in what was evaluated, whatever the residues were.
Looking for an inverse that does not exist is paid for like any other look. -/

namespace AmbientResidue

open Counted (Yields Refuses)

/-- Operations on residues, put together in any way. -/
inductive Formula where
  | leaf (name : String)
  | unary (op : Element.Unary) (form : Form) (e : Formula)
  | binary (op : Element.Binary) (form : Form) (e f : Formula)
deriving DecidableEq, Repr

namespace Formula

/-- The value in a session: one operation for every node, on what its operands came to. -/
def evaluate (build : Build) : Formula → Action Element
  | .leaf name => Action.element name
  | .unary op form e => Expression.unaryNode build
      (fun env a => if form = .method then op.method env a else op.operator env a)
      (e.evaluate build)
  | .binary op form e f => Expression.binaryNode build
      (fun env a b => if form = .method then op.method env a b else op.operator env a b)
      (e.evaluate build) (f.evaluate build)

/-- How often an operation on one residue stands in the formula. -/
def unaries (op : Element.Unary) : Formula → Nat
  | .leaf _ => 0
  | .unary other _ e => e.unaries op + if other = op then 1 else 0
  | .binary _ _ e f => e.unaries op + f.unaries op

/-- How often an operation on two residues stands in the formula. -/
def binaries (op : Element.Binary) : Formula → Nat
  | .leaf _ => 0
  | .unary _ _ e => e.binaries op
  | .binary other _ e f => e.binaries op + f.binaries op + if other = op then 1 else 0

/-- What a successful evaluation costs. A negation is a subtraction from a zero that is made for it,
and a division an inversion and a multiplication. Only an inversion is not reduced. -/
def price (e : Formula) : Tally where
  adds := e.binaries .add
  subs := e.binaries .sub + e.unaries .neg
  mults := e.binaries .mul + e.unaries .square + e.binaries .div
  reductions := e.binaries .add + e.binaries .sub + e.binaries .mul + e.unaries .neg +
    e.unaries .square + e.binaries .div
  inverses := e.unaries .invert + e.binaries .div
  fromInt64 := e.unaries .neg
  fromDecimal := 0
  fromBytes := 0

variable {op : Element.Unary} {op' : Element.Binary} {form : Form} {e f : Formula}

theorem price_leaf (name : String) : (leaf name).price = 0 := rfl

theorem price_unary : (unary op form e).price = e.price + op.price := by
  cases op <;> ext <;> simp [price, unaries, binaries, Element.Unary.price] <;> omega

theorem price_binary : (binary op' form e f).price = e.price + f.price + op'.price := by
  cases op' <;> ext <;> simp [price, unaries, binaries, Element.Binary.price] <;> omega

end Formula

namespace Form

/-- Every form of an operation costs the same. -/
theorem cost (form : Form) (x : Operation Element) :
    (if form = .method then x else Element.orPanic x).run.cost = x.run.cost := by
  cases form with
  | method => rfl
  | operator | assignment => exact Counted.cost_adapt x _

variable {form : Form} {env : Ambient} {a b r : Element}

theorem cost_unary {op : Element.Unary}
    (made : Yields (if form = .method then op.method env a else op.operator env a) r) :
    (if form = .method then op.method env a else op.operator env a).run.cost = op.price :=
  (form.cost _).trans (op.cost_of_yields (form.yields_iff.1 made))

theorem cost_binary {op : Element.Binary}
    (made : Yields (if form = .method then op.method env a b else op.operator env a b) r) :
    (if form = .method then op.method env a b else op.operator env a b).run.cost = op.price :=
  (form.cost _).trans (op.cost_of_yields (form.yields_iff.1 made))

end Form

namespace Session

open AmbientResidue.Action

variable {build : Build} {l : List Visit} {s t u : Session} {m : Modulus} {a b r : Element}
  {e f : Formula} {form : Form} {d : Failure}

theorem yields_of_compute {g : Ambient → Operation Element}
    (h : Returns (compute build .fault g) s r t) :
    Yields (g (s.ambient build)) r ∧ t = s.charge build (g (s.ambient build)).run.cost :=
  pay_returns (by rwa [Returns, run_compute] at h)

theorem refuses_of_compute {g : Ambient → Operation Element}
    (h : Fails (compute build .fault g) s d t) :
    ∃ c, Refuses (g (s.ambient build)) c ∧
      t = s.charge build (g (s.ambient build)).run.cost := by
  rw [Fails, run_compute] at h
  obtain ⟨c, refused, -, after⟩ := pay_fails h
  exact ⟨c, refused, after⟩

/-! ## Formulas -/

/-- An evaluation raises the counters by its price and does nothing else to the session. -/
theorem evaluate_charges (h : Returns (e.evaluate build) s a t) : t = s.charge build e.price := by
  induction e generalizing s a t with
  | leaf name =>
    obtain ⟨-, rfl⟩ := lookUp_returns h
    rw [Formula.price_leaf, charge_zero]
  | unary op form e ih =>
    obtain ⟨b, u, first, rest⟩ := Returns.bind h
    obtain ⟨made, rfl⟩ := yields_of_compute rest
    rw [Form.cost_unary made, ih first, charge_charge, Formula.price_unary]
  | binary op form e f he hf =>
    obtain ⟨b, u, first, rest⟩ := Returns.bind h
    obtain ⟨c, v, second, rest⟩ := Returns.bind rest
    obtain ⟨made, rfl⟩ := yields_of_compute rest
    rw [Form.cost_binary made, hf second, he first, charge_charge, charge_charge,
      Formula.price_binary, Tally.add_assoc]

theorem evaluate_kept (h : Returns (e.evaluate build) s a t) : Kept s t :=
  evaluate_charges h ▸ .charge s build _

/-- What an evaluation comes to is named already, or has been made by the way. -/
theorem evaluate_cases (h : Returns (e.evaluate build) s a t) :
    s.Holds a ∨ Element.Canonical (s.ambient build) a := by
  cases e with
  | leaf name =>
    obtain ⟨found, -⟩ := lookUp_returns h
    exact .inl ⟨name, found⟩
  | unary op form e =>
    obtain ⟨b, u, first, rest⟩ := Returns.bind h
    obtain ⟨made, -⟩ := yields_of_compute rest
    rw [(evaluate_kept first).ambient build] at made
    exact .inr (Element.canonical_unary (form.yields_iff.1 made))
  | binary op form e f =>
    obtain ⟨b, u, first, rest⟩ := Returns.bind h
    obtain ⟨c, v, second, rest⟩ := Returns.bind rest
    obtain ⟨made, -⟩ := yields_of_compute rest
    rw [((evaluate_kept first).trans (evaluate_kept second)).ambient build] at made
    exact .inr (Element.canonical_binary (form.yields_iff.1 made))

/-- Where something can be evaluated a modulus is active. -/
theorem Path.active_of_evaluate (p : Path build .initial l s)
    (h : Returns (e.evaluate build) s a t) : ∃ m, s.store.active .global = some m := by
  rcases evaluate_cases h with held | ⟨m, active, -⟩
  · exact p.active_of_holds held
  · exact ⟨m, active⟩

theorem Serves.fits_of_evaluate (serves : s.Serves build m) (h : Returns (e.evaluate build) s a t) :
    a.Fits m := by
  rcases evaluate_cases h with held | ⟨n, active, -, -, tag⟩
  · exact .of_untagged m (serves.untagged a held)
  · refine .of_untagged m (tag.trans (if_neg ?_))
    rw [show (s.ambient build).build = build from rfl, serves.forgetful]
    exact Bool.false_ne_true

/-! ## Inverses that do not exist -/

theorem invert_charges (serves : s.Serves build m) (he : Returns (e.evaluate build) s a t)
    (h : Fails ((Formula.unary .invert form e).evaluate build) s d u) :
    u = t.charge build { inverses := 1 } := by
  have last : Fails (compute build .fault fun env =>
      if form = .method then Element.invert env a else Element.orPanic (Element.invert env a))
    t d u := h.rest he
  obtain ⟨c, -, rfl⟩ := refuses_of_compute last
  have active : (t.ambient build).active = some m := (serves.kept (evaluate_kept he)).active
  rw [form.cost, Element.cost_invert active (serves.fits_of_evaluate he)]

/-- The divisor is inverted first, so that nothing is multiplied. -/
theorem div_charges (serves : s.Serves build m) (he : Returns (e.evaluate build) s a t)
    (hf : Returns (f.evaluate build) t b u) {v : Session}
    (h : Fails ((Formula.binary .div form e f).evaluate build) s d v) :
    v = u.charge build { inverses := 1 } := by
  have last : Fails (compute build .fault fun env =>
      if form = .method then Element.div env a b else Element.orPanic (Element.div env a b))
    u d v := (h.rest he).rest hf
  obtain ⟨c, refused, rfl⟩ := refuses_of_compute last
  have between := serves.kept (evaluate_kept he)
  have active : (u.ambient build).active = some m := (between.kept (evaluate_kept hf)).active
  obtain ⟨g, refused, -⟩ := form.refuses_iff.1 refused
  rw [form.cost, Element.cost_div_of_refuses active (serves.fits_of_evaluate he)
    (between.fits_of_evaluate hf) refused]

/-! ## Folds and random residues -/

@[simp] theorem tally_naming (s : Session) (name : Option String) (a : Element) :
    (s.naming name a).tally = s.tally := by
  cases name <;> rfl

/-- One call for each block that is drawn, whether or not the block is taken. -/
theorem random_charges (active : s.store.active .global = some m) (bytes : List UInt8)
    (bind : Option String) : ∃ v k t,
      Returns (perform build (.random bytes bind)) s (.drawn v (m.width * (k + 1))) t ∧
        t.tally = (s.charge build { fromBytes := k + 1 }).tally := by
  obtain ⟨k, -, first⟩ := Modulus.exists_first (m.candidate_past bytes)
  have here : (s.ambient build).active = some m := active
  have drawn := Element.yields_random_first here first
  have answer : Returns (do
      let drawn ← compute build refusal fun env => Element.random env bytes
      bindElement bind drawn.element
      return Value.drawn drawn.element.representative drawn.bytes) s _ _ := returns_naming drawn
  rw [Element.cost_random here first] at answer
  exact ⟨_, k, _, answer, tally_naming _ _ _⟩

/-- What evaluations, folds and draws in a session of the counted build add to its counters. -/
structure Accounts (s : Session) : Prop where
  formula : ∀ (e : Formula) a t, Returns (e.evaluate .counted) s a t →
    t = { s with tally := s.tally + e.price }
  /-- An inversion that fails has looked for an inverse and done nothing else. -/
  invert : ∀ (e : Formula) a t, Returns (e.evaluate .counted) s a t → ∀ form d u,
    Fails ((Formula.unary .invert form e).evaluate .counted) s d u →
      u = { t with tally := t.tally + { inverses := 1 } }
  div : ∀ (e f : Formula) a t b u, Returns (e.evaluate .counted) s a t →
    Returns (f.evaluate .counted) t b u → ∀ form d v,
      Fails ((Formula.binary .div form e f).evaluate .counted) s d v →
        v = { u with tally := u.tally + { inverses := 1 } }
  fold : ∀ m, s.store.active .global = some m → ∀ (op : Fold) names l,
    names.mapM s.elements.find? = some l → ∀ bind,
      ∃ v t, Returns (perform .counted (.fold op names bind)) s v t ∧
        t.tally = s.tally + op.price l.length
  random : ∀ m, s.store.active .global = some m → ∀ bytes bind, ∃ v k t,
    Returns (perform .counted (.random bytes bind)) s (.drawn v (m.width * (k + 1))) t ∧
      t.tally = s.tally + { fromBytes := k + 1 }

theorem Path.accounts (p : Path .counted .initial l s) : Accounts s where
  formula e a t returned := evaluate_charges returned
  invert e a t returned form d u failed := by
    obtain ⟨m, active⟩ := p.active_of_evaluate returned
    exact invert_charges (p.serves rfl active) returned failed
  div e f a t b u first second form d v failed := by
    obtain ⟨m, active⟩ := p.active_of_evaluate first
    exact div_charges (p.serves rfl active) first second failed
  fold m active op names l bound bind :=
    ⟨_, _, returns_fold (p.serves rfl active) bound bind, tally_naming _ _ _⟩
  random m active bytes bind := random_charges active bytes bind

/-- In every session of every counted run, the counters go up by the price of what was done: by the
number of its operations, whatever they were done on. -/
theorem counters_account :
    (∀ env m source k fuel, env.active = some m → m.First source k → k < fuel →
      Yields (Element.sample env source fuel)
        (some ⟨env.residue m (m.candidate source k), m.width * (k + 1)⟩) ∧
      (Element.sample env source fuel).run.cost = { fromBytes := k + 1 }) ∧
    ∀ steps, Accounts (run .counted .initial steps).2 ∧
      ∀ earlier v later, visits .counted .initial steps = earlier ++ v :: later →
        Accounts v.before := by
  refine ⟨fun env m source k fuel active first reached => ⟨?_, ?_⟩, fun steps => ?_⟩
  · have drawn := Element.yields_sample_first active first fuel
    rwa [if_pos reached] at drawn
  · exact Element.cost_sample active first reached
  · exact run_throughout (P := fun _ => Accounts) (fun p => p.accounts) steps

/-- Modulo ten, `a * b / a + -a` has one addition, one multiplication, one division and one
negation; 4 has no inverse, and a product of three starts from a one that is made and reduced. -/
theorem counters_account_ten :
    let s := (run .counted .initial [.single (.install "10" none),
      .single (.make (.int64 3) (some "a")), .single (.make (.int64 4) (some "b"))]).2
    let quotient : Formula := .binary .div .method
      (.binary .mul .operator (.leaf "a") (.leaf "b")) (.leaf "a")
    let e : Formula := .binary .add .method quotient (.unary .neg .operator (.leaf "a"))
    (∃ a t, Returns (e.evaluate .counted) s a t ∧ t.tally = s.tally +
      { adds := 1, subs := 1, mults := 2, reductions := 4, inverses := 1, fromInt64 := 1 }) ∧
      (∃ t, Fails ((Formula.unary .invert .method (.leaf "b")).evaluate .counted) s
        (.fault (.error (.notInvertible 4 10))) t ∧ t.tally = s.tally + { inverses := 1 }) ∧
      ∃ v t, Returns (perform .counted (.fold .product ["a", "b", "a"] none)) s v t ∧
        t.tally = s.tally + { mults := 3, reductions := 4, fromInt64 := 1 } := by
  intro s quotient e
  have accounts : Accounts s := (counters_account.2 _).1
  have active : s.store.active .global = some ⟨10, 1, by decide⟩ := by decide +kernel
  have a : s.elements.find? "a" = some ⟨3, none⟩ := by decide +kernel
  have b : s.elements.find? "b" = some ⟨4, none⟩ := by decide +kernel
  have bound : ["a", "b", "a"].mapM s.elements.find? = some [⟨3, none⟩, ⟨4, none⟩, ⟨3, none⟩] := by
    decide +kernel
  have answers : (match (e.evaluate .counted).run s with
      | .ok _ _ => true
      | .error _ _ => false) = true := by decide +kernel
  refine ⟨?_, ?_, ?_⟩
  · rcases returns_or_fails (e.evaluate .counted) s with ⟨r, returned⟩ | ⟨d, failed⟩
    · refine ⟨r, _, returned, ?_⟩
      rw [accounts.formula e r _ returned]
      rfl
    · rw [Fails] at failed
      rw [failed] at answers
      cases answers
  · have here : (s.ambient .counted).active = some ⟨10, 1, by decide⟩ := active
    have four : Returns ((Formula.leaf "b").evaluate .counted) s ⟨4, none⟩ s := returns_lookUp b
    have fits : Element.Fits ⟨10, 1, by decide⟩ ⟨4, none⟩ := .of_untagged _ rfl
    have refused := (Element.refuses_invert_iff here fits (e := _)).2 ⟨by decide, rfl⟩
    have failed : Fails ((Formula.unary .invert .method (.leaf "b")).evaluate .counted) s
        (.fault (.error (.notInvertible 4 10))) _ :=
      four.andFail (fails_compute (f := fun env => Element.invert env ⟨4, none⟩) refused)
    refine ⟨_, failed, ?_⟩
    rw [accounts.invert _ _ _ four .method _ _ failed]
  · exact accounts.fold _ active .product _ _ bound none

end Session

end AmbientResidue
