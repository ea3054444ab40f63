import AmbientResidue.Proofs.Element.Yields

/-! # Why operations on residues are refused

Without an active modulus no residue is made, and a bad literal is refused before that is noticed.
Once a modulus is active an operation has two reasons to end without a residue: an operand with the
tag of another modulus, and a divisor without an inverse. -/

namespace AmbientResidue

open Counted (Yields Refuses)

/-- What an operator makes of a fault. -/
def Fault.panicking : Fault → Fault
  | .error e => .operatorPanic e
  | fault => fault

theorem Ambient.modulus_eq_error {env : Ambient} {e : Refusal} :
    env.modulus = .error e ↔ env.active = none ∧ e = .uninitialized := by
  unfold modulus
  split <;> simp [*, eq_comm]

namespace Element

/-! ## Making residues -/

section

variable {env : Ambient} {e : Refusal}

theorem refuses_zero : Refuses (zero env) e ↔ env.active = none ∧ e = .uninitialized := by
  simp [zero, Ambient.modulus_eq_error]

theorem refuses_ofInt {v : Int} :
    Refuses (ofInt env v) e ↔ env.active = none ∧ e = .uninitialized := by
  simp [ofInt, Ambient.modulus_eq_error]

theorem refuses_ofInt64 {v : Int64} :
    Refuses (ofInt64 env v) e ↔ env.active = none ∧ e = .uninitialized := by
  simp [ofInt64, refuses_ofInt]

theorem refuses_one : Refuses (one env) e ↔ env.active = none ∧ e = .uninitialized :=
  refuses_ofInt64

theorem refuses_ofLiteral {s : String} :
    Refuses (ofLiteral env s) e ↔ Refuses (Integer.ofLiteral s) e ∨
      (∃ v, Yields (Integer.ofLiteral s) v) ∧ env.active = none ∧ e = .uninitialized := by
  simp [ofLiteral, refuses_ofInt]

theorem refuses_ofBytes {bytes : List UInt8} :
    Refuses (ofBytes env bytes) e ↔ env.active = none ∧ e = .uninitialized := by
  simp [ofBytes, refuses_ofInt]

end

/-! ## Operations -/

variable {env : Ambient} {m : Modulus} {a b r : Element} {e : Fault}

theorem not_fits_iff : ¬ a.Fits m ↔ ∃ n, a.tag = some n ∧ n ≠ m := by
  unfold Fits
  cases a.tag with
  | none => simp
  | some n => simp

theorem checkTag_eq_error :
    a.checkTag m = .error e ↔ ∃ n, a.tag = some n ∧ n ≠ m ∧ e = .mismatchPanic n.value m.value := by
  unfold checkTag
  cases a.tag with
  | none => simp
  | some n =>
    by_cases same : n = m
    · simp [same]
    · have apart : m ≠ n := Ne.symm same
      simp [same, apart, eq_comm]

/-- What has just been made fits. -/
theorem fits_residue (v : Int) : (env.residue m v).Fits m := by
  intro n tagged
  unfold Ambient.residue at tagged
  split at tagged
  · exact (Option.some.inj tagged).symm
  · cases tagged

section

variable (active : env.active = some m)

include active

theorem modulusForOperation_of_active : env.modulusForOperation = .ok m :=
  Ambient.modulusForOperation_eq_ok.2 active

theorem refuses_unary {op : Modulus → Int → Counted Int} :
    Refuses (unary env op a) e ↔ a.checkTag m = .error e := by
  simp [unary, modulusForOperation_of_active active]

theorem refuses_binary {op : Modulus → Int → Int → Counted Int} :
    Refuses (binary env op a b) e ↔
      a.checkTag m = .error e ∨ a.Fits m ∧ b.checkTag m = .error e := by
  simp [binary, modulusForOperation_of_active active, checkTag_eq_ok]

theorem refuses_invert :
    Refuses (invert env a) e ↔ a.checkTag m = .error e ∨
      a.Fits m ∧ (m.inverse? a.representative).value = none ∧
        e = .error (.notInvertible a.representative m.value) := by
  simp only [invert, Counted.refuses_bind, Counted.refuses_free, Counted.refuses_sure,
    Counted.yields_free, Counted.yields_sure, modulusForOperation_of_active active, checkTag_eq_ok,
    Except.ok.injEq, reduceCtorEq, exists_eq_left', exists_eq_left, false_or, exists_const]
  cases (m.inverse? a.representative).value with
  | none => simp
  | some v => simp

/-- The dividend is looked at only if the divisor has an inverse. -/
theorem refuses_div :
    Refuses (div env a b) e ↔ Refuses (invert env b) e ∨
      b.Fits m ∧ (m.inverse? b.representative).value ≠ none ∧ a.checkTag m = .error e := by
  have after : (∃ r, Yields (invert env b) r ∧ Refuses (mul env a r) e) ↔
      b.Fits m ∧ (m.inverse? b.representative).value ≠ none ∧ a.checkTag m = .error e := by
    constructor
    · rintro ⟨r, made, refused⟩
      obtain ⟨n, v, active', fits, inverse, rfl⟩ := yields_invert.1 made
      obtain rfl : n = m := Option.some.inj (active'.symm.trans active)
      refine ⟨fits, by rw [inverse]; simp, ?_⟩
      rcases (refuses_binary active).1 refused with stale | ⟨-, fresh⟩
      · exact stale
      · have passes : (env.residue n v).checkTag n = .ok () := checkTag_eq_ok.2 (fits_residue v)
        rw [passes] at fresh
        cases fresh
    · rintro ⟨fits, unit, stale⟩
      obtain ⟨v, inverse⟩ := Option.ne_none_iff_exists'.1 unit
      refine ⟨env.residue m v, yields_invert.2 ⟨m, v, active, fits, inverse, rfl⟩, ?_⟩
      exact (refuses_binary active).2 (.inl stale)
  rw [div, Counted.refuses_bind, after]

theorem refuses_invert_of_fits (fits : a.Fits m) (refused : Refuses (invert env a) e) :
    e = .error (.notInvertible a.representative m.value) := by
  have passes : a.checkTag m = .ok () := checkTag_eq_ok.2 fits
  rw [refuses_invert active, passes] at refused
  rcases refused with stale | ⟨-, -, same⟩
  · cases stale
  · exact same

theorem refuses_div_of_fits (left : a.Fits m) (right : b.Fits m) (refused : Refuses (div env a b) e) :
    e = .error (.notInvertible b.representative m.value) := by
  have passes : a.checkTag m = .ok () := checkTag_eq_ok.2 left
  rw [refuses_div active, passes] at refused
  rcases refused with divisor | ⟨-, -, stale⟩
  · exact refuses_invert_of_fits active right divisor
  · cases stale

end

theorem refuses_orPanic {x : Operation Element} :
    Refuses (orPanic x) e ↔ ∃ d, Refuses x d ∧ e = d.panicking :=
  Counted.refuses_adapt

/-! ## Looking at one tag after another -/

/-- Looks at the tags of residues in order, up to the first that stops the caller. -/
def checkTags (m : Modulus) : List Element → Except Fault Unit
  | [] => .ok ()
  | a :: rest => do
    a.checkTag m
    checkTags m rest

@[simp] theorem checkTags_nil : checkTags m [] = .error e ↔ False := by
  simp [checkTags]

@[simp] theorem checkTags_cons {l : List Element} :
    checkTags m (a :: l) = .error e ↔
      a.checkTag m = .error e ∨ a.Fits m ∧ checkTags m l = .error e := by
  rw [← checkTag_eq_ok (u := ()), checkTags]
  cases a.checkTag m with
  | ok u => simp [bind, Except.bind]
  | error d => simp [bind, Except.bind]

/-- The first residue that remembers another modulus decides. -/
theorem checkTags_eq_error {l : List Element} :
    checkTags m l = .error e ↔ ∃ earlier a later n, l = earlier ++ a :: later ∧
      (∀ b ∈ earlier, b.Fits m) ∧ a.tag = some n ∧ n ≠ m ∧ e = .mismatchPanic n.value m.value := by
  induction l with
  | nil => simp
  | cons b rest ih =>
    rw [checkTags_cons, ih, checkTag_eq_error]
    constructor
    · rintro (⟨n, tagged, other, rfl⟩ | ⟨fits, earlier, a, later, n, rfl, before, stale⟩)
      · exact ⟨[], b, rest, n, rfl, by simp, tagged, other, rfl⟩
      · exact ⟨b :: earlier, a, later, n, rfl, List.forall_mem_cons.2 ⟨fits, before⟩, stale⟩
    · rintro ⟨earlier, a, later, n, split, before, tagged, other, rfl⟩
      cases earlier with
      | nil =>
        cases split
        exact .inl ⟨n, tagged, other, rfl⟩
      | cons c earlier =>
        cases split
        obtain ⟨fits, before⟩ := List.forall_mem_cons.1 before
        exact .inr ⟨fits, earlier, a, later, n, rfl, before, tagged, other, rfl⟩

/-- Some residue stops the caller exactly if one of them remembers another modulus. -/
theorem checkTags_stops {l : List Element} :
    (∃ n k, checkTags m l = .error (.mismatchPanic n k)) ↔ ∃ a ∈ l, ¬ a.Fits m := by
  induction l with
  | nil => simp
  | cons b rest ih =>
    by_cases fits : b.Fits m
    · have passes : b.checkTag m = .ok () := checkTag_eq_ok.2 fits
      simp only [checkTags_cons, passes, fits, reduceCtorEq, false_or, true_and, ih, List.mem_cons,
        exists_eq_or_imp, not_true_eq_false]
    · obtain ⟨n, tagged, other⟩ := not_fits_iff.1 fits
      constructor
      · intro _
        exact ⟨b, List.mem_cons_self, fits⟩
      · intro _
        exact ⟨n.value, m.value, checkTags_cons.2 (.inl (checkTag_eq_error.2 ⟨n, tagged, other, rfl⟩))⟩

/-- Tags stop the operation just where they would stop one who looks at the tags of these residues
in order. -/
def Examines (m : Modulus) (x : Operation Element) (l : List Element) : Prop :=
  ∀ n k, Refuses x (.mismatchPanic n k) ↔ checkTags m l = .error (.mismatchPanic n k)

theorem Examines.orPanic {x : Operation Element} {l : List Element} (h : Examines m x l) :
    Examines m (orPanic x) l := by
  intro n k
  rw [← h n k, refuses_orPanic]
  constructor
  · rintro ⟨d, refused, same⟩
    cases d <;> cases same
    exact refused
  · intro refused
    exact ⟨_, refused, rfl⟩

/-- The residues whose tags a division looks at: the dividend only if the divisor has an inverse. -/
def divides (m : Modulus) (a b : Element) : List Element :=
  if (m.inverse? b.representative).value = none then [b] else [b, a]

section

variable (active : env.active = some m)

include active

theorem examines_unary (op : Unary) : Examines m (op.method env a) [a] := by
  intro n k
  cases op with
  | neg => simp [Unary.method, neg, refuses_unary active]
  | square => simp [Unary.method, square, refuses_unary active]
  | invert => simp [Unary.method, refuses_invert active]

theorem examines_binary {op : Modulus → Int → Int → Counted Int} :
    Examines m (binary env op a b) [a, b] := by
  intro n k
  simp [refuses_binary active]

theorem examines_div : Examines m (div env a b) (divides m a b) := by
  intro n k
  rw [refuses_div active, refuses_invert active, divides]
  split
  · next unit => simp [unit]
  · next unit => simp [unit]

/-- A running total has just been made, so that only what is added to it can stop a fold. -/
theorem examines_foldlM {op : Modulus → Int → Int → Counted Int} {l : List Element}
    (start : a.Fits m) :
    Examines m (l.foldlM (fun total b => Element.orPanic (binary env op total b)) a) l := by
  induction l generalizing a with
  | nil =>
    intro n k
    simp
  | cons b rest ih =>
    intro n k
    have both : Examines m (binary env op a b) [a, b] := examines_binary active
    have first := both.orPanic n k
    have more : (∃ r, Yields (Element.orPanic (binary env op a b)) r ∧
        Refuses (rest.foldlM (fun total b => Element.orPanic (binary env op total b)) r)
          (.mismatchPanic n k)) ↔ b.Fits m ∧ checkTags m rest = .error (.mismatchPanic n k) := by
      simp only [yields_orPanic, yields_binary]
      constructor
      · rintro ⟨r, ⟨m', active', -, fits, rfl⟩, refused⟩
        obtain rfl : m' = m := Option.some.inj (active'.symm.trans active)
        exact ⟨fits, (ih (fits_residue _) n k).1 refused⟩
      · rintro ⟨fits, stopped⟩
        exact ⟨_, ⟨m, active, start, fits, rfl⟩, (ih (fits_residue _) n k).2 stopped⟩
    have passes : a.checkTag m = .ok () := checkTag_eq_ok.2 start
    rw [List.foldlM_cons, Counted.refuses_bind, first, more]
    simp [passes, start]

theorem examines_fold {op : Modulus → Int → Int → Counted Int} {x : Making Element} {v : Int}
    (starts : ∀ r, Yields x r ↔ r = env.residue m v) (l : List Element) :
    Examines m (do l.foldlM (fun total b => Element.orPanic (binary env op total b)) (← makeOrPanic x))
      l := by
  intro n k
  have sound : ¬ Refuses (makeOrPanic x) (.mismatchPanic n k) := by
    intro refused
    obtain ⟨e, -, same⟩ := Counted.refuses_adapt.1 refused
    cases same
  simp only [Counted.refuses_bind, sound, false_or, yields_makeOrPanic, starts, exists_eq_left]
  exact examines_foldlM active (fits_residue v) n k

theorem yields_zero_of_active : Yields (zero env) r ↔ r = env.residue m 0 := by
  simp [yields_zero, active]

theorem yields_one_of_active : Yields (one env) r ↔ r = env.residue m (1 % m.value) := by
  simp [yields_one, yields_ofInt, active]

theorem examines_sum (l : List Element) : Examines m (sum env l) l :=
  examines_fold active (fun _ => yields_zero_of_active active) l

theorem examines_product (l : List Element) : Examines m (product env l) l :=
  examines_fold active (fun _ => yields_one_of_active active) l

/-! ## Folds that answer -/

theorem foldlM_answers {op : Modulus → Int → Int → Counted Int} {l : List Element}
    (start : a.Fits m) (fits : ∀ b ∈ l, b.Fits m) :
    ∃ r, Yields (l.foldlM (fun total b => Element.orPanic (binary env op total b)) a) r := by
  induction l generalizing a with
  | nil => exact ⟨a, Counted.yields_pure.2 rfl⟩
  | cons b rest ih =>
    obtain ⟨first, others⟩ := List.forall_mem_cons.1 fits
    have total : Yields (Element.orPanic (binary env op a b)) _ :=
      yields_orPanic.2 (yields_binary.2 ⟨m, active, start, first, rfl⟩)
    obtain ⟨r, more⟩ := ih (fits_residue _) others
    rw [List.foldlM_cons]
    exact ⟨r, Counted.yields_bind.2 ⟨_, total, more⟩⟩

theorem fold_answers {op : Modulus → Int → Int → Counted Int} {x : Making Element} {v : Int}
    {l : List Element} (starts : Yields x (env.residue m v)) (fits : ∀ b ∈ l, b.Fits m) :
    ∃ r, Yields (do
      l.foldlM (fun total b => Element.orPanic (binary env op total b)) (← makeOrPanic x)) r := by
  have total : ∃ r, Yields (l.foldlM (fun total b => Element.orPanic (binary env op total b))
      (env.residue m v)) r := foldlM_answers active (fits_residue v) fits
  obtain ⟨r, made⟩ := total
  exact ⟨r, Counted.yields_bind.2 ⟨_, yields_makeOrPanic.2 starts, made⟩⟩

theorem sum_answers {l : List Element} (fits : ∀ a ∈ l, a.Fits m) : ∃ r, Yields (sum env l) r :=
  fold_answers active ((yields_zero_of_active active).2 rfl) fits

theorem product_answers {l : List Element} (fits : ∀ a ∈ l, a.Fits m) :
    ∃ r, Yields (product env l) r :=
  fold_answers active ((yields_one_of_active active).2 rfl) fits

end

end Element

end AmbientResidue
