import AmbientResidue.Integer
import AmbientResidue.Proofs.Counted
import AmbientResidue.Proofs.Decimal

/-! # Literals and what they denote

A numeral grows to the right, ten times the number so far and one more digit at each step; a literal
is a numeral after at most one sign. The reader answers exactly what a literal denotes. The engine
alone would also take underscores behind the first digit, but is never asked about such a text. -/

namespace AmbientResidue

open Counted (Yields Refuses)

namespace Decimal

/-- One or more digits, and the number that they denote in base ten. -/
inductive Numeral : List Char → Nat → Prop where
  | digit {d} : d < 10 → Numeral [d.digitChar] d
  | append {cs n d} : Numeral cs n → d < 10 → Numeral (cs ++ [d.digitChar]) (10 * n + d)

/-- A numeral by itself, after a plus sign, or after a minus sign. -/
inductive Literal : List Char → Int → Prop where
  | unsigned {cs n} : Numeral cs n → Literal cs n
  | plus {cs n} : Numeral cs n → Literal ('+' :: cs) n
  | minus {cs n} : Numeral cs n → Literal ('-' :: cs) (-n)

variable {c : Char} {cs ds : List Char} {n : Nat} {v w : Int}

/-! ## Numerals -/

theorem exists_digitChar (h : c.isDigit = true) : ∃ d, d < 10 ∧ c = d.digitChar := by
  simp only [Char.isDigit, Bool.and_eq_true, decide_eq_true_eq] at h
  have least : 48 ≤ c.toNat := h.1
  have most : c.toNat ≤ 57 := h.2
  have small : c.toNat - 48 < 10 := by omega
  refine ⟨c.toNat - 48, small, Char.toNat_inj.1 ?_⟩
  rw [Nat.toNat_digitChar_of_lt_ten small]
  omega

theorem Numeral.all_digits (h : Numeral cs n) : ∀ c ∈ cs, c.isDigit = true := by
  induction h with
  | digit small => simpa [Nat.isDigit_digitChar] using small
  | append _ small ih =>
    intro c mem
    rcases List.mem_append.1 mem with before | last
    · exact ih c before
    · rw [List.mem_singleton.1 last, Nat.isDigit_digitChar]
      exact decide_eq_true small

theorem Numeral.ne_nil (h : Numeral cs n) : cs ≠ [] := by
  cases h <;> simp

theorem Numeral.magnitude_eq (h : Numeral cs n) : magnitude cs = n := by
  induction h with
  | digit small =>
    rw [magnitude, Nat.ofDigitChars_cons_digitChar_of_lt_ten small, Nat.ofDigitChars_nil]
    omega
  | append _ small ih =>
    rw [magnitude] at ih ⊢
    rw [Nat.ofDigitChars_append, ih, Nat.ofDigitChars_cons_digitChar_of_lt_ten small,
      Nat.ofDigitChars_nil]

/-- Reading more digits from the left appends them one by one. -/
theorem Numeral.extend (h : Numeral cs n) (digits : ∀ c ∈ ds, c.isDigit = true) :
    Numeral (cs ++ ds) (Nat.ofDigitChars 10 ds n) := by
  induction ds generalizing cs n with
  | nil => simpa using h
  | cons c ds ih =>
    obtain ⟨d, small, rfl⟩ := exists_digitChar (digits c List.mem_cons_self)
    have longer := ih (h.append small) fun c mem => digits c (List.mem_cons_of_mem _ mem)
    rwa [List.append_assoc, List.singleton_append,
      ← Nat.ofDigitChars_cons_digitChar_of_lt_ten small] at longer

theorem numeral_iff : Numeral cs n ↔ cs ≠ [] ∧ (∀ c ∈ cs, c.isDigit = true) ∧ magnitude cs = n := by
  refine ⟨fun h => ⟨h.ne_nil, h.all_digits, h.magnitude_eq⟩, ?_⟩
  rintro ⟨nonempty, digits, rfl⟩
  cases cs with
  | nil => exact absurd rfl nonempty
  | cons c cs =>
    obtain ⟨d, small, rfl⟩ := exists_digitChar (digits c List.mem_cons_self)
    have read := (Numeral.digit small).extend fun c mem => digits c (List.mem_cons_of_mem _ mem)
    rwa [magnitude, Nat.ofDigitChars_cons_digitChar_of_lt_ten small, Nat.mul_zero, Nat.zero_add]

/-! ## Signs -/

theorem splitSign_cons (minus : c ≠ '-') (plus : c ≠ '+') :
    splitSign (c :: cs) = (false, c :: cs) := by
  unfold splitSign
  split
  · next eq => cases eq; exact absurd rfl minus
  · next eq => cases eq; exact absurd rfl plus
  · rfl

theorem splitSign_of_isDigit (h : c.isDigit = true) : splitSign (c :: cs) = (false, c :: cs) :=
  splitSign_cons (by rintro rfl; cases h) (by rintro rfl; cases h)

theorem Numeral.splitSign_eq (h : Numeral cs n) : splitSign cs = (false, cs) := by
  cases cs with
  | nil => exact absurd rfl h.ne_nil
  | cons c cs => exact splitSign_of_isDigit (h.all_digits c List.mem_cons_self)

theorem literal_iff :
    Literal cs v ↔ ∃ n, Numeral (splitSign cs).2 n ∧ v = signed (splitSign cs).1 n := by
  constructor
  · intro h
    cases h with
    | unsigned h => exact ⟨_, by rwa [h.splitSign_eq], by rw [h.splitSign_eq]; rfl⟩
    | plus h | minus h => exact ⟨_, h, rfl⟩
  · rintro ⟨n, h, rfl⟩
    unfold splitSign at h ⊢
    split at h
    · exact .minus h
    · exact .plus h
    · exact .unsigned h

theorem Literal.unique (h : Literal cs v) (k : Literal cs w) : v = w := by
  obtain ⟨n, hn, rfl⟩ := literal_iff.1 h
  obtain ⟨k, hk, rfl⟩ := literal_iff.1 k
  rw [← hn.magnitude_eq, ← hk.magnitude_eq]

/-- The shape that is checked before a text is read is that of the literals. -/
theorem isLiteral_iff : isLiteral cs = true ↔ ∃ v, Literal cs v := by
  simp only [isLiteral, Bool.and_eq_true, Bool.not_eq_true', List.isEmpty_eq_false_iff,
    List.all_eq_true, literal_iff, numeral_iff]
  constructor
  · rintro ⟨nonempty, digits⟩
    exact ⟨_, _, ⟨nonempty, digits, rfl⟩, rfl⟩
  · rintro ⟨_, _, ⟨nonempty, digits, -⟩, -⟩
    exact ⟨nonempty, digits⟩

/-! ## The engine's reader -/

/-- What is left of a text without its underscores. -/
def unseparated (cs : List Char) : List Char := cs.filter (· != '_')

theorem unseparated_of_notMem (h : '_' ∉ cs) : unseparated cs = cs :=
  List.filter_eq_self.2 fun c mem => by
    have other : c ≠ '_' := fun eq => h (eq ▸ mem)
    simpa using other

theorem unseparated_cons (h : c ≠ '_') : unseparated (c :: cs) = c :: unseparated cs :=
  List.filter_cons_of_pos (by simpa using h)

/-- Taking the underscores out does not disturb the sign, unless one of them hides it. -/
theorem splitSign_unseparated (front : (splitSign cs).2.head? ≠ some '_') :
    splitSign (unseparated cs) = ((splitSign cs).1, unseparated (splitSign cs).2) := by
  cases cs with
  | nil => rfl
  | cons c cs =>
    by_cases minus : c = '-'
    · subst minus
      rfl
    by_cases plus : c = '+'
    · subst plus
      rfl
    rw [splitSign_cons minus plus] at front ⊢
    have kept : c ≠ '_' := by simpa using front
    rw [unseparated_cons kept, splitSign_cons minus plus]

/-- Behind the sign, digits are read through underscores that do not stand in front. -/
theorem numeral_unseparated_iff :
    Numeral (unseparated (c :: cs)) n ∧ c ≠ '_' ↔
      (c.isDigit && (c :: cs).all fun c => c.isDigit || c == '_') = true ∧
        magnitude (unseparated (c :: cs)) = n := by
  rw [numeral_iff, Bool.and_eq_true, List.all_eq_true]
  constructor
  · rintro ⟨⟨-, digits, value⟩, front⟩
    have digit : ∀ d ∈ c :: cs, d ≠ '_' → d.isDigit = true := fun d mem other =>
      digits d (List.mem_filter.2 ⟨mem, by simpa using other⟩)
    refine ⟨⟨digit c List.mem_cons_self front, fun d mem => ?_⟩, value⟩
    by_cases separator : d = '_'
    · simp [separator]
    · simp [digit d mem separator]
  · rintro ⟨⟨first, all⟩, value⟩
    have front : c ≠ '_' := by rintro rfl; cases first
    refine ⟨⟨?_, ?_, value⟩, front⟩
    · rw [unseparated_cons front]
      exact List.cons_ne_nil _ _
    · intro d mem
      obtain ⟨mem, other⟩ := List.mem_filter.1 mem
      simpa [bne_iff_ne.1 other] using all d mem

/-- The engine reads a text as the literal that is left without the underscores, if none of them
stands before the first digit. -/
theorem readTolerant?_eq_some_iff :
    readTolerant? cs = some v ↔
      Literal (unseparated cs) v ∧ (splitSign cs).2.head? ≠ some '_' := by
  rw [literal_iff]
  constructor
  · intro read
    unfold readTolerant? at read
    split at read
    next negative body split_ =>
    cases body with
    | nil => cases read
    | cons c rest =>
      dsimp only at read
      split at read
      · next shape =>
        cases read
        obtain ⟨numeral, front⟩ := numeral_unseparated_iff.2 ⟨shape, rfl⟩
        have first : (splitSign cs).2.head? ≠ some '_' := by simpa [split_] using front
        rw [splitSign_unseparated first, split_]
        exact ⟨⟨_, numeral, rfl⟩, by simpa using front⟩
      · cases read
  · rintro ⟨⟨n, numeral, rfl⟩, first⟩
    rw [splitSign_unseparated first] at numeral ⊢
    unfold readTolerant?
    split
    next negative body split_ =>
    rw [split_] at numeral first ⊢
    cases body with
    | nil => exact absurd rfl numeral.ne_nil
    | cons c rest =>
      obtain ⟨shape, rfl⟩ := numeral_unseparated_iff.1 ⟨numeral, by simpa using first⟩
      exact if_pos shape

theorem Literal.isDigit_or_sign (h : Literal cs v) :
    ∀ c ∈ cs, c.isDigit = true ∨ c = '+' ∨ c = '-' := by
  cases h with
  | unsigned h => exact fun c mem => .inl (h.all_digits c mem)
  | plus h | minus h =>
    intro c mem
    rcases List.mem_cons.1 mem with rfl | mem
    · simp
    · exact .inl (h.all_digits c mem)

theorem Literal.no_separator (h : Literal cs v) : '_' ∉ cs := by
  intro mem
  have other := h.isDigit_or_sign '_' mem
  revert other
  decide

/-- The engine refuses no literal. -/
theorem readTolerant?_of_literal (h : Literal cs v) : readTolerant? cs = some v := by
  obtain ⟨n, numeral, -⟩ := literal_iff.1 h
  refine readTolerant?_eq_some_iff.2 ⟨by rwa [unseparated_of_notMem h.no_separator], ?_⟩
  intro front
  have digit := numeral.all_digits '_' (List.mem_of_head? front)
  cases digit

end Decimal

namespace Integer

open Decimal (Literal unseparated splitSign isLiteral)
open Engine (standard)

variable {s : String} {v : Int} {e : Refusal}

theorem ofDecimal?_of_isLiteral (shape : isLiteral s.toList = true) :
    ∃ v, (standard.ofDecimal? s).value = some v ∧ Literal s.toList v := by
  obtain ⟨v, denoted⟩ := Decimal.isLiteral_iff.1 shape
  exact ⟨v, Decimal.readTolerant?_of_literal denoted, denoted⟩

/-- The text is read at the price of one reading. -/
theorem engine_ofDecimal? (s : String) :
    engine.ofDecimal? s = ⟨(standard.ofDecimal? s).value, { fromDecimal := 1 }⟩ := rfl

/-- A text is either read as what it denotes or refused as it stands. -/
theorem ofLiteral_cases (s : String) :
    (∃ v, Literal s.toList v ∧ Yields (ofLiteral s) v) ∨
      (∀ v, ¬ Literal s.toList v) ∧ Refuses (ofLiteral s) (.badLiteral s) := by
  by_cases shape : isLiteral s.toList = true
  · obtain ⟨v, read, denoted⟩ := ofDecimal?_of_isLiteral shape
    refine .inl ⟨v, denoted, ?_⟩
    rw [ofLiteral, if_pos shape, engine_ofDecimal?, read]
    rfl
  · refine .inr ⟨fun v denoted => shape (Decimal.isLiteral_iff.2 ⟨v, denoted⟩), ?_⟩
    rw [ofLiteral, if_neg shape]
    exact Counted.refuses_throw.2 rfl

theorem yields_ofLiteral_iff : Yields (ofLiteral s) v ↔ Literal s.toList v := by
  rcases ofLiteral_cases s with ⟨w, denoted, made⟩ | ⟨senseless, refused⟩
  · constructor
    · intro h
      rwa [Counted.yields_unique h made]
    · intro h
      rwa [h.unique denoted]
  · constructor
    · intro h
      cases h.symm.trans refused
    · intro h
      exact absurd h (senseless v)

theorem refuses_ofLiteral_iff :
    Refuses (ofLiteral s) e ↔ (∀ v, ¬ Literal s.toList v) ∧ e = .badLiteral s := by
  rcases ofLiteral_cases s with ⟨w, denoted, made⟩ | ⟨senseless, refused⟩
  · constructor
    · intro h
      cases h.symm.trans made
    · rintro ⟨senseless, -⟩
      exact absurd denoted (senseless w)
  · constructor
    · intro h
      exact ⟨senseless, Except.error.inj (h.symm.trans refused)⟩
    · rintro ⟨-, rfl⟩
      exact refused

theorem cost_ofLiteral (s : String) :
    (ofLiteral s).run.cost = if isLiteral s.toList then { fromDecimal := 1 } else 0 := by
  by_cases shape : isLiteral s.toList = true
  · obtain ⟨v, read, -⟩ := ofDecimal?_of_isLiteral shape
    rw [ofLiteral, if_pos shape, if_pos shape, engine_ofDecimal?, read]
    rfl
  · rw [ofLiteral, if_neg shape, if_neg shape]
    rfl

theorem screened (read : (standard.ofDecimal? s).value = some v) :
    Yields (ofLiteral s) v ∨ '_' ∈ s.toList ∧ Refuses (ofLiteral s) (.badLiteral s) := by
  obtain ⟨denoted, -⟩ := Decimal.readTolerant?_eq_some_iff.1 read
  by_cases separated : '_' ∈ s.toList
  · refine .inr ⟨separated, refuses_ofLiteral_iff.2 ⟨fun w meant => ?_, rfl⟩⟩
    exact meant.no_separator separated
  · rw [Decimal.unseparated_of_notMem separated] at denoted
    exact .inl (yields_ofLiteral_iff.2 denoted)

/-- What becomes of a text that is read as an integer. -/
structure Reading (s : String) : Prop where
  yields : ∀ v, Yields (ofLiteral s) v ↔ Literal s.toList v
  unique : ∀ v w, Literal s.toList v → Literal s.toList w → v = w
  refuses : ∀ e, Refuses (ofLiteral s) e ↔ (∀ v, ¬ Literal s.toList v) ∧ e = .badLiteral s
  /-- The engine answers for every text of the right shape. -/
  answers : isLiteral s.toList = true → ∃ v, (standard.ofDecimal? s).value = some v
  /-- It is asked about no other. -/
  asks : (ofLiteral s).run.cost = if isLiteral s.toList then { fromDecimal := 1 } else 0
  /-- Left to itself it would read through underscores. -/
  tolerates : ∀ v, (standard.ofDecimal? s).value = some v ↔
    Literal (unseparated s.toList) v ∧ (splitSign s.toList).2.head? ≠ some '_'
  /-- What it would read so is refused. -/
  screens : ∀ v, (standard.ofDecimal? s).value = some v →
    Yields (ofLiteral s) v ∨ '_' ∈ s.toList ∧ Refuses (ofLiteral s) (.badLiteral s)

/-- Every text is read as the integer that it denotes, or refused unchanged if it denotes none. -/
theorem literals_read_exactly (s : String) : Reading s where
  yields _ := yields_ofLiteral_iff
  unique _ _ h k := h.unique k
  refuses _ := refuses_ofLiteral_iff
  answers shape := (ofDecimal?_of_isLiteral shape).imp fun _ h => h.1
  tolerates _ := Decimal.readTolerant?_eq_some_iff
  screens _ := screened
  asks := cost_ofLiteral s

/-- Leading zeros are read, an underscore is not, though the engine would take it. -/
theorem literals_read_exactly_separated :
    Yields (ofLiteral "-007") (-7) ∧ (standard.ofDecimal? "1_0").value = some 10 ∧
      Refuses (ofLiteral "1_0") (.badLiteral "1_0") := by
  have seven : Decimal.Numeral ['0', '0', '7'] 7 :=
    ((Decimal.Numeral.digit (d := 0) (by decide)).append (d := 0) (by decide)).append (d := 7)
      (by decide)
  have tolerated : (standard.ofDecimal? "1_0").value = some 10 := by decide +kernel
  refine ⟨((literals_read_exactly "-007").yields _).2 (.minus seven), tolerated, ?_⟩
  have separated : '_' ∈ "1_0".toList := by decide
  refine ((literals_read_exactly "1_0").refuses _).2 ⟨fun v literal => ?_, rfl⟩
  exact literal.no_separator separated

end Integer

end AmbientResidue
