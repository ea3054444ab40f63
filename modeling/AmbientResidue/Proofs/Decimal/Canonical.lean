import AmbientResidue.Proofs.Decimal.Grammar

/-! # Canonical literals

Every integer is printed as its canonical literal, and a literal is printed again without whatever
is not needed to tell its integer: the plus sign, leading zeros and the minus sign of zero. -/

namespace AmbientResidue

open Counted (Yields)

namespace Decimal

/-- A single zero, or digits that do not begin with a zero, after a minus sign or no sign. -/
inductive Canonical : List Char → Prop where
  | zero : Canonical ['0']
  | positive {c cs} : c ≠ '0' → (∀ d ∈ c :: cs, d.isDigit = true) → Canonical (c :: cs)
  | negative {c cs} : c ≠ '0' → (∀ d ∈ c :: cs, d.isDigit = true) → Canonical ('-' :: c :: cs)

/-- Digits without leading zeros. Of zeros alone one is kept. -/
def bare (digits : List Char) : List Char :=
  match digits.dropWhile (· == '0') with
  | [] => ['0']
  | kept => kept

/-- A literal without its plus sign, its leading zeros and the minus sign of zero. -/
def tidy : List Char → List Char
  | '+' :: digits => bare digits
  | '-' :: digits => if bare digits = ['0'] then ['0'] else '-' :: bare digits
  | digits => bare digits

variable {cs : List Char} {n : Nat} {v : Int}

theorem toDigits_concat {d : Nat} (h : n ≠ 0) (small : d < 10) :
    Nat.toDigits 10 (10 * n + d) = Nat.toDigits 10 n ++ [d.digitChar] := by
  rw [← Nat.toDigits_append_toDigits (by decide) (Nat.pos_of_ne_zero h) small,
    Nat.toDigits_of_lt_base small]

/-- Behind its leading zeros a numeral is as its number is printed. -/
theorem Numeral.dropWhile_eq (h : Numeral cs n) :
    cs.dropWhile (· == '0') = if n = 0 then [] else Nat.toDigits 10 n := by
  have last : ∀ d, d < 10 →
      [d.digitChar].dropWhile (· == '0') = if d = 0 then [] else Nat.toDigits 10 d := by decide
  induction h with
  | digit small => exact last _ small
  | @append cs n d _ small ih =>
    rw [List.dropWhile_append, ih]
    by_cases zero : n = 0
    · rw [if_pos zero, zero, Nat.mul_zero, Nat.zero_add]
      exact last d small
    · have more : 10 * n + d ≠ 0 := by omega
      rw [if_neg zero, if_neg more, toDigits_concat zero small]
      simp

theorem Numeral.bare_eq (h : Numeral cs n) : bare cs = Nat.toDigits 10 n := by
  rw [bare, h.dropWhile_eq]
  by_cases zero : n = 0
  · rw [if_pos zero, zero, Nat.toDigits_zero]
  · rw [if_neg zero]
    split
    · next nothing => exact absurd nothing Nat.toDigits_ne_nil
    · rfl

theorem bare_of_head {c : Char} (h : c ≠ '0') : bare (c :: cs) = c :: cs := by
  rw [bare, List.dropWhile_cons_of_neg (by simpa using h)]

theorem tidy_of_isDigit {c : Char} (h : c.isDigit = true) : tidy (c :: cs) = bare (c :: cs) := by
  unfold tidy
  split
  · next eq => cases eq; cases h
  · next eq => cases eq; cases h
  · rfl

theorem print_neg (h : n ≠ 0) : print (-(n : Int)) = '-' :: Nat.toDigits 10 n := by
  have negative : -(n : Int) < 0 := by omega
  rw [print, if_pos negative, Int.natAbs_neg, Int.natAbs_natCast]

/-- Printing what was read tidies it. -/
theorem Literal.print_eq (h : Literal cs v) : print v = tidy cs := by
  cases h with
  | unsigned numeral =>
    cases cs with
    | nil => exact absurd rfl numeral.ne_nil
    | cons c cs =>
      have first : c.isDigit = true := numeral.all_digits c List.mem_cons_self
      rw [tidy_of_isDigit first, numeral.bare_eq, print_natCast]
  | plus numeral => rw [tidy, numeral.bare_eq, print_natCast]
  | @minus _ n numeral =>
    rw [tidy, numeral.bare_eq]
    by_cases zero : n = 0
    · subst zero
      rfl
    · have other : Nat.toDigits 10 n ≠ ['0'] := by
        intro digits
        have head := head_toDigits zero
        rw [digits] at head
        exact head rfl
      rw [if_neg other, print_neg zero]

theorem numeral_toDigits (n : Nat) : Numeral (Nat.toDigits 10 n) n :=
  numeral_iff.2 ⟨Nat.toDigits_ne_nil, fun _ => isDigit_of_mem, magnitude_toDigits n⟩

/-- Digits are printed for a number, and a minus sign before them if it is below zero. -/
theorem print_cases (v : Int) :
    (∃ n : Nat, v = n ∧ print v = Nat.toDigits 10 n) ∨
      ∃ n : Nat, n ≠ 0 ∧ v = -n ∧ print v = '-' :: Nat.toDigits 10 n := by
  cases v with
  | ofNat n => exact .inl ⟨n, rfl, print_natCast n⟩
  | negSucc n => exact .inr ⟨n + 1, Nat.succ_ne_zero n, rfl, print_neg (Nat.succ_ne_zero n)⟩

theorem literal_print (v : Int) : Literal (print v) v := by
  rcases print_cases v with ⟨n, rfl, printed⟩ | ⟨n, -, rfl, printed⟩
  · rw [printed]
    exact .unsigned (numeral_toDigits n)
  · rw [printed]
    exact .minus (numeral_toDigits n)

/-! ## Canonical literals are those that are printed -/

theorem toDigits_eq_cons (h : n ≠ 0) : ∃ c cs, Nat.toDigits 10 n = c :: cs ∧ c ≠ '0' ∧
    ∀ d ∈ c :: cs, d.isDigit = true := by
  have head := head_toDigits h
  have digits : ∀ d ∈ Nat.toDigits 10 n, d.isDigit = true := fun _ => isDigit_of_mem
  cases printed : Nat.toDigits 10 n with
  | nil => exact absurd printed Nat.toDigits_ne_nil
  | cons c cs =>
    rw [printed] at head digits
    exact ⟨c, cs, rfl, by simpa using head, digits⟩

theorem canonical_print (v : Int) : Canonical (print v) := by
  rcases print_cases v with ⟨n, -, printed⟩ | ⟨n, more, -, printed⟩
  · by_cases zero : n = 0
    · rw [printed, zero, Nat.toDigits_zero]
      exact .zero
    · obtain ⟨c, cs, digits, first, all⟩ := toDigits_eq_cons zero
      rw [printed, digits]
      exact .positive first all
  · obtain ⟨c, cs, digits, first, all⟩ := toDigits_eq_cons more
    rw [printed, digits]
    exact .negative first all

theorem Canonical.tidy_eq (h : Canonical cs) : tidy cs = cs := by
  cases h with
  | zero => rfl
  | positive first digits => rw [tidy_of_isDigit (digits _ List.mem_cons_self), bare_of_head first]
  | negative first digits =>
    rw [tidy, bare_of_head first, if_neg]
    intro same
    exact first (List.cons.inj same).1

theorem Canonical.exists_literal (h : Canonical cs) : ∃ v, Literal cs v := by
  cases h with
  | zero => exact ⟨0, .unsigned (Numeral.digit (d := 0) (by decide))⟩
  | positive _ digits =>
    exact ⟨_, .unsigned (numeral_iff.2 ⟨List.cons_ne_nil _ _, digits, rfl⟩)⟩
  | negative _ digits =>
    exact ⟨_, .minus (numeral_iff.2 ⟨List.cons_ne_nil _ _, digits, rfl⟩)⟩

theorem canonical_iff : Canonical cs ↔ ∃ v, cs = print v := by
  constructor
  · intro h
    obtain ⟨v, literal⟩ := h.exists_literal
    exact ⟨v, by rw [literal.print_eq, h.tidy_eq]⟩
  · rintro ⟨v, rfl⟩
    exact canonical_print v

theorem print_injective : Function.Injective print := fun v w same =>
  (literal_print v).unique (same ▸ literal_print w)

theorem text_injective : Function.Injective text := fun _ _ same =>
  print_injective (String.ofList_injective same)

theorem text_eq_tidy {s : String} (h : Literal s.toList v) :
    text v = String.ofList (tidy s.toList) := by
  rw [text, h.print_eq]

/-- The canonical literals are those that are printed, each is read as the integer it was printed
for, and printing what another literal was read as tidies that literal. -/
theorem literals_printed_canonically :
    (∀ cs, Canonical cs ↔ ∃ v, cs = (text v).toList) ∧
      (∀ v, Yields (Integer.ofLiteral (text v)) v) ∧
      (∀ s v, Yields (Integer.ofLiteral s) v → text v = String.ofList (tidy s.toList)) ∧
      (∀ s t v w, Yields (Integer.ofLiteral s) v → Yields (Integer.ofLiteral t) w →
        (text v = text w ↔ v = w) ∧ (tidy s.toList = tidy t.toList ↔ v = w)) ∧
      Function.Injective text := by
  refine ⟨fun cs => ?_, fun v => ?_, fun s v read => ?_, fun s t v w hs ht => ?_, text_injective⟩
  · simp only [text, String.toList_ofList, canonical_iff]
  · rw [Integer.yields_ofLiteral_iff, text, String.toList_ofList]
    exact literal_print v
  · exact text_eq_tidy (Integer.yields_ofLiteral_iff.1 read)
  · have left := (Integer.yields_ofLiteral_iff.1 hs).print_eq
    have right := (Integer.yields_ofLiteral_iff.1 ht).print_eq
    refine ⟨text_injective.eq_iff, ?_⟩
    rw [← left, ← right]
    exact print_injective.eq_iff

/-- The minus sign of a zero and the zeros of a seven are not printed again. -/
theorem literals_printed_canonically_tidied :
    Yields (Integer.ofLiteral "-000") 0 ∧ text 0 = "0" ∧
      Yields (Integer.ofLiteral "-007") (-7) ∧ text (-7) = "-7" := by
  have printed := literals_printed_canonically.2.2.1
  have zero : Yields (Integer.ofLiteral "-000") 0 := rfl
  have seven : Yields (Integer.ofLiteral "-007") (-7) := rfl
  have alone : String.ofList (tidy "-000".toList) = "0" := by decide +kernel
  have short : String.ofList (tidy "-007".toList) = "-7" := by decide +kernel
  exact ⟨zero, (printed _ _ zero).trans alone, seven, (printed _ _ seven).trans short⟩

end Decimal

end AmbientResidue
