import AmbientResidue.Json.Lexer

/-! # Spelled tokens

A token may be spelled in several ways, and blanks may stand before and after it. Of whatever text
spells them, the lexer finds the tokens again. Only a number has to be told apart from what follows
it. -/

namespace AmbientResidue.Json

/-- Nothing but blanks. -/
def Blank (cs : List Char) : Prop := ∀ c ∈ cs, isBlank c = true

/-- One or more digits. -/
structure Digits (cs : List Char) : Prop where
  nonempty : cs ≠ []
  all : ∀ c ∈ cs, c.isDigit = true

namespace Piece

inductive Spelled : Piece → List Char → Prop where
  | plain {c} : c ≠ '"' → c ≠ '\\' → Spelled (.plain c) [c]
  | escaped {c d} : letterEscape? c = some d → Spelled (.escaped d) ['\\', c]
  | unit {a b c d u} : hexUnit? a b c d = some u → Spelled (.unit u) ['\\', 'u', a, b, c, d]

/-- Pieces one after another. -/
inductive AllSpelled : List Piece → List Char → Prop where
  | nil : AllSpelled [] []
  | cons {p w ps cs} : Spelled p w → AllSpelled ps cs → AllSpelled (p :: ps) (w ++ cs)

end Piece

namespace Number

inductive SpelledFraction : Option (List Char) → List Char → Prop where
  | none : SpelledFraction none []
  | some {digits} : Digits digits → SpelledFraction (some digits) ('.' :: digits)

inductive SpelledExponent : Option (Bool × List Char) → List Char → Prop where
  | none : SpelledExponent none []
  | unsigned {letter digits} : letter = 'e' ∨ letter = 'E' → Digits digits →
      SpelledExponent (some (false, digits)) (letter :: digits)
  | plus {letter digits} : letter = 'e' ∨ letter = 'E' → Digits digits →
      SpelledExponent (some (false, digits)) (letter :: '+' :: digits)
  | minus {letter digits} : letter = 'e' ∨ letter = 'E' → Digits digits →
      SpelledExponent (some (true, digits)) (letter :: '-' :: digits)

/-- A number without its sign. A zero in front is the only digit before the point. -/
inductive SpelledMagnitude (n : Number) : List Char → Prop where
  | mk {fraction exponent} : Digits n.whole → (n.whole.head? = some '0' → n.whole.length = 1) →
      SpelledFraction n.fraction fraction → SpelledExponent n.exponent exponent →
      SpelledMagnitude n (n.whole ++ (fraction ++ exponent))

inductive Spelled (n : Number) : List Char → Prop where
  | positive {cs} : n.negative = false → SpelledMagnitude n cs → Spelled n cs
  | negative {cs} : n.negative = true → SpelledMagnitude n cs → Spelled n ('-' :: cs)

end Number

namespace Token

inductive Spelled : Token → List Char → Prop where
  | openArray : Spelled .openArray ['[']
  | closeArray : Spelled .closeArray [']']
  | openObject : Spelled .openObject ['\x7b']
  | closeObject : Spelled .closeObject ['\x7d']
  | comma : Spelled .comma [',']
  | colon : Spelled .colon [':']
  | null : Spelled .null ['n', 'u', 'l', 'l']
  | true : Spelled (.boolean true) ['t', 'r', 'u', 'e']
  | false : Spelled (.boolean false) ['f', 'a', 'l', 's', 'e']
  | text {ps cs} : Piece.AllSpelled ps cs → Spelled (.text ps) ('"' :: (cs ++ ['"']))
  | number {n cs} : n.Spelled cs → Spelled (.number n) cs

end Token

/-- No number that ends here could go on. -/
def Stops (cs : List Char) : Prop :=
  ∀ c ∈ cs.head?, c.isDigit = false ∧ c ≠ '.' ∧ c ≠ 'e' ∧ c ≠ 'E'

/-- A text that spells the tokens in order, with blanks wherever there is no token. -/
inductive Written : List Token → List Char → Prop where
  | nil {blanks} : Blank blanks → Written [] blanks
  | cons {t ts blanks w cs} : Blank blanks → t.Spelled w → (∀ n, t = .number n → Stops cs) →
      Written ts cs → Written (t :: ts) (blanks ++ (w ++ cs))

variable {c : Char} {cs w rest digits : List Char} {t : Token} {ts : List Token} {ps : List Piece}
  {n : Number}

/-! ## Strings -/

theorem scanText?_plain (quote : c ≠ '"') (backslash : c ≠ '\\') :
    scanText? (c :: rest) = (scanText? rest).map fun (ps, rest) => (.plain c :: ps, rest) := by
  rw [scanText?.eq_def]
  split
  · next h => cases h
  · next h => cases h; exact absurd rfl quote
  · next h => cases h; exact absurd rfl backslash
  · next h => cases h; exact absurd rfl backslash
  · next h => cases h; rw [if_neg backslash]

theorem scanText?_escaped {d : Char} (letter : letterEscape? c = some d) :
    scanText? ('\\' :: c :: rest) = (scanText? rest).map fun (ps, rest) => (.escaped d :: ps, rest) := by
  have other : c ≠ 'u' := by rintro rfl; cases letter
  rw [scanText?.eq_def]
  split
  · next h => cases h
  · next h => cases h
  · next h => cases h; exact absurd rfl other
  · next h =>
    cases h
    rw [letter]
    cases scanText? rest <;> rfl
  · next fresh h => cases h; exact absurd rfl (fresh c rest rfl)

theorem scanText?_unit {a b d e : Char} {u : Nat} (digits : hexUnit? a b d e = some u) :
    scanText? ('\\' :: 'u' :: a :: b :: d :: e :: rest) =
      (scanText? rest).map fun (ps, rest) => (.unit u :: ps, rest) := by
  rw [scanText?, digits]
  cases scanText? rest <;> rfl

/-- A string is read up to its closing quote. -/
theorem scanText?_spelled (spelled : Piece.AllSpelled ps cs) :
    scanText? (cs ++ '"' :: rest) = some (ps, rest) := by
  induction spelled with
  | nil => rfl
  | cons first _ ih =>
    cases first with
    | plain quote backslash =>
      rw [List.append_assoc, List.singleton_append, scanText?_plain quote backslash, ih,
        Option.map_some]
    | escaped letter =>
      rw [List.append_assoc, List.cons_append, List.singleton_append, scanText?_escaped letter, ih,
        Option.map_some]
    | unit digits =>
      exact (scanText?_unit digits).trans (congrArg (Option.map _) ih)

/-! ## Numbers -/

theorem stops_cons (ends : c.isDigit = false ∧ c ≠ '.' ∧ c ≠ 'e' ∧ c ≠ 'E') :
    Stops (c :: cs) := by
  intro d mem
  cases mem
  exact ends

theorem Stops.not_digit (stops : Stops rest) : ∀ c ∈ rest.head?, c.isDigit = false :=
  fun c mem => (stops c mem).1

theorem Digits.splitDigits_append (h : Digits digits)
    (ends : ∀ c ∈ rest.head?, c.isDigit = false) : splitDigits (digits ++ rest) = (digits, rest) := by
  have taken : rest.takeWhile Char.isDigit = [] := by
    cases rest with
    | nil => rfl
    | cons c rest => exact List.takeWhile_cons_of_neg (by simp [ends c rfl])
  have dropped : rest.dropWhile Char.isDigit = rest := by
    cases rest with
    | nil => rfl
    | cons c rest => exact List.dropWhile_cons_of_neg (by simp [ends c rfl])
  rw [splitDigits, List.takeWhile_append_of_pos h.all, List.dropWhile_append_of_pos h.all, taken,
    dropped, List.append_nil]

theorem scanFraction?_spelled {fraction : Option (List Char)}
    (spelled : Number.SpelledFraction fraction cs)
    (ends : ∀ c ∈ rest.head?, c.isDigit = false ∧ c ≠ '.') :
    scanFraction? (cs ++ rest) = some (fraction, rest) := by
  cases spelled with
  | none =>
    cases rest with
    | nil => rfl
    | cons c rest =>
      have point := (ends c rfl).2
      rw [List.nil_append]
      unfold scanFraction?
      split
      · next h => cases h; exact absurd rfl point
      · rfl
  | some digits =>
    rw [List.cons_append, scanFraction?, digits.splitDigits_append fun c mem => (ends c mem).1]
    split
    · next h => cases h; exact absurd rfl digits.nonempty
    · next h => cases h; rfl

theorem scanExponent?_letter (letter : c = 'e' ∨ c = 'E') :
    scanExponent? (c :: cs) = (scanExponentDigits? cs).map fun (e, rest) => (some e, rest) := by
  rcases letter with rfl | rfl <;> rfl

theorem scanExponentDigits?_eq {negative : Bool}
    (sign : Decimal.splitSign (cs ++ rest) = (negative, digits ++ rest)) (h : Digits digits)
    (ends : ∀ c ∈ rest.head?, c.isDigit = false) :
    scanExponentDigits? (cs ++ rest) = some ((negative, digits), rest) := by
  rw [scanExponentDigits?, sign]
  dsimp only
  rw [h.splitDigits_append ends]
  split
  · next nothing => cases nothing; exact absurd rfl h.nonempty
  · next same => cases same; rfl

theorem Digits.splitSign_append (h : Digits digits) :
    Decimal.splitSign (digits ++ rest) = (false, digits ++ rest) := by
  cases digits with
  | nil => exact absurd rfl h.nonempty
  | cons c digits =>
    have digit := h.all c List.mem_cons_self
    unfold Decimal.splitSign
    split
    · next same => cases same; cases digit
    · next same => cases same; cases digit
    · rfl

theorem scanExponent?_spelled {exponent : Option (Bool × List Char)}
    (spelled : Number.SpelledExponent exponent cs) (stops : Stops rest) :
    scanExponent? (cs ++ rest) = some (exponent, rest) := by
  cases spelled with
  | none =>
    cases rest with
    | nil => rfl
    | cons c rest =>
      obtain ⟨-, -, lower, upper⟩ := stops c rfl
      simp [scanExponent?, lower, upper]
  | unsigned letter digits =>
    rw [List.cons_append, scanExponent?_letter letter,
      scanExponentDigits?_eq digits.splitSign_append digits stops.not_digit, Option.map_some]
  | @plus _ ds letter digits =>
    have sign : Decimal.splitSign ('+' :: ds ++ rest) = (false, ds ++ rest) := rfl
    rw [List.cons_append, scanExponent?_letter letter,
      scanExponentDigits?_eq sign digits stops.not_digit, Option.map_some]
  | @minus _ ds letter digits =>
    have sign : Decimal.splitSign ('-' :: ds ++ rest) = (true, ds ++ rest) := rfl
    rw [List.cons_append, scanExponent?_letter letter,
      scanExponentDigits?_eq sign digits stops.not_digit, Option.map_some]

/-- An exponent begins with its letter, so it does not lengthen the digits before it. -/
theorem Number.SpelledExponent.stops {exponent : Option (Bool × List Char)}
    (spelled : Number.SpelledExponent exponent cs) (stops : Stops rest) :
    ∀ c ∈ (cs ++ rest).head?, c.isDigit = false ∧ c ≠ '.' := by
  have letters : ∀ c, c = 'e' ∨ c = 'E' → c.isDigit = false ∧ c ≠ '.' := by
    rintro c (rfl | rfl) <;> decide
  intro c mem
  cases spelled with
  | none => exact ⟨(stops c mem).1, (stops c mem).2.1⟩
  | unsigned letter | plus letter | minus letter =>
    cases mem
    exact letters _ letter

theorem Number.SpelledFraction.stops {fraction : Option (List Char)}
    (spelled : Number.SpelledFraction fraction cs) (ends : ∀ c ∈ rest.head?, c.isDigit = false) :
    ∀ c ∈ (cs ++ rest).head?, c.isDigit = false := by
  intro c mem
  cases spelled with
  | none => exact ends c mem
  | some => cases mem; rfl

theorem scanMagnitude?_spelled (spelled : n.SpelledMagnitude cs) (stops : Stops rest) :
    scanMagnitude? n.negative (cs ++ rest) = some (n, rest) := by
  obtain ⟨whole, zero, fraction, exponent⟩ := spelled
  have after := exponent.stops stops
  have behind := fraction.stops fun c mem => (after c mem).1
  have some_ : n.whole.isEmpty = false := by simpa using whole.nonempty
  have leading : (n.whole.head? == some '0' && decide (1 < n.whole.length)) = false := by
    by_cases first : n.whole.head? = some '0'
    · simp [zero first]
    · simp [first]
  rw [List.append_assoc, List.append_assoc, scanMagnitude?, whole.splitDigits_append behind]
  simp only [some_, leading, Bool.or_self, Bool.false_eq_true, if_false,
    scanFraction?_spelled fraction after, scanExponent?_spelled exponent stops, bind,
    Option.bind_some]
  rfl

/-! ## Tokens -/

theorem not_isBlank_of_isDigit (digit : c.isDigit = true) : isBlank c = false := by
  cases blank : isBlank c with
  | false => rfl
  | true =>
    simp only [isBlank, Bool.or_eq_true, decide_eq_true_eq] at blank
    rcases blank with ((rfl | rfl) | rfl) | rfl <;> cases digit

theorem scanToken?_digit (digit : c.isDigit = true) :
    scanToken? (c :: cs) = (scanMagnitude? false (c :: cs)).map fun (n, rest) => (.number n, rest) := by
  unfold scanToken?
  split <;> first | rfl | (next h => cases h; cases digit)

theorem Number.SpelledMagnitude.exists_digit (spelled : n.SpelledMagnitude cs) :
    ∃ c rest, cs = c :: rest ∧ c.isDigit = true := by
  obtain ⟨whole, -, -, -⟩ := spelled
  cases shape : n.whole with
  | nil => exact absurd shape whole.nonempty
  | cons c digits => exact ⟨c, _, rfl, whole.all c (by simp [shape])⟩

/-- A spelled token begins with no blank and is found in front of whatever cannot lengthen it. -/
theorem scanToken?_spelled (spelled : t.Spelled w) (stops : ∀ n, t = .number n → Stops rest) :
    ∃ c cs, w ++ rest = c :: cs ∧ isBlank c = false ∧ scanToken? (c :: cs) = some (t, rest) := by
  cases spelled with
  | @text ps cs pieces =>
    refine ⟨'"', cs ++ '"' :: rest, by simp, rfl, ?_⟩
    rw [scanToken?, scanText?_spelled pieces, Option.map_some]
  | @number n cs number =>
    have stops := stops n rfl
    cases number with
    | positive sign magnitude =>
      obtain ⟨c, digits, rfl, digit⟩ := magnitude.exists_digit
      refine ⟨c, digits ++ rest, rfl, not_isBlank_of_isDigit digit, ?_⟩
      have found := scanMagnitude?_spelled magnitude stops
      rw [sign, List.cons_append] at found
      rw [scanToken?_digit digit, found, Option.map_some]
    | @negative cs sign magnitude =>
      refine ⟨'-', cs ++ rest, rfl, rfl, ?_⟩
      have found := scanMagnitude?_spelled magnitude stops
      rw [sign] at found
      rw [scanToken?, found, Option.map_some]
  | _ => exact ⟨_, _, rfl, rfl, rfl⟩

theorem tokens_cons {after : List Char} (solid : isBlank c = false)
    (scan : scanToken? (c :: cs) = some (t, after)) : tokens (c :: cs) = t :: tokens after := by
  rw [tokens]
  simp only [solid, Bool.false_eq_true, if_false]
  split
  · next found =>
    rw [scan] at found
    cases found
    rfl
  · next lost =>
    rw [scan] at lost
    cases lost

theorem tokens_blank (blank : Blank w) : tokens (w ++ cs) = tokens cs := by
  induction w with
  | nil => rfl
  | cons c w ih =>
    have first : isBlank c = true := blank c List.mem_cons_self
    rw [List.cons_append, tokens]
    simp only [first, if_true]
    exact ih fun d mem => blank d (List.mem_cons_of_mem c mem)

/-- The tokens of a text are those that it spells. -/
theorem Written.tokens_eq (written : Written ts cs) : tokens cs = ts := by
  induction written with
  | @nil blanks blank => rw [← List.append_nil blanks, tokens_blank blank, tokens]
  | cons blank spelled stops _ ih =>
    obtain ⟨c, cs, text, solid, scan⟩ := scanToken?_spelled spelled stops
    rw [tokens_blank blank, text, tokens_cons solid scan, ih]

theorem Written.token (spelled : t.Spelled w) (stops : ∀ n, t = .number n → Stops cs)
    (written : Written ts cs) : Written (t :: ts) (w ++ cs) :=
  have nothing : Blank [] := nofun
  .cons nothing spelled stops written

theorem Written.spelled (written : Written ts cs) (mem : t ∈ ts) : ∃ w, t.Spelled w := by
  induction written with
  | nil => cases mem
  | cons _ spelled _ _ ih =>
    rcases List.mem_cons.1 mem with rfl | later
    · exact ⟨_, spelled⟩
    · exact ih later

end AmbientResidue.Json
