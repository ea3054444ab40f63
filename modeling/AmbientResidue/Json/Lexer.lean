import AmbientResidue.Json.Token

/-!
From characters to tokens. Lexing never fails: from a place where no token can be read the rest of
the document is one `junk` token, so a reader that stops earlier never notices.
-/

namespace AmbientResidue.Json

def isBlank (c : Char) : Bool := c = ' ' || c = '\n' || c = '\t' || c = '\r'

def hexDigit? (c : Char) : Option Nat :=
  if '0' ≤ c ∧ c ≤ '9' then some (c.toNat - '0'.toNat)
  else if 'a' ≤ c ∧ c ≤ 'f' then some (c.toNat - 'a'.toNat + 10)
  else if 'A' ≤ c ∧ c ≤ 'F' then some (c.toNat - 'A'.toNat + 10)
  else none

/-- The sixteen-bit unit of four hexadecimal digits. -/
def hexUnit? (a b c d : Char) : Option Nat :=
  return (((← hexDigit? a) * 16 + (← hexDigit? b)) * 16 + (← hexDigit? c)) * 16 + (← hexDigit? d)

/-- The character that a backslash and the given one stand for. -/
def letterEscape? : Char → Option Char
  | '"' => some '"'
  | '\\' => some '\\'
  | '/' => some '/'
  | 'b' => some '\x08'
  | 'f' => some '\x0c'
  | 'n' => some '\n'
  | 'r' => some '\r'
  | 't' => some '\t'
  | _ => none

/-- The pieces up to the closing quote, and what follows it. -/
def scanText? : List Char → Option (List Piece × List Char)
  | [] => none
  | '"' :: rest => some ([], rest)
  | '\\' :: 'u' :: a :: b :: c :: d :: rest => do
    let u ← hexUnit? a b c d
    let (pieces, rest) ← scanText? rest
    return (.unit u :: pieces, rest)
  | '\\' :: c :: rest => do
    let c ← letterEscape? c
    let (pieces, rest) ← scanText? rest
    return (.escaped c :: pieces, rest)
  | c :: rest =>
    if c = '\\' then none
    else (scanText? rest).map fun (pieces, rest) => (.plain c :: pieces, rest)

/-- The digits in front, and what follows them. -/
def splitDigits (cs : List Char) : List Char × List Char :=
  (cs.takeWhile Char.isDigit, cs.dropWhile Char.isDigit)

/-- A fraction, if a point comes first. A point without digits after it is refused. -/
def scanFraction? : List Char → Option (Option (List Char) × List Char)
  | '.' :: rest =>
    match splitDigits rest with
    | ([], _) => none
    | (digits, rest) => some (some digits, rest)
  | cs => some (none, cs)

/-- The sign and digits of an exponent. -/
def scanExponentDigits? (cs : List Char) : Option ((Bool × List Char) × List Char) :=
  let (negative, cs) := Decimal.splitSign cs
  match splitDigits cs with
  | ([], _) => none
  | (digits, rest) => some ((negative, digits), rest)

/-- An exponent, if its letter comes first. -/
def scanExponent? : List Char → Option (Option (Bool × List Char) × List Char)
  | c :: rest =>
    if c = 'e' || c = 'E' then (scanExponentDigits? rest).map fun (e, rest) => (some e, rest)
    else some (none, c :: rest)
  | [] => some (none, [])

/-- A number without its sign. It has digits, and more than one only if the first is not zero. -/
def scanMagnitude? (negative : Bool) (cs : List Char) : Option (Number × List Char) := do
  let (whole, rest) := splitDigits cs
  if whole.isEmpty || (whole.head? == some '0' && 1 < whole.length) then none
  let (fraction, rest) ← scanFraction? rest
  let (exponent, rest) ← scanExponent? rest
  return ({ negative, whole, fraction, exponent }, rest)

/-- The token at the head of a text that does not begin with a blank. -/
def scanToken? : List Char → Option (Token × List Char)
  | '[' :: rest => some (.openArray, rest)
  | ']' :: rest => some (.closeArray, rest)
  | '\x7b' :: rest => some (.openObject, rest)
  | '\x7d' :: rest => some (.closeObject, rest)
  | ',' :: rest => some (.comma, rest)
  | ':' :: rest => some (.colon, rest)
  | 'n' :: 'u' :: 'l' :: 'l' :: rest => some (.null, rest)
  | 't' :: 'r' :: 'u' :: 'e' :: rest => some (.boolean true, rest)
  | 'f' :: 'a' :: 'l' :: 's' :: 'e' :: rest => some (.boolean false, rest)
  | '"' :: rest => (scanText? rest).map fun (pieces, rest) => (.text pieces, rest)
  | '-' :: rest => (scanMagnitude? true rest).map fun (n, rest) => (.number n, rest)
  | cs => (scanMagnitude? false cs).map fun (n, rest) => (.number n, rest)

theorem length_splitDigits_le (cs : List Char) : (splitDigits cs).2.length ≤ cs.length :=
  (List.dropWhile_sublist Char.isDigit).length_le

theorem length_splitDigits_lt {cs : List Char} (h : (splitDigits cs).1.isEmpty = false) :
    (splitDigits cs).2.length < cs.length := by
  cases cs with
  | nil => simp [splitDigits] at h
  | cons c rest =>
    cases hc : c.isDigit with
    | false => simp [splitDigits, hc] at h
    | true =>
      have skipped : (splitDigits (c :: rest)).2 = (splitDigits rest).2 := by
        simp [splitDigits, hc]
      rw [skipped]
      exact Nat.lt_succ_of_le (length_splitDigits_le rest)

theorem length_splitSign_le (cs : List Char) : (Decimal.splitSign cs).2.length ≤ cs.length := by
  fun_cases Decimal.splitSign cs <;> simp

theorem length_scanText? {cs rest : List Char} {pieces : List Piece}
    (h : scanText? cs = some (pieces, rest)) : rest.length < cs.length := by
  fun_induction scanText? cs generalizing pieces rest with
  | case1 => simp at h
  | case2 => simp_all
  | case3 a b c d tail ih =>
    simp only [bind, Option.bind_eq_some_iff, Prod.exists] at h
    obtain ⟨_, _, _, _, hr, h⟩ := h
    have := ih hr
    simp_all
    omega
  | case4 c tail _ ih =>
    simp only [bind, Option.bind_eq_some_iff, Prod.exists] at h
    obtain ⟨_, _, _, _, hr, h⟩ := h
    have := ih hr
    simp_all
    omega
  | case5 => simp at h
  | case6 c tail _ _ _ _ ih =>
    simp only [Option.map_eq_some_iff, Prod.exists] at h
    obtain ⟨_, _, hr, h⟩ := h
    have := ih hr
    simp_all
    omega

theorem length_scanFraction?_le {cs rest : List Char} {f : Option (List Char)}
    (h : scanFraction? cs = some (f, rest)) : rest.length ≤ cs.length := by
  fun_cases scanFraction? cs with
  | case1 => simp_all [scanFraction?]
  | case2 tail digits after hs =>
    have := length_splitDigits_le tail
    simp_all [scanFraction?]
    omega
  | case3 => simp_all [scanFraction?]

theorem length_scanExponentDigits?_le {cs rest : List Char} {e : Bool × List Char}
    (h : scanExponentDigits? cs = some (e, rest)) : rest.length ≤ cs.length := by
  have hs := length_splitSign_le cs
  have hd := length_splitDigits_le (Decimal.splitSign cs).2
  simp only [scanExponentDigits?] at h
  split at h <;> simp_all
  omega

theorem length_scanExponent?_le {cs rest : List Char} {e : Option (Bool × List Char)}
    (h : scanExponent? cs = some (e, rest)) : rest.length ≤ cs.length := by
  cases cs with
  | nil => simp_all [scanExponent?]
  | cons c tail =>
    by_cases hc : (c = 'e' || c = 'E') = true
    · simp only [scanExponent?, hc, if_true, Option.map_eq_some_iff, Prod.exists] at h
      obtain ⟨_, _, _, h, heq⟩ := h
      have := length_scanExponentDigits?_le h
      simp_all
      omega
    · simp_all [scanExponent?]

theorem length_scanMagnitude? {negative : Bool} {cs rest : List Char} {n : Number}
    (h : scanMagnitude? negative cs = some (n, rest)) : rest.length < cs.length := by
  simp only [scanMagnitude?] at h
  split at h
  · simp at h
  · rename_i hw
    simp only [bind, Option.bind_eq_some_iff, Prod.exists] at h
    obtain ⟨_, _, hf, _, _, he, h⟩ := h
    have hd : (splitDigits cs).2.length < cs.length := length_splitDigits_lt (by simp_all)
    have := length_scanFraction?_le hf
    have := length_scanExponent?_le he
    simp_all
    omega

theorem length_scanToken? {cs rest : List Char} {t : Token}
    (h : scanToken? cs = some (t, rest)) : rest.length < cs.length := by
  fun_cases scanToken? cs with
  | case10 tail =>
    simp only [scanToken?, Option.map_eq_some_iff, Prod.exists] at h
    obtain ⟨_, _, h, heq⟩ := h
    have := length_scanText? h
    simp_all
    omega
  | case11 tail =>
    simp only [scanToken?, Option.map_eq_some_iff, Prod.exists] at h
    obtain ⟨_, _, h, heq⟩ := h
    have := length_scanMagnitude? h
    simp_all
    omega
  | case12 =>
    simp_all only [scanToken?, Option.map_eq_some_iff, Prod.exists]
    obtain ⟨_, _, h, heq⟩ := h
    have := length_scanMagnitude? h
    simp_all
  | _ => simp_all [scanToken?] <;> omega

/-- The tokens of a document. -/
def tokens : List Char → List Token
  | [] => []
  | c :: rest =>
    if isBlank c then tokens rest
    else
      match _h : scanToken? (c :: rest) with
      | some (t, after) => t :: tokens after
      | none => [.junk]
termination_by cs => cs.length
decreasing_by
  · simp
  · exact length_scanToken? _h

end AmbientResidue.Json
