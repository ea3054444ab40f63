import AmbientResidue.Proofs.Json.Spelling

/-! # Strings in JSON

Where a string has characters, the bytes that it stands for are those of its characters. Every text
has a spelling as a string. -/

namespace AmbientResidue.Json

variable {ps : List Piece} {cs w : List Char} {c : Char} {u : Nat}

/-! ## Sixteen bits -/

theorem hexDigit?_lt {d : Nat} (h : hexDigit? c = some d) : d < 16 := by
  have bounds : ∀ low high k, low ≤ c ∧ c ≤ high → high.toNat - low.toNat + k < 16 →
      c.toNat - low.toNat + k < 16 := by
    intro low high k between room
    have most : c.toNat ≤ high.toNat := between.2
    omega
  unfold hexDigit? at h
  split at h
  · next digit => cases h; exact bounds '0' '9' 0 digit (by decide)
  · split at h
    · next lower => cases h; exact bounds 'a' 'f' 10 lower (by decide)
    · split at h
      · next upper => cases h; exact bounds 'A' 'F' 10 upper (by decide)
      · cases h

theorem hexUnit?_lt {a b c d : Char} (h : hexUnit? a b c d = some u) : u < 0x10000 := by
  simp only [hexUnit?, bind, Option.bind_eq_some_iff, pure, Option.some.injEq] at h
  obtain ⟨i, hi, j, hj, k, hk, l, hl, rfl⟩ := h
  have := hexDigit?_lt hi
  have := hexDigit?_lt hj
  have := hexDigit?_lt hk
  have := hexDigit?_lt hl
  omega

theorem Piece.AllSpelled.unit_lt (h : Piece.AllSpelled ps w) :
    ∀ u, Piece.unit u ∈ ps → u < 0x10000 := by
  induction h with
  | nil => exact nofun
  | cons spelled _ ih =>
    intro u mem
    rcases List.mem_cons.1 mem with rfl | later
    · cases spelled with
      | unit digits => exact hexUnit?_lt digits
    · exact ih u later

/-! ## Characters and bytes -/

theorem toNat_ofNat (valid : u.isValidChar) : (Char.ofNat u).toNat = u := by
  rw [Char.ofNat, dif_pos valid]
  rfl

theorem bytes_unit (alone : isHighSurrogate u = false) :
    bytes (.unit u :: ps) = Utf8.encodePoint u ++ bytes ps := by
  cases ps with
  | nil => simp [bytes]
  | cons p ps => cases p <;> simp [bytes, alone]

theorem eq_cons_of_bind {more : Option (List Char)} (text : (do return c :: (← more)) = some cs) :
    ∃ rest, more = some rest ∧ cs = c :: rest := by
  cases more with
  | none => cases text
  | some rest => exact ⟨rest, rfl, (Option.some.inj text).symm⟩

theorem toNat_joinSurrogates {high low : Nat} (first : isHighSurrogate high = true)
    (second : isLowSurrogate low = true) :
    (Char.ofNat (joinSurrogates high low)).toNat = joinSurrogates high low := by
  simp only [isHighSurrogate, isLowSurrogate, Bool.and_eq_true, decide_eq_true_eq] at first second
  apply toNat_ofNat
  have joined : joinSurrogates high low =
      0x10000 + (high - 0xd800) * 0x400 + (low - 0xdc00) := rfl
  exact .inr (by omega)

theorem toNat_unit (small : u < 0x10000) (low : ¬ isLowSurrogate u = true)
    (high : ¬ isHighSurrogate u = true) : (Char.ofNat u).toNat = u := by
  simp only [isHighSurrogate, isLowSurrogate, Bool.and_eq_true, decide_eq_true_eq] at low high
  apply toNat_ofNat
  by_cases below : u < 0xd800
  · exact .inl below
  · exact .inr (by omega)

/-- A string of characters stands for the bytes of these. -/
theorem bytes_eq_encode (small : ∀ u, Piece.unit u ∈ ps → u < 0x10000)
    (text : characters? ps = some cs) : bytes ps = Utf8.encode cs := by
  have encode_cons (c : Char) (cs : List Char) :
      Utf8.encode (c :: cs) = Utf8.encodePoint c.toNat ++ Utf8.encode cs := List.flatMap_cons
  fun_induction characters? ps generalizing cs with
  | case1 =>
    cases text
    rw [bytes]
    rfl
  | case2 | case5 | case7 | case8 => cases text
  | case3 c ps _ ih =>
    obtain ⟨rest, found, rfl⟩ := eq_cons_of_bind text
    rw [bytes, ih (fun u mem => small u (List.mem_cons_of_mem _ mem)) found, encode_cons]
  | case4 c ps ih =>
    obtain ⟨rest, found, rfl⟩ := eq_cons_of_bind text
    rw [bytes, ih (fun u mem => small u (List.mem_cons_of_mem _ mem)) found, encode_cons]
  | case6 u _ first v ps second ih =>
    obtain ⟨rest, found, rfl⟩ := eq_cons_of_bind text
    have later : ∀ u, Piece.unit u ∈ ps → u < 0x10000 := fun u mem =>
      small u (List.mem_cons_of_mem _ (List.mem_cons_of_mem _ mem))
    rw [bytes, if_pos (by rw [first, second]; rfl), ih later found, encode_cons,
      toNat_joinSurrogates first second]
  | case9 u ps low high ih =>
    obtain ⟨rest, found, rfl⟩ := eq_cons_of_bind text
    rw [bytes_unit (by simpa using high), encode_cons,
      ih (fun u mem => small u (List.mem_cons_of_mem _ mem)) found,
      toNat_unit (small u List.mem_cons_self) low high]

theorem Written.bytes_eq (written : Written [.text ps] w) (text : characters? ps = some cs) :
    bytes ps = Utf8.encode cs := by
  obtain ⟨_, spelled⟩ := written.spelled List.mem_cons_self
  cases spelled with
  | text pieces => exact bytes_eq_encode pieces.unit_lt text

/-! ## A spelling of every text -/

/-- Whether a character may stand for itself. -/
def standsAlone (c : Char) : Bool := c != '"' && c != '\\' && !isControl c

/-- The piece that a character is written as: itself, unless it has to be escaped. -/
def piece (c : Char) : Piece := if standsAlone c then .plain c else .unit c.toNat

def spelling (c : Char) : List Char :=
  if standsAlone c then [c]
  else ['\\', 'u', '0', '0', Nat.digitChar (c.toNat / 16), Nat.digitChar (c.toNat % 16)]

/-- A text between quotes. -/
def quoted (cs : List Char) : List Char := '"' :: (cs.flatMap spelling ++ ['"'])

theorem toNat_lt_of_escaped (escaped : standsAlone c = false) : c.toNat < 0x80 := by
  by_cases quote : c = '"'
  · subst quote; decide
  by_cases backslash : c = '\\'
  · subst backslash; decide
  have control : isControl c = true := by simpa [standsAlone, quote, backslash] using escaped
  exact Nat.lt_trans (of_decide_eq_true control) (by decide)

theorem hexUnit?_digitChar {n : Nat} (small : n < 0x100) :
    hexUnit? '0' '0' (Nat.digitChar (n / 16)) (Nat.digitChar (n % 16)) = some n := by
  have digit : ∀ d < 16, hexDigit? (Nat.digitChar d) = some d := by decide
  have nought : hexDigit? '0' = some 0 := rfl
  simp only [hexUnit?, nought, digit (n / 16) (by omega), digit (n % 16) (by omega), bind,
    Option.bind_some, pure, Option.some.injEq]
  omega

theorem spelled_piece (c : Char) : (piece c).Spelled (spelling c) := by
  cases alone : standsAlone c with
  | true =>
    simp only [piece, spelling, alone, if_true]
    simp only [standsAlone, Bool.and_eq_true, bne_iff_ne] at alone
    exact .plain alone.1.1 alone.1.2
  | false =>
    simp only [piece, spelling, alone, Bool.false_eq_true, if_false]
    exact .unit (hexUnit?_digitChar (Nat.lt_trans (toNat_lt_of_escaped alone) (by decide)))

theorem allSpelled_pieces (cs : List Char) :
    Piece.AllSpelled (cs.map piece) (cs.flatMap spelling) := by
  induction cs with
  | nil => exact .nil
  | cons c cs ih => exact .cons (spelled_piece c) ih

theorem characters?_unit (low : isLowSurrogate u = false) (high : isHighSurrogate u = false) :
    characters? (.unit u :: ps) = return Char.ofNat u :: (← characters? ps) := by
  cases ps with
  | nil => simp [characters?, low, high]
  | cons p ps => cases p <;> simp [characters?, low, high]

/-- The characters of the pieces of a text are the text. -/
theorem characters?_pieces (cs : List Char) : characters? (cs.map piece) = some cs := by
  induction cs with
  | nil => rfl
  | cons c cs ih =>
    rw [List.map_cons]
    cases alone : standsAlone c with
    | true =>
      have plain : isControl c = false := by
        simp only [standsAlone, Bool.and_eq_true, Bool.not_eq_true'] at alone
        exact alone.2
      simp [piece, alone, characters?, plain, ih]
    | false =>
      have small := toNat_lt_of_escaped alone
      have low : isLowSurrogate c.toNat = false := by
        simp only [isLowSurrogate, Bool.and_eq_false_iff, decide_eq_false_iff_not]
        omega
      have high : isHighSurrogate c.toNat = false := by
        simp only [isHighSurrogate, Bool.and_eq_false_iff, decide_eq_false_iff_not]
        omega
      rw [piece, alone, if_neg Bool.false_ne_true, characters?_unit low high, ih, Char.ofNat_toNat]
      rfl

theorem spelled_quoted (cs : List Char) : (Token.text (cs.map piece)).Spelled (quoted cs) :=
  .text (allSpelled_pieces cs)

theorem written_quoted (cs : List Char) : Written [.text (cs.map piece)] (quoted cs) := by
  have text : Written [.text (cs.map piece)] (quoted cs ++ []) :=
    .token (spelled_quoted cs) nofun (.nil nofun)
  rwa [List.append_nil] at text

/-- A text without anything to escape is spelled as it is. -/
theorem flatMap_spelling (alone : ∀ c ∈ cs, standsAlone c = true) : cs.flatMap spelling = cs := by
  induction cs with
  | nil => rfl
  | cons c cs ih =>
    rw [List.flatMap_cons, ih fun d mem => alone d (List.mem_cons_of_mem c mem), spelling,
      if_pos (alone c List.mem_cons_self), List.singleton_append]

end AmbientResidue.Json
