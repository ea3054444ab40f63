import AmbientResidue.Proofs.Decimal.Canonical
import AmbientResidue.Proofs.Json.Grammar
import AmbientResidue.Proofs.Json.Spelling

/-! # Integers and byte sequences in JSON

The literal of an integer spells one number token, which stands for the integer again if it fits in
64 bits. A sequence is read item by item: bytes are kept, and the first item that is none ends the
reading. -/

namespace AmbientResidue.Json

/-- The number that the literal of an integer spells. -/
def integral (v : Int) : Number := ⟨decide (v < 0), Nat.toDigits 10 v.natAbs, none, none⟩

variable {v : Int} {t : Token} {ts rest : List Token} {w cs : List Char} {e : ReadError}

/-! ## Integers -/

theorem digits_toDigits (n : Nat) : Digits (Nat.toDigits 10 n) where
  nonempty := Nat.toDigits_ne_nil
  all _ := Decimal.isDigit_of_mem

theorem spelledMagnitude_integral (v : Int) :
    (integral v).SpelledMagnitude (Nat.toDigits 10 v.natAbs) := by
  have zero : (integral v).whole.head? = some '0' → (integral v).whole.length = 1 := by
    intro first
    by_cases nothing : v.natAbs = 0
    · simp [integral, nothing]
    · exact absurd first (Decimal.head_toDigits nothing)
  have spelled : (integral v).SpelledMagnitude (_ ++ ([] ++ [])) :=
    .mk (digits_toDigits v.natAbs) zero .none .none
  rwa [List.append_nil, List.append_nil] at spelled

theorem spelled_integral (v : Int) : (integral v).Spelled (Decimal.print v) := by
  have magnitude := spelledMagnitude_integral v
  by_cases negative : v < 0
  · rw [Decimal.print, if_pos negative]
    exact .negative (by simp [integral, negative]) magnitude
  · rw [Decimal.print, if_neg negative]
    exact .positive (by simp [integral, negative]) magnitude

theorem integer?_integral (least : -(Nat.pow 2 63 : Int) ≤ v) (most : v < Nat.pow 2 64) :
    (integral v).integer? = some v := by
  simp only [Number.integer?, integral, Option.isSome_none, Bool.or_self, Bool.false_eq_true,
    if_false, Decimal.magnitude_toDigits, decide_eq_true_eq]
  by_cases negative : v < 0
  · have some_ : (decide (v.natAbs = 0) || decide (Nat.pow 2 63 < v.natAbs)) = false := by
      simp only [Bool.or_eq_false_iff, decide_eq_false_iff_not]
      omega
    rw [if_pos negative, if_neg (by rw [some_]; decide)]
    exact congrArg some (by omega)
  · have room : v.natAbs < Nat.pow 2 64 := by omega
    rw [if_neg negative, if_pos room]
    exact congrArg some (by omega)

theorem found?_integral (least : -(Nat.pow 2 63 : Int) ≤ v) (most : v < Nat.pow 2 64) :
    (Token.number (integral v)).found? = some (.integer v) := by
  simp only [Token.found?, integer?_integral least most]

/-! ## Reading bytes -/

/-- The tokens of a byte as an item of a sequence. -/
def byteItem (b : UInt8) : List Token := [.number (integral b.toNat)]

theorem readByte_integral (b : UInt8) : readByte (.number (integral b.toNat)) = .ok b := by
  have small : b.toNat < 256 := b.toNat_lt
  have power : Nat.pow 2 64 = 18446744073709551616 := rfl
  have found : (Token.number (integral b.toNat)).found? = some (.integer b.toNat) :=
    found?_integral (by omega) (by omega)
  have inside : (0 : Int) ≤ b.toNat ∧ (b.toNat : Int) < 256 := by omega
  simp only [readByte, found, inside, and_self, if_true, Int.toNat_natCast, UInt8.ofNat_toNat]

theorem readMoreBytes_comma (t : Token) (after : List Token) :
    readMoreBytes (.comma :: t :: after) = do
      let b ← readByte t
      let (bytes, rest) ← readMoreBytes after
      return (b :: bytes, rest) := rfl

theorem readBytes_item (after : List Token) (begins : t ≠ .closeArray) :
    readBytes (t :: after) = do
      let b ← readByte t
      let (bytes, rest) ← readMoreBytes after
      return (b :: bytes, rest) := by
  cases t <;> first | rfl | exact absurd rfl begins

/-- Bytes behind a comma each are read in front of whatever follows them. -/
theorem readMoreBytes_append (bytes : List UInt8) (after : List Token) :
    readMoreBytes (((bytes.map byteItem).flatMap fun v => .comma :: v) ++ after) = do
      let (more, rest) ← readMoreBytes after
      return (bytes ++ more, rest) := by
  induction bytes with
  | nil => exact (bind_pure (readMoreBytes after)).symm
  | cons b bytes ih =>
    rw [List.map_cons, List.flatMap_cons, List.append_assoc, byteItem, List.cons_append,
      List.singleton_append, readMoreBytes_comma, readByte_integral, ih]
    cases readMoreBytes after <;> rfl

/-- The bytes that a sequence begins with are read in front of its other items. -/
theorem readBytes_cons (b : UInt8) (bytes : List UInt8) (others : List (List Token))
    (rest : List Token) :
    readBytes ([.comma].intercalate ((b :: bytes).map byteItem ++ others) ++ rest) = do
      let (more, rest) ← readMoreBytes ((others.flatMap fun v => .comma :: v) ++ rest)
      return (b :: bytes ++ more, rest) := by
  have begins : Token.number (integral b.toNat) ≠ .closeArray := nofun
  rw [List.map_cons, List.cons_append, intercalate_append_cons, List.flatMap_append,
    List.append_assoc, byteItem, List.singleton_append, readBytes_item _ begins, readByte_integral,
    readMoreBytes_append]
  cases readMoreBytes ((others.flatMap fun v => .comma :: v) ++ rest) <;> rfl

/-- A sequence of bytes is read as these bytes. -/
theorem readBytes_array (bytes : List UInt8) (rest : List Token) :
    readBytes ([.comma].intercalate (bytes.map byteItem) ++ .closeArray :: rest) =
      .ok (bytes, rest) := by
  cases bytes with
  | nil => rfl
  | cons b bytes =>
    have read := readBytes_cons b bytes [] (.closeArray :: rest)
    have ends : readMoreBytes (.closeArray :: rest) = .ok ([], rest) := rfl
    rw [List.append_nil, List.flatMap_nil, List.nil_append, ends] at read
    refine read.trans ?_
    show Except.ok (b :: bytes ++ [], rest) = _
    rw [List.append_nil]

/-- The first item that is no byte ends the reading. -/
theorem readBytes_bad (bytes : List UInt8) (others : List (List Token)) (more : List Token)
    (begins : t ≠ .closeArray) (bad : readByte t = .error e) :
    readBytes ([.comma].intercalate (bytes.map byteItem ++ (t :: more) :: others) ++ rest) =
      .error e := by
  cases bytes with
  | nil =>
    rw [List.map_nil, List.nil_append, intercalate_append_cons, List.cons_append,
      readBytes_item _ begins, bad]
    rfl
  | cons b bytes =>
    rw [readBytes_cons, List.flatMap_cons, List.append_assoc, List.cons_append, List.cons_append,
      readMoreBytes_comma, bad]
    rfl

/-! ## Items that are no bytes -/

/-- An item that is no byte, and the error that it ends a reading of bytes with. Numbers that are too
large to be read at all and strings that are no text are errors of their own kind. -/
inductive Stray : List Token → ReadError → Prop where
  | null : Stray [.null] (.data (.kind .nothing .byte))
  | boolean (b : Bool) : Stray [.boolean b] (.data (.kind (.boolean b) .byte))
  | integer {n v} : n.integer? = some v → ¬ (0 ≤ v ∧ v < 256) →
      Stray [.number n] (.data (.range v .byte))
  | float {n} : n.integer? = none → n.overflows = false →
      Stray [.number n] (.data (.kind (.float none) .byte))
  | huge {n} : n.integer? = none → n.overflows = true → Stray [.number n] .malformed
  | text {ps cs} : characters? ps = some cs →
      Stray [.text ps] (.data (.kind (.text (String.ofList cs)) .byte))
  | noText {ps} : characters? ps = none → Stray [.text ps] .malformed
  | array {more} : Stray (.openArray :: more) (.data (.kind .sequence .byte))
  | object {more} : Stray (.openObject :: more) (.data (.kind .map .byte))

/-- The first token of the item is enough. -/
theorem Stray.readByte (stray : Stray ts e) :
    ∃ t more, ts = t :: more ∧ t ≠ .closeArray ∧ Json.readByte t = .error e := by
  cases stray with
  | null => exact ⟨_, _, rfl, nofun, rfl⟩
  | boolean b => exact ⟨_, _, rfl, nofun, rfl⟩
  | @integer n v integer outside =>
    refine ⟨_, _, rfl, nofun, ?_⟩
    simp only [Json.readByte, Token.found?, integer, outside, if_false]
  | float other small =>
    refine ⟨_, _, rfl, nofun, ?_⟩
    simp [Json.readByte, Token.unexpected, Token.found?, other, small]
  | huge other large =>
    refine ⟨_, _, rfl, nofun, ?_⟩
    simp [Json.readByte, Token.unexpected, Token.found?, other, large]
  | text found =>
    refine ⟨_, _, rfl, nofun, ?_⟩
    simp [Json.readByte, Token.unexpected, Token.found?, found]
  | noText lost =>
    refine ⟨_, _, rfl, nofun, ?_⟩
    simp [Json.readByte, Token.unexpected, Token.found?, lost]
  | array => exact ⟨_, _, rfl, nofun, rfl⟩
  | object => exact ⟨_, _, rfl, nofun, rfl⟩

/-- No digit is written without need. -/
theorem Number.SpelledMagnitude.whole_eq {n : Number} (spelled : n.SpelledMagnitude w) :
    Nat.toDigits 10 (Decimal.magnitude n.whole) = n.whole := by
  obtain ⟨whole, zero, -, -⟩ := spelled
  have numeral : Decimal.Numeral n.whole (Decimal.magnitude n.whole) :=
    Decimal.numeral_iff.2 ⟨whole.nonempty, whole.all, rfl⟩
  rw [← numeral.bare_eq]
  cases digits : n.whole with
  | nil => exact absurd digits whole.nonempty
  | cons c cs =>
    by_cases first : c = '0'
    · have alone : cs = [] := by
        rw [digits, first] at zero
        exact List.eq_nil_of_length_eq_zero (Nat.succ.inj (zero rfl))
      rw [first, alone]
      rfl
    · exact Decimal.bare_of_head first

/-- The literal of an integer is the only number that stands for it. -/
theorem eq_integral {n : Number} (spelled : n.Spelled w) (integer : n.integer? = some v) :
    n = integral v := by
  obtain ⟨cs, magnitude⟩ : ∃ cs, n.SpelledMagnitude cs := by
    cases spelled with
    | positive _ magnitude => exact ⟨_, magnitude⟩
    | negative _ magnitude => exact ⟨_, magnitude⟩
  have digits := magnitude.whole_eq
  obtain ⟨negative, whole, fraction, exponent⟩ := n
  dsimp only at digits
  unfold Number.integer? at integer
  dsimp only at integer
  cases fraction with
  | some => cases integer
  | none =>
    cases exponent with
    | some => cases integer
    | none =>
      rw [if_neg (by simp)] at integer
      generalize Decimal.magnitude whole = k at digits integer
      subst digits
      cases negative with
      | true =>
        rw [if_pos rfl] at integer
        split at integer
        · cases integer
        · next proper =>
          cases integer
          have positive : 0 < k := by
            refine Nat.pos_of_ne_zero ?_
            rintro rfl
            simp at proper
          simp [integral, positive]
      | false =>
        rw [if_neg Bool.false_ne_true] at integer
        split at integer
        · cases integer
          simp [integral]
        · cases integer

/-- A value is a byte or an item that is none. -/
theorem Value.byte_or_stray (value : Value ts) (spelled : ∀ t ∈ ts, ∃ w, t.Spelled w) :
    (∃ b, ts = byteItem b) ∨ ∃ e, Stray ts e := by
  cases value with
  | null => exact .inr ⟨_, .null⟩
  | boolean b => exact .inr ⟨_, .boolean b⟩
  | number n =>
    cases integer : n.integer? with
    | none =>
      cases large : n.overflows with
      | false => exact .inr ⟨_, .float integer large⟩
      | true => exact .inr ⟨_, .huge integer large⟩
    | some v =>
      by_cases inside : 0 ≤ v ∧ v < 256
      · have same : n = integral v := by
          obtain ⟨_, spelled⟩ := spelled (.number n) List.mem_cons_self
          cases spelled with
          | number digits => exact eq_integral digits integer
        have room : v.toNat < 256 := by omega
        have byte : (UInt8.ofNat v.toNat).toNat = v.toNat := UInt8.toNat_ofNat_of_lt' room
        refine .inl ⟨UInt8.ofNat v.toNat, ?_⟩
        rw [same, byteItem, byte, Int.toNat_of_nonneg inside.1]
      · exact .inr ⟨_, .integer integer inside⟩
  | @text ps _ =>
    cases found : characters? ps with
    | none => exact .inr ⟨_, .noText found⟩
    | some cs => exact .inr ⟨_, .text found⟩
  | array => exact .inr ⟨_, .array⟩
  | object => exact .inr ⟨_, .object⟩

/-- A sequence of values holds bytes or an item among them that is none. -/
theorem bytes_or_stray {items : List (List Token)} (values : ∀ v ∈ items, Value v)
    (spelled : ∀ v ∈ items, ∀ t ∈ v, ∃ w, t.Spelled w) :
    (∃ x : List UInt8, items = x.map byteItem) ∨
      ∃ (x : List UInt8) (bad : List Token) (others : List (List Token)) (e : ReadError),
        items = x.map byteItem ++ bad :: others ∧ Stray bad e := by
  induction items with
  | nil => exact .inl ⟨[], rfl⟩
  | cons v items ih =>
    rcases (values v List.mem_cons_self).byte_or_stray (spelled v List.mem_cons_self) with
      ⟨b, rfl⟩ | ⟨e, stray⟩
    · rcases ih (fun w mem => values w (List.mem_cons_of_mem _ mem))
        (fun w mem => spelled w (List.mem_cons_of_mem _ mem)) with
        ⟨x, rfl⟩ | ⟨x, bad, others, e, rfl, stray⟩
      · exact .inl ⟨b :: x, rfl⟩
      · exact .inr ⟨b :: x, bad, others, e, rfl, stray⟩
    · exact .inr ⟨[], v, items, e, rfl, stray⟩

/-! ## Written sequences -/

theorem Written.integral (v : Int) (stops : Stops cs) (written : Written ts cs) :
    Written (.number (integral v) :: ts) (Decimal.print v ++ cs) :=
  .token (.number (spelled_integral v)) (fun _ _ => stops) written

theorem written_integral (v : Int) : Written [.number (Json.integral v)] (Decimal.print v) := by
  have ends : Stops [] := nofun
  have nothing : Blank [] := nofun
  have text := Written.integral v ends (.nil nothing)
  rwa [List.append_nil] at text

/-- The characters of the items after the first, and of the closing bracket. -/
def moreItems : List UInt8 → List Char
  | [] => [']']
  | b :: rest => ',' :: (Decimal.print b.toNat ++ moreItems rest)

theorem stops_moreItems (bytes : List UInt8) : Stops (moreItems bytes) := by
  cases bytes <;> exact stops_cons (by decide)

theorem written_moreItems (bytes : List UInt8) :
    Written (((bytes.map byteItem).flatMap fun v => .comma :: v) ++ [.closeArray])
      (moreItems bytes) := by
  induction bytes with
  | nil => exact .token .closeArray nofun (.nil nofun)
  | cons b bytes ih =>
    exact .token .comma nofun (.integral _ (stops_moreItems bytes) ih)

/-- The bytes as a sequence of numbers. -/
def sequence (bytes : List UInt8) : String :=
  "[" ++ ",".intercalate (bytes.map fun b => Decimal.text b.toNat) ++ "]"

theorem toList_intercalate (b : UInt8) (rest : List UInt8) :
    (",".intercalate ((b :: rest).map fun b => Decimal.text b.toNat)).toList ++ [']'] =
      Decimal.print b.toNat ++ moreItems rest := by
  induction rest generalizing b with
  | nil => simp [moreItems, Decimal.text]
  | cons c rest ih =>
    have next := ih c
    simp only [List.map_cons] at next ⊢
    rw [String.intercalate_cons_cons, String.toList_append, String.toList_append, List.append_assoc,
      next]
    simp [moreItems, Decimal.text]

theorem Written.bracket (written : Written ts cs) : Written (.openArray :: ts) (['['] ++ cs) :=
  .token .openArray nofun written

theorem toList_sequence_cons (b : UInt8) (rest : List UInt8) :
    (sequence (b :: rest)).toList = ['['] ++ (Decimal.print b.toNat ++ moreItems rest) := by
  rw [← toList_intercalate]
  simp [sequence]

/-- The sequence is written as an array of its bytes. -/
theorem written_sequence (bytes : List UInt8) :
    Written (array (bytes.map byteItem)) (sequence bytes).toList := by
  cases bytes with
  | nil => exact .bracket (.token .closeArray nofun (.nil nofun))
  | cons b rest =>
    rw [toList_sequence_cons, array, List.map_cons, intercalate_append_cons]
    exact .bracket (.integral _ (stops_moreItems rest) (written_moreItems rest))

end AmbientResidue.Json
