import AmbientResidue.Proofs.BigEndian
import AmbientResidue.Proofs.Decimal.Grammar
import AmbientResidue.Proofs.Element.Refusals
import AmbientResidue.Proofs.Euclid
import Mathlib.Data.Nat.Digits.Defs

/-! # Integers enter alike

An integer comes as itself, as a word, as a literal or as bytes, and has many spellings in the last
two. Every way in makes the integer that it was given first and a residue of that next, so what
comes out depends on the integer and the modulus alone. Only a text can fail to denote an integer,
and it is looked at before the modulus is. -/

namespace AmbientResidue

open Counted (Yields Refuses)
open Euclid (IsResidue)

/-- The bytes, last one first, are the digits of the number in base 256. -/
theorem BigEndian.value_eq_ofDigits (bytes : List UInt8) :
    value bytes = Nat.ofDigits 256 (bytes.reverse.map UInt8.toNat) := by
  induction bytes using List.reverseRecOn with
  | nil => rfl
  | append_singleton front last ih =>
    rw [value_concat, ih, List.reverse_append, List.reverse_singleton, List.singleton_append,
      List.map_cons, Nat.ofDigits_cons, Nat.add_comm]

namespace Element

/-- What a residue is made from. -/
inductive Input where
  | zero
  | one
  | integer (v : Int)
  | word (w : Int64)
  | literal (s : String)
  | bytes (bs : List UInt8)

namespace Input

/-- The residue of what was given. -/
def make (env : Ambient) : Input → Making Element
  | .zero => Element.zero env
  | .one => Element.one env
  | .integer v => ofInt env v
  | .word w => ofInt64 env w
  | .literal s => ofLiteral env s
  | .bytes bs => ofBytes env bs

/-- The integer that was given. Leading zeros count for nothing in a literal or in bytes. -/
inductive Denotes : Input → Int → Prop where
  | zero : Denotes .zero 0
  | one : Denotes .one 1
  | integer (v : Int) : Denotes (.integer v) v
  | word (w : Int64) : Denotes (.word w) w.toInt
  | literal {s : String} {v : Int} : Decimal.Literal s.toList v → Denotes (.literal s) v
  | bytes (bs : List UInt8) :
      Denotes (.bytes bs) (Nat.ofDigits 256 (bs.reverse.map UInt8.toNat) : Nat)

variable {env : Ambient} {m : Modulus} {i j : Input} {v w : Int} {a b : Element} {e : Refusal}

theorem denotes_literal_iff {s : String} :
    Denotes (.literal s) v ↔ Decimal.Literal s.toList v := by
  constructor
  · intro h
    cases h with
    | literal h => exact h
  · intro h
    exact .literal h

theorem Denotes.unique (h : i.Denotes v) (k : i.Denotes w) : v = w := by
  cases h with
  | literal h => exact h.unique (denotes_literal_iff.1 k)
  | zero | one | integer | word | bytes =>
    cases k
    rfl

/-- The integer is made first, whatever it comes as. -/
theorem yields_make : Yields (i.make env) a ↔ ∃ v, i.Denotes v ∧ Yields (ofInt env v) a := by
  have alone {v : Int} (denoted : i.Denotes v) :
      Yields (ofInt env v) a ↔ ∃ v, i.Denotes v ∧ Yields (ofInt env v) a := by
    constructor
    · intro made
      exact ⟨v, denoted, made⟩
    · rintro ⟨w, other, made⟩
      rwa [denoted.unique other]
  cases i with
  | zero =>
    rw [← alone .zero, make, yields_zero, yields_ofInt]
    simp
  | one => rw [← alone .one, make, yields_one]
  | integer v => rw [← alone (.integer v), make]
  | word w => rw [← alone (.word w), make, yields_ofInt64]
  | literal s =>
    simp only [make, yields_ofLiteral, Integer.yields_ofLiteral_iff, denotes_literal_iff]
  | bytes bs => rw [← alone (.bytes bs), make, yields_ofBytes, BigEndian.value_eq_ofDigits]

theorem yields_make_iff (active : env.active = some m) (denoted : i.Denotes v) :
    Yields (i.make env) a ↔ ∃ r, IsResidue v m.value r ∧ a = env.residue m r := by
  simp only [Euclid.isResidue_iff m.value_pos, exists_eq_left, yields_make, yields_ofInt]
  constructor
  · rintro ⟨w, other, n, active', rfl⟩
    obtain rfl : n = m := Option.some.inj (active'.symm.trans active)
    rw [denoted.unique other]
  · intro same
    exact ⟨v, denoted, m, active, same⟩

theorem refuses_make : Refuses (i.make env) e ↔
    (∃ s, i = .literal s ∧ (∀ v, ¬ i.Denotes v) ∧ e = .badLiteral s) ∨
      (∃ v, i.Denotes v) ∧ env.active = none ∧ e = .uninitialized := by
  cases i with
  | literal s =>
    simp [make, refuses_ofLiteral, Integer.refuses_ofLiteral_iff, Integer.yields_ofLiteral_iff,
      denotes_literal_iff]
  | zero => simp [make, refuses_zero, Exists.intro _ Denotes.zero]
  | one => simp [make, refuses_one, Exists.intro _ Denotes.one]
  | integer v => simp [make, refuses_ofInt, Exists.intro _ (Denotes.integer v)]
  | word w => simp [make, refuses_ofInt64, Exists.intro _ (Denotes.word w)]
  | bytes bs => simp [make, refuses_ofBytes, Exists.intro _ (Denotes.bytes bs)]

/-- Only a text denotes no integer. -/
theorem exists_literal (senseless : ∀ v, ¬ i.Denotes v) : ∃ s, i = .literal s := by
  cases i with
  | literal s => exact ⟨s, rfl⟩
  | zero => exact absurd .zero (senseless 0)
  | one => exact absurd .one (senseless 1)
  | integer v => exact absurd (.integer v) (senseless v)
  | word w => exact absurd (.word w) (senseless _)
  | bytes bs => exact absurd (.bytes bs) (senseless _)

theorem make_congr_iff (active : env.active = some m) (hi : i.Denotes v) (hj : j.Denotes w)
    (ha : Yields (i.make env) a) (hb : Yields (j.make env) b) :
    a.representative = b.representative ↔ v ≡ w [ZMOD m.value] := by
  obtain ⟨r, left, rfl⟩ := (yields_make_iff active hi).1 ha
  obtain ⟨t, right, rfl⟩ := (yields_make_iff active hj).1 hb
  show r = t ↔ v % m.value = w % m.value
  rw [left.eq_emod, right.eq_emod]

end Input

/-- How integers become residues. -/
structure Entrance (env : Ambient) : Prop where
  yields : ∀ m, env.active = some m → ∀ (i : Input) v, i.Denotes v → ∀ a,
    Yields (i.make env) a ↔ ∃ r, IsResidue v m.value r ∧ a = env.residue m r
  unique : ∀ (m : Modulus) v, ∃! r, IsResidue v m.value r
  /-- Two residues are the same if the integers behind them are congruent, and only then. -/
  same : ∀ m, env.active = some m → ∀ (i j : Input) v w a b, i.Denotes v → j.Denotes w →
    Yields (i.make env) a → Yields (j.make env) b → (a.same b = true ↔ v ≡ w [ZMOD m.value])
  /-- A text that denotes nothing is refused as such, whether or not there is a modulus. -/
  malformed : ∀ i : Input, (∀ v, ¬ i.Denotes v) →
    ∃ s, i = .literal s ∧ Refuses (i.make env) (.badLiteral s)
  uninitialized : env.active = none → ∀ (i : Input) v, i.Denotes v →
    Refuses (i.make env) .uninitialized

/-- What comes out depends on the integer and the modulus alone. -/
theorem integers_enter_alike (env : Ambient) : Entrance env where
  yields m active i v denoted a := Input.yields_make_iff active denoted
  unique m v := Euclid.existsUnique_isResidue m.value_pos v
  same m active i j v w a b hi hj ha hb := by
    rw [← Input.make_congr_iff active hi hj ha hb]
    exact beq_iff_eq
  malformed i senseless := by
    obtain ⟨s, rfl⟩ := Input.exists_literal senseless
    exact ⟨s, rfl, Input.refuses_make.2 (.inl ⟨s, rfl, senseless, rfl⟩)⟩
  uninitialized inactive i v denoted := Input.refuses_make.2 (.inr ⟨⟨v, denoted⟩, inactive, rfl⟩)

/-- Minus nine as a literal and as a word, and a five behind zero bytes, are one residue modulo
seven. -/
theorem integers_enter_alike_spellings :
    let m : Modulus := ⟨7, 1, by decide⟩
    let env : Ambient := ⟨.checked, some m⟩
    Yields (ofLiteral env "-09") (env.residue m 5) ∧
      Yields (ofInt64 env (-9)) (env.residue m 5) ∧
      Yields (ofBytes env [0, 0, 5]) (env.residue m 5) ∧
      Refuses (ofLiteral ⟨.checked, none⟩ "9a") (.badLiteral "9a") ∧
      Refuses (ofLiteral ⟨.checked, none⟩ "-09") .uninitialized := by
  intro m env
  have literal : Input.Denotes (.literal "-09") (-9) :=
    .literal (.minus ((Decimal.Numeral.digit (d := 0) (by decide)).append (d := 9) (by decide)))
  have word : Input.Denotes (.word (-9)) (-9) := .word _
  have bytes : Input.Denotes (.bytes [0, 0, 5]) 5 := .bytes [0, 0, 5]
  have senseless : ∀ v, ¬ Input.Denotes (.literal "9a") v := by
    intro v denoted
    have shape := Decimal.isLiteral_iff.2 ⟨v, Input.denotes_literal_iff.1 denoted⟩
    revert shape
    decide
  have five : IsResidue (-9) 7 5 := ⟨by decide, by decide, by decide⟩
  have entrance := integers_enter_alike env
  refine ⟨?_, ?_, ?_, ?_, ?_⟩
  · exact (entrance.yields m rfl _ _ literal _).2 ⟨5, five, rfl⟩
  · exact (entrance.yields m rfl _ _ word _).2 ⟨5, five, rfl⟩
  · exact (entrance.yields m rfl _ _ bytes _).2 ⟨5, ⟨by decide, by decide, by decide⟩, rfl⟩
  · obtain ⟨s, same, refused⟩ := (integers_enter_alike ⟨.checked, none⟩).malformed _ senseless
    cases same
    exact refused
  · exact (integers_enter_alike ⟨.checked, none⟩).uninitialized rfl _ _ literal

end Element

end AmbientResidue
