import AmbientResidue.Proofs.Element.Canonical
import AmbientResidue.Proofs.Element.Documents
import Mathlib.Algebra.Order.Floor.Div
import Mathlib.Data.Set.Function
import Mathlib.Order.Bounds.Defs

/-! # The shortest bytes of an integer

Bits, bytes and the encoding itself are three separate computations that agree: an integer is
written with the fewest bytes that hold its bits. Nothing but leading zero bytes is lost between
byte strings and numbers, and a residue fits in the bytes of its modulus. -/

namespace AmbientResidue

namespace Integer

/-- How an integer is written. -/
structure Written (n : Int) : Prop where
  empty : bytes n = [] ↔ n = 0
  leading : n ≠ 0 → ∃ b rest, bytes n = b :: rest ∧ b ≠ 0
  length : (bytes n).length = width n
  filled : width n = bits n ⌈/⌉ 8
  least : IsLeast {k | n.natAbs < Nat.pow 2 k} (bits n)
  /-- The sign is not written. -/
  read : (ofBytes (bytes n)).value = n.natAbs

theorem bytes_eq_nil_iff {n : Int} : bytes n = [] ↔ n = 0 := by
  rw [bytes_eq, BigEndian.encode_eq_nil_iff, Int.natAbs_eq_zero]

theorem bytes_eq_cons {n : Int} (h : n ≠ 0) : ∃ b rest, bytes n = b :: rest ∧ b ≠ 0 := by
  have head : (bytes n).head? ≠ some 0 := head?_bytes n
  cases written : bytes n with
  | nil => exact absurd (bytes_eq_nil_iff.1 written) h
  | cons b rest =>
    rw [written] at head
    exact ⟨b, rest, rfl, by simpa using head⟩

theorem isLeast_bits (n : Int) : IsLeast {k | n.natAbs < Nat.pow 2 k} (bits n) :=
  ⟨bitLength_le_iff.1 (Nat.le_refl _), fun _ holds => bitLength_le_iff.2 holds⟩

theorem written (n : Int) : Written n where
  empty := bytes_eq_nil_iff
  leading := bytes_eq_cons
  length := length_bytes n
  filled := (Nat.ceilDiv_eq_add_pred_div (bits n) 8).symm
  least := isLeast_bits n
  read := by rw [value_ofBytes, bytes_eq, BigEndian.value_encode]

theorem bytes_ofBytes (l : List UInt8) : bytes (ofBytes l).value = l.dropWhile (· == 0) := by
  rw [bytes_eq, value_ofBytes, Int.natAbs_natCast, BigEndian.encode_value]

/-- The naturals are written as the byte strings without a leading zero, each as one of its own. -/
theorem bijOn_bytes :
    Set.BijOn (fun n : Nat => bytes n) Set.univ {l | l.head? ≠ some 0} := by
  refine ⟨fun n _ => head?_bytes n, fun n _ m _ same => ?_, fun l proper => ?_⟩
  · have read := congrArg BigEndian.value same
    simpa [bytes_eq, BigEndian.value_encode] using read
  · refine ⟨BigEndian.value l, trivial, ?_⟩
    exact (bytes_ofBytes l).trans (List.dropWhile_beq_eq_self_of_head?_ne proper)

end Integer

namespace Element

variable {m : Modulus} {env : Ambient} {a : Element} {v : Int}

/-- A residue takes no more bytes than the modulus it was made under. -/
theorem length_bytes_le (sized : Modulus.ofInt v = .ok m) (active : env.active = some m)
    (made : Made env a) : a.bytes.length ≤ m.width := by
  obtain ⟨n, here, nonneg, below, -⟩ := made.canonical
  obtain rfl : n = m := Option.some.inj (here.symm.trans active)
  obtain ⟨value, width⟩ := Modulus.ofInt_eq_ok_iff.1 sized
  have less : a.representative.natAbs < n.value.natAbs := by omega
  have room : n.value.natAbs < Nat.pow 256 (byteLength n.value.natAbs) :=
    byteLength_le_iff.1 (Nat.le_refl _)
  rw [length_bytes, width, ← value]
  exact byteLength_le_iff.2 (Nat.lt_trans less room)

end Element

/-- Every integer is written with the fewest bytes, byte strings are read and written again without
their leading zeros, naturals and byte strings that begin with no zero correspond to each other, and
residues fit in the width of their modulus. -/
theorem Integer.codec_bijective :
    (∀ n, Written n) ∧
      (∀ l, bytes (ofBytes l).value = l.dropWhile (· == 0)) ∧
      Set.BijOn (fun n : Nat => bytes n) Set.univ {l | l.head? ≠ some 0} ∧
      ∀ v m, Modulus.ofInt v = .ok m → ∀ env a, env.active = some m → Element.Made env a →
        a.bytes.length ≤ m.width :=
  ⟨written, bytes_ofBytes, bijOn_bytes, fun _ _ sized _ _ => Element.length_bytes_le sized⟩

/-- The largest residue of 256 takes one byte of two. -/
theorem Integer.codec_bijective_below_256 :
    let m : Modulus := ⟨256, 2, by decide⟩
    let env : Ambient := ⟨.plain, some m⟩
    Modulus.ofInt 256 = .ok m ∧ Element.Made env ⟨255, none⟩ ∧
      (⟨255, none⟩ : Element).bytes = [255] ∧ (⟨255, none⟩ : Element).bytes.length ≤ m.width := by
  intro m env
  have sized : Modulus.ofInt 256 = .ok m := by decide +kernel
  have made : Element.Made env ⟨255, none⟩ :=
    .ofInt (v := -1) (Element.yields_ofInt.2 ⟨m, rfl, by decide +kernel⟩)
  have fits := codec_bijective.2.2.2 256 m sized env ⟨255, none⟩ rfl made
  exact ⟨sized, made, by decide +kernel, fits⟩

end AmbientResidue
