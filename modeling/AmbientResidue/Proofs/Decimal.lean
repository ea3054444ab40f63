import AmbientResidue.Decimal

/-! # Digits of natural numbers -/

namespace AmbientResidue.Decimal

theorem print_natCast (n : Nat) : print (n : Int) = Nat.toDigits 10 n := by
  have positive : ¬ (n : Int) < 0 := Int.not_lt.2 (Int.natCast_nonneg n)
  rw [print, if_neg positive, Int.natAbs_natCast]

@[simp] theorem magnitude_toDigits (n : Nat) : magnitude (Nat.toDigits 10 n) = n :=
  Nat.ofDigitChars_ten_toDigits

theorem isDigit_of_mem {n : Nat} {c : Char} (h : c ∈ Nat.toDigits 10 n) : c.isDigit = true :=
  Nat.isDigit_of_mem_toDigits (by decide) (by decide) h

theorem head_toDigits {n : Nat} (h : n ≠ 0) : (Nat.toDigits 10 n).head? ≠ some '0' := by
  induction n using Nat.strongRecOn with
  | _ n ih =>
    by_cases small : n < 10
    · have digits : ∀ d < 10, d ≠ 0 → some d.digitChar ≠ some '0' := by decide
      rw [Nat.toDigits_of_lt_base small]
      exact digits n small h
    · have earlier := ih (n / 10) (by omega) (by omega)
      rw [Nat.toDigits_of_base_le (by decide) (Nat.not_lt.1 small), List.head?_append]
      cases digits : Nat.toDigits 10 (n / 10) with
      | nil => exact absurd digits Nat.toDigits_ne_nil
      | cons d rest =>
        rw [digits] at earlier
        exact earlier

end AmbientResidue.Decimal
