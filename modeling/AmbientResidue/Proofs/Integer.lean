import AmbientResidue.Integer
import AmbientResidue.Proofs.BigEndian

/-! # What the engine underneath answers

The values behind the operations on integers, whatever they are charged. -/

namespace AmbientResidue.Integer

@[simp] theorem value_ofInt64 (v : Int64) : (ofInt64 v).value = v.toInt := rfl

@[simp] theorem value_zero : zero.value = 0 := rfl

@[simp] theorem value_ofBytes (bytes : List UInt8) :
    (ofBytes bytes).value = BigEndian.value bytes := rfl

/-- The engine has a case for zero, which the shortest bytes do not need. -/
theorem bytes_eq (n : Int) : bytes n = BigEndian.encode n.natAbs := by
  show (if n = 0 then [] else BigEndian.octets n.natAbs) = _
  simp only [BigEndian.encode_eq_octets, Int.natAbs_eq_zero]

theorem length_bytes (n : Int) : (bytes n).length = width n := by
  rw [bytes_eq, BigEndian.length_encode]
  rfl

theorem head?_bytes (n : Int) : (bytes n).head? ≠ some 0 := by
  rw [bytes_eq]
  exact BigEndian.head?_encode n.natAbs

end AmbientResidue.Integer
