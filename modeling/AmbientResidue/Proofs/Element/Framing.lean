import AmbientResidue.Proofs.Element.Documents
import AmbientResidue.Proofs.Wire.Frame

/-! # Residues in frames of any bytes

The length of a frame is judged first, with or without a modulus; then a modulus has to be active,
and a validating reader insists on a value below it. Frames that follow each other are read one by
one. A residue that was read with validation is written as the same frame unless the payload began
with a zero byte. -/

namespace AmbientResidue.Element

open Counted (Yields Refuses)
open AmbientResidue.Frame (Whole Short Beyond payload extent)

variable {env : Ambient} {m : Modulus} {a : Element} {bytes rest : List UInt8}
  {compression : Compression} {validate : Bool} {e : FrameError}

/-- A modulus is active and the reader takes the payload under it. -/
def Accepts (env : Ambient) (validate : Bool) (bytes : List UInt8) (m : Modulus) : Prop :=
  env.active = some m ∧ (validate = true → (BigEndian.value (payload bytes) : Int) < m.value)

/-- The reader takes the payload under no modulus that is active. -/
def Rejects (env : Ambient) (validate : Bool) (bytes : List UInt8) : Prop :=
  ∀ m, env.active = some m → validate = true ∧ m.value ≤ BigEndian.value (payload bytes)

theorem accepts_or_rejects (env : Ambient) (validate : Bool) (bytes : List UInt8) :
    (∃ m, Accepts env validate bytes m) ∨ Rejects env validate bytes := by
  cases active : env.active with
  | none => exact .inr fun m here => by rw [active] at here; cases here
  | some m =>
    by_cases below : validate = true → (BigEndian.value (payload bytes) : Int) < m.value
    · exact .inl ⟨m, active, below⟩
    · refine .inr fun n here => ?_
      cases active.symm.trans here
      exact ⟨(Classical.not_imp.1 below).1, Int.not_lt.1 (Classical.not_imp.1 below).2⟩

theorem refuses_of_decode (failed : Frame.decode bytes = .error e) :
    Refuses (ofFrame env compression validate bytes) e := by
  rw [ofFrame, failed]
  exact Counted.refuses_throw.2 rfl

theorem yields_of_whole (whole : Whole bytes) (accepted : Accepts env validate bytes m) :
    Yields (ofFrame env compression validate bytes)
      (env.residue m (BigEndian.value (payload bytes) % m.value), bytes.drop (extent bytes)) := by
  obtain ⟨active, below⟩ := accepted
  have inside : validate = true → m.contains (BigEndian.value (payload bytes)) = true :=
    fun strict => m.contains_iff.2 ⟨Int.natCast_nonneg _, below strict⟩
  have made : Yields (ofFrame env compression validate
      (Frame.encode (payload bytes) ++ bytes.drop (extent bytes))) _ :=
    yields_ofFrame whole.length_payload_lt active inside
  rwa [whole.encode_payload, List.take_append_drop] at made

theorem refuses_of_whole (whole : Whole bytes) (rejected : Rejects env validate bytes) :
    Refuses (ofFrame env compression validate bytes) .invalid := by
  cases active : env.active with
  | none =>
    rw [ofFrame, Frame.decode_eq_ok_iff.2 ⟨whole, rfl, rfl⟩]
    dsimp only
    rw [active]
    exact Counted.refuses_throw.2 rfl
  | some m =>
    obtain ⟨rfl, large⟩ := rejected m active
    have ends : Refuses (ofFrame env compression true
        (Frame.encode (payload bytes) ++ bytes.drop (extent bytes))) _ :=
      refuses_ofFrame whole.length_payload_lt active (m.contains_of_le large)
    rwa [whole.encode_payload, List.take_append_drop] at ends

/-! ## How reading ends -/

theorem yields_ofFrame_iff :
    Yields (ofFrame env compression validate bytes) (a, rest) ↔
      Whole bytes ∧ rest = bytes.drop (extent bytes) ∧ ∃ m, Accepts env validate bytes m ∧
        a = env.residue m (BigEndian.value (payload bytes) % m.value) := by
  constructor
  · intro made
    cases decoded : Frame.decode bytes with
    | error e => cases made.symm.trans (refuses_of_decode decoded)
    | ok read =>
      have whole := (Frame.decode_eq_ok_iff.1 decoded).1
      rcases accepts_or_rejects env validate bytes with ⟨m, accepted⟩ | rejected
      · cases Counted.yields_unique made (yields_of_whole whole accepted)
        exact ⟨whole, rfl, m, accepted, rfl⟩
      · cases made.symm.trans (refuses_of_whole whole rejected)
  · rintro ⟨whole, rfl, m, accepted, rfl⟩
    exact yields_of_whole whole accepted

/-- What is not wrong with the frame is wrong with the payload. -/
theorem refuses_ofFrame_iff :
    Refuses (ofFrame env compression validate bytes) e ↔
      Frame.decode bytes = .error e ∨
        Whole bytes ∧ Rejects env validate bytes ∧ e = .invalid := by
  constructor
  · intro refused
    cases decoded : Frame.decode bytes with
    | error d =>
      cases refused.symm.trans (refuses_of_decode decoded)
      exact .inl rfl
    | ok read =>
      have whole := (Frame.decode_eq_ok_iff.1 decoded).1
      rcases accepts_or_rejects env validate bytes with ⟨m, accepted⟩ | rejected
      · cases refused.symm.trans (yields_of_whole whole accepted)
      · cases refused.symm.trans (refuses_of_whole whole rejected)
        exact .inr ⟨whole, rejected, rfl⟩
  · rintro (decoded | ⟨whole, rejected, rfl⟩)
    · exact refuses_of_decode decoded
    · exact refuses_of_whole whole rejected

theorem refuses_ofFrame_short_iff :
    Refuses (ofFrame env compression validate bytes) .short ↔ Short bytes := by
  simp [refuses_ofFrame_iff, Frame.decode_eq_short_iff]

theorem refuses_ofFrame_overflow_iff :
    Refuses (ofFrame env compression validate bytes) .overflow ↔ Beyond bytes := by
  simp [refuses_ofFrame_iff, Frame.decode_eq_overflow_iff]

theorem refuses_ofFrame_invalid_iff :
    Refuses (ofFrame env compression validate bytes) .invalid ↔
      Whole bytes ∧ Rejects env validate bytes := by
  simp [refuses_ofFrame_iff, Frame.decode_ne_invalid]

/-- A validating reader takes less, and what it takes it takes as it is. -/
theorem value_of_validated (read : Yields (ofFrame env compression true bytes) (a, rest)) :
    a.representative = BigEndian.value (payload bytes) := by
  obtain ⟨-, -, m, ⟨-, below⟩, rfl⟩ := yields_ofFrame_iff.1 read
  exact Int.emod_eq_of_lt (Int.natCast_nonneg _) (below rfl)

theorem yields_unvalidated (read : Yields (ofFrame env compression true bytes) (a, rest)) :
    Yields (ofFrame env compression false bytes) (a, rest) := by
  obtain ⟨whole, rest_eq, m, ⟨active, -⟩, eq⟩ := yields_ofFrame_iff.1 read
  exact yields_ofFrame_iff.2 ⟨whole, rest_eq, m, ⟨active, nofun⟩, eq⟩

theorem frame_eq_iff (read : Yields (ofFrame env compression true bytes) (a, rest))
    (mode : Compression) :
    a.frame mode = bytes.take (extent bytes) ↔ (payload bytes).head? ≠ some 0 := by
  have whole := (yields_ofFrame_iff.1 read).1
  rw [← whole.encode_value_iff, frame, Element.bytes, Integer.bytes_eq, value_of_validated read,
    Int.natAbs_natCast]

/-- What a reader of frames makes of the bytes. -/
structure FrameReading (env : Ambient) (bytes : List UInt8) : Prop where
  /-- No modulus is needed to find the bytes too short. -/
  short : ∀ compression validate,
    Refuses (ofFrame env compression validate bytes) .short ↔ Short bytes
  overflow : ∀ compression validate,
    Refuses (ofFrame env compression validate bytes) .overflow ↔ Beyond bytes
  invalid : ∀ compression validate,
    Refuses (ofFrame env compression validate bytes) .invalid ↔
      Whole bytes ∧ ∀ m, env.active = some m →
        validate = true ∧ m.value ≤ BigEndian.value (payload bytes)
  yields : ∀ compression validate a rest,
    Yields (ofFrame env compression validate bytes) (a, rest) ↔
      Whole bytes ∧ rest = bytes.drop (extent bytes) ∧ ∃ m, env.active = some m ∧
        (validate = true → (BigEndian.value (payload bytes) : Int) < m.value) ∧
        a = env.residue m (BigEndian.value (payload bytes) % m.value)
  modes : ∀ c d validate, ofFrame env c validate bytes = ofFrame env d validate bytes
  agrees : ∀ c d r, Yields (ofFrame env c true bytes) r → Yields (ofFrame env d false bytes) r
  /-- Only payloads without a leading zero byte are written again as they were. -/
  rewrites : ∀ c d a rest, Yields (ofFrame env c true bytes) (a, rest) →
    (a.frame d = bytes.take (extent bytes) ↔ (payload bytes).head? ≠ some 0)

theorem frameReading (env : Ambient) (bytes : List UInt8) : FrameReading env bytes where
  short _ _ := refuses_ofFrame_short_iff
  overflow _ _ := refuses_ofFrame_overflow_iff
  invalid _ _ := refuses_ofFrame_invalid_iff
  yields _ _ _ _ := by simp only [yields_ofFrame_iff, Accepts, and_assoc]
  modes _ _ _ := rfl
  agrees _ _ _ read := yields_unvalidated read
  rewrites _ d _ _ read := frame_eq_iff read d

/-! ## One frame after another -/

/-- Reads a residue from each of the given number of frames. -/
def ofFrames (env : Ambient) (compression : Compression) (validate : Bool) :
    Nat → List UInt8 → ExceptT FrameError Counted (List Element × List UInt8)
  | 0, bytes => return ([], bytes)
  | n + 1, bytes => do
    let (a, bytes) ← ofFrame env compression validate bytes
    let (l, rest) ← ofFrames env compression validate n bytes
    return (a :: l, rest)

theorem yields_ofFrames {l : List Element} (active : env.active = some m)
    (inside : ∀ a ∈ l, m.contains a.representative = true)
    (room : ∀ a ∈ l, a.bytes.length < Frame.capacity) (written : Compression) :
    Yields (ofFrames env compression validate l.length ((l.flatMap (·.frame written)) ++ rest))
      (l.map fun a => env.residue m a.representative, rest) := by
  induction l with
  | nil => exact Counted.yields_pure.2 rfl
  | cons a l ih =>
    obtain ⟨positive, below⟩ := m.contains_iff.1 (inside a List.mem_cons_self)
    have value := value_bytes positive
    have next := ih (fun b mem => inside b (List.mem_cons_of_mem a mem))
      fun b mem => room b (List.mem_cons_of_mem a mem)
    have first : Yields (ofFrame env compression validate
        (Frame.encode a.bytes ++ (l.flatMap (·.frame written) ++ rest))) _ :=
      yields_ofFrame (room a List.mem_cons_self) active
        fun _ => value ▸ inside a List.mem_cons_self
    rw [value, Int.emod_eq_of_lt positive below] at first
    rw [List.flatMap_cons, List.append_assoc, List.length_cons, ofFrames, Counted.yields_bind]
    refine ⟨_, first, Counted.yields_bind.2 ⟨_, next, Counted.yields_pure.2 rfl⟩⟩

/-- Bytes of any kind are read as the frame in front of them, and residues below the active modulus
that were written one after another are read one after another. -/
theorem frames_read_exactly (env : Ambient) :
    (∀ bytes, FrameReading env bytes) ∧
      ∀ m, env.active = some m → ∀ l : List Element,
        (∀ a ∈ l, m.contains a.representative = true ∧ a.bytes.length < Frame.capacity) →
        ∀ written read validate rest,
          Yields (ofFrames env read validate l.length (l.flatMap (·.frame written) ++ rest))
            (l.map fun a => env.residue m a.representative, rest) := by
  refine ⟨frameReading env, fun m active l fine written read validate rest => ?_⟩
  exact yields_ofFrames active (fun a mem => (fine a mem).1) (fun a mem => (fine a mem).2) written

/-- A payload with a leading zero is read, and written again without it; nine of its ten bytes are
too few, with no modulus as with one; a five and a zero are read in turn. -/
theorem frames_read_exactly_padded :
    let m : Modulus := ⟨97, 1, by decide⟩
    let bytes : List UInt8 := [2, 0, 0, 0, 0, 0, 0, 0, 0, 5, 1]
    Yields (ofFrame ⟨.checked, some m⟩ .compressed true bytes) (⟨5, some m⟩, [1]) ∧
      (⟨5, some m⟩ : Element).frame .compressed ≠ bytes.take 10 ∧
      Refuses (ofFrame ⟨.checked, none⟩ .compressed true (bytes.take 9)) .short ∧
      Yields (ofFrames ⟨.checked, some m⟩ .compressed true 2
        [1, 0, 0, 0, 0, 0, 0, 0, 5, 0, 0, 0, 0, 0, 0, 0, 0]) ([⟨5, some m⟩, ⟨0, some m⟩], []) := by
  intro m bytes
  obtain ⟨single, many⟩ := frames_read_exactly ⟨.checked, some m⟩
  have whole : Whole bytes := ⟨by decide +kernel, by decide +kernel⟩
  have read : Yields (ofFrame ⟨.checked, some m⟩ .compressed true bytes) (⟨5, some m⟩, [1]) :=
    ((single bytes).yields _ _ _ _).2 ⟨whole, rfl, m, rfl, by decide +kernel, by decide +kernel⟩
  refine ⟨read, ?_, ?_, ?_⟩
  · intro same
    exact ((single bytes).rewrites _ _ _ _ read).1 same rfl
  · refine (((frames_read_exactly ⟨.checked, none⟩).1 _).short _ _).2 (.inr ?_)
    exact ⟨by decide +kernel, by decide +kernel⟩
  · have written : [(⟨5, some m⟩ : Element), ⟨0, some m⟩].flatMap (·.frame .compressed) ++ [] =
        [1, 0, 0, 0, 0, 0, 0, 0, 5, 0, 0, 0, 0, 0, 0, 0, 0] := by decide +kernel
    have turn := many m rfl [⟨5, some m⟩, ⟨0, some m⟩] (by decide +kernel) .compressed .compressed
      true []
    rwa [written] at turn

/-- An announcement of `2 ^ 64 - 1` bytes is not found too short, though no bytes follow it. -/
theorem overlong_announcement_not_short :
    let bytes : List UInt8 := List.replicate 8 255
    bytes.length < extent bytes ∧ ¬ Refuses (ofFrame ⟨.plain, none⟩ .compressed true bytes) .short ∧
      Refuses (ofFrame ⟨.plain, none⟩ .compressed true bytes) .overflow ∧
      FrameError.overflow.message? = some "capacity overflow" := by
  intro bytes
  have stopped : Refuses (ofFrame ⟨.plain, none⟩ .compressed true bytes) .overflow :=
    refuses_ofFrame_overflow_iff.2 ⟨by decide +kernel, by decide +kernel⟩
  refine ⟨by decide +kernel, fun short => ?_, stopped, rfl⟩
  cases short.symm.trans stopped

end AmbientResidue.Element
