import AmbientResidue.Proofs.BigEndian
import AmbientResidue.Wire.Frame

/-! # Frames

A frame that was written is read back from the head of any document. The first eight of any bytes
announce the length of the payload, least significant byte first. Which of the three ways a reader
of frames ends depends on the length alone; a whole frame is the one that its payload is written as.
-/

namespace AmbientResidue.Frame

/-- The number that bytes denote, least significant byte first. -/
def littleEndian : List UInt8 → Nat
  | [] => 0
  | b :: rest => b.toNat + 256 * littleEndian rest

/-- The length of the payload that the first eight bytes announce. -/
def announced (bytes : List UInt8) : Nat := littleEndian (bytes.take 8)

/-- The bytes that a frame of the announced length takes up. -/
def extent (bytes : List UInt8) : Nat := 8 + announced bytes

def payload (bytes : List UInt8) : List UInt8 := (bytes.drop 8).take (announced bytes)

/-- A frame ends within the bytes. -/
structure Whole (bytes : List UInt8) : Prop where
  room : announced bytes < capacity
  ends : extent bytes ≤ bytes.length

/-- The bytes end within the announcement or within a payload that memory has room for. -/
def Short (bytes : List UInt8) : Prop :=
  bytes.length < 8 ∨ announced bytes < capacity ∧ bytes.length < extent bytes

/-- The announcement is beyond what memory can address. -/
structure Beyond (bytes : List UInt8) : Prop where
  header : 8 ≤ bytes.length
  room : capacity ≤ announced bytes

variable {bytes rest p : List UInt8} {e : FrameError}

/-! ## Frames that were written -/

theorem length_encode (p : List UInt8) : (encode p).length = 8 + p.length := by
  simp [encode]

/-- A frame is read back from the head of any document. -/
theorem decode_encode (room : p.length < capacity) :
    decode (encode p ++ rest) = .ok (p, rest) := by
  have split : encode p ++ rest =
      (BigEndian.fixed 8 p.length).reverse ++ (p ++ rest) := List.append_assoc _ _ _
  have width : (BigEndian.fixed 8 p.length).reverse.length = 8 := by simp
  have length : BigEndian.value (BigEndian.fixed 8 p.length) = p.length := by
    have fits : p.length < Nat.pow 256 8 := Nat.lt_trans room (by decide)
    rw [BigEndian.value_fixed, Nat.mod_eq_of_lt fits]
  have enough : ¬ (encode p ++ rest).length < 8 := by
    rw [List.length_append, length_encode]
    omega
  have whole : ¬ (p ++ rest).length < p.length := by
    rw [List.length_append]
    omega
  have head : (encode p ++ rest).take 8 = (BigEndian.fixed 8 p.length).reverse := by
    rw [split, List.take_left' width]
  have tail : (encode p ++ rest).drop 8 = p ++ rest := by
    rw [split, List.drop_left' width]
  simp only [decode, enough, head, tail, List.reverse_reverse, length, Nat.not_le.2 room, whole,
    if_false, List.take_left, List.drop_left]

/-! ## Frames of any bytes -/

theorem extent_eq (bytes : List UInt8) : extent bytes = 8 + announced bytes := rfl

theorem value_reverse (bytes : List UInt8) : BigEndian.value bytes.reverse = littleEndian bytes := by
  induction bytes with
  | nil => rfl
  | cons b rest ih => rw [List.reverse_cons, BigEndian.value_concat, ih, littleEndian, Nat.add_comm]

theorem decode_eq (bytes : List UInt8) :
    decode bytes =
      if bytes.length < 8 then .error .short
      else if capacity ≤ announced bytes then .error .overflow
      else if (bytes.drop 8).length < announced bytes then .error .short
      else .ok (payload bytes, bytes.drop (extent bytes)) := by
  simp only [decode, value_reverse, List.drop_drop]
  rfl

theorem decode_cases (bytes : List UInt8) :
    Short bytes ∧ decode bytes = .error .short ∨
      Beyond bytes ∧ decode bytes = .error .overflow ∨
      Whole bytes ∧ decode bytes = .ok (payload bytes, bytes.drop (extent bytes)) := by
  have extent_eq := extent_eq bytes
  have after := List.length_drop (i := 8) (l := bytes)
  rw [decode_eq]
  by_cases header : bytes.length < 8
  · exact .inl ⟨.inl header, if_pos header⟩
  rw [if_neg header]
  by_cases room : capacity ≤ announced bytes
  · exact .inr (.inl ⟨⟨Nat.not_lt.1 header, room⟩, if_pos room⟩)
  rw [if_neg room]
  by_cases cut : (bytes.drop 8).length < announced bytes
  · exact .inl ⟨.inr ⟨Nat.not_le.1 room, by omega⟩, if_pos cut⟩
  · exact .inr (.inr ⟨⟨Nat.not_le.1 room, by omega⟩, if_neg cut⟩)

theorem Short.not_whole (short : Short bytes) : ¬ Whole bytes := by
  have extent_eq := extent_eq bytes
  intro whole
  have ends := whole.ends
  rcases short with header | ⟨-, cut⟩ <;> omega

theorem Short.not_beyond (short : Short bytes) : ¬ Beyond bytes := by
  intro beyond
  rcases short with header | ⟨room, -⟩
  · exact Nat.not_lt.2 beyond.header header
  · exact Nat.not_le.2 room beyond.room

theorem Beyond.not_whole (beyond : Beyond bytes) : ¬ Whole bytes := fun whole =>
  Nat.not_le.2 whole.room beyond.room

theorem decode_eq_short_iff : decode bytes = .error .short ↔ Short bytes := by
  rcases decode_cases bytes with ⟨here, eq⟩ | ⟨here, eq⟩ | ⟨here, eq⟩
  · exact iff_of_true eq here
  · exact iff_of_false (by simp [eq]) fun short => short.not_beyond here
  · exact iff_of_false (by simp [eq]) fun short => short.not_whole here

theorem decode_eq_overflow_iff : decode bytes = .error .overflow ↔ Beyond bytes := by
  rcases decode_cases bytes with ⟨here, eq⟩ | ⟨here, eq⟩ | ⟨here, eq⟩
  · exact iff_of_false (by simp [eq]) here.not_beyond
  · exact iff_of_true eq here
  · exact iff_of_false (by simp [eq]) fun beyond => beyond.not_whole here

theorem decode_ne_invalid : decode bytes ≠ .error .invalid := by
  rcases decode_cases bytes with ⟨-, eq⟩ | ⟨-, eq⟩ | ⟨-, eq⟩ <;> simp [eq]

theorem decode_eq_ok_iff :
    decode bytes = .ok (p, rest) ↔
      Whole bytes ∧ p = payload bytes ∧ rest = bytes.drop (extent bytes) := by
  rcases decode_cases bytes with ⟨here, eq⟩ | ⟨here, eq⟩ | ⟨here, eq⟩
  · exact iff_of_false (by simp [eq]) fun whole => here.not_whole whole.1
  · exact iff_of_false (by simp [eq]) fun whole => here.not_whole whole.1
  · simp [eq, here, eq_comm]

/-! ## Writing again -/

theorem encode_injective : Function.Injective encode := by
  intro p q same
  have length := congrArg List.length same
  rw [length_encode, length_encode, Nat.add_left_cancel_iff] at length
  have headers : (BigEndian.fixed 8 p.length).reverse.length =
      (BigEndian.fixed 8 q.length).reverse.length := by simp
  exact (List.append_inj same headers).2

theorem Whole.length_payload (whole : Whole bytes) : (payload bytes).length = announced bytes := by
  have extent_eq := extent_eq bytes
  have ends := whole.ends
  rw [payload, List.length_take, List.length_drop]
  omega

theorem Whole.length_payload_lt (whole : Whole bytes) : (payload bytes).length < capacity :=
  whole.length_payload ▸ whole.room

/-- A whole frame is written as its payload is. -/
theorem Whole.encode_payload (whole : Whole bytes) :
    encode (payload bytes) = bytes.take (extent bytes) := by
  have extent_eq := extent_eq bytes
  have ends := whole.ends
  have eight : (bytes.take 8).length = 8 := by
    rw [List.length_take]
    omega
  have header : BigEndian.fixed 8 (announced bytes) = (bytes.take 8).reverse := by
    have read : announced bytes = BigEndian.value (bytes.take 8).reverse := (value_reverse _).symm
    rw [read, BigEndian.fixed_value (by rw [List.length_reverse, eight])]
  rw [encode, whole.length_payload, header, List.reverse_reverse, extent_eq, List.take_add]
  rfl

/-- What a payload was read as is written as the same frame unless the payload begins with a zero
byte. -/
theorem Whole.encode_value_iff (whole : Whole bytes) :
    encode (BigEndian.encode (BigEndian.value (payload bytes))) = bytes.take (extent bytes) ↔
      (payload bytes).head? ≠ some 0 := by
  rw [← whole.encode_payload, encode_injective.eq_iff]
  constructor
  · intro same
    rw [← same]
    exact BigEndian.head?_encode _
  · intro proper
    rw [BigEndian.encode_value, List.dropWhile_beq_eq_self_of_head?_ne proper]

end AmbientResidue.Frame
