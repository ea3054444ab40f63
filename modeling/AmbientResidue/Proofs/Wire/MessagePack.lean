import AmbientResidue.MessagePack.Reader
import AmbientResidue.Proofs.BigEndian
import AmbientResidue.Proofs.Counted

/-! # Items of MessagePack documents

An integer and the length of contents may each be written in several widths. A reader finds the item
again from every one of them, and leaves what follows it. In a sequence of bytes the first item that
is no byte ends the reading. -/

namespace AmbientResidue.MessagePack

/-- The first bytes of the unsigned encodings and their widths. -/
def unsignedForms : List (UInt8 × Nat) := [(0xcc, 1), (0xcd, 2), (0xce, 4), (0xcf, 8)]

/-- The first bytes of the signed encodings and their widths. -/
def signedForms : List (UInt8 × Nat) := [(0xd0, 1), (0xd1, 2), (0xd2, 4), (0xd3, 8)]

/-- An integer near zero takes one byte; any other is written in two's complement or, if it is not
negative, as it is, in any width that has room for it. -/
inductive Encodes : Int → List UInt8 → Prop where
  | small {n : Nat} : n < 0x80 → Encodes n [UInt8.ofNat n]
  | smallNegative {n : Nat} : 0 < n → n ≤ 0x20 → Encodes (-n) [UInt8.ofNat (0x100 - n)]
  | unsigned {head width} {n : Nat} : (head, width) ∈ unsignedForms → n < Nat.pow 256 width →
      Encodes n (head :: BigEndian.fixed width n)
  | signed {head width} {v : Int} : (head, width) ∈ signedForms →
      -(Nat.pow 2 (8 * width - 1) : Int) ≤ v → v < Nat.pow 2 (8 * width - 1) →
      Encodes v (head :: BigEndian.fixed width (v % Nat.pow 2 (8 * width)).toNat)

/-- A length is added to the first byte if it is below `room`, or stands behind the first byte in
one of the given widths. -/
inductive Head (base room : Nat) (forms : List (UInt8 × Nat)) : Nat → List UInt8 → Prop where
  | short {n} : n < room → Head base room forms n [UInt8.ofNat (base + n)]
  | wide {head width n} : (head, width) ∈ forms → n < Nat.pow 256 width →
      Head base room forms n (head :: BigEndian.fixed width n)

/-- What stands in front of a string. -/
abbrev TextHead := Head 0xa0 32 [(0xd9, 1), (0xda, 2), (0xdb, 4)]

/-- What stands in front of a byte string. -/
abbrev BinaryHead := Head 0xc4 0 [(0xc4, 1), (0xc5, 2), (0xc6, 4)]

/-- What stands in front of the items of an array. -/
abbrev ArrayHead := Head 0x90 16 [(0xdc, 2), (0xdd, 4)]

variable {head : UInt8} {front rest contents bytes : List UInt8} {n width : Nat} {v : Int}
  {item : List UInt8 → Item} {i : Item}

/-! ## Numbers in a field -/

theorem split?_append (length : front.length = n) :
    split? n (front ++ rest) = some (front, rest) := by
  subst length
  simp [split?]

theorem readNat?_fixed (room : n < Nat.pow 256 width) :
    readNat? width (BigEndian.fixed width n ++ rest) = some (n, rest) := by
  have number : BigEndian.value (BigEndian.fixed width n) = n := by
    rw [BigEndian.value_fixed, Nat.mod_eq_of_lt room]
  simp only [readNat?, split?_append (BigEndian.length_fixed width n), Option.map_some, number]

theorem toNat_ofNat (h : n < 0x100) : (UInt8.ofNat n).toNat = n := UInt8.toNat_ofNat_of_lt' h

/-- What was read stands there in full. -/
theorem readNat?_eq_some (read : readNat? width bytes = some (n, rest)) :
    n < Nat.pow 256 width ∧ bytes = BigEndian.fixed width n ++ rest := by
  simp only [readNat?, split?, Option.map_eq_some_iff, Prod.exists, Prod.mk.injEq] at read
  obtain ⟨digits, after, found, rfl, rfl⟩ := read
  split at found
  · next enough =>
    obtain ⟨rfl, rfl⟩ := Prod.mk.inj (Option.some.inj found)
    have length : (bytes.take width).length = width := List.length_take_of_le enough
    have room := BigEndian.value_lt (bytes.take width)
    rw [length] at room
    exact ⟨room, by rw [BigEndian.fixed_value length, List.take_append_drop]⟩
  · cases found

/-! ## Contents after their length -/

theorem readContents?_append (rest : List UInt8) :
    readContents? item contents.length (contents ++ rest) = some (item contents, rest) := by
  rw [readContents?, split?_append rfl, Option.map_some]

theorem readSized?_fixed (room : contents.length < Nat.pow 256 width) :
    readSized? item width (BigEndian.fixed width contents.length ++ (contents ++ rest)) =
      some (item contents, rest) := by
  simp only [readSized?, readNat?_fixed room, bind, Option.bind_some, readContents?_append]

theorem readHead?_fixed {head : Nat → Item} (room : n < Nat.pow 256 width) :
    readHead? head width (BigEndian.fixed width n ++ rest) = some (head n, rest) := by
  rw [readHead?, readNat?_fixed room, Option.map_some]

theorem readItem?_text (h : TextHead contents.length front) (rest : List UInt8) :
    readItem? (front ++ (contents ++ rest)) = some (.text contents, rest) := by
  cases h with
  | short room =>
    have byte := toNat_ofNat (n := 0xa0 + contents.length) (by omega)
    have length : 0xa0 + contents.length - 0xa0 = contents.length := Nat.add_sub_cancel_left _ _
    rw [List.singleton_append, readItem?, byte]
    rw [if_neg (by omega), if_neg (by omega), if_neg (by omega), if_pos (by omega), length,
      readContents?_append]
  | wide form room =>
    simp only [List.mem_cons, Prod.mk.injEq, List.not_mem_nil, or_false] at form
    rcases form with ⟨rfl, rfl⟩ | ⟨rfl, rfl⟩ | ⟨rfl, rfl⟩ <;> exact readSized?_fixed room

theorem readItem?_binary (h : BinaryHead contents.length front) (rest : List UInt8) :
    readItem? (front ++ (contents ++ rest)) = some (.binary contents, rest) := by
  cases h with
  | short room => exact absurd room (Nat.not_lt_zero _)
  | wide form room =>
    simp only [List.mem_cons, Prod.mk.injEq, List.not_mem_nil, or_false] at form
    rcases form with ⟨rfl, rfl⟩ | ⟨rfl, rfl⟩ | ⟨rfl, rfl⟩ <;> exact readSized?_fixed room

theorem readItem?_array (h : ArrayHead n front) (rest : List UInt8) :
    readItem? (front ++ rest) = some (.array n, rest) := by
  cases h with
  | short room =>
    have byte := toNat_ofNat (n := 0x90 + n) (by omega)
    have length : 0x90 + n - 0x90 = n := Nat.add_sub_cancel_left _ _
    rw [List.singleton_append, readItem?, byte]
    rw [if_neg (by omega), if_neg (by omega), if_pos (by omega), length]
  | wide form room =>
    simp only [List.mem_cons, Prod.mk.injEq, List.not_mem_nil, or_false] at form
    rcases form with ⟨rfl, rfl⟩ | ⟨rfl, rfl⟩ <;> exact readHead?_fixed room

/-- Strings are written in the shortest of the forms. -/
theorem writeText_eq (room : contents.length < Nat.pow 2 32) :
    ∃ front, TextHead contents.length front ∧ writeText contents = front ++ contents := by
  refine ⟨_, ?_, rfl⟩
  split
  · next short => exact .short short
  · split
    · next one => exact .wide (.head _) one
    · split
      · next two => exact .wide (.tail _ (.head _)) two
      · exact .wide (.tail _ (.tail _ (.head _))) room

/-- Byte strings are written in the shortest of the forms. -/
theorem writeBinary_eq (room : contents.length < Nat.pow 2 32) :
    ∃ front, BinaryHead contents.length front ∧ writeBinary contents = front ++ contents := by
  refine ⟨_, ?_, rfl⟩
  split
  · next one => exact .wide (.head _) one
  · split
    · next two => exact .wide (.tail _ (.head _)) two
    · exact .wide (.tail _ (.tail _ (.head _))) room

/-! ## Integers -/

theorem readItem?_unsigned (form : (head, width) ∈ unsignedForms) (rest : List UInt8) :
    readItem? (head :: rest) = readUnsigned? width rest := by
  simp only [unsignedForms, List.mem_cons, Prod.mk.injEq, List.not_mem_nil, or_false] at form
  rcases form with ⟨rfl, rfl⟩ | ⟨rfl, rfl⟩ | ⟨rfl, rfl⟩ | ⟨rfl, rfl⟩ <;> rfl

theorem readItem?_signed (form : (head, width) ∈ signedForms) (rest : List UInt8) :
    readItem? (head :: rest) = readSigned? width rest := by
  simp only [signedForms, List.mem_cons, Prod.mk.injEq, List.not_mem_nil, or_false] at form
  rcases form with ⟨rfl, rfl⟩ | ⟨rfl, rfl⟩ | ⟨rfl, rfl⟩ | ⟨rfl, rfl⟩ <;> rfl

theorem isScalar_unsigned (form : (head, width) ∈ unsignedForms) : isScalar head = true :=
  have each : ∀ f ∈ unsignedForms, isScalar f.1 = true := by decide
  each _ form

theorem isScalar_signed (form : (head, width) ∈ signedForms) : isScalar head = true :=
  have each : ∀ f ∈ signedForms, isScalar f.1 = true := by decide
  each _ form

theorem pow_eq_twice (positive : 0 < width) :
    Nat.pow 2 (8 * width) = 2 * Nat.pow 2 (8 * width - 1) := by
  obtain ⟨k, bits⟩ : ∃ k, 8 * width = k + 1 := ⟨8 * width - 1, by omega⟩
  rw [bits, Nat.add_sub_cancel]
  exact Nat.pow_succ'

/-- Two's complement is undone. -/
theorem signedValue_emod (positive : 0 < width)
    (least : -(Nat.pow 2 (8 * width - 1) : Int) ≤ v) (most : v < Nat.pow 2 (8 * width - 1)) :
    signedValue width (v % Nat.pow 2 (8 * width)).toNat = v := by
  rw [signedValue, pow_eq_twice positive]
  generalize Nat.pow 2 (8 * width - 1) = half at least most ⊢
  by_cases negative : v < 0
  · have wrapped : v % ((2 * half : Nat) : Int) = v + (2 * half : Nat) := by
      rw [← Int.add_emod_right, Int.emod_eq_of_lt (by omega) (by omega)]
    rw [wrapped, if_neg (by omega)]
    omega
  · have kept : v % ((2 * half : Nat) : Int) = v := Int.emod_eq_of_lt (by omega) (by omega)
    rw [kept, if_pos (by omega)]
    omega

/-- Whatever is read as two's complement is so. -/
theorem signedValue_spec (positive : 0 < width) (room : n < Nat.pow 2 (8 * width)) :
    -(Nat.pow 2 (8 * width - 1) : Int) ≤ signedValue width n ∧
      signedValue width n < Nat.pow 2 (8 * width - 1) ∧
      (signedValue width n % Nat.pow 2 (8 * width)).toNat = n := by
  have twice := pow_eq_twice positive
  rw [twice] at room
  rw [signedValue, twice]
  generalize Nat.pow 2 (8 * width - 1) = half at room ⊢
  by_cases low : n < half
  · have kept : (n : Int) % ((2 * half : Nat) : Int) = n := Int.emod_eq_of_lt (by omega) (by omega)
    rw [if_pos low, kept]
    omega
  · have wrapped : ((n : Int) - (2 * half : Nat)) % ((2 * half : Nat) : Int) = n := by
      rw [← Int.add_emod_right, Int.sub_add_cancel, Int.emod_eq_of_lt (by omega) (by omega)]
    rw [if_neg low, wrapped]
    omega

/-- The item that an encoding is read as, and the range that it has as such. -/
inductive Item.Holds : Item → Int → Prop where
  | unsigned {n : Nat} : n < Nat.pow 2 64 → Item.Holds (.unsigned n) n
  | signed {v : Int} : -(Nat.pow 2 63 : Int) ≤ v → v < Nat.pow 2 63 → Item.Holds (.signed v) v

theorem Encodes.exists_item (h : Encodes v bytes) (rest : List UInt8) :
    ∃ item, item.Holds v ∧ readItem? (bytes ++ rest) = some (item, rest) := by
  have power : Nat.pow 2 64 = 18446744073709551616 := rfl
  have half : Nat.pow 2 63 = 9223372036854775808 := rfl
  cases h with
  | @small n room =>
    refine ⟨.unsigned n, .unsigned (by omega), ?_⟩
    rw [List.singleton_append, readItem?, toNat_ofNat (by omega)]
    rw [if_pos room]
  | @smallNegative n positive room =>
    refine ⟨.signed (-n), .signed (by omega) (by omega), ?_⟩
    rw [List.singleton_append, readItem?, toNat_ofNat (by omega)]
    rw [if_neg (by omega), if_neg (by omega), if_neg (by omega), if_neg (by omega),
      if_pos (by omega)]
    exact congrArg (fun v => some (Item.signed v, rest)) (by omega)
  | @unsigned head width n form room =>
    have wide : ∀ f ∈ unsignedForms, Nat.pow 256 f.2 ≤ Nat.pow 2 64 := by decide
    refine ⟨.unsigned n, .unsigned (Nat.lt_of_lt_of_le room (wide _ form)), ?_⟩
    rw [List.cons_append, readItem?_unsigned form, readUnsigned?, readNat?_fixed room,
      Option.map_some]
  | @signed head width v form least most =>
    have sizes : ∀ f ∈ signedForms, 0 < f.2 ∧ Nat.pow 256 f.2 = Nat.pow 2 (8 * f.2) ∧
        Nat.pow 2 (8 * f.2 - 1) ≤ Nat.pow 2 63 := by decide
    obtain ⟨positive, bits, wide⟩ : 0 < width ∧ Nat.pow 256 width = Nat.pow 2 (8 * width) ∧
        Nat.pow 2 (8 * width - 1) ≤ Nat.pow 2 63 := sizes _ form
    have power : 0 < Nat.pow 2 (8 * width) := Nat.two_pow_pos _
    have room : (v % (Nat.pow 2 (8 * width) : Int)).toNat < Nat.pow 256 width := by
      have below := Int.emod_lt_of_pos v (b := Nat.pow 2 (8 * width)) (by omega)
      rw [bits]
      omega
    refine ⟨.signed v, .signed (by omega) (by omega), ?_⟩
    rw [List.cons_append, readItem?_signed form, readSigned?, readNat?_fixed room, Option.map_some]
    exact congrArg (fun v => some (Item.signed v, rest)) (signedValue_emod positive least most)

/-- Encodings are told from the items that hold something by their first byte. -/
theorem Encodes.exists_head (h : Encodes v bytes) :
    ∃ head more, bytes = head :: more ∧ isScalar head = true := by
  cases h with
  | @small n room =>
    have less : UInt8.ofNat n < 0x80 := by
      rw [UInt8.lt_iff_toNat_lt, toNat_ofNat (Nat.lt_trans room (by decide))]
      exact room
    exact ⟨_, _, rfl, by simp [isScalar, less]⟩
  | @smallNegative n positive room =>
    have more : 0xe0 ≤ UInt8.ofNat (0x100 - n) := by
      rw [UInt8.le_iff_toNat_le, toNat_ofNat (Nat.sub_lt (by decide) positive)]
      exact Nat.sub_le_sub_left room 0x100
    exact ⟨_, _, rfl, by simp [isScalar, more]⟩
  | unsigned form => exact ⟨_, _, rfl, isScalar_unsigned form⟩
  | signed form => exact ⟨_, _, rfl, isScalar_signed form⟩

/-- The integers with an encoding are those that fit in 64 bits, with or without a sign. -/
theorem exists_encodes_iff :
    (∃ bytes, Encodes v bytes) ↔ -(Nat.pow 2 63 : Int) ≤ v ∧ v < Nat.pow 2 64 := by
  have half : (Nat.pow 2 63 : Int) ≤ Nat.pow 2 64 := by decide
  constructor
  · rintro ⟨bytes, h⟩
    obtain ⟨item, holds, -⟩ := h.exists_item []
    cases holds with
    | unsigned room => omega
    | signed least most => omega
  · rintro ⟨least, most⟩
    by_cases negative : v < 0
    · have form : (0xd3, 8) ∈ signedForms := by decide
      exact ⟨_, .signed form least (Int.lt_of_lt_of_le negative (Int.natCast_nonneg _))⟩
    · obtain ⟨n, rfl⟩ := Int.eq_ofNat_of_zero_le (Int.not_lt.1 negative)
      have form : (0xcf, 8) ∈ unsignedForms := by decide
      exact ⟨_, .unsigned form (Int.ofNat_lt.1 most)⟩

/-! ## Sequences of bytes -/

/-- Bytes as items one after another, each in any of its encodings. -/
inductive ByteItems : List UInt8 → List UInt8 → Prop where
  | nil : ByteItems [] []
  | cons {b w bytes ws} : Encodes b.toNat w → ByteItems bytes ws → ByteItems (b :: bytes) (w ++ ws)

/-- An item that is no byte, and the error that it ends a reading of bytes with. Of an item that has
contents only the first byte is looked at. -/
inductive Stray : List UInt8 → ReadError → Prop where
  | nil : Stray [0xc0] (.data (.kind .nothing .byte))
  | false : Stray [0xc2] (.data (.kind (.boolean false) .byte))
  | true : Stray [0xc3] (.data (.kind (.boolean true) .byte))
  | integer {v w} : Encodes v w → ¬ (0 ≤ v ∧ v < 256) → Stray w (.data (.range v .byte))
  | single {word} : word.length = 4 → Stray (0xca :: word)
      (.data (.kind (.float (some (Binary64.ofWord32 (BigEndian.value word)).text)) .byte))
  | double {word} : word.length = 8 → Stray (0xcb :: word)
      (.data (.kind (.float (some (Binary64.ofWord64 (BigEndian.value word)).text)) .byte))
  | contents {head more} : isScalar head = false → Stray (head :: more) .unreadable

theorem Item.Holds.found? (h : Item.Holds i v) : i.found? = some (.integer v) := by
  cases h <;> rfl

theorem readByte_encodes (h : Encodes v bytes) (rest : List UInt8) :
    readByte (bytes ++ rest) =
      if 0 ≤ v ∧ v < 256 then .ok (UInt8.ofNat v.toNat, rest) else .error (.data (.range v .byte)) := by
  obtain ⟨head, more, rfl, scalar⟩ := h.exists_head
  obtain ⟨i, holds, read⟩ := h.exists_item rest
  rw [List.cons_append] at read ⊢
  simp only [readByte, scalar, if_true, read, Item.readByte, holds.found?]
  split <;> rfl

theorem readByte_byte {b : UInt8} (h : Encodes b.toNat bytes) (rest : List UInt8) :
    readByte (bytes ++ rest) = .ok (b, rest) := by
  have small : b.toNat < 256 := b.toNat_lt
  rw [readByte_encodes h, if_pos (by omega), Int.toNat_natCast, UInt8.ofNat_toNat]

theorem readItem?_single (bytes : List UInt8) :
    readItem? (0xca :: bytes) = readHead? (fun n => .float (.ofWord32 n)) 4 bytes := rfl

theorem readItem?_double (bytes : List UInt8) :
    readItem? (0xcb :: bytes) = readHead? (fun n => .float (.ofWord64 n)) 8 bytes := rfl

/-- A number in a field of its own is judged as the item that it is. -/
theorem readByte_field {kind : Nat → Item} {e : ReadError} (scalar : isScalar head = true)
    (field : readItem? (head :: (contents ++ rest)) = readHead? kind width (contents ++ rest))
    (size : contents.length = width)
    (bad : (kind (BigEndian.value contents)).readByte = .error e) :
    readByte (head :: (contents ++ rest)) = .error e := by
  have number : readNat? width (contents ++ rest) = some (BigEndian.value contents, rest) := by
    rw [readNat?, split?_append size, Option.map_some]
  rw [readHead?, number, Option.map_some] at field
  simp only [readByte, scalar, if_true, field, bad]
  rfl

theorem Stray.readByte {e : ReadError} (h : Stray bytes e) (rest : List UInt8) :
    MessagePack.readByte (bytes ++ rest) = .error e := by
  cases h with
  | nil => rfl
  | false => rfl
  | true => rfl
  | integer encodes outside => rw [readByte_encodes encodes, if_neg outside]
  | single size => exact readByte_field rfl (readItem?_single _) size rfl
  | double size => exact readByte_field rfl (readItem?_double _) size rfl
  | contents other =>
    simp only [List.cons_append, MessagePack.readByte, other]
    rfl

/-- The first bytes that `isScalar` admits. -/
theorem isScalar_cases (scalar : isScalar head = true) :
    head < 0x80 ∨ 0xe0 ≤ head ∨ head ∈ [0xc0, 0xc2, 0xc3, 0xca, 0xcb] ∨
      (∃ width, (head, width) ∈ unsignedForms) ∨ ∃ width, (head, width) ∈ signedForms := by
  have each : ∀ k < 256, isScalar (UInt8.ofNat k) = true →
      UInt8.ofNat k < 0x80 ∨ 0xe0 ≤ UInt8.ofNat k ∨
        UInt8.ofNat k ∈ ([0xc0, 0xc2, 0xc3, 0xca, 0xcb] : List UInt8) ∨
        UInt8.ofNat k ∈ unsignedForms.map Prod.fst ∨ UInt8.ofNat k ∈ signedForms.map Prod.fst := by
    decide +kernel
  have first := each head.toNat head.toNat_lt
  rw [UInt8.ofNat_toNat] at first
  simpa using first scalar

theorem exists_encodes_head (range : head < 0x80 ∨ 0xe0 ≤ head) : ∃ v, Encodes v [head] := by
  have small : head.toNat < 256 := head.toNat_lt
  rcases range with low | high
  · have encodes := Encodes.small (UInt8.lt_iff_toNat_lt.1 low)
    rw [UInt8.ofNat_toNat] at encodes
    exact ⟨_, encodes⟩
  · have least : 0xe0 ≤ head.toNat := UInt8.le_iff_toNat_le.1 high
    have encodes := Encodes.smallNegative (n := 0x100 - head.toNat) (by omega) (by omega)
    have same : 0x100 - (0x100 - head.toNat) = head.toNat := by omega
    rw [same, UInt8.ofNat_toNat] at encodes
    exact ⟨_, encodes⟩

theorem readHead?_eq_some {kind : Nat → Item} (read : readHead? kind width bytes = some (i, rest)) :
    ∃ word, word.length = width ∧ bytes = word ++ rest := by
  rw [readHead?, Option.map_eq_some_iff] at read
  obtain ⟨⟨n, after⟩, number, same⟩ := read
  cases same
  exact ⟨_, BigEndian.length_fixed width n, (readNat?_eq_some number).2⟩

/-- A scalar item that is there in full is an integer in one of its encodings or no integer. -/
theorem encodes_or_stray (scalar : isScalar head = true)
    (read : readItem? (head :: bytes) = some (i, rest)) :
    ∃ w, head :: bytes = w ++ rest ∧ ((∃ v, Encodes v w) ∨ ∃ e, Stray w e) := by
  have short (range : head < 0x80 ∨ 0xe0 ≤ head) :
      ∃ w, head :: bytes = w ++ rest ∧ ((∃ v, Encodes v w) ∨ ∃ e, Stray w e) := by
    obtain ⟨v, encodes⟩ := exists_encodes_head range
    obtain ⟨_, -, same⟩ := encodes.exists_item bytes
    cases read.symm.trans same
    exact ⟨[head], rfl, .inl ⟨v, encodes⟩⟩
  rcases isScalar_cases scalar with small | large | other | ⟨width, form⟩ | ⟨width, form⟩
  · exact short (.inl small)
  · exact short (.inr large)
  · simp only [List.mem_cons, List.not_mem_nil, or_false] at other
    rcases other with rfl | rfl | rfl | rfl | rfl
    · cases read
      exact ⟨[0xc0], rfl, .inr ⟨_, .nil⟩⟩
    · cases read
      exact ⟨[0xc2], rfl, .inr ⟨_, .false⟩⟩
    · cases read
      exact ⟨[0xc3], rfl, .inr ⟨_, .true⟩⟩
    · rw [readItem?_single] at read
      obtain ⟨word, size, rfl⟩ := readHead?_eq_some read
      exact ⟨0xca :: word, rfl, .inr ⟨_, .single size⟩⟩
    · rw [readItem?_double] at read
      obtain ⟨word, size, rfl⟩ := readHead?_eq_some read
      exact ⟨0xcb :: word, rfl, .inr ⟨_, .double size⟩⟩
  · rw [readItem?_unsigned form, readUnsigned?, Option.map_eq_some_iff] at read
    obtain ⟨⟨n, after⟩, number, same⟩ := read
    cases same
    obtain ⟨room, rfl⟩ := readNat?_eq_some number
    exact ⟨head :: BigEndian.fixed width n, rfl, .inl ⟨n, .unsigned form room⟩⟩
  · have sizes : ∀ f ∈ signedForms, 0 < f.2 ∧ Nat.pow 256 f.2 = Nat.pow 2 (8 * f.2) := by decide
    obtain ⟨positive, bits⟩ := sizes _ form
    rw [readItem?_signed form, readSigned?, Option.map_eq_some_iff] at read
    obtain ⟨⟨n, after⟩, number, same⟩ := read
    cases same
    obtain ⟨room, rfl⟩ := readNat?_eq_some number
    rw [bits] at room
    obtain ⟨least, most, same⟩ := signedValue_spec positive room
    have encodes := Encodes.signed form least most
    rw [same] at encodes
    exact ⟨_, rfl, .inl ⟨_, encodes⟩⟩

theorem readBytes_cons {b : UInt8} (h : Encodes b.toNat bytes) (n : Nat) (rest : List UInt8) :
    readBytes (n + 1) (bytes ++ rest) = return b :: (← readBytes n rest) := by
  rw [readBytes, readByte_byte h]
  rfl

/-- The bytes in front are kept while the rest is read. -/
theorem ByteItems.readBytes_append {bytes ws : List UInt8} (h : ByteItems bytes ws) (n : Nat)
    (rest : List UInt8) :
    readBytes (bytes.length + n) (ws ++ rest) = return bytes ++ (← readBytes n rest) := by
  induction h with
  | nil =>
    rw [List.length_nil, Nat.zero_add]
    exact (bind_pure (readBytes n rest)).symm
  | @cons b w bytes ws encodes _ ih =>
    have count : (b :: bytes).length + n = bytes.length + n + 1 := Nat.succ_add bytes.length n
    rw [count, List.append_assoc, readBytes_cons encodes, ih]
    cases readBytes n rest <;> rfl

theorem readBytes_items {bytes ws : List UInt8} (h : ByteItems bytes ws) (rest : List UInt8) :
    readBytes bytes.length (ws ++ rest) = .ok bytes := by
  refine (h.readBytes_append 0 rest).trans ?_
  show Except.ok (bytes ++ []) = _
  rw [List.append_nil]

/-- The first item that is no byte ends the reading, however many were to come. -/
theorem readBytes_bad {bytes ws w : List UInt8} {e : ReadError} (h : ByteItems bytes ws)
    (stray : Stray w e) (n : Nat) (rest : List UInt8) :
    readBytes (bytes.length + (n + 1)) (ws ++ (w ++ rest)) = .error e := by
  rw [h.readBytes_append, readBytes, stray.readByte]
  rfl

/-- Unless the document ends too early, it begins with a byte or with an item that is none. -/
theorem readByte_cases (document : List UInt8) :
    readByte document = .error .cut ∨
      (∃ b w rest, document = w ++ rest ∧ Encodes (UInt8.toNat b) w) ∨
      ∃ w rest e, document = w ++ rest ∧ Stray w e := by
  cases document with
  | nil => exact .inl rfl
  | cons head bytes =>
    cases scalar : isScalar head with
    | false => exact .inr (.inr ⟨_, [], _, (List.append_nil _).symm, .contents scalar⟩)
    | true =>
      cases read : readItem? (head :: bytes) with
      | none =>
        refine .inl ?_
        simp only [readByte, scalar, if_true, read]
      | some found =>
        obtain ⟨w, split, ⟨v, encodes⟩ | ⟨e, stray⟩⟩ := encodes_or_stray scalar read
        · by_cases inside : 0 ≤ v ∧ v < 256
          · have same : (UInt8.ofNat v.toNat).toNat = v.toNat := toNat_ofNat (by omega)
            refine .inr (.inl ⟨UInt8.ofNat v.toNat, w, _, split, ?_⟩)
            rwa [same, Int.toNat_of_nonneg inside.1]
          · exact .inr (.inr ⟨w, _, _, split, .integer encodes inside⟩)
        · exact .inr (.inr ⟨w, _, e, split, stray⟩)

/-- Unless the document ends too early, it holds the bytes or an item among them that is none. -/
theorem readBytes_cases (n : Nat) (document : List UInt8) :
    readBytes n document = .error .cut ∨
      (∃ x ws rest, x.length = n ∧ ByteItems x ws ∧ document = ws ++ rest) ∨
      ∃ x ws w rest e k, x.length + (k + 1) = n ∧ ByteItems x ws ∧ Stray w e ∧
        document = ws ++ (w ++ rest) := by
  induction n generalizing document with
  | zero => exact .inr (.inl ⟨[], [], document, rfl, .nil, rfl⟩)
  | succ n ih =>
    rcases readByte_cases document with cut | ⟨b, w, rest, rfl, encodes⟩ | ⟨w, rest, e, rfl, stray⟩
    · rw [readBytes, cut]
      exact .inl rfl
    · rcases ih rest with cut | ⟨x, ws, rest, rfl, items, rfl⟩ |
        ⟨x, ws, w', rest, e, k, rfl, items, stray, rfl⟩
      · rw [readBytes_cons encodes, cut]
        exact .inl rfl
      · exact .inr (.inl ⟨b :: x, w ++ ws, rest, rfl, .cons encodes items,
          (List.append_assoc ..).symm⟩)
      · exact .inr (.inr ⟨b :: x, w ++ ws, w', rest, e, k, by simp; omega, .cons encodes items, stray,
          (List.append_assoc ..).symm⟩)
    · exact .inr (.inr ⟨[], [], w, rest, e, n, by simp, .nil, stray, rfl⟩)

end AmbientResidue.MessagePack
