import AmbientResidue.Proofs.Element.Canonical
import AmbientResidue.Proofs.Json.Text
import AmbientResidue.Proofs.Wire.Frame
import AmbientResidue.Proofs.Wire.Json
import AmbientResidue.Proofs.Wire.MessagePack

/-! # What the readers make of written bytes

Every format carries a byte string and nothing else, so that reading a residue from what was written
for some bytes is making the residue of these bytes, at the same price. Only a validating reader of
frames looks at their value first. -/

namespace AmbientResidue

open Counted (Yields Refuses)

namespace Element

variable {env : Ambient} {m : Modulus} {a r : Element} {bytes rest : List UInt8}

theorem json_eq (a : Element) : a.json = Json.sequence a.bytes := rfl

/-- A document is read when its last token is. -/
theorem ofJson_of_read {ts : List Json.Token} {text : String}
    (written : Json.Written ts text.toList)
    (read : readJson env ts = do return (← ofJsonBytes env bytes, [])) :
    ofJson env text = ofJsonBytes env bytes := by
  have finished : Json.finish [] = .ok () := rfl
  rw [ofJson, written.tokens_eq, read]
  simp only [bind_assoc, pure_bind, finished, Counted.free_ok_bind, bind_pure]

/-- However a sequence of bytes is laid out as a document, it is read as these bytes. -/
theorem ofJson_array {text : String}
    (written : Json.Written (Json.array (bytes.map Json.byteItem)) text.toList) :
    ofJson env text = ofJsonBytes env bytes := by
  have read : readJson env (Json.array (bytes.map Json.byteItem)) = do
      return (← ofJsonBytes env bytes, []) := by
    rw [Json.array, readJson, Json.readBytes_array, Counted.free_ok_bind]
  exact ofJson_of_read written read

theorem ofJson_sequence : ofJson env (Json.sequence bytes) = ofJsonBytes env bytes :=
  ofJson_array (Json.written_sequence bytes)

/-- A string is read as the bytes of its characters. -/
theorem ofJson_text {text : String} {ps : List Json.Piece} {cs : List Char}
    (written : Json.Written [.text ps] text.toList) (found : Json.characters? ps = some cs) :
    ofJson env text = ofJsonBytes env (Utf8.encode cs) := by
  have read : readJson env [.text ps] = do return (← ofJsonBytes env (Utf8.encode cs), []) := by
    rw [readJson, written.bytes_eq found]
  exact ofJson_of_read written read

/-- Nothing is made of a sequence with an item that is no byte. -/
theorem ofJson_stray {text : String} {bad : List Json.Token} {others : List (List Json.Token)}
    {e : Json.ReadError}
    (written : Json.Written (Json.array (bytes.map Json.byteItem ++ bad :: others)) text.toList)
    (stray : Json.Stray bad e) : ofJson env text = throw e := by
  obtain ⟨t, more, rfl, begins, refused⟩ := stray.readByte
  rw [ofJson, written.tokens_eq, Json.array, readJson, Json.readBytes_bad _ _ _ begins refused]
  rfl

/-- Whatever follows a byte string, it is read as these bytes. -/
theorem ofMessagePack_binary {front : List UInt8}
    (head : MessagePack.BinaryHead bytes.length front) (rest : List UInt8) :
    ofMessagePack env (front ++ (bytes ++ rest)) = ofMessagePackBytes env bytes := by
  rw [ofMessagePack, MessagePack.readItem?_binary head]

theorem ofMessagePack_writeBinary (room : bytes.length < Nat.pow 2 32) :
    ofMessagePack env (MessagePack.writeBinary bytes) = ofMessagePackBytes env bytes := by
  obtain ⟨front, head, written⟩ := MessagePack.writeBinary_eq room
  have read : ofMessagePack env (front ++ (bytes ++ [])) = _ := ofMessagePack_binary head []
  rwa [List.append_nil, ← written] at read

theorem ofMessagePack_array {front ws : List UInt8} (head : MessagePack.ArrayHead bytes.length front)
    (items : MessagePack.ByteItems bytes ws) (rest : List UInt8) :
    ofMessagePack env (front ++ (ws ++ rest)) = ofMessagePackBytes env bytes := by
  rw [ofMessagePack, MessagePack.readItem?_array head]
  dsimp only
  rw [MessagePack.readBytes_items items, Counted.free_ok_bind]

theorem ofMessagePack_stray {front ws bad : List UInt8} {n : Nat} {e : MessagePack.ReadError}
    (head : MessagePack.ArrayHead (bytes.length + (n + 1)) front)
    (items : MessagePack.ByteItems bytes ws) (stray : MessagePack.Stray bad e) (rest : List UInt8) :
    ofMessagePack env (front ++ (ws ++ (bad ++ rest))) = throw e := by
  rw [ofMessagePack, MessagePack.readItem?_array head]
  dsimp only
  rw [MessagePack.readBytes_bad items stray]
  rfl

/-- A reader of frames finds a modulus, then the value; the validating one insists on its range. -/
theorem ofFrame_encode {compression : Compression} {validate : Bool}
    (room : bytes.length < Frame.capacity) (active : env.active = some m) :
    ofFrame env compression validate (Frame.encode bytes ++ rest) = do
      let v ← Counted.sure (Integer.ofBytes bytes)
      if validate && !m.contains v then throw .invalid
      else return (env.residue m (← Counted.sure (m.reduce v)), rest) := by
  rw [ofFrame, Frame.decode_encode room]
  dsimp only
  rw [active]

theorem yields_ofFrame {compression : Compression} {validate : Bool}
    (room : bytes.length < Frame.capacity) (active : env.active = some m)
    (accepted : validate = true → m.contains (BigEndian.value bytes) = true) :
    Yields (ofFrame env compression validate (Frame.encode bytes ++ rest))
      (env.residue m (BigEndian.value bytes % m.value), rest) := by
  have passes : (validate && !m.contains (BigEndian.value bytes)) = false := by
    cases validate with
    | false => rfl
    | true => rw [accepted rfl]; rfl
  rw [ofFrame_encode room active, Counted.yields_bind]
  refine ⟨_, Counted.yields_sure.2 rfl, ?_⟩
  rw [Integer.value_ofBytes, if_neg (by rw [passes]; decide)]
  simp

theorem refuses_ofFrame {compression : Compression} (room : bytes.length < Frame.capacity)
    (active : env.active = some m) (outside : m.contains (BigEndian.value bytes) = false) :
    Refuses (ofFrame env compression true (Frame.encode bytes ++ rest)) .invalid := by
  rw [ofFrame_encode room active, Counted.refuses_bind]
  refine .inr ⟨_, Counted.yields_sure.2 rfl, ?_⟩
  rw [Integer.value_ofBytes, if_pos (by rw [outside]; rfl)]
  exact Counted.refuses_throw.2 rfl

/-- A representative that is not negative is valid exactly if it is below the modulus. -/
theorem check_eq_error {d : FrameError} (active : env.active = some m)
    (positive : 0 ≤ a.representative) :
    a.check env = .error d ↔ m.value ≤ a.representative ∧ d = .invalid := by
  have checks : a.check env = if m.contains a.representative then .ok () else .error .invalid := by
    rw [check, active]
  rw [checks]
  by_cases below : a.representative < m.value
  · have inside : m.contains a.representative = true := m.contains_iff.2 ⟨positive, below⟩
    simp [inside, Int.not_le.2 below]
  · have large : m.value ≤ a.representative := Int.not_lt.1 below
    simp [m.contains_of_le large, large, eq_comm]

/-! ## Writing -/

theorem value_bytes (positive : 0 ≤ a.representative) :
    (BigEndian.value a.bytes : Int) = a.representative := by
  rw [bytes, Integer.bytes_eq, BigEndian.value_encode, Int.natAbs_of_nonneg positive]

theorem length_bytes (a : Element) : a.bytes.length = Integer.width a.representative :=
  Integer.length_bytes a.representative

end Element

end AmbientResidue
