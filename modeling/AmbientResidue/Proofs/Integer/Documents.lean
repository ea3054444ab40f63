import AmbientResidue.Proofs.Integer
import AmbientResidue.Proofs.Json.Text
import AmbientResidue.Proofs.Text.Utf8
import AmbientResidue.Proofs.Wire.Json
import AmbientResidue.Proofs.Wire.MessagePack
import AmbientResidue.Wire.Document

/-! # Integers in documents

An integer is written as the string of its canonical literal. It is read from that string, from a
string with any other literal of it and, if it fits in 64 bits, from a number: numbers that are not
negative go by way of their eight bytes in JSON, and by way of their encoding in MessagePack. -/

namespace AmbientResidue

open Counted (Yields Refuses)

/-- A JSON value that stands for the integer. By `Json.eq_integral` no other number does: `-0` is read
as a floating-point number. -/
inductive Json.Names (v : Int) : Json.Token → Prop where
  | number : -(Nat.pow 2 63 : Int) ≤ v → v < Nat.pow 2 64 → Names v (.number (Json.integral v))
  | text {ps cs} : Json.characters? ps = some cs → Decimal.Literal cs v → Names v (.text ps)

/-- A MessagePack value that stands for the integer. -/
inductive MessagePack.Names (v : Int) : List UInt8 → Prop where
  | integer {bytes} : MessagePack.Encodes v bytes → Names v bytes
  | text {front cs} : MessagePack.TextHead (Utf8.encode cs).length front → Decimal.Literal cs v →
      Names v (front ++ Utf8.encode cs)

variable {v : Int} {n : Nat} {cs : List Char} {bytes front rest : List UInt8} {text : String}
  {ps : List Json.Piece} {t : Json.Token}

namespace Integer

/-- The eight bytes of an unsigned word hold it. -/
theorem value_ofWord (room : n < Nat.pow 2 64) : (ofWord n).value = n := by
  have same : Nat.pow 256 8 = Nat.pow 2 64 := rfl
  rw [ofWord, value_ofBytes, BigEndian.value_fixed, same, Nat.mod_eq_of_lt room]

end Integer

/-! ## JSON -/

namespace Json

theorem readInteger_text (found : characters? ps = some cs) :
    readInteger (.text ps) =
      (Integer.ofLiteral (String.ofList cs)).adapt fun e => .data (.refused e) := by
  have text : (Token.text ps).found? = some (.text (String.ofList cs)) := by
    simp only [Token.found?, found, Option.map_some]
  simp only [readInteger, text]

theorem yields_readInteger (names : Names v t) : Yields (readInteger t) v := by
  cases names with
  | number least most =>
    simp only [readInteger, found?_integral least most, Counted.yields_sure]
    by_cases positive : 0 ≤ v
    · rw [if_pos positive, Integer.value_ofWord (by omega), Int.toNat_of_nonneg positive]
    · have small : (0 : Int) < Nat.pow 2 63 := by decide
      rw [if_neg positive, Integer.value_ofInt64, Int64.toInt_ofInt_of_le least (by omega)]
  | text found literal =>
    rw [readInteger_text found, Counted.yields_adapt, Integer.yields_ofLiteral_iff,
      String.toList_ofList]
    exact literal

end Json

namespace Integer

/-- A document of one token is that value. -/
theorem ofJson_of_written (written : Json.Written [t] text.toList) :
    ofJson text = Json.readInteger t := by
  have finished : Json.finish [] = .ok () := rfl
  rw [ofJson, written.tokens_eq]
  simp only [finished, Counted.free_ok_bind, bind_pure]

theorem ofJson_text (written : Json.Written [.text ps] text.toList)
    (found : Json.characters? ps = some cs) :
    ofJson text = (ofLiteral (String.ofList cs)).adapt fun e => .data (.refused e) := by
  rw [ofJson_of_written written, Json.readInteger_text found]

end Integer

theorem Decimal.Literal.standsAlone (literal : Decimal.Literal cs v) :
    ∀ c ∈ cs, Json.standsAlone c = true := by
  intro c mem
  rcases literal.isDigit_or_sign c mem with digit | rfl | rfl
  · obtain ⟨d, small, rfl⟩ := Decimal.exists_digitChar digit
    have each : ∀ d < 10, Json.standsAlone d.digitChar = true := by decide
    exact each d small
  · rfl
  · rfl

/-- Digits and signs need no escaping. -/
theorem Json.quoted_literal (literal : Decimal.Literal cs v) : quoted cs = '"' :: (cs ++ ['"']) := by
  rw [quoted, flatMap_spelling literal.standsAlone]

theorem Integer.toList_json (v : Int) : (json v).toList = Json.quoted (Decimal.print v) := by
  rw [Json.quoted_literal (Decimal.literal_print v)]
  simp [json, Decimal.text]

/-! ## MessagePack -/

namespace MessagePack

theorem readInteger_text (head : TextHead (Utf8.encode cs).length front) (rest : List UInt8) :
    readInteger (front ++ (Utf8.encode cs ++ rest)) =
      (Integer.ofLiteral (String.ofList cs)).adapt fun e => .data (.refused e) := by
  have found : (Item.text (Utf8.encode cs)).found? = some (.text (String.ofList cs)) := by
    simp only [Item.found?, Utf8.decode?_encode, Option.map_some]
  rw [readInteger, readItem?_text head]
  simp only [Item.readInteger, found]

theorem yields_readInteger (names : Names v bytes) (rest : List UInt8) :
    Yields (readInteger (bytes ++ rest)) v := by
  cases names with
  | integer encodes =>
    obtain ⟨item, holds, read⟩ := encodes.exists_item rest
    rw [readInteger, read]
    cases holds with
    | unsigned room => exact Counted.yields_sure.2 (Integer.value_ofWord room).symm
    | signed least most => exact Counted.yields_sure.2 (Int64.toInt_ofInt_of_le least most).symm
  | text head literal =>
    rw [List.append_assoc, readInteger_text head, Counted.yields_adapt,
      Integer.yields_ofLiteral_iff, String.toList_ofList]
    exact literal

end MessagePack

namespace Integer

/-- What is written is read again, and so is everything else that stands for the integer. -/
structure Documented (v : Int) : Prop where
  json : Yields (ofJson (json v)) v
  /-- MessagePack has room for the length of a string in four bytes. -/
  messagePack : (Utf8.encode (Decimal.print v)).length < Nat.pow 2 32 → ∀ rest,
    Yields (ofMessagePack (messagePack v ++ rest)) v
  readsJson : ∀ t text, Json.Names v t → Json.Written [t] text.toList → Yields (ofJson text) v
  readsMessagePack : ∀ bytes rest, MessagePack.Names v bytes →
    Yields (ofMessagePack (bytes ++ rest)) v

theorem documented (v : Int) : Documented v := by
  have literal := Decimal.literal_print v
  have readsJson (t : Json.Token) (text : String) (names : Json.Names v t)
      (written : Json.Written [t] text.toList) : Yields (ofJson text) v := by
    rw [ofJson_of_written written]
    exact Json.yields_readInteger names
  refine ⟨?_, fun room rest => ?_, readsJson, fun bytes rest names => ?_⟩
  · have written : Json.Written [.text ((Decimal.print v).map Json.piece)] (json v).toList := by
      rw [toList_json]
      exact Json.written_quoted _
    exact readsJson _ _ (.text (Json.characters?_pieces _) literal) written
  · obtain ⟨front, head, written⟩ := MessagePack.writeText_eq room
    rw [messagePack, written]
    exact MessagePack.yields_readInteger (.text head literal) rest
  · exact MessagePack.yields_readInteger names rest

/-- A string in either format is read as the text itself would be. -/
structure Quoted (s : String) : Prop where
  json : ∀ ps text, Json.characters? ps = some s.toList → Json.Written [.text ps] text.toList →
    (∀ v, Yields (ofJson text) v ↔ Yields (ofLiteral s) v) ∧
      ∀ e, Refuses (ofJson text) e ↔ ∃ d, Refuses (ofLiteral s) d ∧ e = .data (.refused d)
  messagePack : ∀ front rest, MessagePack.TextHead (Utf8.encode s.toList).length front →
    (∀ v, Yields (ofMessagePack (front ++ (Utf8.encode s.toList ++ rest))) v ↔
      Yields (ofLiteral s) v) ∧
    ∀ e, Refuses (ofMessagePack (front ++ (Utf8.encode s.toList ++ rest))) e ↔
      ∃ d, Refuses (ofLiteral s) d ∧ e = .data (.refused d)

theorem quoted (s : String) : Quoted s where
  json ps text found written := by
    have read := ofJson_text written found
    rw [String.ofList_toList] at read
    rw [read]
    exact ⟨fun _ => Counted.yields_adapt, fun _ => Counted.refuses_adapt⟩
  messagePack front rest head := by
    have read := MessagePack.readInteger_text head rest
    rw [String.ofList_toList] at read
    rw [ofMessagePack, read]
    exact ⟨fun _ => Counted.yields_adapt, fun _ => Counted.refuses_adapt⟩

/-- Integers survive being written and read, all that stands for an integer is read as the same one,
and strings are read exactly if they are literals. -/
theorem documents_read_faithfully : (∀ v, Documented v) ∧ ∀ s, Quoted s :=
  ⟨documented, quoted⟩

/-- On both sides of the sign bit, and at the largest word, numbers and strings agree. -/
theorem documents_read_faithfully_at_sign_bit :
    Yields (ofJson "9223372036854775807") 9223372036854775807 ∧
      Yields (ofJson "9223372036854775808") 9223372036854775808 ∧
      Yields (ofJson "18446744073709551615") 18446744073709551615 ∧
      Yields (ofJson "\"9223372036854775808\"") 9223372036854775808 ∧
      Yields (ofMessagePack [0xd3, 0x7f, 0xff, 0xff, 0xff, 0xff, 0xff, 0xff, 0xff])
        9223372036854775807 ∧
      Yields (ofMessagePack [0xcf, 0x80, 0, 0, 0, 0, 0, 0, 0]) 9223372036854775808 ∧
      Yields (ofMessagePack [0xcf, 0xff, 0xff, 0xff, 0xff, 0xff, 0xff, 0xff, 0xff])
        18446744073709551615 := by
  obtain ⟨documented, -⟩ := documents_read_faithfully
  have number {v : Int} {text : String} (least : -(Nat.pow 2 63 : Int) ≤ v)
      (most : v < Nat.pow 2 64) (print : text.toList = Decimal.print v) : Yields (ofJson text) v :=
    (documented v).readsJson _ _ (.number least most) (print ▸ Json.written_integral v)
  have signed : MessagePack.Encodes 9223372036854775807
      [0xd3, 0x7f, 0xff, 0xff, 0xff, 0xff, 0xff, 0xff, 0xff] := by
    have bytes : [0x7f, 0xff, 0xff, 0xff, 0xff, 0xff, 0xff, 0xff] =
        BigEndian.fixed 8 ((9223372036854775807 : Int) % Nat.pow 2 (8 * 8)).toNat := by
      decide +kernel
    have form : ((0xd3 : UInt8), 8) ∈ MessagePack.signedForms := by decide
    exact bytes ▸ .signed form (by decide) (by decide)
  have unsigned {n : Nat} {bytes : List UInt8} (room : n < Nat.pow 256 8)
      (same : bytes = BigEndian.fixed 8 n) : Yields (ofMessagePack (0xcf :: bytes)) n := by
    have form : ((0xcf : UInt8), 8) ∈ MessagePack.unsignedForms := by decide
    have read := (documented n).readsMessagePack _ [] (.integer (.unsigned form room))
    rwa [List.append_nil, ← same] at read
  refine ⟨number (by decide) (by decide) (by decide +kernel),
    number (by decide) (by decide) (by decide +kernel),
    number (by decide) (by decide) (by decide +kernel), ?_,
    (documented _).readsMessagePack _ [] (.integer signed),
    unsigned (by decide) (by decide +kernel), unsigned (by decide) (by decide +kernel)⟩
  have text : json 9223372036854775808 = "\"9223372036854775808\"" := by decide +kernel
  exact text ▸ (documented 9223372036854775808).json

end Integer

end AmbientResidue
