import AmbientResidue.Config
import AmbientResidue.Proofs.Integer.Documents

/-! # Documents of configurations

A document names a modulus under its key, wherever the key stands among others, or as the only entry
of an array. It is read as the configuration of this modulus if the modulus is positive and refused
for it otherwise, so that what is read can be installed at any time. -/

namespace AmbientResidue

open Counted (Yields Refuses)

namespace Config

open Json (Token Member Written Read)

/-- A member that has nothing to do with the modulus. -/
structure Foreign (m : Member) : Prop where
  key : ∃ cs, Json.characters? m.1 = some cs ∧ String.ofList cs ≠ key
  value : Json.Value m.2

/-- A document that names the integer as the modulus. -/
inductive Documents (v : Int) : String → Prop where
  | member {before after k t text} : Json.characters? k = some key.toList → Json.Names v t →
      (∀ m ∈ before, Foreign m) → (∀ m ∈ after, Foreign m) →
      Written (Json.object (before ++ (k, [t]) :: after)) text.toList → Documents v text
  | array {t text} : Json.Names v t → Written [.openArray, t, .closeArray] text.toList →
      Documents v text

variable {v : Int} {c d : Config} {text : String} {seen : Option Int} {t : Token} {m : Member}
  {rest : List Token} {before after : List Member} {k : List Json.Piece}

/-! ## Members -/

/-- The tokens from one member to the end of the object. -/
def ending (members : List Member) (rest : List Token) : List Token :=
  (members.map Member.tokens).flatMap (fun ts => .comma :: ts) ++ .closeObject :: rest

theorem ending_cons (m : Member) (members : List Member) (rest : List Token) :
    ending (m :: members) rest = .comma :: (m.tokens ++ ending members rest) := by
  simp [ending]

theorem object_cons (m : Member) (members : List Member) :
    Json.object (m :: members) = .openObject :: (m.tokens ++ ending members []) := by
  rw [Json.object, List.map_cons, Json.intercalate_append_cons]
  rfl

/-- A foreign member is passed over. -/
theorem readMembers_foreign (foreign : Foreign m) (rest : List Token) :
    readMembers seen (m.tokens ++ rest) =
      match rest with
      | .closeObject :: rest => close seen rest
      | .comma :: rest => readMembers seen rest
      | _ => throw .malformed := by
  obtain ⟨cs, found, other⟩ := foreign.key
  have skipped := foreign.value.skipValue_append rest
  rw [Member.tokens, List.cons_append, List.cons_append, readMembers.eq_def]
  simp only [found, if_neg other]
  split
  · next h => cases skipped.symm.trans h; rfl
  · next h => cases skipped.symm.trans h; rfl
  · next close comma =>
    split
    · exact absurd skipped (close _)
    · exact absurd skipped (comma _)
    · rfl

/-- The modulus is read where its key stands, once. -/
theorem readMembers_modulus (named : Json.characters? k = some key.toList) (rest : List Token) :
    readMembers none (.text k :: .colon :: t :: rest) =
      (Json.readInteger t >>= fun v =>
        match rest with
        | .closeObject :: rest => close (some v) rest
        | .comma :: rest => readMembers (some v) rest
        | _ => throw .malformed) := by
  have same : String.ofList key.toList = key := String.ofList_toList
  rw [readMembers.eq_def]
  simp only [named]
  exact (if_pos same).trans (if_neg Bool.false_ne_true)

/-- After the modulus only foreign members may follow. -/
theorem readMembers_ending (foreign : ∀ m ∈ after, Foreign m) (first : Foreign m)
    (rest : List Token) :
    readMembers (some v) (m.tokens ++ ending after rest) = return (v, rest) := by
  induction after generalizing m with
  | nil => rw [readMembers_foreign first]; rfl
  | cons next after ih =>
    rw [ending_cons, readMembers_foreign first]
    exact ih (fun m mem => foreign m (List.mem_cons_of_mem next mem))
      (foreign next List.mem_cons_self)

theorem readMembers_named (named : Json.characters? k = some key.toList)
    (later : ∀ m ∈ after, Foreign m) (rest : List Token) :
    readMembers none (Member.tokens (k, [t]) ++ ending after rest) = do
      return (← Json.readInteger t, rest) := by
  have modulus : Member.tokens (k, [t]) ++ ending after rest =
      .text k :: .colon :: t :: ending after rest := rfl
  rw [modulus, readMembers_modulus named]
  refine congrArg (Json.readInteger t >>= ·) (funext fun v => ?_)
  cases after with
  | nil => rfl
  | cons next after =>
    rw [ending_cons]
    exact readMembers_ending (fun m mem => later m (List.mem_cons_of_mem next mem))
      (later next List.mem_cons_self) rest

/-- Foreign members before the modulus are passed over as well. -/
theorem readMembers_before (named : Json.characters? k = some key.toList)
    (earlier : ∀ m ∈ before, Foreign m) (later : ∀ m ∈ after, Foreign m) (first : Foreign m)
    (rest : List Token) :
    readMembers none (m.tokens ++ ending (before ++ (k, [t]) :: after) rest) = do
      return (← Json.readInteger t, rest) := by
  induction before generalizing m with
  | nil =>
    rw [List.nil_append, ending_cons, readMembers_foreign first]
    exact readMembers_named named later rest
  | cons next before ih =>
    rw [List.cons_append, ending_cons, readMembers_foreign first]
    exact ih (fun m mem => earlier m (List.mem_cons_of_mem next mem))
      (earlier next List.mem_cons_self)

theorem readModulus_members (ts : List Token) :
    readModulus (.openObject :: .text k :: ts) = readMembers none (.text k :: ts) := rfl

/-- An object is read as its modulus. -/
theorem readModulus_object (named : Json.characters? k = some key.toList)
    (earlier : ∀ m ∈ before, Foreign m) (later : ∀ m ∈ after, Foreign m) :
    readModulus (Json.object (before ++ (k, [t]) :: after)) = do
      return (← Json.readInteger t, []) := by
  cases before with
  | nil =>
    rw [List.nil_append, object_cons]
    exact (readModulus_members _).trans (readMembers_named named later [])
  | cons m before =>
    rw [List.cons_append, object_cons]
    exact (readModulus_members _).trans
      (readMembers_before named (fun m mem => earlier m (List.mem_cons_of_mem _ mem)) later
        (earlier m List.mem_cons_self) [])

theorem readModulus_array (names : Json.Names v t) :
    readModulus [.openArray, t, .closeArray] = do return (← Json.readInteger t, []) := by
  cases names <;> rfl

/-! ## Documents -/

theorem yields_ofDocument (named : Documents v text) : Yields (ofDocument text) ⟨v⟩ := by
  obtain ⟨t, names, read⟩ : ∃ t, Json.Names v t ∧
      readModulus (Json.tokens text.toList) = do return (← Json.readInteger t, []) := by
    cases named with
    | member key names earlier later written =>
      rw [written.tokens_eq]
      exact ⟨_, names, readModulus_object key earlier later⟩
    | array names written =>
      rw [written.tokens_eq]
      exact ⟨_, names, readModulus_array names⟩
  have finished : Json.finish [] = .ok () := rfl
  rw [ofDocument, read]
  simp only [bind_assoc, pure_bind, finished, Counted.free_ok_bind, Counted.yields_bind]
  exact ⟨v, Json.yields_readInteger names, Counted.yields_pure.2 rfl⟩

theorem validate_eq (c : Config) :
    c.validate = if 0 < c.modulus then .ok () else .error (.invalidModulus c.modulus) := by
  unfold validate Modulus.ofInt
  split <;> rfl

theorem yields_ofText_iff : Yields (ofText text) c ↔ Yields (ofDocument text) c ∧ 1 ≤ c.modulus := by
  simp only [ofText, Counted.yields_bind, Counted.yields_adapt, Counted.yields_free,
    Counted.yields_pure, Counted.mapError_eq_ok, validate_eq]
  constructor
  · rintro ⟨d, read, _, valid, rfl⟩
    split at valid
    · next positive => exact ⟨read, positive⟩
    · cases valid
  · rintro ⟨read, positive⟩
    exact ⟨c, read, (), if_pos positive, rfl⟩

/-- A document that can be read is refused for its modulus only. -/
theorem refuses_ofText (read : Yields (ofDocument text) c) (small : c.modulus < 1) :
    Refuses (ofText text) (.field (.invalidModulus c.modulus)) := by
  have invalid : c.validate.mapError ConfigError.field =
      .error (.field (.invalidModulus c.modulus)) := by
    rw [validate_eq, if_neg (by omega)]
    rfl
  refine Counted.refuses_bind.2 (.inr ⟨c, Counted.yields_adapt.2 read, ?_⟩)
  exact Counted.refuses_bind.2 (.inl (Counted.refuses_free.2 invalid))

theorem toList_document (c : Config) : (document c).toList =
    ['\x7b'] ++ (Json.quoted key.toList ++ ([':'] ++
      (Json.quoted (Decimal.print c.modulus) ++ (['\x7d'] ++ [])))) := by
  have named : Json.quoted key.toList = '"' :: (key.toList ++ ['"']) := by decide +kernel
  rw [named, Json.quoted_literal (Decimal.literal_print c.modulus)]
  simp [document, Decimal.text]

/-- The document of a configuration names its modulus. -/
theorem documents_document (c : Config) : Documents c.modulus (document c) := by
  have written : Written (Json.object ([] ++ (key.toList.map Json.piece,
      [.text ((Decimal.print c.modulus).map Json.piece)]) :: [])) (document c).toList := by
    rw [toList_document]
    exact .token .openObject nofun (.token (Json.spelled_quoted _) nofun (.token .colon nofun
      (.token (Json.spelled_quoted _) nofun (.token .closeObject nofun (.nil nofun)))))
  have alone : ∀ m ∈ ([] : List Member), Foreign m := fun _ mem => nomatch mem
  exact .member (Json.characters?_pieces _)
    (.text (Json.characters?_pieces _) (Decimal.literal_print c.modulus)) alone alone written

/-- A document that names a modulus is read if the modulus is positive and refused for it if not. -/
theorem documents_decide (named : Documents v text) :
    (1 ≤ v → Yields (ofText text) ⟨v⟩) ∧
      (v < 1 → Refuses (ofText text) (.field (.invalidModulus v))) := by
  have read := yields_ofDocument named
  exact ⟨fun positive => yields_ofText_iff.2 ⟨read, positive⟩, fun small => refuses_ofText read small⟩

theorem yields_ofText_document_iff :
    Yields (ofText (document c)) d ↔ d = c ∧ 1 ≤ c.modulus := by
  have read : Yields (ofDocument (document c)) c := yields_ofDocument (documents_document c)
  rw [yields_ofText_iff]
  constructor
  · rintro ⟨same, positive⟩
    obtain rfl := Counted.yields_unique same read
    exact ⟨rfl, positive⟩
  · rintro ⟨rfl, positive⟩
    exact ⟨read, positive⟩

end Config

end AmbientResidue
