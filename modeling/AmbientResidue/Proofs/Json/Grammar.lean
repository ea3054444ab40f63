import AmbientResidue.Json.Reader

/-! # JSON values

Arrays and objects are values with commas between them. A reader that has no use for a value skips
exactly that value, at any depth. -/

namespace AmbientResidue.Json

/-- The tokens of an array, given those of its items. -/
def array (items : List (List Token)) : List Token :=
  .openArray :: ([.comma].intercalate items ++ [.closeArray])

/-- The key of a member of an object and the tokens of its value. -/
abbrev Member := List Piece × List Token

def Member.tokens (m : Member) : List Token := .text m.1 :: .colon :: m.2

/-- The tokens of an object. -/
def object (members : List Member) : List Token :=
  .openObject :: ([.comma].intercalate (members.map Member.tokens) ++ [.closeObject])

/-- The tokens of a JSON value. Strings may hold anything but raw controls. -/
inductive Value : List Token → Prop where
  | null : Value [.null]
  | boolean (b : Bool) : Value [.boolean b]
  | number (n : Number) : Value [.number n]
  | text {pieces} : isSkippable pieces = true → Value [.text pieces]
  | array {items} : (∀ v ∈ items, Value v) → Value (array items)
  | object {members} : (∀ m ∈ members, isSkippable m.1 = true) → (∀ m ∈ members, Value m.2) →
      Value (object members)

variable {ts rest : List Token} {frames : List Frame}

/-- A value does not begin with the end of an array. -/
theorem Value.exists_cons (h : Value ts) : ∃ t more, ts = t :: more ∧ t ≠ .closeArray := by
  cases h <;> exact ⟨_, _, rfl, nofun⟩

theorem intercalate_append_cons {α : Type} (comma : α) (first : List α) (items : List (List α))
    (rest : List α) :
    [comma].intercalate (first :: items) ++ rest =
      first ++ ((items.flatMap fun v => comma :: v) ++ rest) := by
  induction items generalizing first with
  | nil => simp
  | cons next items ih =>
    rw [List.intercalate_cons_cons, List.append_assoc, ih, List.flatMap_cons]
    simp

theorem mem_array {items : List (List Token)} {v : List Token} {t : Token} (item : v ∈ items)
    (mem : t ∈ v) : t ∈ array items := by
  cases items with
  | nil => cases item
  | cons first more =>
    rw [array, intercalate_append_cons]
    rcases List.mem_cons.1 item with rfl | later
    · simp [mem]
    · have behind : t ∈ more.flatMap fun v => .comma :: v :=
        List.mem_flatMap.2 ⟨v, later, List.mem_cons_of_mem _ mem⟩
      simp only [List.mem_cons, List.mem_append, behind, true_or, or_true]

/-! ## Skipping -/

/-- The tokens are passed over as one value wherever they stand. -/
def Skips (ts : List Token) : Prop :=
  ∀ frames rest, skip .value frames (ts ++ rest) = skip .separator frames rest

theorem skip_moreItems {items : List (List Token)} (each : ∀ v ∈ items, Skips v) :
    skip .separator (.array :: frames) ((items.flatMap fun v => .comma :: v) ++ .closeArray :: rest) =
      skip .separator frames rest := by
  induction items with
  | nil => rw [List.flatMap_nil, List.nil_append, skip]
  | cons v items ih =>
    rw [List.flatMap_cons, List.append_assoc, List.cons_append, skip,
      each v List.mem_cons_self, ih fun w mem => each w (List.mem_cons_of_mem v mem)]

theorem skip_openArray {t : Token} (other : t ≠ .closeArray) :
    skip .value frames (.openArray :: t :: rest) = skip .value (.array :: frames) (t :: rest) := by
  rw [skip.eq_def]
  split <;> simp_all

theorem skips_array {items : List (List Token)} (each : ∀ v ∈ items, Skips v)
    (first : ∀ v ∈ items, ∃ t more, v = t :: more ∧ t ≠ .closeArray) : Skips (array items) := by
  intro frames rest
  cases items with
  | nil => rfl
  | cons v items =>
    obtain ⟨t, more, rfl, other⟩ := first v List.mem_cons_self
    rw [array, List.cons_append, List.append_assoc, intercalate_append_cons, List.cons_append,
      skip_openArray other, ← List.cons_append, each _ List.mem_cons_self]
    exact skip_moreItems fun w mem => each w (List.mem_cons_of_mem _ mem)

theorem skip_member {m : Member} (key : isSkippable m.1 = true) (value : Skips m.2) :
    skip .key frames (m.tokens ++ rest) = skip .separator frames rest := by
  rw [Member.tokens, List.cons_append, List.cons_append, skip, if_pos key, value]

theorem skip_moreMembers {members : List Member} (keys : ∀ m ∈ members, isSkippable m.1 = true)
    (each : ∀ m ∈ members, Skips m.2) :
    skip .separator (.object :: frames)
        (((members.map Member.tokens).flatMap fun v => .comma :: v) ++ .closeObject :: rest) =
      skip .separator frames rest := by
  induction members with
  | nil => rw [List.map_nil, List.flatMap_nil, List.nil_append, skip]
  | cons m members ih =>
    rw [List.map_cons, List.flatMap_cons, List.append_assoc, List.cons_append, skip,
      skip_member (keys m List.mem_cons_self) (each m List.mem_cons_self)]
    exact ih (fun n mem => keys n (List.mem_cons_of_mem m mem))
      fun n mem => each n (List.mem_cons_of_mem m mem)

theorem skips_object {members : List Member} (keys : ∀ m ∈ members, isSkippable m.1 = true)
    (each : ∀ m ∈ members, Skips m.2) : Skips (object members) := by
  intro frames rest
  cases members with
  | nil => rfl
  | cons m members =>
    have opened : ∀ after, skip .value frames (.openObject :: (m.tokens ++ after)) =
        skip .key (.object :: frames) (m.tokens ++ after) := fun _ => rfl
    rw [object, List.map_cons, List.cons_append, List.append_assoc, intercalate_append_cons, opened,
      skip_member (keys m List.mem_cons_self) (each m List.mem_cons_self)]
    exact skip_moreMembers (fun n mem => keys n (List.mem_cons_of_mem m mem))
      fun n mem => each n (List.mem_cons_of_mem m mem)

theorem Value.skips (h : Value ts) : Skips ts := by
  induction h with
  | null => exact fun _ _ => rfl
  | boolean => exact fun _ _ => rfl
  | number => exact fun _ _ => rfl
  | text solid => exact fun _ _ => if_pos solid
  | array each ih => exact skips_array ih fun v mem => (each v mem).exists_cons
  | object keys _ ih => exact skips_object keys ih

/-- A value in front is skipped and nothing else. -/
theorem Value.skipValue_append (h : Value ts) (rest : List Token) :
    skipValue (ts ++ rest) = some rest := (h.skips [] rest).trans (by rw [skip])

end AmbientResidue.Json
