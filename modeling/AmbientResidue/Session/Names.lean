/-!
Maps from names to values. Binding a name again replaces its value.
-/

namespace AmbientResidue

/-- What each name is bound to, if anything. -/
@[ext]
structure Names (α : Type u) where
  find? : String → Option α

namespace Names

def empty : Names α := ⟨fun _ => none⟩

def bind (names : Names α) (name : String) (a : α) : Names α :=
  ⟨fun other => if other = name then some a else names.find? other⟩

def erase (names : Names α) (name : String) : Names α :=
  ⟨fun other => if other = name then none else names.find? other⟩

@[simp] theorem find?_empty (name : String) : (empty : Names α).find? name = none := rfl

@[simp] theorem find?_bind (names : Names α) (name other : String) (a : α) :
    (names.bind name a).find? other = if other = name then some a else names.find? other := rfl

@[simp] theorem find?_erase (names : Names α) (name other : String) :
    (names.erase name).find? other = if other = name then none else names.find? other := rfl

end Names

end AmbientResidue
