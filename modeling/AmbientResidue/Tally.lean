/-!
Counts of the eight priced integer operations, and values that carry the price of making them.
Prices add up: a computation costs what its parts cost, whatever the order of the parts.
-/

namespace AmbientResidue

/-- How often each priced integer operation has run. -/
@[ext]
structure Tally where
  adds : Nat := 0
  subs : Nat := 0
  mults : Nat := 0
  reductions : Nat := 0
  inverses : Nat := 0
  fromInt64 : Nat := 0
  fromDecimal : Nat := 0
  fromBytes : Nat := 0
deriving DecidableEq, Repr, Inhabited

namespace Tally

instance : Zero Tally := ⟨{}⟩

instance : Add Tally :=
  ⟨fun s t =>
    { adds := s.adds + t.adds
      subs := s.subs + t.subs
      mults := s.mults + t.mults
      reductions := s.reductions + t.reductions
      inverses := s.inverses + t.inverses
      fromInt64 := s.fromInt64 + t.fromInt64
      fromDecimal := s.fromDecimal + t.fromDecimal
      fromBytes := s.fromBytes + t.fromBytes }⟩

@[simp] theorem adds_zero : (0 : Tally).adds = 0 := rfl
@[simp] theorem subs_zero : (0 : Tally).subs = 0 := rfl
@[simp] theorem mults_zero : (0 : Tally).mults = 0 := rfl
@[simp] theorem reductions_zero : (0 : Tally).reductions = 0 := rfl
@[simp] theorem inverses_zero : (0 : Tally).inverses = 0 := rfl
@[simp] theorem fromInt64_zero : (0 : Tally).fromInt64 = 0 := rfl
@[simp] theorem fromDecimal_zero : (0 : Tally).fromDecimal = 0 := rfl
@[simp] theorem fromBytes_zero : (0 : Tally).fromBytes = 0 := rfl

@[simp] theorem adds_add (s t : Tally) : (s + t).adds = s.adds + t.adds := rfl
@[simp] theorem subs_add (s t : Tally) : (s + t).subs = s.subs + t.subs := rfl
@[simp] theorem mults_add (s t : Tally) : (s + t).mults = s.mults + t.mults := rfl
@[simp] theorem reductions_add (s t : Tally) :
    (s + t).reductions = s.reductions + t.reductions := rfl
@[simp] theorem inverses_add (s t : Tally) : (s + t).inverses = s.inverses + t.inverses := rfl
@[simp] theorem fromInt64_add (s t : Tally) :
    (s + t).fromInt64 = s.fromInt64 + t.fromInt64 := rfl
@[simp] theorem fromDecimal_add (s t : Tally) :
    (s + t).fromDecimal = s.fromDecimal + t.fromDecimal := rfl
@[simp] theorem fromBytes_add (s t : Tally) :
    (s + t).fromBytes = s.fromBytes + t.fromBytes := rfl

@[simp] protected theorem zero_add (t : Tally) : 0 + t = t := by ext <;> simp
@[simp] protected theorem add_zero (t : Tally) : t + 0 = t := by ext <;> simp

protected theorem add_assoc (s t u : Tally) : s + t + u = s + (t + u) := by
  ext <;> simp [Nat.add_assoc]

protected theorem add_comm (s t : Tally) : s + t = t + s := by
  ext <;> simp [Nat.add_comm]

/-- The groups of counts that are cleared together. -/
inductive Scope where
  | adds
  | subs
  | mults
  | reductions
  | inverses
  | conversions
  | all
deriving DecidableEq, Repr

/-- Clears the counts of one group. -/
def reset (t : Tally) : Scope → Tally
  | .adds => { t with adds := 0 }
  | .subs => { t with subs := 0 }
  | .mults => { t with mults := 0 }
  | .reductions => { t with reductions := 0 }
  | .inverses => { t with inverses := 0 }
  | .conversions => { t with fromInt64 := 0, fromDecimal := 0, fromBytes := 0 }
  | .all => 0

end Tally

/-- A value together with the price of making it. -/
structure Counted (α : Type u) where
  value : α
  cost : Tally
deriving DecidableEq, Repr

namespace Counted

instance : Monad Counted where
  pure a := ⟨a, 0⟩
  bind x f := ⟨(f x.value).value, x.cost + (f x.value).cost⟩

@[simp] theorem value_pure (a : α) : (pure a : Counted α).value = a := rfl
@[simp] theorem cost_pure (a : α) : (pure a : Counted α).cost = 0 := rfl

@[simp] theorem value_bind (x : Counted α) (f : α → Counted β) :
    (x >>= f).value = (f x.value).value := rfl

@[simp] theorem cost_bind (x : Counted α) (f : α → Counted β) :
    (x >>= f).cost = x.cost + (f x.value).cost := rfl

@[ext] theorem ext {x y : Counted α} (hv : x.value = y.value) (hc : x.cost = y.cost) : x = y := by
  cases x
  simp_all

instance : LawfulMonad Counted :=
  .mk' Counted (fun x => by ext1 <;> simp [Functor.map]) (fun a f => by ext1 <;> simp)
    (fun x f g => by ext1 <;> simp [Tally.add_assoc])

/-- Adds to the counters. -/
def tick (cost : Tally) : Counted Unit := ⟨(), cost⟩

@[simp] theorem cost_tick (cost : Tally) : (tick cost).cost = cost := rfl

/-- An outcome that costs nothing. -/
def free (x : Except ε α) : ExceptT ε Counted α := ExceptT.mk (pure x)

/-- A computation that cannot fail, where one that can is expected. -/
def sure (x : Counted α) : ExceptT ε Counted α := ExceptT.lift x

end Counted

end AmbientResidue
