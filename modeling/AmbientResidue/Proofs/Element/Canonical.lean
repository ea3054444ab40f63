import AmbientResidue.Element.Sampling
import AmbientResidue.Proofs.Element.Sampling
import AmbientResidue.Wire.Document
import AmbientResidue.Wire.Frame

/-! # Residues lie in range of the modulus they were made under

`Made` lists every way to make a residue, from operands of any origin. What an operation makes on
the way is listed as well: the inverse inside a division, the running total of a fold, the residue
of a document that turns out to have trailing text. -/

namespace AmbientResidue

open Counted (Yields)

namespace Element

/-- The representative lies in the range of the modulus that is active, and the residue remembers
that modulus where residues remember any. -/
def Canonical (env : Ambient) (a : Element) : Prop :=
  ∃ m, env.active = some m ∧ 0 ≤ a.representative ∧ a.representative < m.value ∧
    a.tag = if env.build.tags then some m else none

/-- The residue has just been made. -/
inductive Made (env : Ambient) : Element → Prop where
  | zero {r} : Yields (zero env) r → Made env r
  | one {r} : Yields (one env) r → Made env r
  | ofInt {v r} : Yields (ofInt env v) r → Made env r
  | ofInt64 {v r} : Yields (ofInt64 env v) r → Made env r
  | ofLiteral {s r} : Yields (ofLiteral env s) r → Made env r
  | ofBytes {bytes r} : Yields (ofBytes env bytes) r → Made env r
  | sample {source fuel drawn} : Yields (sample env source fuel) (some drawn) →
      Made env drawn.element
  | random {bytes drawn} : Yields (random env bytes) drawn → Made env drawn.element
  | unary {op : Unary} {a r} : Yields (op.method env a) r → Made env r
  | unaryOperator {op : Unary} {a r} : Yields (op.operator env a) r → Made env r
  | binary {op : Binary} {a b r} : Yields (op.method env a b) r → Made env r
  | binaryOperator {op : Binary} {a b r} : Yields (op.operator env a b) r → Made env r
  | zeroOrPanic {r} : Yields (makeOrPanic (Element.zero env)) r → Made env r
  | oneOrPanic {r} : Yields (makeOrPanic (Element.one env)) r → Made env r
  | sum {l r} : Yields (sum env l) r → Made env r
  | product {l r} : Yields (product env l) r → Made env r
  | ofJson {text r} : Yields (ofJson env text) r → Made env r
  | ofMessagePack {bytes r} : Yields (ofMessagePack env bytes) r → Made env r
  | ofFrame {compression validate bytes r rest} :
      Yields (ofFrame env compression validate bytes) (r, rest) → Made env r

variable {env : Ambient} {m : Modulus} {v : Int} {a b r : Element}

theorem canonical_residue (active : env.active = some m) (h : m.contains v = true) :
    Canonical env (env.residue m v) :=
  ⟨m, active, (m.contains_iff.1 h).1, (m.contains_iff.1 h).2, rfl⟩

theorem canonical_zero (h : Yields (zero env) r) : Canonical env r := by
  obtain ⟨m, active, rfl⟩ := yields_zero.1 h
  exact canonical_residue active m.contains_zero

theorem canonical_ofInt (h : Yields (ofInt env v) r) : Canonical env r := by
  obtain ⟨m, active, rfl⟩ := yields_ofInt.1 h
  exact canonical_residue active (m.contains_emod v)

theorem canonical_one (h : Yields (one env) r) : Canonical env r :=
  canonical_ofInt (yields_one.1 h)

theorem canonical_ofBytes {bytes : List UInt8} (h : Yields (ofBytes env bytes) r) :
    Canonical env r := canonical_ofInt (yields_ofBytes.1 h)

theorem canonical_sample {source : ByteSource} {fuel : Nat} {drawn : Drawn}
    (h : Yields (sample env source fuel) (some drawn)) : Canonical env drawn.element := by
  obtain ⟨m, active, found⟩ := yields_sample.1 h
  obtain ⟨⟨v, k⟩, hv, rfl⟩ := Option.map_eq_some_iff.1 found.symm
  exact canonical_residue active (m.firstBelow_contains _ hv)

theorem canonical_random {bytes : List UInt8} {drawn : Drawn}
    (h : Yields (random env bytes) drawn) : Canonical env drawn.element := by
  obtain ⟨m, v, active, below, made⟩ := yields_random h
  exact made ▸ canonical_residue active below

/-! ## Arithmetic

The operands may have been made under any modulus. -/

theorem canonical_unary {op : Unary} (h : Yields (op.method env a) r) : Canonical env r := by
  cases op with
  | neg =>
    obtain ⟨m, active, -, rfl⟩ := yields_neg.1 h
    exact canonical_residue active (m.contains_emod _)
  | square =>
    obtain ⟨m, active, -, rfl⟩ := yields_square.1 h
    exact canonical_residue active (m.contains_emod _)
  | invert =>
    obtain ⟨m, v, active, -, inverse, rfl⟩ := yields_invert.1 h
    exact canonical_residue active (m.contains_inverse inverse)

theorem canonical_mul (h : Yields (mul env a b) r) : Canonical env r := by
  obtain ⟨m, active, -, -, rfl⟩ := yields_mul.1 h
  exact canonical_residue active (m.contains_emod _)

theorem canonical_binary {op : Binary} (h : Yields (op.method env a b) r) : Canonical env r := by
  cases op with
  | add =>
    obtain ⟨m, active, -, -, rfl⟩ := yields_add.1 h
    exact canonical_residue active (m.contains_emod _)
  | sub =>
    obtain ⟨m, active, -, -, rfl⟩ := yields_sub.1 h
    exact canonical_residue active (m.contains_emod _)
  | mul => exact canonical_mul h
  | div =>
    obtain ⟨inverse, -, h⟩ := yields_div.1 h
    exact canonical_mul h

theorem canonical_foldlM {op : Binary} {l : List Element} (start : Canonical env a)
    (h : Yields (l.foldlM (fun total b => op.operator env total b) a) r) : Canonical env r := by
  induction l generalizing a with
  | nil => exact Counted.yields_pure.1 h ▸ start
  | cons b rest ih =>
    rw [List.foldlM_cons] at h
    obtain ⟨total, made, h⟩ := Counted.yields_bind.1 h
    exact ih (canonical_binary (yields_orPanic.1 made)) h

theorem canonical_sum {l : List Element} (h : Yields (sum env l) r) : Canonical env r := by
  obtain ⟨start, made, h⟩ := Counted.yields_bind.1 h
  exact canonical_foldlM (canonical_zero (yields_makeOrPanic.1 made)) h

theorem canonical_product {l : List Element} (h : Yields (product env l) r) :
    Canonical env r := by
  obtain ⟨start, made, h⟩ := Counted.yields_bind.1 h
  exact canonical_foldlM (canonical_one (yields_makeOrPanic.1 made)) h

/-! ## Documents -/

theorem canonical_ofJsonBytes {bytes : List UInt8} (h : Yields (ofJsonBytes env bytes) r) :
    Canonical env r := canonical_ofBytes (Counted.yields_adapt.1 h)

theorem canonical_readJson {tokens rest : List Json.Token}
    (h : Yields (readJson env tokens) (r, rest)) : Canonical env r := by
  unfold readJson at h
  split at h
  · exact (Counted.yields_throw.1 h).elim
  · obtain ⟨a, made, same⟩ := Counted.yields_map.1 h
    cases same
    exact canonical_ofJsonBytes made
  · obtain ⟨⟨bytes, after⟩, -, h⟩ := Counted.yields_bind.1 h
    obtain ⟨a, made, same⟩ := Counted.yields_map.1 h
    cases same
    exact canonical_ofJsonBytes made
  · exact (Counted.yields_throw.1 h).elim

theorem canonical_ofJson {text : String} (h : Yields (ofJson env text) r) : Canonical env r := by
  obtain ⟨⟨a, rest⟩, made, h⟩ := Counted.yields_bind.1 h
  obtain ⟨_, -, h⟩ := Counted.yields_bind.1 h
  exact Counted.yields_pure.1 h ▸ canonical_readJson made

theorem canonical_ofMessagePack {bytes : List UInt8} (h : Yields (ofMessagePack env bytes) r) :
    Canonical env r := by
  unfold ofMessagePack at h
  split at h
  · exact (Counted.yields_throw.1 h).elim
  · exact canonical_ofBytes (Counted.yields_adapt.1 h)
  · obtain ⟨contents, -, h⟩ := Counted.yields_bind.1 h
    exact canonical_ofBytes (Counted.yields_adapt.1 h)
  · split at h
    · exact (Counted.yields_throw.1 h).elim
    · exact canonical_ofBytes (Counted.yields_adapt.1 h)
  · exact (Counted.yields_throw.1 h).elim

/-- Both kinds of reader reduce the payload, the validating one after finding it in range. -/
theorem canonical_ofFrame {compression : Compression} {validate : Bool} {bytes rest : List UInt8}
    (h : Yields (ofFrame env compression validate bytes) (r, rest)) : Canonical env r := by
  unfold ofFrame at h
  split at h
  · exact (Counted.yields_throw.1 h).elim
  split at h
  · exact (Counted.yields_throw.1 h).elim
  · next m active =>
    obtain ⟨v, -, h⟩ := Counted.yields_bind.1 h
    split at h
    · exact (Counted.yields_throw.1 h).elim
    · obtain ⟨w, hw, same⟩ := Counted.yields_bind.1 h
      obtain rfl := Counted.yields_sure.1 hw
      cases Counted.yields_pure.1 same
      exact canonical_residue active (m.contains_reduce v)

theorem Made.canonical (h : Made env r) : Canonical env r := by
  cases h with
  | zero h => exact canonical_zero h
  | one h => exact canonical_one h
  | ofInt h => exact canonical_ofInt h
  | ofInt64 h => exact canonical_ofInt (yields_ofInt64.1 h)
  | ofLiteral h =>
    obtain ⟨v, -, h⟩ := yields_ofLiteral.1 h
    exact canonical_ofInt h
  | ofBytes h => exact canonical_ofBytes h
  | sample h => exact canonical_sample h
  | random h => exact canonical_random h
  | unary h => exact canonical_unary h
  | unaryOperator h => exact canonical_unary (yields_orPanic.1 h)
  | binary h => exact canonical_binary h
  | binaryOperator h => exact canonical_binary (yields_orPanic.1 h)
  | zeroOrPanic h => exact canonical_zero (yields_makeOrPanic.1 h)
  | oneOrPanic h => exact canonical_one (yields_makeOrPanic.1 h)
  | sum h => exact canonical_sum h
  | product h => exact canonical_product h
  | ofJson h => exact canonical_ofJson h
  | ofMessagePack h => exact canonical_ofMessagePack h
  | ofFrame h => exact canonical_ofFrame h

end Element

end AmbientResidue
