import AmbientResidue.Proofs.Element.Sampling
import AmbientResidue.Proofs.Session.Moduli
import AmbientResidue.Proofs.Session.Operands

/-! # Random residues

The active moduli of a run know their width, so that a block always has a first byte and fewer than
eight bits to clear in it. From any source with a block below the modulus the first of them is
taken, and nothing after it is drawn. -/

namespace AmbientResidue

open Counted (Yields)

namespace Session

open AmbientResidue.Action

variable {build : Build} {l : List Visit} {s : Session} {m : Modulus}

/-- A generator that hands out the bytes and then zeros is asked for one residue. -/
theorem returns_random (active : s.store.active .global = some m) {bytes : List UInt8} {k : Nat}
    (first : m.First (ByteSource.ofList bytes) k) (bind : Option String) :
    ∃ t, Returns (perform build (.random bytes bind)) s
      (.drawn (m.candidate (ByteSource.ofList bytes) k) (m.width * (k + 1))) t := by
  have here : (s.ambient build).active = some m := active
  have drawn := Element.yields_random_first here first
  let request (env : Ambient) : Making Element.Drawn := Element.random env bytes
  exact ⟨_, (returns_compute (f := request) drawn).andThen ((returns_bindElement _ _ _).andThen rfl)⟩

/-- Random residues under the modulus, in a session where it is active. -/
structure Samples (build : Build) (s : Session) (m : Modulus) : Prop where
  width : m.width = byteLength m.value.natAbs
  bits : m.bits = bitLength m.value.natAbs
  sized : m.Sized
  /-- The blocks follow one another from the start of the source. -/
  blocks : ∀ source k, (m.block source k).length = m.width ∧
    ∀ i, i < m.width → (m.block source k)[i]? = some (source (m.width * k + i))
  /-- Trimming reduces the value of a block modulo a power of two. -/
  trims : ∀ source k,
    m.candidate source k = BigEndian.value (m.block source k) % Nat.pow 2 m.bits
  /-- A block below the modulus is not passed by, however far into the source the first one is, and
  nothing is drawn after it. -/
  stops : ∀ source, (∃ j, (m.candidate source j : Int) < m.value) → ∃ k, m.First source k ∧
    ∀ fuel, Yields (Element.sample (s.ambient build) source fuel) (if k < fuel then
      some ⟨(s.ambient build).residue m (m.candidate source k), m.width * (k + 1)⟩ else none)
  /-- Bytes with zeros after them have such a block, no further along than there are bytes. -/
  finite : ∀ bytes, ∃ k, k ≤ bytes.length ∧ m.First (ByteSource.ofList bytes) k
  draws : ∀ bytes k, m.First (ByteSource.ofList bytes) k → ∀ bind,
    ∃ t, Returns (perform build (.random bytes bind)) s
      (.drawn (m.candidate (ByteSource.ofList bytes) k) (m.width * (k + 1))) t

theorem Path.samples (p : Path build .initial l s) (active : s.store.active .global = some m) :
    Samples build s m := by
  have regular := p.regular active
  have sized := Modulus.sized_of_width regular
  have here : (s.ambient build).active = some m := active
  exact {
    width := regular
    bits := rfl
    sized := sized
    blocks := fun source k =>
      ⟨m.length_block source k, fun i inside => m.getElem?_block source k inside⟩
    trims := fun source k => Modulus.value_trim sized (m.length_block source k)
    stops := fun source ⟨j, below⟩ => by
      obtain ⟨k, -, first⟩ := Modulus.exists_first below
      exact ⟨k, first, Element.yields_sample_first here first⟩
    finite := fun bytes => Modulus.exists_first (m.candidate_past bytes)
    draws := fun bytes k first bind => returns_random active first bind }

/-- In every session of every run, a random residue is the first block of its source that lies below
the active modulus once the bits that the modulus has not are cleared. -/
theorem sampling_exact (build : Build) (steps : List Step) :
    (∀ m, (run build .initial steps).2.store.active .global = some m →
      Samples build (run build .initial steps).2 m) ∧
    ∀ earlier v later, visits build .initial steps = earlier ++ v :: later →
      ∀ m, v.before.store.active .global = some m → Samples build v.before m :=
  run_throughout
    (P := fun _ s => ∀ m, s.store.active .global = some m → Samples build s m)
    (fun p _ active => p.samples active) steps

/-- Under 257 the first byte keeps one bit: two blocks are passed by before the 7. -/
theorem sampling_exact_third_block :
    let s := (run .plain .initial [.single (.install "257" none)]).2
    let m : Modulus := ⟨257, 2, by decide⟩
    s.store.active .global = some m ∧
      ∃ t, Returns (perform .plain (.random [255, 255, 3, 5, 254, 7] none)) s (.drawn 7 6) t := by
  intro s m
  have active : s.store.active .global = some m := by decide +kernel
  have samples := (sampling_exact .plain [.single (.install "257" none)]).1 m active
  have first : m.First (ByteSource.ofList [255, 255, 3, 5, 254, 7]) 2 :=
    ⟨by decide +kernel, by decide +kernel⟩
  have seven : m.candidate (ByteSource.ofList [255, 255, 3, 5, 254, 7]) 2 = 7 := by decide +kernel
  have drawn := samples.draws _ 2 first none
  rw [seven] at drawn
  exact ⟨active, drawn⟩

end Session

end AmbientResidue
