import AmbientResidue.Proofs.Element.Documents
import AmbientResidue.Proofs.Session.Outcome

/-! # Residues survive being written and read

Whatever a residue is written as, reading it gives the residue of the same representative under the
modulus that is active then, which need not be the one that the residue was made under. -/

namespace AmbientResidue

open Counted (Yields Refuses)

/-- Whether the reader insists on a value below the active modulus. -/
def Source.validates : Source → Bool
  | .frame _ validate _ => validate
  | _ => false

/-- What a residue is written as, in front of each reader. MessagePack has room for the length of a
byte string in four bytes, and no payload in memory has `Frame.capacity` bytes. -/
inductive Element.Writes (a : Element) : Source → Prop where
  | bytes : Writes a (.bytes a.bytes)
  | buffer : Writes a (.buffer a.bytes)
  | json : Writes a (.json a.json)
  | messagePack : a.bytes.length < Nat.pow 2 32 → Writes a (.messagePack a.messagePack)
  | frame {written read validate} : a.bytes.length < Frame.capacity →
      Writes a (.frame (a.frame written) validate read)

namespace Element

variable {env : Ambient} {m : Modulus} {a : Element}

theorem yields_ofBytes_written (positive : 0 ≤ a.representative) (active : env.active = some m) :
    Yields (ofBytes env a.bytes) (env.residue m (a.representative % m.value)) := by
  rw [yields_ofBytes, yields_ofInt]
  exact ⟨m, active, by rw [value_bytes positive]⟩

theorem yields_ofFrame_written {written read : Compression} {validate : Bool}
    (positive : 0 ≤ a.representative) (active : env.active = some m)
    (room : a.bytes.length < Frame.capacity)
    (accepted : validate = true → a.representative < m.value) :
    Yields (ofFrame env read validate (a.frame written))
      (env.residue m (a.representative % m.value), []) := by
  have inside : validate = true → m.contains (BigEndian.value a.bytes) = true := by
    intro strict
    rw [value_bytes positive]
    exact m.contains_iff.2 ⟨positive, accepted strict⟩
  have made : Yields (ofFrame env read validate (Frame.encode a.bytes ++ [])) _ :=
    yields_ofFrame room active inside
  rw [List.append_nil, value_bytes positive] at made
  exact made

theorem refuses_ofFrame_written {written read : Compression} (positive : 0 ≤ a.representative)
    (active : env.active = some m) (room : a.bytes.length < Frame.capacity)
    (large : m.value ≤ a.representative) :
    Refuses (ofFrame env read true (a.frame written)) .invalid := by
  have outside : m.contains (BigEndian.value a.bytes) = false := by
    rw [value_bytes positive]
    exact m.contains_of_le large
  have refused : Refuses (ofFrame env read true (Frame.encode a.bytes ++ [])) .invalid :=
    refuses_ofFrame room active outside
  rw [List.append_nil] at refused
  exact refused

end Element

namespace Session

open AmbientResidue.Action

variable {build : Build} {origin : Ambient} {s : Session} {m : Modulus} {a r : Element}
  {source : Source}

/-- Reading the source makes the residue, and changes counters only. -/
def Reads (build : Build) (s : Session) (source : Source) (r : Element) : Prop :=
  ∃ t, Returns (make build source) s r t ∧ Kept s t

theorem reads_compute {ε : Type} {blame : ε → Failure} {f : Ambient → ExceptT ε Counted Element}
    (made : Yields (f (s.ambient build)) r) :
    ∃ t, Returns (compute build blame f) s r t ∧ Kept s t :=
  ⟨_, returns_compute made, .charge s build _⟩

theorem reads_written (positive : 0 ≤ a.representative) (active : s.store.active .global = some m)
    (written : a.Writes source) (accepted : source.validates = true → a.representative < m.value) :
    Reads build s source ((s.ambient build).residue m (a.representative % m.value)) := by
  have bytes : Yields (Element.ofBytes (s.ambient build) a.bytes) _ :=
    Element.yields_ofBytes_written positive active
  cases written with
  | bytes | buffer =>
    rw [Reads, make]
    exact reads_compute bytes
  | json =>
    rw [Reads, make]
    refine reads_compute ?_
    rw [Element.json_eq, Element.ofJson_sequence]
    exact Counted.yields_adapt.2 bytes
  | messagePack room =>
    rw [Reads, make]
    refine reads_compute ?_
    rw [Element.messagePack, Element.ofMessagePack_writeBinary room]
    exact Counted.yields_adapt.2 bytes
  | @frame written mode validate room =>
    have made : Yields (Element.ofFrame (s.ambient build) mode validate (a.frame written)) _ :=
      Element.yields_ofFrame_written positive active room accepted
    have read : Returns (compute build .frame fun env =>
        Element.ofFrame env mode validate (a.frame written)) s (_, []) _ := returns_compute made
    rw [Reads, make]
    exact ⟨_, read.andThen rfl, .charge s build _⟩

theorem refuses_written (positive : 0 ≤ a.representative)
    (active : s.store.active .global = some m) (written : a.Writes source)
    (strict : source.validates = true) (large : m.value ≤ a.representative) :
    ∃ t, Fails (make build source) s (.frame .invalid) t ∧ Kept s t := by
  cases written with
  | @frame written mode validate room =>
    obtain rfl : validate = true := strict
    have refused : Refuses (Element.ofFrame (s.ambient build) mode true (a.frame written)) _ :=
      Element.refuses_ofFrame_written positive active room large
    have ends : Fails (compute build .frame fun env =>
        Element.ofFrame env mode true (a.frame written)) s _ _ := fails_compute refused
    rw [make]
    exact ⟨_, ends.first, .charge s build _⟩
  | _ => cases strict

/-- What becomes of a residue that was made in some surroundings, written, and read in the session,
where the modulus is active. -/
structure RoundTrips (build : Build) (origin : Ambient) (a : Element) (s : Session) (m : Modulus) :
    Prop where
  reads : ∀ source, a.Writes source → source.validates = false →
    Reads build s source ((s.ambient build).residue m (a.representative % m.value))
  /-- A validating reader takes only what needs no reduction. -/
  validates : ∀ source, a.Writes source → source.validates = true → a.representative < m.value →
    Reads build s source ((s.ambient build).residue m a.representative)
  refuses : ∀ source, a.Writes source → source.validates = true → m.value ≤ a.representative →
    ∃ t, Fails (make build source) s (.frame .invalid) t ∧ Kept s t
  /-- Where the residue was made, nothing is lost. -/
  faithful : origin = s.ambient build → ∀ source, a.Writes source → Reads build s source a
  modes : ∀ c d, a.frame c = a.frame d
  size : ∀ c, (a.frame c).length = a.frameSize c ∧
    a.frameSize c = 8 + Integer.width a.representative

/-- Every format carries every residue from any surroundings into any others. -/
theorem residues_round_trip (build : Build) {origin : Ambient} {a : Element}
    (made : Element.Made origin a) {s : Session} {m : Modulus}
    (active : s.store.active .global = some m) : RoundTrips build origin a s m := by
  obtain ⟨n, home, positive, below, tag⟩ := made.canonical
  refine ⟨?_, ?_, ?_, ?_, fun _ _ => rfl, fun c => ?_⟩
  · intro source written lax
    exact reads_written positive active written (by simp [lax])
  · intro source written strict small
    have read : Reads build s source _ := reads_written positive active written fun _ => small
    rwa [Int.emod_eq_of_lt positive small] at read
  · intro source written strict large
    exact refuses_written positive active written strict large
  · intro same source written
    obtain rfl : n = m := by
      rw [same] at home
      exact Option.some.inj (home.symm.trans active)
    have read : Reads build s source _ := reads_written positive active written fun _ => below
    have back : (s.ambient build).residue n a.representative = a := by
      rw [same] at tag
      rw [Ambient.residue, ← tag]
    rwa [Int.emod_eq_of_lt positive below, back] at read
  · have length := Frame.length_encode a.bytes
    exact ⟨length, congrArg (8 + ·) a.length_bytes⟩

/-- The 9 that was made under 11 comes out of a JSON document as 2 under 7, and a validating reader
refuses it; a zero, which has no payload at all, passes. -/
theorem residues_round_trip_under_seven :
    let steps : List Step := [.single (.install "7" none)]
    let s := (run .plain .initial steps).2
    let origin : Ambient := ⟨.plain, some ⟨11, 1, by decide⟩⟩
    Element.Made origin ⟨9, none⟩ ∧ s.store.active .global = some ⟨7, 1, by decide⟩ ∧
      Reads .plain s (.json "[9]") ⟨2, none⟩ ∧
      (∃ t, Fails (make .plain (.frame [1, 0, 0, 0, 0, 0, 0, 0, 9] true .compressed)) s
        (.frame .invalid) t ∧ Kept s t) ∧
      Reads .plain s (.frame [0, 0, 0, 0, 0, 0, 0, 0] true .compressed) ⟨0, none⟩ := by
  intro steps s origin
  have seven : s.store.active .global = some ⟨7, 1, by decide⟩ := by decide +kernel
  have nine : Element.Made origin ⟨9, none⟩ :=
    .ofInt (v := 9) (Element.yields_ofInt.2 ⟨_, rfl, rfl⟩)
  have zero : Element.Made origin ⟨0, none⟩ := .zero (Element.yields_zero.2 ⟨_, rfl, rfl⟩)
  have trip := residues_round_trip .plain nine seven
  have none_ := residues_round_trip .plain zero seven
  refine ⟨nine, seven, ?_, ?_, ?_⟩
  · have text : (⟨9, none⟩ : Element).json = "[9]" := by decide +kernel
    exact text ▸ trip.reads _ .json rfl
  · have frame : (⟨9, none⟩ : Element).frame .compressed = [1, 0, 0, 0, 0, 0, 0, 0, 9] := by
      decide +kernel
    exact trip.refuses _ (frame ▸ .frame (by decide +kernel)) rfl (by decide)
  · have frame : (⟨0, none⟩ : Element).frame .compressed = [0, 0, 0, 0, 0, 0, 0, 0] := by
      decide +kernel
    exact none_.validates _ (frame ▸ .frame (by decide +kernel)) rfl (by decide)

end Session

end AmbientResidue
