import AmbientResidue.Proofs.Session.LastWriter

/-! # The moduli that a run can come across

Whatever is written to a context was once made of an integer, so that two moduli of a run are the
same when their values are. And what is written stays written: a context that has a modulus never
loses it. Both are read off the history. -/

namespace AmbientResidue

/-- The width kept beside the value is the width of the value. -/
def Modulus.Regular (m : Modulus) : Prop := m.width = Integer.width m.value

theorem Modulus.Regular.eq {m n : Modulus} (hm : m.Regular) (hn : n.Regular)
    (same : m.value = n.value) : m = n := by
  obtain ⟨v, w, pos⟩ := m
  obtain ⟨v', w', pos'⟩ := n
  obtain rfl : v = v' := same
  obtain rfl : w = w' := Eq.trans hm hn.symm
  rfl

theorem Modulus.regular_ofInt {v : Int} {m : Modulus} (h : (Modulus.ofInt v).toOption = some m) :
    m.Regular := by
  cases made : Modulus.ofInt v with
  | error e => rw [made] at h; cases h
  | ok n =>
    rw [made] at h
    obtain rfl : n = m := Option.some.inj h
    obtain ⟨value, width⟩ := Modulus.ofInt_eq_ok_iff.1 made
    rw [Modulus.Regular, width, value]

theorem Instruction.regular_chosen {i : Instruction} {m : Modulus} (h : i.chosen = some m) :
    m.Regular := by
  cases i with
  | install | openScope | installConfig | installDocument | useStandard =>
    rw [chosen] at h
    obtain ⟨_, -, made⟩ := Option.bind_eq_some_iff.1 h
    exact Modulus.regular_ofInt made
  | _ => cases h

namespace History

/-- Everything that the history says a context, a snapshot or a guard holds is regular. -/
structure Regular (h : History) : Prop where
  written : ∀ {c m}, h.written c = some m → m.Regular
  snapshot : ∀ {name p}, h.snapshotAt name = some p → p.modulus.Regular
  guard : ∀ {name g p}, h.guardAt name = some g → g.previous = some p → p.modulus.Regular

variable {h : History} {i : Instruction} {c : ContextId} {m : Modulus}

theorem Regular.returns {name : String} (r : Regular h)
    (back : ((h.guardAt name).bind fun guard => guard.returns c) = some m) : m.Regular := by
  obtain ⟨guard, named, held⟩ := Option.bind_eq_some_iff.1 back
  unfold Guard.returns at held
  split at held
  · obtain ⟨p, previous, rfl⟩ := Option.map_eq_some_iff.1 held
    exact r.guard named previous
  · cases held

/-- What the latest instruction writes counts before what was written earlier. -/
theorem Regular.latest {new : Option Modulus} (r : Regular h)
    (fresh : new = some m → m.Regular) (last : new.or (h.written c) = some m) : m.Regular := by
  rcases Option.or_eq_some_iff.1 last with written | ⟨-, old⟩
  · exact fresh written
  · exact r.written old

theorem regular_written (r : Regular h) (last : written (i :: h) c = some m) : m.Regular := by
  cases i with
  | install | installConfig | installDocument | useStandard =>
    rw [written] at last
    refine r.latest (fun new => ?_) last
    split at new
    · exact Instruction.regular_chosen new
    · cases new
  | restore name place =>
    rw [written] at last
    refine r.latest (fun new => ?_) last
    split at new
    · obtain ⟨p, named, rfl⟩ := Option.map_eq_some_iff.1 new
      exact r.snapshot named
    · cases new
  | openScope name lit place =>
    rw [written] at last
    refine r.latest (fun new => ?_) last
    rcases Option.or_eq_some_iff.1 new with back | ⟨-, chosen⟩
    · exact r.returns back
    · split at chosen
      · exact Instruction.regular_chosen chosen
      · cases chosen
  | closeScope name =>
    rw [written] at last
    exact r.latest r.returns last
  | _ => exact r.written last

theorem regular_snapshot {name : String} {p : Snapshot} (r : Regular h)
    (named : snapshotAt (i :: h) name = some p) : p.modulus.Regular := by
  cases i with
  | save other place =>
    rw [snapshotAt] at named
    split at named
    · obtain ⟨c, -, held⟩ := Option.bind_eq_some_iff.1 named
      obtain ⟨m, last, rfl⟩ := Option.map_eq_some_iff.1 held
      exact r.written last
    · exact r.snapshot named
  | _ => exact r.snapshot named

theorem regular_guard {name : String} {g : Guard} {p : Snapshot} (r : Regular h)
    (named : guardAt (i :: h) name = some g) (held : g.previous = some p) : p.modulus.Regular := by
  cases i with
  | openScope other lit place =>
    rw [guardAt] at named
    split at named
    · obtain ⟨c, -, rfl⟩ := Option.map_eq_some_iff.1 named
      obtain ⟨m, last, rfl⟩ := Option.map_eq_some_iff.1 held
      exact r.written last
    · exact r.guard named held
  | closeScope other =>
    rw [guardAt] at named
    split at named
    · cases named
    · exact r.guard named held
  | _ => exact r.guard named held

theorem regular_nil : Regular [] where
  written last := by cases last
  snapshot named := by cases named
  guard named _ := by cases named

theorem regular (h : History) : Regular h := by
  induction h with
  | nil => exact regular_nil
  | cons i h ih => exact ⟨regular_written ih, regular_snapshot ih, regular_guard ih⟩

/-- A context that has a modulus keeps having one. -/
theorem isSome_written_append (later h : History) (c : ContextId) (has : (h.written c).isSome) :
    (written (later ++ h) c).isSome := by
  induction later with
  | nil => exact has
  | cons i later ih =>
    cases i with
    | install | installConfig | installDocument | useStandard | restore | openScope | closeScope =>
      rw [List.cons_append, written, Option.isSome_or, ih, Bool.or_true]
    | _ => exact ih

end History

namespace Session

variable {build : Build} {s t : Session} {l : List Visit} {c : ContextId}

/-- The active moduli of a run are regular. -/
theorem Path.regular {m : Modulus} (p : Path build .initial l s) (active : s.store.active c = some m) :
    m.Regular := by
  have agrees := p.agrees .initial
  rw [agrees.active] at active
  exact (History.regular _).written active

theorem Path.regular_before {v : Visit} {m : Modulus} (p : Path build .initial l s) (visited : v ∈ l)
    (active : v.before.store.active c = some m) : m.Regular := by
  obtain ⟨earlier, leads⟩ := p.before visited
  exact leads.regular active

/-- A context that was active during a run is active at its end. -/
theorem Path.stays_active {v : Visit} (p : Path build .initial l s) (visited : v ∈ l)
    (has : (v.before.store.active c).isSome) : (s.store.active c).isSome := by
  obtain ⟨earlier, later, rfl⟩ := List.append_of_mem visited
  have before := p.visit.1.agrees .initial
  have after := p.agrees .initial
  rw [List.append_nil] at before after
  rw [before.active] at has
  rw [after.active, history_append]
  exact History.isSome_written_append _ _ c has

end Session

end AmbientResidue
