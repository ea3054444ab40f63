import AmbientResidue.Proofs.Element.Documents
import AmbientResidue.Proofs.Session.Outcome

/-! # Byte strings by any way in

A byte string may come as it is, in a buffer, in a JSON array, as the bytes of a JSON string, in a
MessagePack array or as a MessagePack byte string. What becomes of it does not depend on the way. An
array with an item that is no byte is refused for the first such item, and nothing is made of it or
paid for it, with or without a modulus. -/

namespace AmbientResidue

/-- How the refusal to make a residue of a byte string is reported. -/
def Source.blame : Source → Refusal → Failure
  | .json _, e => .json (.data (.refused e))
  | .messagePack _, e => .messagePack (.data (.refused e))
  | .buffer _, e => .buffer e
  | _, e => Action.refusal e

/-- What a byte string comes as. A MessagePack document may go on after the value. -/
inductive Presents : List UInt8 → Source → Prop where
  | slice (x : List UInt8) : Presents x (.bytes x)
  | buffer (x : List UInt8) : Presents x (.buffer x)
  | jsonArray {x text} : Json.Written (Json.array (x.map Json.byteItem)) text.toList →
      Presents x (.json text)
  | jsonString {ps cs text} : Json.Written [.text ps] text.toList → Json.characters? ps = some cs →
      Presents (Utf8.encode cs) (.json text)
  | array {x front items rest} : MessagePack.ArrayHead x.length front →
      MessagePack.ByteItems x items → Presents x (.messagePack (front ++ (items ++ rest)))
  | binary {x front rest} : MessagePack.BinaryHead x.length front →
      Presents x (.messagePack (front ++ (x ++ rest)))

/-- An array whose items are bytes up to one that is none, and the error of that one. -/
inductive Interrupted : Source → Failure → Prop where
  | json {x : List UInt8} {bad others text e} :
      Json.Written (Json.array (x.map Json.byteItem ++ bad :: others)) text.toList →
      Json.Stray bad e → Interrupted (.json text) (.json e)
  | messagePack {x n front items bad rest e} : MessagePack.ArrayHead (x.length + (n + 1)) front →
      MessagePack.ByteItems x items → MessagePack.Stray bad e →
      Interrupted (.messagePack (front ++ (items ++ (bad ++ rest)))) (.messagePack e)

namespace Session

open AmbientResidue.Action

variable {build : Build} {s : Session} {m : Modulus} {x : List UInt8} {source : Source}
  {e : Failure} {ε δ α : Type}

theorem compute_adapt {blame : δ → Failure} {f : ε → δ} {g : Ambient → ExceptT ε Counted α} :
    (compute build blame fun env => (g env).adapt f) = compute build (fun e => blame (f e)) g := by
  funext s
  have value : ((g (s.ambient build)).adapt f).run.value =
      (g (s.ambient build)).run.value.mapError f := rfl
  have cost : ((g (s.ambient build)).adapt f).run.cost = (g (s.ambient build)).run.cost :=
    Counted.cost_map _ _
  simp only [compute, pay, value, cost]
  cases (g (s.ambient build)).run.value <;> rfl

/-- The way in shows in how a refusal is reported and in nothing else. -/
theorem make_eq (presents : Presents x source) :
    make build source = compute build source.blame fun env => Element.ofBytes env x := by
  cases presents with
  | slice => rfl
  | buffer => rfl
  | jsonArray written =>
    have read (env : Ambient) : Element.ofJson env _ = _ := Element.ofJson_array written
    simp only [make, read]
    exact compute_adapt
  | jsonString written found =>
    have read (env : Ambient) : Element.ofJson env _ = _ := Element.ofJson_text written found
    simp only [make, read]
    exact compute_adapt
  | @array x front ws rest head items =>
    have read (env : Ambient) : Element.ofMessagePack env (front ++ (ws ++ rest)) = _ :=
      Element.ofMessagePack_array head items rest
    simp only [make, read]
    exact compute_adapt
  | @binary x front rest head =>
    have read (env : Ambient) : Element.ofMessagePack env (front ++ (x ++ rest)) = _ :=
      Element.ofMessagePack_binary head rest
    simp only [make, read]
    exact compute_adapt

theorem fails_compute_throw {blame : ε → Failure} {f : Ambient → ExceptT ε Counted α} {d : ε}
    (thrown : ∀ env, f env = throw d) (s : Session) : Fails (compute build blame f) s (blame d) s := by
  have refused : Counted.Refuses (f (s.ambient build)) d := by
    rw [thrown]
    exact Counted.refuses_throw.2 rfl
  have cost : (f (s.ambient build)).run.cost = 0 := by
    rw [thrown]
    rfl
  have fails : Fails (compute build blame f) s (blame d) _ := fails_compute refused
  rwa [cost, charge_zero] at fails

/-- An item that is no byte leaves no trace. -/
theorem fails_interrupted (interrupted : Interrupted source e) (s : Session) :
    Fails (make build source) s e s := by
  cases interrupted with
  | json written stray =>
    rw [make]
    exact fails_compute_throw (fun _ => Element.ofJson_stray written stray) s
  | messagePack head items stray =>
    rw [make]
    exact fails_compute_throw (fun _ => Element.ofMessagePack_stray head items stray _) s

/-- What becomes of a byte string that comes as the source. -/
structure Entered (build : Build) (x : List UInt8) (source : Source) : Prop where
  same : make build source = compute build source.blame fun env => Element.ofBytes env x
  residue : ∀ s m, s.store.active .global = some m →
    Returns (make build source) s ((s.ambient build).residue m (BigEndian.value x % m.value))
      (s.charge build { reductions := 1, fromBytes := 1 })
  refused : ∀ s, s.store.active .global = none →
    Fails (make build source) s (source.blame .uninitialized) (s.charge build { fromBytes := 1 })

theorem run_ofBytes_active {env : Ambient} (active : env.active = some m) :
    (Element.ofBytes env x).run =
      ⟨.ok (env.residue m (BigEndian.value x % m.value)), { reductions := 1, fromBytes := 1 }⟩ := by
  obtain ⟨build, _⟩ := env
  subst active
  rw [← m.fmod_value]
  rfl

theorem run_ofBytes_inactive {env : Ambient} (inactive : env.active = none) :
    (Element.ofBytes env x).run = ⟨.error .uninitialized, { fromBytes := 1 }⟩ := by
  obtain ⟨build, _⟩ := env
  subst inactive
  rfl

theorem entered (build : Build) (presents : Presents x source) : Entered build x source where
  same := make_eq presents
  residue s m active := by
    have run : (Element.ofBytes (s.ambient build) x).run = _ := run_ofBytes_active active
    rw [make_eq presents, Returns, run_compute, run_pay, run]
  refused s inactive := by
    have run : (Element.ofBytes (s.ambient build) x).run = _ := run_ofBytes_inactive inactive
    rw [make_eq presents, Fails, run_compute, run_pay, run]

/-- A JSON array of values is a byte string or is refused for one of its items. -/
theorem json_presents_or_interrupted {items : List (List Json.Token)} {text : String}
    (values : ∀ v ∈ items, Json.Value v)
    (written : Json.Written (Json.array items) text.toList) :
    (∃ x, Presents x (.json text)) ∨ ∃ e, Interrupted (.json text) e := by
  have spelled : ∀ v ∈ items, ∀ t ∈ v, ∃ w, t.Spelled w := fun _ item _ mem =>
    written.spelled (Json.mem_array item mem)
  rcases Json.bytes_or_stray values spelled with ⟨x, rfl⟩ | ⟨x, bad, others, e, rfl, stray⟩
  · exact .inl ⟨x, .jsonArray written⟩
  · exact .inr ⟨_, .json written stray⟩

/-- A MessagePack array is a byte string or is refused for one of its items, unless the document
ends within it. -/
theorem messagePack_presents_or_interrupted {n : Nat} {front : List UInt8}
    (head : MessagePack.ArrayHead n front) (document : List UInt8) :
    (∃ x, Presents x (.messagePack (front ++ document))) ∨
      (∃ e, Interrupted (.messagePack (front ++ document)) e) ∨
      ∀ s, Fails (make build (.messagePack (front ++ document))) s (.messagePack .cut) s := by
  rcases MessagePack.readBytes_cases n document with cut | ⟨x, items, rest, rfl, each, rfl⟩ |
    ⟨x, items, bad, rest, e, k, rfl, each, stray, rfl⟩
  · have thrown (env : Ambient) : Element.ofMessagePack env (front ++ document) = throw .cut := by
      rw [Element.ofMessagePack, MessagePack.readItem?_array head]
      dsimp only
      rw [cut]
      rfl
    refine .inr (.inr fun s => ?_)
    rw [make]
    exact fails_compute_throw thrown s
  · exact .inl ⟨x, .array head each⟩
  · exact .inr (.inl ⟨_, .messagePack head each stray⟩)

/-- Byte strings end alike whichever way they come, and arrays that are none end before anything is
made of them. There are no other arrays. -/
theorem byte_strings_enter_alike (build : Build) :
    (∀ x source, Presents x source → Entered build x source) ∧
      (∀ source e, Interrupted source e → ∀ s, Fails (make build source) s e s) ∧
      (∀ items text, (∀ v ∈ items, Json.Value v) → Json.Written (Json.array items) text.toList →
        (∃ x, Presents x (.json text)) ∨ ∃ e, Interrupted (.json text) e) ∧
      ∀ n front document, MessagePack.ArrayHead n front →
        (∃ x, Presents x (.messagePack (front ++ document))) ∨
          (∃ e, Interrupted (.messagePack (front ++ document)) e) ∨
          ∀ s, Fails (make build (.messagePack (front ++ document))) s (.messagePack .cut) s := by
  refine ⟨fun x source => entered build, fun source e => fails_interrupted, ?_, ?_⟩
  · intro items text values written
    exact json_presents_or_interrupted values written
  · intro n front document head
    exact messagePack_presents_or_interrupted head document

/-- The letter `a` under 7, whichever way it comes, is the residue 6 of its code 97; a null after it
leaves even a session without a modulus as it was. -/
theorem byte_strings_enter_alike_letter :
    let s := (run .counted .initial [.single (.install "7" none)]).2
    let six : Element := ⟨6, none⟩
    let paid := s.charge .counted { reductions := 1, fromBytes := 1 }
    s.store.active .global = some ⟨7, 1, by decide⟩ ∧
      Returns (make .counted (.bytes [97])) s six paid ∧
      Returns (make .counted (.json "[97]")) s six paid ∧
      Returns (make .counted (.json "\"a\"")) s six paid ∧
      Returns (make .counted (.messagePack [0x91, 0xcc, 97])) s six paid ∧
      Returns (make .counted (.messagePack [0xc4, 1, 97])) s six paid ∧
      Fails (make .counted (.json "[97,null]")) initial
        (.json (.data (.kind .nothing .byte))) initial ∧
      Fails (make .counted (.messagePack [0x92, 97, 0xc0])) initial
        (.messagePack (.data (.kind .nothing .byte))) initial := by
  intro s six paid
  obtain ⟨alike, refused, -, -⟩ := byte_strings_enter_alike .counted
  have seven : s.store.active .global = some ⟨7, 1, by decide⟩ := by decide +kernel
  have enters {source : Source} (presents : Presents [97] source) :
      Returns (make .counted source) s six paid := by
    have residue : (s.ambient .counted).residue ⟨7, 1, by decide⟩ (BigEndian.value [97] % 7) = six :=
      rfl
    rw [← residue]
    exact (alike _ _ presents).residue s _ seven
  have number : Json.Written (Json.array ([(97 : UInt8)].map Json.byteItem)) "[97]".toList := by
    have text : Json.sequence [97] = "[97]" := by decide +kernel
    exact text ▸ Json.written_sequence [97]
  have letter : Json.Written [.text (['a'].map Json.piece)] "\"a\"".toList := by
    have text : "\"a\"".toList = Json.quoted ['a'] := by decide +kernel
    exact text ▸ Json.written_quoted ['a']
  have stray : Json.Written (Json.array ([(97 : UInt8)].map Json.byteItem ++ [[.null]]))
      "[97,null]".toList := by
    have text : "[97,null]".toList =
        ['['] ++ (Decimal.print 97 ++ ([','] ++ (['n', 'u', 'l', 'l'] ++ ([']'] ++ [])))) := by
      decide +kernel
    rw [text]
    exact .token .openArray nofun (.integral 97 (Json.stops_cons (by decide)) (.token .comma nofun
      (.token .null nofun (.token .closeArray nofun (.nil nofun)))))
  have code : MessagePack.Encodes ((97 : UInt8).toNat : Nat) [97] := .small (by decide)
  have wide : MessagePack.Encodes ((97 : UInt8).toNat : Nat) [0xcc, 97] :=
    .unsigned (.head _) (by decide)
  have nothing : Fails (make .counted (.messagePack ([0x92] ++ ([97] ++ ([0xc0] ++ []))))) initial
      (.messagePack (.data (.kind .nothing .byte))) initial :=
    refused _ _ (.messagePack (n := 0) (.short (by decide)) (.cons code .nil) .nil) initial
  exact ⟨seven, enters (.slice [97]), enters (.jsonArray number),
    enters (.jsonString letter (Json.characters?_pieces ['a'])),
    enters (.array (.short (by decide)) (.cons wide .nil)),
    enters (.binary (.wide (.head _) (by decide))),
    refused _ _ (.json stray .null) initial, nothing⟩

/-- A string among the items of a MessagePack array is found out by its first byte, and a number past
the floating-point range is no JSON. There is no data error for them. -/
theorem strays_without_data_error :
    let s := (run .plain .initial [.single (.install "97" none)]).2
    let packed : List UInt8 := [0x91, 0xa1, 0x61]
    MessagePack.readItem? packed = some (.array 1, [0xa1, 0x61]) ∧
      MessagePack.readItem? [0xa1, 0x61] = some (.text [0x61], []) ∧
      Fails (make .plain (.messagePack packed)) s (.messagePack .unreadable) s ∧
      (∀ found t, ¬ Fails (make .plain (.messagePack packed)) s (.messagePack (.data found)) t) ∧
      Fails (make .plain (.json "[1e309]")) s (.json .malformed) s := by
  intro s packed
  have stray : MessagePack.Stray [0xa1, 0x61] .unreadable := .contents rfl
  have ends : Fails (make .plain (.messagePack ([0x91] ++ ([] ++ ([0xa1, 0x61] ++ []))))) s
      (.messagePack .unreadable) s :=
    fails_interrupted (.messagePack (n := 0) (.short (by decide)) .nil stray) s
  let number : Json.Number := ⟨false, ['1'], none, some (false, ['3', '0', '9'])⟩
  have huge : Json.Stray [.number number] .malformed :=
    .huge (by decide +kernel) (by decide +kernel)
  have digit : Json.Digits ['1'] := ⟨by decide, by simp⟩
  have exponent : Json.Digits ['3', '0', '9'] := ⟨by decide, by simp⟩
  have magnitude : number.SpelledMagnitude (['1'] ++ ([] ++ 'e' :: ['3', '0', '9'])) :=
    .mk digit (fun _ => rfl) .none (.unsigned (.inl rfl) exponent)
  have written : Json.Written (Json.array [[.number number]]) "[1e309]".toList := by
    have text : "[1e309]".toList = ['['] ++ (['1', 'e', '3', '0', '9'] ++ ([']'] ++ [])) := by
      decide +kernel
    rw [text]
    exact .token .openArray nofun (.token (.number (.positive rfl magnitude))
      (fun _ _ => Json.stops_cons (by decide)) (.token .closeArray nofun (.nil nofun)))
  refine ⟨by decide +kernel, by decide +kernel, ends, fun found t other => ?_,
    fails_interrupted (.json (x := []) written huge) s⟩
  have errors := (EStateM.Result.error.inj (ends.symm.trans other)).1
  cases errors

end Session

end AmbientResidue
