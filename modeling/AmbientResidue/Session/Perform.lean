import AmbientResidue.Session.Action

/-!
Carrying out instructions. Every instruction first reads its literals, then looks up its names, then
acts; the first of these that fails ends it.
-/

namespace AmbientResidue.Action

/-- Installs the modulus of a configuration. -/
def installConfig (c : Config) : Action Unit := onStore (Store.install .global c.modulus)

/-- Installs the default modulus and captures it. -/
def installStandard (build : Build) : Action Snapshot := do
  installConfig (← pay build refusal Config.standard)
  let snapshot ← onStore (Store.save .global)
  modify fun s => { s with store := { s.store with standard := some snapshot } }
  return snapshot

/-- Makes the default modulus active. The first time it is installed and captured; from then on the
captured one is restored. -/
def useStandard (build : Build) : Action Unit := do
  let captured := (← get).store.standard
  let snapshot ← captured.elim (installStandard build) pure
  onStore (Store.restore .global snapshot)

/-- A residue from a source. -/
def make (build : Build) : Source → Action Element
  | .zero => compute build refusal Element.zero
  | .one => compute build refusal Element.one
  | .zeroOrPanic => compute build .fault fun env => Element.makeOrPanic (Element.zero env)
  | .oneOrPanic => compute build .fault fun env => Element.makeOrPanic (Element.one env)
  | .int64 v => compute build refusal fun env => Element.ofInt64 env v
  | .literal s => compute build refusal fun env => Element.ofLiteral env s
  | .integer s => do
    let v ← literal build s
    compute build refusal fun env => Element.ofInt env v
  | .bytes bs => compute build refusal fun env => Element.ofBytes env bs
  | .copy a => element a
  | .json s => compute build .json fun env => Element.ofJson env s
  | .messagePack bs => compute build .messagePack fun env => Element.ofMessagePack env bs
  | .buffer bs => compute build .buffer fun env => Element.ofBytes env bs
  | .frame bs validate compression => do
    return (← compute build .frame fun env => Element.ofFrame env compression validate bs).1

/-- Where the result of an operation goes. -/
def target (form : Form) (a : String) (bind : Option String) : Option String :=
  match form with
  | .assignment => some a
  | _ => bind

/-- Carries out an instruction. -/
def perform (build : Build) : Instruction → Action Value
  | .newContext name => do
    modify fun s =>
      let (c, store) := s.store.newContext
      { s with store, contexts := s.contexts.bind name c }
    return .done
  | .install modulus place => do
    let v ← literal build modulus
    let c ← context place
    onStore (Store.install c v)
    return .done
  | .current place => do
    let c ← context place
    return .integer (← onStore (Store.modulus c)).value
  | .active place => do
    let c ← context place
    return .modulus (← onStore (Store.modulus c))
  | .hasModulus place => do
    let c ← context place
    return .truth ((← get).store.active c).isSome
  | .save name place => do
    let c ← context place
    let snapshot ← onStore (Store.save c)
    modify fun s => { s with snapshots := s.snapshots.bind name snapshot }
    return .done
  | .restore snapshot place => do
    let snapshot ← lookUp Session.snapshots snapshot
    let c ← context place
    onStore (Store.restore c snapshot)
    return .done
  | .openScope name modulus place => do
    let v ← literal build modulus
    let c ← context place
    let guard ← onStore (Store.openScope c v)
    let older := (← get).guards.find? name
    modify fun s => { s with guards := s.guards.bind name guard }
    match older with
    | some older => close older
    | none => pure ()
    return .done
  | .closeScope name => do
    let guard ← lookUp Session.guards name
    close guard
    modify fun s => { s with guards := s.guards.erase name }
    return .done
  | .abandonLock place => do
    let _ ← context place
    return .truth true
  | .threads moduli place => do
    let values ← literals build moduli
    let c ← context place
    return .seen (← modifyGet fun s =>
      let (seen, store) := s.store.peekEach c values
      (seen, { s with store }))
  | .useStandard => do
    useStandard build
    return .done
  | .installConfig modulus => do
    installConfig ⟨← literal build modulus⟩
    return .done
  | .installDocument text => do
    installConfig (← pay build .config (Config.ofText text))
    return .done
  | .counts => return .tally (← get).tally
  | .reset scope => do
    modify fun s => { s with tally := s.tally.reset scope }
    return .done
  | .make source bind => do
    let a ← make build source
    bindElement bind a
    return .integer a.representative
  | .random bs bind => do
    let drawn ← compute build refusal fun env => Element.random env bs
    bindElement bind drawn.element
    return .drawn drawn.element.representative drawn.bytes
  | .unary op form a bind => do
    let x ← element a
    let r ← compute build .fault fun env =>
      if form = .method then op.method env x else op.operator env x
    bindElement (target form a bind) r
    return .integer r.representative
  | .binary op form a b bind => do
    let x ← element a
    let y ← element b
    let r ← compute build .fault fun env =>
      if form = .method then op.method env x y else op.operator env x y
    bindElement (target form a bind) r
    return .integer r.representative
  | .fold op operands bind => do
    let l ← operands.mapM element
    let r ← compute build .fault fun env =>
      match op with
      | .sum => Element.sum env l
      | .product => Element.product env l
    bindElement bind r
    return .integer r.representative
  | .same a b => do
    let x ← element a
    let y ← element b
    return .comparison (x.same y) (x.hashKey == y.hashKey)
  | .display a => return .shown (← element a)
  | .check a => do
    let x ← element a
    compute build .frame fun env => Counted.free (x.check env)
    return .done
  | .write a => return .written (← element a)
  | .fill a size => do
    let x ← element a
    match Frame.fill? size (x.frame .compressed) with
    | some buffer => return .buffer buffer
    | none => fail (.frame .short)

end AmbientResidue.Action
