import AmbientResidue.Proofs.Element.Sampling
import AmbientResidue.Wire.Document
import AmbientResidue.Wire.Frame

/-! # Residues without what a build watches

Leaving out the tags of residues changes no residue that is made from them and no error that is
reported, with one exception: where an operand was made under another modulus, an operation that
looks at tags has stopped. -/

namespace AmbientResidue

open Counted (Yields Refuses Echoes free sure)

/-- The error of an operand that was made under another modulus than the active one. -/
def Fault.isMismatch : Fault → Bool
  | .mismatchPanic _ _ => true
  | _ => false

/-- What is only seen where residues are tagged. -/
def Fault.Excused (build : Build) (e : Fault) : Prop := build.tags = true ∧ e.isMismatch = true

/-- The same active modulus in the plain build. -/
def Ambient.unwatched (env : Ambient) : Ambient := ⟨.plain, env.active⟩

namespace Element

/-- The residue without its tag, where the build tags residues. -/
def unwatched (build : Build) (a : Element) : Element :=
  ⟨a.representative, if build.tags then none else a.tag⟩

variable {env : Ambient} {excused : Refusal → Prop}

theorem residue_unwatched (env : Ambient) (m : Modulus) (v : Int) :
    env.unwatched.residue m v = (env.residue m v).unwatched env.build := by
  have plain : Build.plain.tags = false := rfl
  cases tags : env.build.tags with
  | false => simp [Ambient.residue, Ambient.unwatched, unwatched, plain, tags]
  | true => simp [Ambient.residue, Ambient.unwatched, unwatched, plain, tags]

/-- An untagged residue fits every modulus, so only a tag can stop an operation. -/
theorem echoes_checkTag (build : Build) (m : Modulus) (a : Element) :
    Echoes (Fault.Excused build) id (free (a.checkTag m)) (free ((a.unwatched build).checkTag m)) := by
  cases tags : build.tags with
  | false =>
    have same : a.unwatched build = a := by simp [unwatched, tags]
    rw [same]
    exact .refl _
  | true =>
    have passes : (a.unwatched build).checkTag m = .ok () := by simp [checkTag, unwatched, tags]
    refine ⟨fun _ => passes, fun {e} refused other => absurd ⟨tags, ?_⟩ other⟩
    rw [Counted.refuses_free, checkTag] at refused
    split at refused
    · split at refused
      · cases refused
      · cases refused; rfl
    · cases refused

/-! ## Making residues -/

theorem echoes_zero : Echoes excused (unwatched env.build) (zero env) (zero env.unwatched) :=
  .shared _ fun m => .shared _ fun _ => .pure (residue_unwatched env m _)

theorem echoes_ofInt (v : Int) :
    Echoes excused (unwatched env.build) (ofInt env v) (ofInt env.unwatched v) :=
  .shared _ fun m => .shared _ fun _ => .pure (residue_unwatched env m _)

theorem echoes_ofInt64 (v : Int64) :
    Echoes excused (unwatched env.build) (ofInt64 env v) (ofInt64 env.unwatched v) :=
  .shared _ fun n => echoes_ofInt n

theorem echoes_ofLiteral (s : String) :
    Echoes excused (unwatched env.build) (ofLiteral env s) (ofLiteral env.unwatched s) :=
  .shared _ fun n => echoes_ofInt n

theorem echoes_ofBytes (bytes : List UInt8) :
    Echoes excused (unwatched env.build) (ofBytes env bytes) (ofBytes env.unwatched bytes) :=
  .shared _ fun n => echoes_ofInt n

theorem echoes_makeOrPanic {x y : Making Element} {build : Build}
    (h : Echoes (fun _ => False) (unwatched build) x y) :
    Echoes (Fault.Excused build) (unwatched build) (makeOrPanic x) (makeOrPanic y) :=
  (h.weaken fun _ => False.elim).adapt

/-- The residue that was drawn, without its tag. -/
def Drawn.unwatched (build : Build) (drawn : Drawn) : Drawn :=
  ⟨drawn.element.unwatched build, drawn.bytes⟩

theorem echoes_random (bytes : List UInt8) :
    Echoes excused (Drawn.unwatched env.build) (random env bytes) (random env.unwatched bytes) := by
  refine .shared _ fun m => .shared _ fun found => .pure ?_
  simp only [Drawn.unwatched, residue_unwatched]

/-! ## Arithmetic -/

section

variable {a b : Element}

theorem echoes_unary (op : Modulus → Int → Counted Int) (a : Element) :
    Echoes (Fault.Excused env.build) (unwatched env.build) (unary env op a)
      (unary env.unwatched op (a.unwatched env.build)) :=
  .shared _ fun m => (echoes_checkTag env.build m a).bind fun _ =>
    .shared _ fun _ => .pure (residue_unwatched env m _)

theorem echoes_binary (op : Modulus → Int → Int → Counted Int) (a b : Element) :
    Echoes (Fault.Excused env.build) (unwatched env.build) (binary env op a b)
      (binary env.unwatched op (a.unwatched env.build) (b.unwatched env.build)) :=
  .shared _ fun m => (echoes_checkTag env.build m a).bind fun _ =>
    (echoes_checkTag env.build m b).bind fun _ =>
      .shared _ fun _ => .pure (residue_unwatched env m _)

theorem echoes_invert (a : Element) :
    Echoes (Fault.Excused env.build) (unwatched env.build) (invert env a)
      (invert env.unwatched (a.unwatched env.build)) := by
  refine .shared _ fun m => (echoes_checkTag env.build m a).bind fun _ => .shared _ fun found => ?_
  cases found with
  | some v => exact .pure (residue_unwatched env m v)
  | none => exact .throw _

theorem echoes_unaryMethod (op : Unary) (a : Element) :
    Echoes (Fault.Excused env.build) (unwatched env.build) (op.method env a)
      (op.method env.unwatched (a.unwatched env.build)) := by
  cases op with
  | neg | square => exact echoes_unary _ a
  | invert => exact echoes_invert a

theorem echoes_binaryMethod (op : Binary) (a b : Element) :
    Echoes (Fault.Excused env.build) (unwatched env.build) (op.method env a b)
      (op.method env.unwatched (a.unwatched env.build) (b.unwatched env.build)) := by
  cases op with
  | add | sub | mul => exact echoes_binary _ a b
  | div => exact (echoes_invert b).bind fun inverse => echoes_binary _ a inverse

theorem echoes_orPanic {x y : Operation Element} {build : Build}
    (h : Echoes (Fault.Excused build) (unwatched build) x y) :
    Echoes (Fault.Excused build) (unwatched build) (orPanic x) (orPanic y) := by
  refine (h.weaken fun e excused => ?_).adapt
  cases e with
  | mismatchPanic => exact excused
  | error | operatorPanic => cases excused.2

theorem echoes_foldlM (op : Binary) (l : List Element) (start : Element) :
    Echoes (Fault.Excused env.build) (unwatched env.build)
      (l.foldlM (fun total a => op.operator env total a) start)
      ((l.map (unwatched env.build)).foldlM (fun total a => op.operator env.unwatched total a)
        (start.unwatched env.build)) := by
  induction l generalizing start with
  | nil => exact .pure rfl
  | cons a rest ih =>
    rw [List.map_cons, List.foldlM_cons, List.foldlM_cons]
    exact (echoes_orPanic (echoes_binaryMethod op start a)).bind ih

theorem echoes_sum (l : List Element) :
    Echoes (Fault.Excused env.build) (unwatched env.build) (sum env l)
      (sum env.unwatched (l.map (unwatched env.build))) :=
  (echoes_makeOrPanic echoes_zero).bind fun start => echoes_foldlM .add l start

theorem echoes_product (l : List Element) :
    Echoes (Fault.Excused env.build) (unwatched env.build) (product env l)
      (product env.unwatched (l.map (unwatched env.build))) :=
  (echoes_makeOrPanic (echoes_ofInt64 1)).bind fun start => echoes_foldlM .mul l start

end

/-! ## Documents -/

theorem echoes_ofJsonBytes {pardoned : Json.ReadError → Prop} (bytes : List UInt8) :
    Echoes pardoned (unwatched env.build) (ofJsonBytes env bytes)
      (ofJsonBytes env.unwatched bytes) :=
  (echoes_ofBytes bytes).adapt

theorem echoes_readJson {pardoned : Json.ReadError → Prop} (tokens : List Json.Token) :
    Echoes pardoned (Prod.map (unwatched env.build) id) (readJson env tokens)
      (readJson env.unwatched tokens) := by
  unfold readJson
  split
  · exact .throw _
  · exact (echoes_ofJsonBytes _).map fun _ => rfl
  · exact .shared _ fun read => (echoes_ofJsonBytes read.1).map fun _ => rfl
  · exact .throw _

theorem echoes_ofJson {pardoned : Json.ReadError → Prop} (text : String) :
    Echoes pardoned (unwatched env.build) (ofJson env text) (ofJson env.unwatched text) :=
  (echoes_readJson _).bind fun read => .shared (free (Json.finish read.2)) fun _ => .pure rfl

theorem echoes_ofMessagePack {pardoned : MessagePack.ReadError → Prop} (document : List UInt8) :
    Echoes pardoned (unwatched env.build) (ofMessagePack env document)
      (ofMessagePack env.unwatched document) := by
  unfold ofMessagePack
  split
  · exact .throw _
  · exact (echoes_ofBytes _).adapt
  · exact .shared _ fun contents => (echoes_ofBytes contents).adapt
  · split
    · exact .throw _
    · exact (echoes_ofBytes _).adapt
  · exact .throw _

theorem echoes_ofFrame {pardoned : FrameError → Prop} (compression : Compression)
    (validate : Bool) (bytes : List UInt8) :
    Echoes pardoned (Prod.map (unwatched env.build) id) (ofFrame env compression validate bytes)
      (ofFrame env.unwatched compression validate bytes) := by
  unfold ofFrame
  split
  · exact .throw _
  · have same : env.unwatched.active = env.active := rfl
    rw [same]
    cases env.active with
    | none => exact .throw _
    | some m =>
      refine .shared _ fun v => ?_
      split
      · exact .throw _
      · exact .shared _ fun w => .pure (congrArg (·, _) (residue_unwatched env m w))

end Element

end AmbientResidue
