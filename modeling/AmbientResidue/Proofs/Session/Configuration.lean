import AmbientResidue.Proofs.Config.Documents
import AmbientResidue.Proofs.Session.LastWriter

/-! # Configurations that were read can be installed

Whatever text a configuration was read from, its modulus is positive and becomes the active one from
any session. -/

namespace AmbientResidue.Session

open AmbientResidue.Action
open Counted (Yields Refuses)

variable {build : Build} {s : Session} {c : Config} {text : String}

/-- The configuration passes its own check, and installing it succeeds and is seen. -/
structure Installable (c : Config) : Prop where
  positive : 1 ≤ c.modulus
  valid : c.validate = .ok ()
  installs : ∀ build s, ∃ t, Returns (installConfig c) s () t ∧
    Returns (perform build (.current none)) t (.integer c.modulus) t

theorem installable (positive : 1 ≤ c.modulus) : Installable c where
  positive := positive
  valid := by
    rw [Config.validate_eq, if_pos (by omega)]
  installs build s := by
    obtain ⟨m, sized, value⟩ : ∃ m : Modulus, Modulus.ofInt c.modulus = .ok m ∧ m.value = c.modulus :=
      ⟨⟨c.modulus, Integer.width c.modulus, positive⟩, dif_pos positive, rfl⟩
    obtain ⟨store, returns, kept⟩ := Store.returns_install sized .global s.store
    have active : store.active .global = some m := by
      rw [kept.active, Store.active_write, if_pos rfl]
    have seen : Returns (perform build (.current none)) { s with store } (.integer m.value)
        { s with store } := returns_current rfl active
    rw [value] at seen
    exact ⟨{ s with store }, returns_onStore returns, seen⟩

/-- Texts are read as configurations that can be installed. Documents that name a modulus are all of
them read if it is positive, and refused for it otherwise; so documents that were written for a
configuration are read as this one exactly if it is valid. -/
theorem configurations_read_exactly :
    (∀ text c, Yields (Config.ofText text) c → Installable c) ∧
      (∀ v text, Config.Documents v text →
        (1 ≤ v → Yields (Config.ofText text) ⟨v⟩) ∧
        (v < 1 → Refuses (Config.ofText text) (.field (.invalidModulus v)))) ∧
      (∀ c : Config, Config.Documents c.modulus c.document) ∧
      ∀ c d, Yields (Config.ofText (Config.document c)) d ↔ d = c ∧ 1 ≤ c.modulus := by
  refine ⟨fun text c read => ?_, fun v text => Config.documents_decide,
    Config.documents_document, fun c d => Config.yields_ofText_document_iff⟩
  exact installable (Config.yields_ofText_iff.1 read).2

/-- A note beside the modulus does not matter, nor does the sign of 97; it can be installed into the
initial session. Zero is refused, in an array as in the document that is written for it. -/
theorem configurations_read_exactly_beside_note :
    Yields (Config.ofText "\x7b\"note\":[null],\"modulus\":\"+97\"\x7d") ⟨97⟩ ∧
      (∃ t, Returns (installConfig ⟨97⟩) initial () t ∧
        Returns (perform .plain (.current none)) t (.integer 97) t) ∧
      Refuses (Config.ofText "[0]") (.field (.invalidModulus 0)) ∧
      ¬ Yields (Config.ofText (Config.document ⟨0⟩)) ⟨0⟩ := by
  obtain ⟨sound, decided, -, written⟩ := configurations_read_exactly
  have literal : Decimal.Literal ['+', '9', '7'] 97 :=
    .plus ((Decimal.Numeral.digit (d := 9) (by decide)).append (d := 7) (by decide))
  have foreign : Config.Foreign (['n', 'o', 't', 'e'].map Json.piece, Json.array [[.null]]) := by
    refine ⟨⟨_, Json.characters?_pieces _, by decide⟩, .array fun v mem => ?_⟩
    rw [List.mem_singleton.1 mem]
    exact .null
  have object : Json.Written (Json.object ([(['n', 'o', 't', 'e'].map Json.piece,
      Json.array [[.null]])] ++ (Config.key.toList.map Json.piece,
      [.text (['+', '9', '7'].map Json.piece)]) :: []))
      "\x7b\"note\":[null],\"modulus\":\"+97\"\x7d".toList := by
    have text : "\x7b\"note\":[null],\"modulus\":\"+97\"\x7d".toList =
        ['\x7b'] ++ (Json.quoted ['n', 'o', 't', 'e'] ++ ([':'] ++ (['['] ++
          (['n', 'u', 'l', 'l'] ++ ([']'] ++ ([','] ++ (Json.quoted Config.key.toList ++ ([':'] ++
            (Json.quoted ['+', '9', '7'] ++ (['\x7d'] ++ [])))))))))) := by
      decide +kernel
    rw [text]
    exact .token .openObject nofun (.token (Json.spelled_quoted _) nofun (.token .colon nofun
      (.token .openArray nofun (.token .null nofun (.token .closeArray nofun (.token .comma nofun
        (.token (Json.spelled_quoted _) nofun (.token .colon nofun
          (.token (Json.spelled_quoted _) nofun
            (.token .closeObject nofun (.nil nofun)))))))))))
  have named : Config.Documents 97 "\x7b\"note\":[null],\"modulus\":\"+97\"\x7d" := by
    have before : ∀ m ∈ [(['n', 'o', 't', 'e'].map Json.piece, Json.array [[.null]])],
        Config.Foreign m := by
      intro m mem
      rw [List.mem_singleton.1 mem]
      exact foreign
    have after : ∀ m ∈ ([] : List Json.Member), Config.Foreign m := fun _ mem => nomatch mem
    exact .member (Json.characters?_pieces _) (.text (Json.characters?_pieces _) literal) before
      after object
  have read := (decided 97 _ named).1 (by decide)
  have zero : Config.Documents 0 "[0]" := by
    have text : "[0]".toList = ['['] ++ (Decimal.print 0 ++ ([']'] ++ [])) := by decide +kernel
    refine .array (.number (by decide) (by decide)) (text ▸ ?_)
    exact .token .openArray nofun (.integral 0 (Json.stops_cons (by decide))
      (.token .closeArray nofun (.nil nofun)))
  refine ⟨read, (sound _ _ read).installs .plain initial, (decided 0 _ zero).2 (by decide), ?_⟩
  intro made
  exact absurd ((written ⟨0⟩ ⟨0⟩).1 made).2 (by decide)

end AmbientResidue.Session
