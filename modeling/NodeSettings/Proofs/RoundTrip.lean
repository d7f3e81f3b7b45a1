import NodeSettings.Proofs.Override
import NodeSettings.Proofs.Save
import NodeSettings.Proofs.Validation

/-!
This module contains the round trip of configurations through files: what is saved is loaded again,
or refused for the reason for which it is not valid.
-/

namespace NodeSettings

namespace Config

variable {c : Config}

theorem overlay_document (h : c.WellTyped) (hdurations : c.HasShortDurations) :
    (default.overlay c.document).config = c ∧ (default.overlay c.document).fault = none := by
  rw [overlay_document_eq h hdurations]
  exact ⟨rfl, rfl⟩

end Config

namespace ConfigFile

variable {fs : FileSystem} {c : Config} {p q : Path}

theorem exists_text_of_save (h : (save fs c p).result = .ok q) :
    ∃ s, Yaml.write c.document = .ok s ∧ (save fs c p).files.read p = .ok s.toUTF8 := by
  have houtcome := saveDocument_outcome fs c.document p
  unfold save at h ⊢
  generalize saveDocument fs c.document p = w at houtcome h ⊢
  cases houtcome with
  | written rendered hfile => exact ⟨_, rendered, FileSystem.read_of_write hfile⟩
  | _ => cases h

theorem readDocument_save (htyped : c.WellTyped) (hsave : (save fs c p).result = .ok q) :
    readDocument (save fs c p).files p = .ok c.document := by
  rcases exists_text_of_save hsave with ⟨s, hwrite, hread⟩
  -- Three levels are enough for a document: the root, a section, and a list in it.
  have hdocument := Yaml.read_write (Config.isWritable_document htyped) (by decide) hwrite
  unfold readDocument
  rw [hread]
  dsimp only
  unfold parse
  rw [show Yaml.read s.toUTF8 = _ from hdocument]
  rfl

/--
What is saved is loaded again if it is valid. If it is not, loading it fails for the reason for
which it is not valid.
-/
theorem load_save (htyped : c.WellTyped) (hdurations : c.HasShortDurations)
    (hsave : (save fs c p).result = .ok q) :
    (c.validate = .ok () ∧ (load (save fs c p).files p).1 = .ok c)
      ∨ ∃ v, c.validate = .error (.violation v)
        ∧ (load (save fs c p).files p).1 = .error (.validation (.violation v)) := by
  rcases Config.overlay_document htyped hdurations with ⟨hconfig, hfault⟩
  unfold load
  rw [readDocument_save htyped hsave]
  dsimp only
  unfold ofDocument
  dsimp only
  rw [hfault, hconfig]
  dsimp only
  cases hvalid : c.validate with
  | ok u => exact .inl ⟨rfl, rfl⟩
  | error fault =>
    rcases Config.exists_violation_of_validate htyped hvalid with ⟨v, rfl⟩
    exact .inr ⟨v, rfl, rfl⟩

def oddPeers : Config :=
  Config.default.set .bootstrapPeers (.list [.text "yes", .text "010", .text "~", .text ""])

theorem load_save_oddPeers :
    (save .empty oddPeers ⟨.here, ["config.yml"]⟩).result = .ok ⟨.here, ["config.yml"]⟩
      ∧ (load (save .empty oddPeers ⟨.here, ["config.yml"]⟩).files ⟨.here, ["config.yml"]⟩).1 =
        .ok oddPeers := by
  have htyped : oddPeers.WellTyped := Config.wellTyped_default.set rfl
  have hdurations : oddPeers.HasShortDurations := by
    intro s d hd
    cases s <;> cases hd <;> decide
  have hsave : (save .empty oddPeers ⟨.here, ["config.yml"]⟩).result =
      .ok ⟨.here, ["config.yml"]⟩ := by
    have h : (match (save .empty oddPeers ⟨.here, ["config.yml"]⟩).result with
        | .ok q => q = ⟨.here, ["config.yml"]⟩
        | .error _ => false) = true := by
      decide +kernel
    split at h
    . next q hq =>
      rw [decide_eq_true_eq] at h
      rw [hq, h]
    . cases h
  refine ⟨hsave, ?_⟩
  rcases load_save htyped hdurations hsave with ⟨-, hload⟩ | ⟨v, hv, -⟩
  . exact hload
  . have hvalid : oddPeers.validate = .ok () := rfl
    rw [hvalid] at hv
    cases hv

end ConfigFile

end NodeSettings
