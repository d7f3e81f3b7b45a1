import NodeSettings.Config.Document
import NodeSettings.Proofs.Document
import NodeSettings.Proofs.Duration
import NodeSettings.Proofs.Schema

/-!
This module contains the overlay of the document of a configuration: it takes the place of whatever
configuration is under it.
-/

namespace NodeSettings

/-- The durations of a configuration have at most 53 bits. -/
def Config.HasShortDurations (c : Config) : Prop :=
  ∀ s d, c.get s = .duration d → d.micros.natAbs ≤ twoPow 53

namespace Overlay

variable {c : Config} {s : Setting} {x : Section} {raw : Value}
variable {entries : List (Value × Value)}

theorem asTexts?_texts (ts : List Text) : asTexts? (ts.map .text) = some (ts.map .text) := by
  rw [asTexts?_eq_some_iff]
  refine ⟨rfl, ?_⟩
  intro item hitem
  rcases List.mem_map.mp hitem with ⟨t, -, rfl⟩
  exact ⟨t, rfl⟩

theorem parse_written {t : SettingType} {v : Value} (h : t.admits v = true)
    (hduration : ∀ d, v = .duration d → d.micros.natAbs ≤ twoPow 53) :
    parse t v.written = .ok v := by
  cases t <;> cases v <;> try cases h
  . rfl
  . rfl
  . rfl
  . next d =>
    have hread := Duration.ofText_format (hduration d rfl)
    rw [Value.written]
    unfold parse Duration.ofValue
    dsimp only
    rw [hread]
    rfl
  . next items =>
    rcases Config.exists_texts h with ⟨ts, rfl⟩
    rw [Value.written, Config.writtenItems_texts]
    unfold parse
    dsimp only
    rw [asTexts?_texts]
    rfl

theorem settingSteps_written (h : c.WellTyped) (hdurations : c.HasShortDurations) (path : String)
    (s : Setting) : settingSteps path s (c.get s).written = [.assign s (c.get s)] := by
  have hparse := parse_written (h s) (hdurations s)
  have htyped := h s
  unfold settingSteps
  split
  . next hnull =>
    rw [hnull] at hparse
    cases hs : s.type <;> rw [hs] at hparse <;> cases hparse
  . rw [hparse]

theorem bind_find?_name (s : Setting) :
    (s.name : Text).toString?.bind (Setting.find? s.owner) = some s := by
  rw [Text.toString?_ofString, Option.bind_some, Setting.find?_owner_name]

theorem ownedSteps_settingEntries (h : c.WellTyped) (hdurations : c.HasShortDurations)
    (before : String) {settings : List Setting} (hsettings : ∀ s ∈ settings, s.owner = some x) :
    ownedSteps (some x) before (c.settingEntries settings) =
      settings.map fun s => .assign s (c.get s) := by
  induction settings with
  | nil => rfl
  | cons s settings ih =>
    have hname := bind_find?_name s
    rw [hsettings s (.head _)] at hname
    show ownedSteps (some x) before
      ((.text s.name, (c.get s).written) :: c.settingEntries settings) = _
    rw [ownedSteps_cons_of_plain rfl, hname, ih fun s hs => hsettings s (.tail _ hs)]
    dsimp only
    rw [settingSteps_written h hdurations]
    rfl

theorem entrySteps_setting (h : s.owner = none) :
    entrySteps ((.text s.name, raw) :: entries) =
      settingSteps s.name s raw ++ entrySteps entries := by
  have hsection : (s.name : Text).toString?.bind Section.ofName? = none := by
    rw [Option.eq_none_iff_forall_ne_some]
    intro x hx
    rw [Text.toString?_ofString, Option.bind_some, Section.ofName?_eq_some_iff] at hx
    exact Section.name_ne_of_owner_eq_none h x hx
  have hname := bind_find?_name s
  rw [h] at hname
  rw [entrySteps_cons_of_plain rfl, hsection]
  dsimp only
  rw [hname]

theorem entrySteps_section (x : Section) :
    entrySteps ((.text x.name, raw) :: entries) = sectionSteps x raw ++ entrySteps entries := by
  rw [entrySteps_cons_of_plain rfl, bind_ofName?_name]

theorem entrySteps_settingEntries (h : c.WellTyped) (hdurations : c.HasShortDurations)
    {settings : List Setting} (hsettings : ∀ s ∈ settings, s.owner = none) :
    entrySteps (c.settingEntries settings ++ entries) =
      settings.map (fun s => .assign s (c.get s)) ++ entrySteps entries := by
  induction settings with
  | nil => rfl
  | cons s settings ih =>
    show entrySteps
      ((.text s.name, (c.get s).written) :: (c.settingEntries settings ++ entries)) = _
    rw [entrySteps_setting (hsettings s (.head _)), settingSteps_written h hdurations,
      ih fun s hs => hsettings s (.tail _ hs)]
    rfl

theorem entrySteps_sectionEntries (h : c.WellTyped) (hdurations : c.HasShortDurations)
    (sections : List Section) :
    entrySteps (sections.map c.sectionEntry) =
      (sections.flatMap Section.settings).map fun s => .assign s (c.get s) := by
  induction sections with
  | nil => rfl
  | cons x sections ih =>
    have howned : ∀ s ∈ x.settings, s.owner = some x := fun s hs =>
      Setting.owner_eq_some_iff.mpr hs
    show entrySteps ((.text x.name, .map (c.settingEntries x.settings))
      :: sections.map c.sectionEntry) = _
    rw [entrySteps_section, ih, List.flatMap_cons, List.map_append, sectionSteps,
      ownedSteps_settingEntries h hdurations _ howned]

theorem steps_document (h : c.WellTyped) (hdurations : c.HasShortDurations) :
    steps c.document = Setting.all.map fun s => .assign s (c.get s) := by
  have hgeneral : ∀ s ∈ Setting.general, s.owner = none := fun s hs =>
    Setting.owner_eq_none_iff.mpr hs
  unfold Config.document steps
  dsimp only
  rw [entrySteps_settingEntries h hdurations hgeneral, entrySteps_sectionEntries h hdurations,
    Setting.all, List.map_append]

end Overlay

namespace Overlay

theorem run_map_assign (b c : Config) (settings : List Setting) :
    run b (settings.map fun s => .assign s (c.get s)) =
      ⟨⟨fun s => if s ∈ settings then c.get s else b.get s⟩, [], none⟩ := by
  induction settings generalizing b with
  | nil => rfl
  | cons s settings ih =>
    rw [List.map_cons, run, ih]
    congr
    funext t
    by_cases hs : t = s
    . subst hs
      simp
    . simp [hs]

end Overlay

namespace Config

variable {c : Config}

theorem overlay_document_eq (h : c.WellTyped) (hdurations : c.HasShortDurations) (b : Config) :
    b.overlay c.document = ⟨c, [], none⟩ := by
  unfold overlay
  rw [Overlay.steps_document h hdurations, Overlay.run_map_assign]
  simp [Setting.mem_all]

/--
The document of a configuration takes the place of every configuration that it is laid over, with
no key that names nothing. What it describes is the configuration itself, if this is valid.
-/
theorem overlay_document_replaces (h : c.WellTyped) (hdurations : c.HasShortDurations) :
    (∀ b : Config, b.overlay c.document = ⟨c, [], none⟩)
      ∧ (c.validate = .ok () → ofDocument c.document = .ok c)
      ∧ ∀ fault, c.validate = .error fault →
        ofDocument c.document = .error (.validation fault) := by
  have hcases := ofDocument_cases c.document
  rw [overlay_document_eq h hdurations] at hcases
  refine ⟨overlay_document_eq h hdurations, ?_, ?_⟩
  . intro hvalid
    rcases hcases with ⟨f, hfault, -⟩ | ⟨-, -, hresult⟩ | ⟨-, v, hinvalid, -⟩
    . cases hfault
    . exact hresult
    . rw [hvalid] at hinvalid
      cases hinvalid
  . intro fault hinvalid
    rcases hcases with ⟨f, hfault, -⟩ | ⟨-, hvalid, -⟩ | ⟨-, v, hinvalid', hresult⟩
    . cases hfault
    . rw [hvalid] at hinvalid
      cases hinvalid
    . rw [hinvalid] at hinvalid'
      cases hinvalid'
      exact hresult

def withoutPeers : Config :=
  ((default.set .bootstrapPeers (.list [])).set .retryDelay (.duration .zero)).set .banDuration
    (.duration ⟨-1, by decide⟩)

theorem overlay_document_replaces_withoutPeers :
    default.overlay withoutPeers.document = ⟨withoutPeers, [], none⟩
      ∧ withoutPeers.overlay default.document = ⟨default, [], none⟩
      ∧ ofDocument withoutPeers.document =
        .error (.validation (.violation ⟨some .security, "ban_duration must be positive"⟩))
      ∧ ofDocument default.document = .ok default := by
  have htyped : withoutPeers.WellTyped := ((wellTyped_default.set rfl).set rfl).set rfl
  have hdurations : withoutPeers.HasShortDurations := by
    intro s d hd
    cases s <;> cases hd <;> decide
  have hdefault : default.HasShortDurations := by
    intro s d hd
    cases s <;> cases hd <;> decide
  rcases overlay_document_replaces htyped hdurations with ⟨hoverlay, -, hinvalid⟩
  rcases overlay_document_replaces wellTyped_default hdefault with ⟨hback, hvalid, -⟩
  exact ⟨hoverlay _, hback _, hinvalid _ rfl, hvalid rfl⟩

end Config
end NodeSettings
