import NodeSettings.Config.View
import NodeSettings.Proofs.Except

/-!
This module contains configurations as objects. One that has all of its fields and sections is
nothing but a configuration, and reading, checking and writing it is what it is for configurations.
-/

namespace NodeSettings
namespace Aggregate

variable {a b : Aggregate} {s t : Setting} {f g : Field} {v : Value}

@[ext]
theorem ext (hconfig : a.toConfig = b.toConfig) (hplace : ∀ x, a.inPlace x = b.inPlace x)
    (hlacks : ∀ f, a.lacks f = b.lacks f) : a = b := by
  cases a
  cases b
  cases hconfig
  congr
  . exact funext hplace
  . exact funext hlacks

/-- Every field is there, and every section is one. -/
structure IsWhole (a : Aggregate) : Prop where
  sections : ∀ x, a.inPlace x = none
  fields : ∀ f, a.lacks f = false

/-- Everything is there, and every setting holds a value of its type. -/
structure WellTyped (a : Aggregate) : Prop extends IsWhole a where
  settings : a.toConfig.WellTyped

theorem isWhole_coe (c : Config) : (c : Aggregate).IsWhole :=
  ⟨fun _ => rfl, fun _ => rfl⟩

theorem wellTyped_coe {c : Config} (h : c.WellTyped) : (c : Aggregate).WellTyped :=
  ⟨isWhole_coe c, h⟩

theorem IsWhole.eq_coe (h : a.IsWhole) : a = (a.toConfig : Aggregate) :=
  ext rfl h.sections h.fields

theorem lacks_regain (h : a.lacks g = false) (f : Field) : (a.regain f).lacks g = false := by
  simp [regain, h]

theorem lacks_assign_of_ne (a : Aggregate) (v : Value) (h : g ≠ f) :
    (a.assign v f).lacks g = a.lacks g := by
  cases f with
  | setting s => simp [assign, set, regain, h]
  | sect x => simp [assign, regain, h]

theorem IsWhole.set (h : a.IsWhole) (s : Setting) (v : Value) : (a.set s v).IsWhole :=
  ⟨h.sections, fun f => lacks_regain (h.fields f) _⟩

theorem WellTyped.set (h : a.WellTyped) (hv : s.type.admits v = true) : (a.set s v).WellTyped :=
  ⟨h.toIsWhole.set s v, h.settings.set hv⟩

theorem IsWhole.set_eq (h : a.IsWhole) (s : Setting) (v : Value) :
    a.set s v = { a with toConfig := a.toConfig.set s v } := by
  apply ext
  . rfl
  . intro x
    rfl
  . intro f
    show (a.set s v).lacks f = a.lacks f
    rw [(h.set s v).fields, h.fields]

@[simp]
theorem get_set_self (a : Aggregate) (s : Setting) (v : Value) : (a.set s v).get s = v :=
  Config.get_set_self _ s v

@[simp]
theorem get_set_of_ne (a : Aggregate) (v : Value) (h : t ≠ s) : (a.set s v).get t = a.get t :=
  Config.get_set_of_ne _ v h

/-- The path of a setting from a part leads to what has the setting, if it has not been deleted. -/
def HasOwner (a : Aggregate) (p : Part) (s : Setting) : Prop :=
  p = none → ∀ x, s.owner = some x → a.lacks (.sect x) = false ∧ a.inPlace x = none

structure Has (a : Aggregate) (p : Part) (s : Setting) : Prop where
  owner : a.HasOwner p s
  field : a.lacks (.setting s) = false

theorem IsWhole.has (h : a.IsWhole) (p : Part) (s : Setting) : a.Has p s :=
  ⟨fun _ x _ => ⟨h.fields _, h.sections x⟩, h.fields _⟩

theorem need_eq_ok_iff : a.need f = .ok () ↔ a.lacks f = false := by
  unfold need
  cases a.lacks f with
  | true => simp
  | false => simp

theorem need_eq_ok (h : a.lacks f = false) : a.need f = .ok () :=
  need_eq_ok_iff.mpr h

theorem Has.read (h : a.Has none s) : a.read s = .ok (a.get s) := by
  have hheld : a.held s = .ok (a.get s) := by
    rw [held, need_eq_ok h.field]
    rfl
  unfold Aggregate.read needOwner
  cases howner : s.owner with
  | none => exact hheld
  | some x =>
    rcases h.owner rfl x howner with ⟨hlacks, hplace⟩
    simp only [need_eq_ok hlacks, Option.bind_some, hplace, Except.ok_bind]
    exact hheld

theorem kind_of_need {e : Failure} (h : a.need f = .error e) : e.kind = "AttributeError" := by
  unfold need at h
  split at h
  . cases h
    rfl
  . cases h

theorem needAll_eq_ok_iff {p : Part} :
    a.needAll p = .ok () ↔ ∀ f ∈ p.fields, a.lacks f = false := by
  simp only [needAll, Except.forM_eq_ok_iff, need_eq_ok_iff]

theorem kind_of_needAll {p : Part} {e : Failure} (h : a.needAll p = .error e) :
    e.kind = "AttributeError" := by
  rcases Except.exists_of_forM_eq_error h with ⟨f, -, hf⟩
  exact kind_of_need hf

theorem needSection_eq_ok_iff {x : Section} :
    a.needSection x = .ok () ↔ a.lacks (.sect x) = false
      ∧ (a.inPlace x = none → ∀ s ∈ x.settings, a.lacks (.setting s) = false) := by
  unfold needSection
  rw [Except.unit_bind_eq_ok_iff, need_eq_ok_iff]
  apply and_congr_right
  intro _
  cases a.inPlace x with
  | some v => simp
  | none => simp [needAll_eq_ok_iff, Part.fields]

theorem kind_of_needSection {x : Section} {e : Failure} (h : a.needSection x = .error e) :
    e.kind = "AttributeError" := by
  unfold needSection at h
  rcases Except.bind_eq_error_iff.mp h with h | ⟨u, -, h⟩
  . exact kind_of_need h
  . split at h
    . exact kind_of_needAll h
    . cases h

/-- Nothing is missing that the document of a part is gathered from. -/
structure IsComplete (a : Aggregate) (p : Part) : Prop where
  sections : p = none → ∀ x, a.lacks (.sect x) = false
  settings : ∀ s ∈ p.settings, (p = none → s.owner.bind a.inPlace = none) →
    a.lacks (.setting s) = false

theorem IsWhole.isComplete (h : a.IsWhole) (p : Part) : a.IsComplete p :=
  ⟨fun _ _ => h.fields _, fun _ _ _ => h.fields _⟩

theorem IsComplete.has (h : a.IsComplete none) (hplace : s.owner.bind a.inPlace = none) :
    a.Has none s := by
  constructor
  . intro _ x hx
    rw [hx] at hplace
    exact ⟨h.sections rfl x, hplace⟩
  . exact h.settings s s.mem_all fun _ => hplace

theorem needDocument_none_eq_ok_iff : a.needDocument none = .ok () ↔ a.IsComplete none := by
  simp only [needDocument, Except.unit_bind_eq_ok_iff, Except.forM_eq_ok_iff, need_eq_ok_iff,
    needSection_eq_ok_iff]
  constructor
  . rintro ⟨hgeneral, hsections⟩
    refine ⟨fun _ x => (hsections x x.mem_all).1, ?_⟩
    intro s _ hplace
    have hplace := hplace rfl
    cases howner : s.owner with
    | none => exact hgeneral s (Setting.owner_eq_none_iff.mp howner)
    | some x =>
      rw [howner] at hplace
      exact (hsections x x.mem_all).2 hplace s (Setting.owner_eq_some_iff.mp howner)
  . rintro ⟨hsections, hsettings⟩
    constructor
    . intro s hs
      rw [← Setting.owner_eq_none_iff] at hs
      exact hsettings s s.mem_all fun _ => by rw [hs]; rfl
    . intro x _
      refine ⟨hsections rfl x, ?_⟩
      intro hplace s hs
      rw [← Setting.owner_eq_some_iff] at hs
      exact hsettings s s.mem_all fun _ => by rw [hs]; exact hplace

theorem needDocument_eq_ok_iff {p : Part} : a.needDocument p = .ok () ↔ a.IsComplete p := by
  cases p with
  | none => exact needDocument_none_eq_ok_iff
  | some x =>
    unfold needDocument
    rw [needAll_eq_ok_iff]
    constructor
    . intro h
      refine ⟨nofun, ?_⟩
      intro s hs _
      exact h _ (List.mem_map_of_mem hs)
    . intro h f hf
      rcases List.mem_map.mp hf with ⟨s, hs, rfl⟩
      exact h.settings s hs nofun

theorem kind_of_needDocument {p : Part} {e : Failure} (h : a.needDocument p = .error e) :
    e.kind = "AttributeError" := by
  cases p with
  | some x => exact kind_of_needAll h
  | none =>
    unfold needDocument at h
    rcases Except.bind_eq_error_iff.mp h with h | ⟨u, -, h⟩
    . rcases Except.exists_of_forM_eq_error h with ⟨s, -, hs⟩
      exact kind_of_need hs
    . rcases Except.exists_of_forM_eq_error h with ⟨x, -, hx⟩
      exact kind_of_needSection hx

theorem checkSettings_eq (h : a.IsWhole) (report : Setting → Option Section)
    (settings : List Setting) :
    a.checkSettings report settings =
      (a.toConfig.checkSettings report settings).mapError .validation := by
  induction settings with
  | nil => rfl
  | cons s settings ih =>
    rw [checkSettings, Config.checkSettings, (h.has none s).read, ih]
    cases hbounds : s.bounds with
    | nil => rfl
    | cons bound bounds =>
      simp only [List.isEmpty_cons, Bool.not_false, if_true, Except.ok_bind]
      cases Config.checkBounds (report s) s.name (a.get s) (bound :: bounds) with
      | error e => rfl
      | ok u => rfl

theorem IsWhole.validate_eq (h : a.IsWhole) :
    a.validate = a.toConfig.validate.mapError .validation :=
  checkSettings_eq h _ _

theorem IsWhole.getKey_eq (h : a.IsWhole) (kind : Kind) (name : String) (fallback : Value) :
    a.getKey kind name fallback = .ok (a.toConfig.getKey kind name fallback) := by
  rw [getKey, Config.getKey]
  cases Key.lookup? name kind with
  | none => rfl
  | some k => exact (h.has none k.setting).read

theorem IsWhole.shown (h : a.IsWhole) : a.shown.IsWhole := by
  constructor
  . intro x
    show (a.inPlace x).map Value.shown = none
    rw [h.sections]
    rfl
  . exact h.fields

theorem IsWhole.overlaid (h : a.IsWhole) (steps : List OverlayStep) :
    (a.overlaid steps).IsWhole := by
  constructor
  . exact h.sections
  . intro f
    simp [Aggregate.overlaid, h.fields f]

end Aggregate

namespace Reach

variable {a : Aggregate}

theorem isWhole_seen (r : Reach) (h : a.IsWhole) : (r.seen a).IsWhole := by
  unfold seen
  split
  . exact h.shown
  . exact h

end Reach
end NodeSettings
