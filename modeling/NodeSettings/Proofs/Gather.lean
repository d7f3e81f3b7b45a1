import Mathlib.Data.List.Forall2
import NodeSettings.Config.View
import NodeSettings.Proofs.Overlay
import NodeSettings.Proofs.Save

/-!
This module contains the documents of views. Whether a document is gathered from a configuration or
from a view of it, attribute by attribute, the same is written.
-/

namespace NodeSettings

namespace Part

theorem member_of_owner {p : Part} {s : Setting} (h : s.owner = p) :
    p.member s.name = .ok (.field (.setting s)) := by
  subst h
  unfold member field?
  rw [Setting.find?_owner_name]
  cases howner : s.owner with
  | none =>
    have hnone : Section.ofName? s.name = none := by
      cases hx : Section.ofName? s.name with
      | none => rfl
      | some x =>
        rw [Section.ofName?_eq_some_iff] at hx
        exact absurd hx (Section.name_ne_of_owner_eq_none howner x)
    simp only [hnone]
    rfl
  | some x => rfl

theorem member_section (x : Section) : member none x.name = .ok (.field (.sect x)) := by
  unfold member field?
  rw [Section.ofName?_name]
  rfl

theorem owner_of_mem_fields {p : Part} {s : Setting} (h : .setting s ∈ p.fields) : s.owner = p := by
  cases p with
  | none => exact Setting.owner_eq_none_iff.mpr (by simpa [fields] using h)
  | some x => exact Setting.owner_eq_some_iff.mpr (by simpa [fields] using h)

theorem eq_none_of_mem_fields {p : Part} {x : Section} (h : .sect x ∈ p.fields) : p = none := by
  cases p with
  | none => rfl
  | some y => simp [fields] at h

theorem member_of_mem_fields {p : Part} {f : Field} (h : f ∈ p.fields) :
    p.member f.name = .ok (.field f) := by
  cases f with
  | setting s => exact member_of_owner (owner_of_mem_fields h)
  | sect x =>
    cases eq_none_of_mem_fields h
    exact member_section x

theorem part_of_mem_fields {p : Part} {f : Field} (h : f ∈ p.fields) : f.part = p := by
  cases f with
  | setting s => exact owner_of_mem_fields h
  | sect x => exact (eq_none_of_mem_fields h).symm

def fieldNames : Part → List String
  | none => Setting.general.map Setting.name ++ Section.all.map Section.name
  | some x => x.settings.map Setting.name

end Part

structure Attribute where
  name : String
  reached : Reached
  value : Value

def Attribute.entry (a : Attribute) : Value × Value :=
  (.text a.name, a.value)

theorem Attribute.map_entry_congr {attributes others : List Attribute}
    (hnames : attributes.map name = others.map name)
    (h : ∀ a ∈ attributes, ∀ b ∈ others, a.name = b.name → a.value = b.value) :
    attributes.map entry = others.map entry := by
  induction attributes generalizing others with
  | nil =>
    rw [List.map_nil, eq_comm, List.map_eq_nil_iff] at hnames
    rw [hnames]
  | cons a attributes ih =>
    cases others with
    | nil => cases hnames
    | cons b others =>
      rw [List.map_cons, List.map_cons, List.cons.injEq] at hnames
      rw [List.map_cons, List.map_cons, entry, entry, hnames.1,
        h a (.head _) b (.head _) hnames.1,
        ih hnames.2 (fun a ha b hb => h a (.tail _ ha) b (.tail _ hb))]

namespace Reach

variable {r : Reach} {a : Aggregate} {s : Setting}

/--
What is gathered for a document from what has been reached: a value in its written form, and for an
object a mapping with what is gathered from each of its attributes.
-/
inductive Gathers (a : Aggregate) : Reached → Value → Prop where
  | value (v : Value) : Gathers a (.value v) v.written
  | object {r : Reach} {attributes : List Attribute}
    (names : attributes.map Attribute.name = r.part.fieldNames)
    (found : ∀ x ∈ attributes, r.member a x.name = .ok x.reached)
    (inner : ∀ x ∈ attributes, Gathers a x.reached x.value) :
    Gathers a (.object r) (.map (attributes.map Attribute.entry))

/-- There is just one document to gather. -/
theorem Gathers.unique {reached : Reached} {v w : Value} (hv : Gathers a reached v)
    (hw : Gathers a reached w) : v = w := by
  induction hv generalizing w with
  | value v =>
    cases hw
    rfl
  | object names found inner ih =>
    cases hw with
    | object names' found' inner' =>
      rw [Attribute.map_entry_congr (names.trans names'.symm)]
      intro x hx y hy hname
      have hreached := found x hx
      rw [hname, found' y hy, Except.ok.injEq] at hreached
      apply ih x hx
      rw [← hreached]
      exact inner' y hy

theorem member_of_owner (h : s.owner = r.part) (hlacks : a.lacks (.setting s) = false) :
    r.member a s.name = .ok (.value ((r.seen a).get s)) := by
  unfold member
  rw [Part.member_of_owner h, Except.ok_bind]
  dsimp only
  rw [Aggregate.need_eq_ok hlacks]
  rfl

def sectionReached (views : Nat) (a : Aggregate) (x : Section) : Reached :=
  match (seen ⟨none, views⟩ a).inPlace x with
  | some v => .value v
  | none => .object ⟨some x, if views != 0 then 1 else 0⟩

theorem member_section (views : Nat) {x : Section} (hlacks : a.lacks (.sect x) = false) :
    member ⟨none, views⟩ a x.name = .ok (sectionReached views a x) := by
  unfold member sectionReached
  rw [Part.member_section, Except.ok_bind]
  dsimp only
  rw [Aggregate.need_eq_ok hlacks, Except.ok_bind]
  cases (seen ⟨none, views⟩ a).inPlace x <;> rfl

theorem inPlace_seen_eq_none_iff {x : Section} :
    (r.seen a).inPlace x = none ↔ a.inPlace x = none := by
  unfold seen
  split
  . exact Option.map_eq_none_iff
  . rfl

theorem seen_section (views : Nat) (a : Aggregate) (x : Section) :
    seen ⟨some x, if views != 0 then 1 else 0⟩ a = seen ⟨none, views⟩ a := by
  cases views with
  | zero => rfl
  | succ views => rfl

def ofSetting (r : Reach) (a : Aggregate) (s : Setting) : Attribute where
  name := s.name
  reached := .value ((r.seen a).get s)
  value := ((r.seen a).get s).written

def ofSection (views : Nat) (a : Aggregate) (x : Section) : Attribute where
  name := x.name
  reached := sectionReached views a x
  value := ((seen ⟨none, views⟩ a).sectionEntry x).2

theorem entry_ofSection (views : Nat) (a : Aggregate) (x : Section) :
    (ofSection views a x).entry = (seen ⟨none, views⟩ a).sectionEntry x := by
  unfold Attribute.entry ofSection Aggregate.sectionEntry
  cases (seen ⟨none, views⟩ a).inPlace x <;> rfl

theorem gathers_sectionDocument {x : Section} (hcomplete : a.IsComplete (some x)) (views : Nat) :
    Gathers a (.object ⟨some x, views⟩) ((seen ⟨some x, views⟩ a).sectionDocument x) := by
  have hdocument : (seen ⟨some x, views⟩ a).sectionDocument x =
      .map ((x.settings.map (ofSetting ⟨some x, views⟩ a)).map Attribute.entry) := by
    rw [List.map_map]
    rfl
  rw [hdocument]
  constructor
  . rw [List.map_map]
    rfl
  . intro y hy
    rcases List.mem_map.mp hy with ⟨s, hs, rfl⟩
    exact member_of_owner (Setting.owner_eq_some_iff.mpr hs) (hcomplete.settings s hs nofun)
  . intro y hy
    rcases List.mem_map.mp hy with ⟨s, hs, rfl⟩
    exact .value _

theorem gathers_sectionReached (hcomplete : a.IsComplete none) (views : Nat) (x : Section) :
    Gathers a (sectionReached views a x) ((seen ⟨none, views⟩ a).sectionEntry x).2 := by
  unfold sectionReached Aggregate.sectionEntry
  cases hplace : (seen ⟨none, views⟩ a).inPlace x with
  | some v => exact .value v
  | none =>
    have hthere : a.IsComplete (some x) := by
      refine ⟨nofun, ?_⟩
      intro s hs _
      apply hcomplete.settings s s.mem_all
      intro _
      rw [Setting.owner_eq_some_iff.mpr hs]
      exact inPlace_seen_eq_none_iff.mp hplace
    -- A section behind views is behind one of them, which shows the same.
    have hsection := gathers_sectionDocument hthere (if views != 0 then 1 else 0)
    rw [seen_section] at hsection
    exact hsection

theorem gathers_partDocument (hcomplete : a.IsComplete r.part) :
    Gathers a (.object r) ((r.seen a).partDocument r.part) := by
  rcases r with ⟨part, views⟩
  cases part with
  | some x => exact gathers_sectionDocument hcomplete views
  | none =>
    have hsections : (Section.all.map (ofSection views a)).map Attribute.entry =
        Section.all.map (seen ⟨none, views⟩ a).sectionEntry := by
      rw [List.map_map]
      exact List.map_congr_left fun x _ => entry_ofSection views a x
    have hdocument : (seen ⟨none, views⟩ a).document = .map
        ((Setting.general.map (ofSetting ⟨none, views⟩ a)
          ++ Section.all.map (ofSection views a)).map Attribute.entry) := by
      rw [List.map_append, hsections, List.map_map]
      rfl
    show Gathers a _ (seen ⟨none, views⟩ a).document
    rw [hdocument]
    constructor
    . rw [List.map_append, List.map_map, List.map_map]
      rfl
    . intro y hy
      rcases List.mem_append.mp hy with hy | hy
      . rcases List.mem_map.mp hy with ⟨s, hs, rfl⟩
        have howner : s.owner = none := Setting.owner_eq_none_iff.mpr hs
        apply member_of_owner howner
        apply hcomplete.settings s s.mem_all
        intro _
        rw [howner]
        rfl
      . rcases List.mem_map.mp hy with ⟨x, -, rfl⟩
        exact member_section views (hcomplete.sections rfl x)
    . intro y hy
      rcases List.mem_append.mp hy with hy | hy
      . rcases List.mem_map.mp hy with ⟨s, hs, rfl⟩
        exact .value _
      . rcases List.mem_map.mp hy with ⟨x, -, rfl⟩
        exact gathers_sectionReached hcomplete views x

theorem document_eq_ok_iff {v : Value} :
    r.document a = .ok v ↔ a.IsComplete r.part ∧ v = (r.seen a).partDocument r.part := by
  unfold document
  rw [Except.unit_bind_eq_ok_iff, Aggregate.needDocument_eq_ok_iff, Except.pure_eq_ok,
    Except.ok.injEq, eq_comm]

theorem gathers_document {v : Value} (h : r.document a = .ok v) : Gathers a (.object r) v := by
  rcases document_eq_ok_iff.mp h with ⟨hcomplete, rfl⟩
  exact gathers_partDocument hcomplete

theorem kind_of_document {e : Failure} (h : r.document a = .error e) :
    e.kind = "AttributeError" := by
  unfold document at h
  rcases Except.bind_eq_error_iff.mp h with h | ⟨u, -, h⟩
  . exact Aggregate.kind_of_needDocument h
  . cases h

end Reach

namespace Config

variable {c : Config}

theorem toTree_written_shown {type : SettingType} {v : Value} (h : type.admits v = true) :
    Yaml.toTree v.shown.written = Yaml.toTree v.written := by
  cases v with
  | list items =>
    cases type with
    | texts =>
      rcases exists_texts h with ⟨ts, rfl⟩
      rw [Value.written, writtenItems_texts]
      exact Yaml.toTree_tuple _
    | _ => cases h
  | _ => rfl

theorem entriesAlike_settingEntries (h : c.WellTyped) (settings : List Setting) :
    List.Forall₂ Yaml.EntriesAlike (c.shown.settingEntries settings)
      (c.settingEntries settings) := by
  unfold settingEntries
  rw [List.forall₂_map_left_iff, List.forall₂_map_right_iff, List.forall₂_same]
  intro s hs
  exact ⟨rfl, toTree_written_shown (h s)⟩

theorem toTree_sectionDocument_shown (h : c.WellTyped) (x : Section) :
    Yaml.toTree (c.shown.sectionDocument x) = Yaml.toTree (c.sectionDocument x) := by
  unfold sectionDocument
  rw [Yaml.toTree_map, Yaml.toTree_map, Yaml.toEntries_congr (entriesAlike_settingEntries h _)]

theorem toTree_document_shown (h : c.WellTyped) :
    Yaml.toTree c.shown.document = Yaml.toTree c.document := by
  have hsections : List.Forall₂ Yaml.EntriesAlike (Section.all.map c.shown.sectionEntry)
      (Section.all.map c.sectionEntry) := by
    rw [List.forall₂_map_left_iff, List.forall₂_map_right_iff, List.forall₂_same]
    intro x hx
    exact ⟨rfl, toTree_sectionDocument_shown h x⟩
  unfold document
  rw [Yaml.toTree_map, Yaml.toTree_map,
    Yaml.toEntries_congr (List.rel_append (entriesAlike_settingEntries h _) hsections)]

theorem toTree_partDocument_shown (h : c.WellTyped) (p : Part) :
    Yaml.toTree ((c : Aggregate).shown.partDocument p) =
      Yaml.toTree ((c : Aggregate).partDocument p) := by
  cases p with
  | none => exact toTree_document_shown h
  | some x => exact toTree_sectionDocument_shown h x

end Config

theorem Aggregate.WellTyped.exists_document {a : Aggregate} (h : a.WellTyped) (r : Reach) :
    ∃ v, r.document a = .ok v ∧ Yaml.write v = Yaml.write (a.partDocument r.part) := by
  refine ⟨_, Reach.document_eq_ok_iff.mpr ⟨h.isComplete r.part, rfl⟩, ?_⟩
  rw [h.toIsWhole.eq_coe]
  unfold Reach.seen
  split
  . rw [Yaml.write, Yaml.write, Config.toTree_partDocument_shown h.settings]
  . rfl

theorem ConfigFile.saveDocument_congr {v w : Value} (h : Yaml.write v = Yaml.write w)
    (fs : FileSystem) (p : Path) : saveDocument fs v p = saveDocument fs w p := by
  unfold saveDocument render
  rw [h]

end NodeSettings
