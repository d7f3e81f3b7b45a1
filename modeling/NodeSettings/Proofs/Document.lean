import NodeSettings.Config.Document
import NodeSettings.Proofs.Yaml.Write

/-!
This module contains the writing of configurations: the document of a configuration that holds
values of the right types is read back from what is written for it.
-/

namespace NodeSettings

open Yaml

instance (w : List Char) : Decidable (IsKey w) :=
  decidable_of_iff
    (w.all isKeyChar = true ∧ w.length ≤ 100 ∧ Style.choose true .str w = .plain)
    ⟨fun h => ⟨List.all_eq_true.mp h.1, h.2.1, h.2.2⟩,
      fun h => ⟨List.all_eq_true.mpr h.letters, h.short, h.plain⟩⟩

theorem Setting.isKey_name (s : Setting) : IsKey s.name.toList := by
  have hall : ∀ s ∈ Setting.all, IsKey s.name.toList := by decide +kernel
  exact hall s (mem_all s)

theorem Section.isKey_name (x : Section) : IsKey x.name.toList := by
  cases x <;> decide +kernel

theorem Section.nodup_names (x : Section) :
    (x.settings.map fun s => s.name.toList).Nodup := by
  cases x <;> decide +kernel

theorem nodup_names : (Setting.general.map (fun s => s.name.toList)
    ++ Section.all.map fun x => x.name.toList).Nodup := by
  decide +kernel

namespace Config

variable {c : Config}

def written (c : Config) (settings : List Setting) : List (List Char × Value) :=
  settings.map fun s => (s.name.toList, (c.get s).written)

theorem settingEntries_eq (c : Config) (settings : List Setting) :
    c.settingEntries settings =
      (c.written settings).map fun m => (.text (.ofChars m.1), m.2) := by
  unfold settingEntries written
  rw [List.map_map]
  rfl

theorem writtenItems_texts (ts : List Text) :
    Value.writtenItems (ts.map .text) = ts.map .text := by
  induction ts with
  | nil => rfl
  | cons t ts ih =>
    rw [List.map_cons, Value.writtenItems, ih]
    rfl

theorem exists_texts {items : List Value} (h : SettingType.texts.admits (.list items) = true) :
    ∃ ts : List Text, items = ts.map .text := by
  induction items with
  | nil => exact ⟨[], rfl⟩
  | cons item items ih =>
    cases item with
    | text t =>
      have hitems : SettingType.texts.admits (.list items) = true := h
      rcases ih hitems with ⟨ts, rfl⟩
      exact ⟨t :: ts, rfl⟩
    | _ => cases h

theorem isWritable_written {t : SettingType} {v : Value} (h : t.admits v = true) (d : Nat) :
    IsWritable (d + 1) v.written := by
  cases t <;> cases v <;> try cases h
  . exact isWritable_text _ _
  . exact isWritable_integer _ _
  . exact isWritable_boolean _ _
  . exact isWritable_text _ _
  . next items =>
    rcases exists_texts h with ⟨ts, rfl⟩
    rw [Value.written, writtenItems_texts]
    exact isWritable_texts d ts

theorem isWritable_sectionDocument (h : c.WellTyped) (x : Section) :
    IsWritable 2 (c.sectionDocument x) := by
  unfold sectionDocument
  rw [settingEntries_eq]
  apply isWritable_record
  . cases x <;> simp [written, Section.settings]
  . rw [written, List.map_map]
    exact x.nodup_names
  . intro m hm
    rcases List.mem_map.mp hm with ⟨s, -, rfl⟩
    exact s.isKey_name
  . intro m hm
    rcases List.mem_map.mp hm with ⟨s, -, rfl⟩
    exact isWritable_written (h s) 0

theorem isWritable_document (h : c.WellTyped) : IsWritable 3 c.document := by
  have hentries : c.settingEntries Setting.general ++ Section.all.map c.sectionEntry =
      (c.written Setting.general
        ++ Section.all.map fun x => (x.name.toList, c.sectionDocument x)).map
          fun m => (.text (.ofChars m.1), m.2) := by
    rw [settingEntries_eq, List.map_append, List.map_map]
    rfl
  unfold document
  rw [hentries]
  apply isWritable_record
  . simp [written, Setting.general]
  . rw [List.map_append, written, List.map_map, List.map_map]
    exact nodup_names
  . intro m hm
    rcases List.mem_append.mp hm with hm | hm
    . rcases List.mem_map.mp hm with ⟨s, -, rfl⟩
      exact s.isKey_name
    . rcases List.mem_map.mp hm with ⟨x, -, rfl⟩
      exact x.isKey_name
  . intro m hm
    rcases List.mem_append.mp hm with hm | hm
    . rcases List.mem_map.mp hm with ⟨s, -, rfl⟩
      exact isWritable_written (h s) 1
    . rcases List.mem_map.mp hm with ⟨x, -, rfl⟩
      exact isWritable_sectionDocument h x

end Config
end NodeSettings
