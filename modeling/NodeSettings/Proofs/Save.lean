import NodeSettings.Config.File
import NodeSettings.Proofs.Aggregate
import NodeSettings.Proofs.Document
import NodeSettings.Proofs.FileSystem
import NodeSettings.Proofs.Yaml.Representation

/-!
This module contains what saving comes to: the whole document is in the file, or no file has
changed.
-/

namespace NodeSettings

namespace Value

variable {v : Value} {entries : List (Value × Value)}

theorem contains_map_iff :
    (Value.map entries).Contains v ↔
      v = .map entries ∨ ∃ entry ∈ entries, entry.1.Contains v ∨ entry.2.Contains v := by
  rw [contains_iff]
  apply or_congr_right
  constructor
  . rintro ⟨x, hx, h⟩
    rcases mem_parts_map_iff.mp hx with ⟨entry, hentry, rfl | rfl⟩
    . exact ⟨entry, hentry, .inl h⟩
    . exact ⟨entry, hentry, .inr h⟩
  . rintro ⟨entry, hentry, h | h⟩
    . exact ⟨_, mem_parts_map_iff.mpr ⟨entry, hentry, .inl rfl⟩, h⟩
    . exact ⟨_, mem_parts_map_iff.mpr ⟨entry, hentry, .inr rfl⟩, h⟩

end Value

namespace Aggregate

variable {a : Aggregate} {v w : Value}

/-- What is to be found in a configuration: what settings hold, and what is in place of sections. -/
inductive Holds (a : Aggregate) : Value → Prop where
  | setting (s : Setting) (h : a.Has none s) : Holds a (a.get s)
  | inPlace {x : Section} {v : Value} (there : a.lacks (.sect x) = false)
    (h : a.inPlace x = some v) : Holds a v

/-- What is in the document of a configuration: mappings, names, and what it holds. -/
inductive Writes (a : Aggregate) : Value → Prop where
  | mapping (entries : List (Value × Value)) : Writes a (.map entries)
  | name (t : Text) : Writes a (.text t)
  | held {v w : Value} (hw : a.Holds w) (h : w.written.Contains v) : Writes a v

theorem writes_of_contains_entries {entries : List (Value × Value)}
    (hentries : ∀ entry ∈ entries,
      (∃ t, entry.1 = .text t) ∧ (entry.2.Contains v → a.Writes v))
    (h : (Value.map entries).Contains v) : a.Writes v := by
  rcases Value.contains_map_iff.mp h with rfl | ⟨entry, hentry, h | h⟩
  . exact .mapping entries
  . rcases (hentries entry hentry).1 with ⟨t, ht⟩
    rw [ht, Value.contains_text_iff] at h
    rw [h]
    exact .name t
  . exact (hentries entry hentry).2 h

theorem writes_of_mem_settingEntries {settings : List Setting} {entry : Value × Value}
    (hthere : ∀ s ∈ settings, a.Has none s)
    (hentry : entry ∈ a.settingEntries settings) :
    (∃ t, entry.1 = .text t) ∧ (entry.2.Contains v → a.Writes v) := by
  rcases List.mem_map.mp hentry with ⟨s, hs, rfl⟩
  exact ⟨⟨_, rfl⟩, .held (.setting s (hthere s hs))⟩

theorem writes_of_contains_sectionEntry (hcomplete : a.IsComplete none) (x : Section) :
    (∃ t, (a.sectionEntry x).1 = .text t) ∧ ((a.sectionEntry x).2.Contains v → a.Writes v) := by
  unfold sectionEntry
  split
  . next w hw => exact ⟨⟨_, rfl⟩, .held (.inPlace (hcomplete.sections rfl x) hw)⟩
  . next hx =>
    refine ⟨⟨_, rfl⟩, writes_of_contains_entries fun entry => writes_of_mem_settingEntries ?_⟩
    intro s hs
    apply hcomplete.has
    rw [Setting.owner_eq_some_iff.mpr hs]
    exact hx

theorem writes_of_contains_document (hcomplete : a.IsComplete none)
    (h : a.document.Contains v) : a.Writes v := by
  apply writes_of_contains_entries _ h
  intro entry hentry
  rcases List.mem_append.mp hentry with hsetting | hsection
  . apply writes_of_mem_settingEntries _ hsetting
    intro s hs
    apply hcomplete.has
    rw [Setting.owner_eq_none_iff.mpr hs]
    rfl
  . rcases List.mem_map.mp hsection with ⟨x, -, rfl⟩
    exact writes_of_contains_sectionEntry hcomplete x

theorem contains_document_of_sectionEntry {x : Section}
    (h : (a.sectionEntry x).2.Contains v) : a.document.Contains v := by
  have hentry := List.mem_append_right (a.settingEntries Setting.general)
    (List.mem_map_of_mem (f := a.sectionEntry) x.mem_all)
  exact Value.contains_map_iff.mpr (.inr ⟨_, hentry, .inr h⟩)

theorem contains_document (hw : a.Holds w) (h : w.written.Contains v) : a.document.Contains v := by
  cases hw with
  | inPlace there hx =>
    apply contains_document_of_sectionEntry
    rw [sectionEntry, hx]
    exact h
  | setting s hhas =>
    have hentry {settings : List Setting} (hs : s ∈ settings) :
        (Value.text s.name, (a.get s).written) ∈ a.settingEntries settings :=
      List.mem_map_of_mem (f := fun s => (Value.text s.name, (a.get s).written)) hs
    cases howner : s.owner with
    | none =>
      have hs := List.mem_append_left (Section.all.map a.sectionEntry)
        (hentry (Setting.owner_eq_none_iff.mp howner))
      exact Value.contains_map_iff.mpr (.inr ⟨_, hs, .inr h⟩)
    | some x =>
      apply contains_document_of_sectionEntry
      rw [sectionEntry, (hhas.owner rfl x howner).2]
      exact Value.contains_map_iff.mpr
        (.inr ⟨_, hentry (Setting.owner_eq_some_iff.mp howner), .inr h⟩)

/-- No integer in a configuration, at any depth, has more digits than are written. -/
def HasShortIntegers (a : Aggregate) : Prop :=
  ∀ v, a.Holds v → v.HasShortIntegers

theorem HasShortIntegers.document (h : a.HasShortIntegers) (hcomplete : a.IsComplete none) :
    a.document.HasShortIntegers := by
  intro n hn
  cases writes_of_contains_document hcomplete hn with
  | held hw hv => exact h _ hw n (Value.contains_integer_of_written hv)

theorem Has.of_assign_setting {s u : Setting} (h : (a.assign w (.setting u)).Has none s)
    (hne : s ≠ u) : a.Has none s := by
  constructor
  . intro _ x hx
    rcases h.owner rfl x hx with ⟨hlacks, hplace⟩
    rw [lacks_assign_of_ne a w (by simp)] at hlacks
    exact ⟨hlacks, hplace⟩
  . have hfield := h.field
    rwa [lacks_assign_of_ne a w (by simp [hne])] at hfield

theorem Has.of_assign_section {s : Setting} {y : Section} (h : (a.assign w (.sect y)).Has none s) :
    a.Has none s := by
  constructor
  . intro _ x hx
    rcases h.owner rfl x hx with ⟨hlacks, hplace⟩
    have hne : x ≠ y := by
      rintro rfl
      simp [assign] at hplace
    rw [lacks_assign_of_ne a w (by simp [hne])] at hlacks
    exact ⟨hlacks, by simpa [assign, hne] using hplace⟩
  . have hfield := h.field
    rwa [lacks_assign_of_ne a w (by simp)] at hfield

theorem Holds.of_assign {f : Field} (h : (a.assign w f).Holds v) : v = w ∨ a.Holds v := by
  cases f with
  | setting t =>
    cases h with
    | inPlace there hx =>
      rw [lacks_assign_of_ne a w (by simp)] at there
      exact .inr (.inPlace there hx)
    | setting s hs =>
      by_cases ht : s = t
      . subst ht
        exact .inl (get_set_self a s w)
      . right
        show a.Holds ((a.set t w).get s)
        rw [get_set_of_ne a w ht]
        exact .setting s (hs.of_assign_setting ht)
  | sect y =>
    cases h with
    | @inPlace x v there hx =>
      by_cases hy : x = y
      . left
        simpa [assign, hy, eq_comm] using hx
      . right
        rw [lacks_assign_of_ne a w (by simp [hy])] at there
        exact .inPlace there (by simpa [assign, hy] using hx)
    | setting s hs => exact .inr (.setting s hs.of_assign_section)

theorem HasShortIntegers.assign (h : a.HasShortIntegers) (hw : w.HasShortIntegers) (f : Field) :
    (a.assign w f).HasShortIntegers := by
  intro v hv
  rcases hv.of_assign with rfl | hv
  . exact hw
  . exact h v hv

end Aggregate

namespace Config

variable {c : Config} {v : Value}

theorem exists_of_holds (h : (c : Aggregate).Holds v) : ∃ s, v = c.get s := by
  cases h with
  | setting s => exact ⟨s, rfl⟩
  | inPlace there h => cases h

theorem contains_of_admits {type : SettingType} {w : Value} (h : type.admits w = true)
    (hv : w.Contains v) : v = w ∨ ∃ t, v = .text t := by
  rw [Value.contains_iff] at hv
  rcases hv with hv | ⟨x, hx, hv⟩
  . exact .inl hv
  . right
    cases w with
    | list items =>
      cases type with
      | texts =>
        rcases exists_texts h with ⟨ts, rfl⟩
        rcases List.mem_map.mp hx with ⟨t, -, rfl⟩
        exact ⟨t, Value.contains_text_iff.mp hv⟩
      | _ => cases h
    | tuple items | set items | map entries => cases type <;> cases h
    | _ => cases hx

theorem WellTyped.hasShortIntegers (h : c.WellTyped)
    (hshort : ∀ s n, c.get s = .integer n → n.natAbs < Nat.pow 10 maxDigits) :
    (c : Aggregate).HasShortIntegers := by
  intro v hv n hn
  rcases exists_of_holds hv with ⟨s, rfl⟩
  rcases contains_of_admits (h s) hn with hn | ⟨t, hn⟩
  . exact hshort s n hn.symm
  . cases hn

theorem hasShortIntegers_default : (default : Aggregate).HasShortIntegers := by
  apply wellTyped_default.hasShortIntegers
  intro s n hn
  cases s <;> cases hn <;> decide +kernel

theorem written_of_admits {type : SettingType} {w : Value} (h : type.admits w = true) :
    (w.written = w ∧ w.isStorable = true) ∨ ∃ t, w.written = .text t := by
  cases w with
  | duration d => exact .inr ⟨_, rfl⟩
  | list items =>
    cases type with
    | texts =>
      rcases exists_texts h with ⟨ts, rfl⟩
      rw [Value.written, writtenItems_texts]
      exact .inl ⟨rfl, rfl⟩
    | _ => cases h
  | text t | integer n | boolean b => exact .inl ⟨rfl, rfl⟩
  | _ => cases type <;> cases h

theorem WellTyped.isStorable (h : c.WellTyped) (hv : c.document.Contains v) :
    v.isStorable = true := by
  cases Aggregate.writes_of_contains_document ((Aggregate.isWhole_coe c).isComplete none) hv with
  | mapping entries => rfl
  | name t => rfl
  | held hw hs =>
    rcases exists_of_holds hw with ⟨s, rfl⟩
    rcases written_of_admits (h s) with ⟨hwritten, hstorable⟩ | ⟨t, hwritten⟩
    . rw [hwritten] at hs
      rcases contains_of_admits (h s) hs with rfl | ⟨t, rfl⟩
      . exact hstorable
      . rfl
    . rw [hwritten, Value.contains_text_iff] at hs
      rw [hs]
      rfl

end Config

namespace ConfigFile

variable {fs fs' : FileSystem} {document : Value} {p : Path} {result : Except Failure Path}

inductive SaveOutcome (fs : FileSystem) (document : Value) (p : Path) : Written → Prop where
  | unrepresentable (h : Yaml.write document = .error .unrepresentable) :
    SaveOutcome fs document p ⟨.error (.unserializable p), [], fs⟩
  | tooManyDigits (h : Yaml.write document = .error .tooManyDigits) :
    SaveOutcome fs document p ⟨.error (.unshowable .tooManyDigits), [], fs⟩
  | refused {text : String} {fault : PathFault} (rendered : Yaml.write document = .ok text)
    (h : p.fault? = some fault) :
    SaveOutcome fs document p ⟨.error (.file p.text (.refused fault)), [], fs⟩
  | unwritable {text : String} {fault : FileFault} (possible : p.fault? = none)
    (h : fs.write p text.toUTF8 = .error fault) :
    SaveOutcome fs document p ⟨.error (.unwritable p fault), [], fs⟩
  | written {text : String} {fs' : FileSystem} (rendered : Yaml.write document = .ok text)
    (h : fs.write p text.toUTF8 = .ok fs') :
    SaveOutcome fs document p ⟨.ok p, [savedRecord p], fs'⟩

theorem saveDocument_outcome (fs : FileSystem) (document : Value) (p : Path) :
    SaveOutcome fs document p (saveDocument fs document p) := by
  unfold saveDocument render
  cases hwrite : Yaml.write document with
  | error e =>
    cases e with
    | unrepresentable => exact .unrepresentable hwrite
    | tooManyDigits => exact .tooManyDigits hwrite
  | ok text =>
    dsimp only [Except.pure_eq_ok]
    cases hfile : fs.write p text.toUTF8 with
    | ok fs' => exact .written hwrite hfile
    | error fault =>
      cases fault with
      | refused fault => exact .refused hwrite (FileSystem.write_eq_refused_iff.mp hfile)
      | _ =>
        have hpossible : p.fault? = none := by
          rw [Option.eq_none_iff_forall_ne_some]
          intro fault hfault
          rw [FileSystem.write_eq_refused_iff.mpr hfault] at hfile
          cases hfile
        exact .unwritable hpossible hfile

theorem SaveOutcome.of_error {w : Written} {e : Failure} (h : SaveOutcome fs document p w)
    (he : w.result = .error e) : w.records = [] ∧ w.files = fs := by
  cases h with
  | written => cases he
  | _ => exact ⟨rfl, rfl⟩

/--
What it comes to that a document is saved to a path, as a result and as the files after it. Nothing
has changed unless the file at the path has all of the document. A path that no file can have makes
it fail in a way of its own, but only when all of the document has a form.
-/
inductive Saves (fs : FileSystem) (document : Value) (p : Path) :
    Except Failure Path → FileSystem → Prop where
  | whole {text : String} {place : Location} {fs' : FileSystem}
    (storable : ∀ v, document.Contains v → v.isStorable = true)
    (rendered : Yaml.write document = .ok text) (located : fs.locate p = .ok place)
    (free : fs.entry place ≠ some .directory)
    (content : fs'.entry place = some (.file text.toUTF8))
    (others : ∀ other, other ≠ place → fs'.entry other = fs.entry other)
    (start : fs'.workingDirectory = fs.workingDirectory) (found : fs'.read p = .ok text.toUTF8) :
    Saves fs document p (.ok p) fs'
  | refused {e : Failure} (kind : e.kind = "ConfigIOError") (path : e.configPath? = some p)
    (reason : (∃ v, document.Contains v ∧ v.isStorable = false)
      ∨ p.fault? = none ∧ ∀ place, fs.locate p = .ok place → fs.entry place = some .directory) :
    Saves fs document p (.error e) fs
  | impossible {fault : PathFault} (h : p.fault? = some fault)
    (storable : ∀ v, document.Contains v → v.isStorable = true) :
    Saves fs document p (.error (.file p.text (.refused fault))) fs

theorem Saves.exists_error {v : Value} (h : Saves fs document p result fs')
    (hv : document.Contains v) (hunstorable : v.isStorable = false) :
    ∃ e, result = .error e ∧ e.kind = "ConfigIOError" ∧ e.configPath? = some p := by
  cases h with
  | whole storable =>
    rw [storable v hv] at hunstorable
    cases hunstorable
  | refused kind path => exact ⟨_, rfl, kind, path⟩
  | impossible h storable =>
    rw [storable v hv] at hunstorable
    cases hunstorable

theorem Saves.exists_text {place : Location} (h : Saves fs document p result fs')
    (hstorable : ∀ v, document.Contains v → v.isStorable = true)
    (hlocate : fs.locate p = .ok place) (hfree : fs.entry place ≠ some .directory) :
    ∃ text, result = .ok p ∧ Yaml.write document = .ok text
      ∧ fs'.entry place = some (.file text.toUTF8) := by
  cases h with
  | whole storable rendered located free content =>
    rw [located] at hlocate
    cases hlocate
    exact ⟨_, rfl, rendered, content⟩
  | refused kind path reason =>
    rcases reason with ⟨v, hv, hnot⟩ | hdirectory
    . rw [hstorable v hv] at hnot
      cases hnot
    . exact absurd (hdirectory.2 place hlocate) hfree
  | impossible h storable =>
    rw [FileSystem.locate_eq_refused_iff.mpr h] at hlocate
    cases hlocate

/-- Just the path can make saving fail otherwise than by the failure that is for it. -/
theorem Saves.escapes_iff (h : Saves fs document p result fs') :
    (∃ e, result = .error e ∧ e.kind ≠ "ConfigIOError") ↔
      (∃ fault, p.fault? = some fault) ∧ ∀ v, document.Contains v → v.isStorable = true := by
  constructor
  . rintro ⟨e, rfl, hkind⟩
    cases h with
    | refused kind => exact absurd kind hkind
    | impossible h storable => exact ⟨⟨_, h⟩, storable⟩
  . rintro ⟨⟨fault, hfault⟩, hstorable⟩
    cases h with
    | whole storable rendered located =>
      rw [FileSystem.locate_eq_refused_iff.mpr hfault] at located
      cases located
    | refused kind path reason =>
      rcases reason with ⟨v, hv, hnot⟩ | ⟨hnone, -⟩
      . rw [hstorable v hv] at hnot
        cases hnot
      . rw [hnone] at hfault
        cases hfault
    | @impossible f h storable =>
      refine ⟨_, rfl, ?_⟩
      cases f <;> simp [Failure.kind, FileFault.kind, PathFault.kind]

theorem Saves.kind_of_escapes {e : Failure} (h : Saves fs document p (.error e) fs')
    (hkind : e.kind ≠ "ConfigIOError") (hnul : p.hasNul = false) :
    e.kind = "UnicodeEncodeError" := by
  cases h with
  | refused kind => exact absurd kind hkind
  | impossible hfault storable => exact Text.kind_of_pathFault? hnul hfault

theorem isStorable_of_write {text : String} (h : Yaml.write document = .ok text) :
    ∀ v, document.Contains v → v.isStorable = true := by
  intro v hv
  rw [← Bool.not_eq_false]
  intro hunstorable
  exact Yaml.write_ne_ok_of_contains hv hunstorable _ h

theorem saves_saveDocument (hdigits : document.HasShortIntegers) :
    Saves fs document p (saveDocument fs document p).result
      (saveDocument fs document p).files := by
  have houtcome := saveDocument_outcome fs document p
  generalize saveDocument fs document p = w at houtcome ⊢
  cases houtcome with
  | unrepresentable h =>
    rcases Yaml.exists_of_write_eq_error h with ⟨v, hv, hhinders⟩
    cases hhinders with
    | unrepresentable hnot => exact .refused rfl rfl (.inl ⟨v, hv, hnot⟩)
  | tooManyDigits h =>
    rcases Yaml.exists_of_write_eq_error h with ⟨v, hv, hhinders⟩
    cases hhinders with
    | tooManyDigits hlong => exact absurd (hdigits _ hv) (Nat.not_lt.mpr hlong)
  | refused rendered h => exact .impossible h (isStorable_of_write rendered)
  | unwritable possible h =>
    exact .refused rfl rfl (.inr ⟨possible, fun place => FileSystem.of_write_eq_error h⟩)
  | written rendered h =>
    have hstorable := isStorable_of_write rendered
    rcases FileSystem.write_eq_ok_iff.mp h with ⟨place, hlocate, hplace, rfl⟩
    refine .whole hstorable rendered hlocate hplace ?_ ?_ rfl (FileSystem.read_of_write h)
    . rw [FileSystem.entry_put_self]
    . intro other hother
      rw [FileSystem.entry_put_of_ne _ _ hother]

end ConfigFile
end NodeSettings
