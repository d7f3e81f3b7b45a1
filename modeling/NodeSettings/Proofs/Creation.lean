import NodeSettings.Proofs.Directories
import NodeSettings.Proofs.RoundTrip

/-!
This module contains what becomes of the files when the defaults are written to a path: the defaults
are there, with the directories that lead to them, and no other file has changed.
-/

namespace NodeSettings

theorem Config.hasShortDurations_default : Config.default.HasShortDurations := by
  intro s d hd
  cases s <;> cases hd <;> decide

namespace ConfigFile

open FileSystem (GainsDirectories LeadsDown OpensWay)

variable {fs files : FileSystem} {p q : Path} {place : Location} {force : Bool}

theorem isThere_eq_true (hlocate : fs.locate p = .ok place) (hthere : fs.entry place ≠ none) :
    isThere fs p = .ok true := by
  rw [isThere, FileSystem.exists?, hlocate]
  dsimp only
  rw [Option.isSome_iff_ne_none.mpr hthere]
  rfl

theorem create_of_there (hlocate : fs.locate p = .ok place) (hthere : fs.entry place ≠ none) :
    create fs p false = ⟨.error (.alreadyThere p), [], fs⟩ := by
  rw [create, isThere_eq_true hlocate hthere]
  rfl

/-- The defaults are saved once the directories are made; otherwise there is an error. -/
theorem create_cases (fs : FileSystem) (p : Path) (force : Bool) :
    (∃ e files, create fs p force = ⟨.error e, [], files⟩ ∧ fs.GainsDirectories files)
      ∨ ∃ between, create fs p force = save between .default p ∧ fs.GainsDirectories between := by
  have hmade := FileSystem.gainsDirectories_makeDirectories fs p.parent
  unfold create
  cases isThere fs p with
  | error e => exact .inl ⟨e, fs, rfl, .refl fs⟩
  | ok there =>
    dsimp only
    split
    . exact .inl ⟨_, fs, rfl, .refl fs⟩
    . split
      . next hmake =>
        rw [hmake] at hmade
        exact .inl ⟨_, _, rfl, hmade⟩
      . next hmake =>
        rw [hmake] at hmade
        exact .inr ⟨_, rfl, hmade⟩

theorem create_eq_ok (h : (create fs p force).result = .ok q) :
    ∃ between, create fs p force = save between .default p ∧ fs.GainsDirectories between := by
  rcases create_cases fs p force with ⟨e, files, hcreate, -⟩ | hsave
  . rw [hcreate] at h
    cases h
  . exact hsave

theorem exists_put_of_save {c : Config} (hsave : (save fs c p).result = .ok q) :
    ∃ place content, fs.locate p = .ok place ∧ fs.entry place ≠ some .directory
      ∧ (save fs c p).files = fs.put place (.file content) := by
  have houtcome := saveDocument_outcome fs c.document p
  unfold save at hsave ⊢
  generalize saveDocument fs c.document p = w at houtcome hsave ⊢
  cases houtcome with
  | written rendered hwrite =>
    rcases FileSystem.write_eq_ok_iff.mp hwrite with ⟨place, hlocate, hplace, hfiles⟩
    exact ⟨place, _, hlocate, hplace, hfiles⟩
  | _ => cases hsave

theorem files_of_save_eq_error {c : Config} {e : Failure}
    (hsave : (save fs c p).result = .error e) : (save fs c p).files = fs :=
  ((saveDocument_outcome fs c.document p).of_error hsave).2

theorem workingDirectory_create (fs : FileSystem) (p : Path) (force : Bool) :
    (create fs p force).files.workingDirectory = fs.workingDirectory := by
  rcases create_cases fs p force with ⟨e, files, hcreate, hgains⟩ | ⟨between, hcreate, hgains⟩
  . rw [hcreate]
    exact hgains.workingDirectory
  . rw [hcreate, ← hgains.workingDirectory]
    rcases Except.ok_or_error (save between .default p).result with ⟨q, hq⟩ | ⟨e, he⟩
    . rcases exists_put_of_save hq with ⟨place, content, -, -, hfiles⟩
      rw [hfiles]
      rfl
    . rw [files_of_save_eq_error he]

theorem load_save_default (hsave : (save fs .default p).result = .ok q) :
    (load (save fs .default p).files p).1 = .ok .default := by
  rcases load_save Config.wellTyped_default Config.hasShortDurations_default hsave with
    ⟨-, hload⟩ | ⟨v, hv, -⟩
  . exact hload
  . rw [Config.validate_default] at hv
    cases hv

/-- A path leads down to a place where a file can be written, and no file is in the way. -/
structure IsOpen (fs : FileSystem) (p : Path) (force : Bool) : Prop where
  path : FileSystem.checkPath p.text = .ok ()
  named : p.names ≠ []
  down : ∀ name ∈ p.fileNames, LeadsDown name
  base : fs.entry (fs.base p.root) = some .directory
  way : ∀ name outer, name :: outer <:+ p.fileNames.reverse →
    ∀ content, fs.entry (outer ++ fs.base p.root) ≠ some (.file content)
  place : fs.entry (p.fileNames.reverse ++ fs.base p.root) = none
    ∨ force = true
      ∧ ∃ content, fs.entry (p.fileNames.reverse ++ fs.base p.root) = some (.file content)

theorem IsOpen.isThere (h : IsOpen fs p force) :
    ∃ there, isThere fs p = .ok there ∧ (there && !force) = false := by
  have hdown : ∀ name ∈ p.fileNames.reverse, LeadsDown name :=
    fun name hname => h.down name (List.mem_reverse.mp hname)
  have hlocate : fs.locate p = fs.walk (fs.base p.root) p.fileNames :=
    FileSystem.locate_eq_walk h.path
  rw [ConfigFile.isThere, FileSystem.exists?, hlocate]
  by_cases hway : ∀ name outer, name :: outer <:+ p.fileNames.reverse →
      fs.entry (outer ++ fs.base p.root) = some .directory
  . have hwalk := FileSystem.walk_reverse_of_directories hdown hway
    rw [List.reverse_reverse] at hwalk
    rw [hwalk]
    refine ⟨_, rfl, ?_⟩
    rcases h.place with hnone | ⟨rfl, -⟩
    . rw [hnone]
      rfl
    . exact Bool.and_false _
  . have hwalk := FileSystem.walk_reverse_of_missing hdown h.way hway
    rw [List.reverse_reverse] at hwalk
    rw [hwalk]
    exact ⟨false, rfl, rfl⟩

theorem IsOpen.exists_way (h : IsOpen fs p force) :
    ∃ between, fs.makeDirectories p.parent = (.ok (), between)
      ∧ between.locate p = .ok (p.fileNames.reverse ++ fs.base p.root)
      ∧ between.entry (p.fileNames.reverse ++ fs.base p.root) ≠ some .directory := by
  rcases p with ⟨root, names⟩
  rcases h with ⟨hpath, hnamed, hdown, hbase, hway, hplace⟩
  dsimp only at *
  rcases List.exists_cons_of_ne_nil (List.reverse_ne_nil_iff.mpr hnamed) with ⟨name, outer, hnames⟩
  rw [List.reverse_eq_iff] at hnames
  subst hnames
  rw [Path.fileNames_reverse, List.reverse_reverse] at hway hplace ⊢
  have hdown : ∀ other ∈ (name :: outer).map Text.octets, LeadsDown other := by
    intro other hother
    apply hdown
    rw [Path.fileNames_reverse]
    exact List.mem_reverse.mpr hother
  have hparent : (⟨root, (name :: outer).reverse⟩ : Path).parent = ⟨root, outer.reverse⟩ := by
    rw [Path.parent, List.reverse_cons, List.dropLast_concat]
  rcases FileSystem.makeDirectoriesTo_of_free (Path.checkPath_outer hpath)
    (List.forall_mem_cons.mp hdown).2 hbase (FileSystem.forall_cons_suffix_iff.mp hway)
    with ⟨between, hmake, hopens⟩
  refine ⟨between, ?_, ?_, ?_⟩
  . rw [hparent, FileSystem.makeDirectories, List.reverse_reverse, hmake]
  . rw [← hopens.base_eq root]
    apply FileSystem.locate_reverse_of_directories hpath hdown
    rw [hopens.base_eq root]
    exact FileSystem.forall_cons_suffix_iff.mpr hopens.directories
  . rw [List.map_cons, hopens.entry_cons]
    rcases hplace with hnone | ⟨-, content, hcontent⟩
    . rw [List.map_cons] at hnone
      rw [hnone]
      nofun
    . rw [List.map_cons] at hcontent
      rw [hcontent]
      nofun

theorem create_of_isOpen (h : IsOpen fs p force) : (create fs p force).result = .ok p := by
  rcases h.isThere with ⟨there, hthere, hforce⟩
  rcases h.exists_way with ⟨between, hmake, hlocate, hplace⟩
  have hcomplete := (Aggregate.isWhole_coe .default).isComplete none
  have hsaves : Saves between Config.default.document p (save between .default p).result _ :=
    saves_saveDocument (Config.hasShortIntegers_default.document hcomplete)
  have hstorable : ∀ v, Config.default.document.Contains v → v.isStorable = true :=
    fun v => Config.wellTyped_default.isStorable
  rcases hsaves.exists_text hstorable hlocate hplace with ⟨text, hresult, -⟩
  rw [create, hthere]
  dsimp only
  rw [hforce, if_neg Bool.false_ne_true, hmake]
  exact hresult

/-- What comes of writing the defaults to a path, as a result and as the files after it. -/
structure Creates (fs : FileSystem) (p : Path) (force : Bool) (result : Except Failure Path)
    (files : FileSystem) : Prop where
  refused : force = false → ∀ place, fs.locate p = .ok place → fs.entry place ≠ none →
      ∃ e, result = .error e ∧ e.kind = "FileExistsError" ∧ files = fs
  loads : ∀ q, result = .ok q → (load files p).1 = .ok .default
  parents : ∀ q, result = .ok q → ∀ k < p.names.length, files.isDirectory (p.first k) = true
  /-- There is a file at the path, there may be more directories, and all else is as it was. -/
  others : ∀ q, result = .ok q → ∃ place content, files.locate p = .ok place
    ∧ files.entry place = some (.file content)
    ∧ ∀ other, other ≠ place → ∀ e, (fs.entry other = some e → files.entry other = some e)
      ∧ (fs.entry other = none → files.entry other = some e → e = .directory)
  /-- After an error there may be more directories, but all that was there is as it was. -/
  kept : ∀ e, result = .error e → fs.GainsDirectories files
  start : files.workingDirectory = fs.workingDirectory
  reached : IsOpen fs p force → result = .ok p

/--
Writing the defaults to a path replaces nothing without force, and no other file in any case. When
it is done, the defaults are loaded from the path, and there is a directory wherever one has to
be.
-/
theorem create_creates (fs : FileSystem) (p : Path) (force : Bool) :
    Creates fs p force (create fs p force).result (create fs p force).files := by
  constructor
  . rintro rfl place hlocate hthere
    rw [create_of_there hlocate hthere]
    exact ⟨_, rfl, rfl, rfl⟩
  . intro q hq
    rcases create_eq_ok hq with ⟨between, hcreate, -⟩
    rw [hcreate] at hq ⊢
    exact load_save_default hq
  . intro q hq k hk
    rcases create_eq_ok hq with ⟨between, hcreate, -⟩
    rw [hcreate] at hq ⊢
    rcases exists_put_of_save hq with ⟨place, content, hlocate, hplace, hfiles⟩
    rw [hfiles]
    exact FileSystem.isDirectory_first (FileSystem.locate_put hplace hlocate) hk
  . intro q hq
    rcases create_eq_ok hq with ⟨between, hcreate, hgains⟩
    rw [hcreate] at hq ⊢
    rcases exists_put_of_save hq with ⟨place, content, hlocate, hplace, hfiles⟩
    rw [hfiles]
    refine ⟨place, content, FileSystem.locate_put hplace hlocate,
      FileSystem.entry_put_self _ _ _, ?_⟩
    intro other hother e
    rw [FileSystem.entry_put_of_ne _ _ hother]
    exact ⟨hgains.kept other e, hgains.gained other e⟩
  . intro e he
    rcases create_cases fs p force with ⟨e, files, hcreate, hgains⟩ | ⟨between, hcreate, hgains⟩
    . rw [hcreate]
      exact hgains
    . rw [hcreate] at he ⊢
      rw [files_of_save_eq_error he]
      exact hgains
  . exact workingDirectory_create fs p force
  . exact create_of_isOpen

def notes : FileSystem :=
  FileSystem.empty.put (Text.octets "notes" :: FileSystem.work) (.file "kept".toUTF8)

def nested : Path :=
  ⟨.here, ["conf", "node", "config.yml"]⟩

theorem isOpen_nested : IsOpen notes nested false := by
  constructor
  . rfl
  . intro hempty
    cases hempty
  . intro name hname
    simp only [nested, Path.fileNames, List.map_cons, List.map_nil, List.mem_cons,
      List.not_mem_nil, or_false] at hname
    rcases hname with rfl | rfl | rfl
    . exact ⟨by decide, by decide, by decide⟩
    . exact ⟨by decide, by decide, by decide⟩
    . exact ⟨by decide, by decide, by decide⟩
  . rfl
  . intro name outer hsuffix content
    have hnames : nested.fileNames.reverse =
        [Text.octets "config.yml", Text.octets "node", Text.octets "conf"] := rfl
    rw [hnames, List.suffix_cons_iff, List.suffix_cons_iff, List.suffix_cons_iff,
      List.suffix_nil] at hsuffix
    intro hentry
    rcases hsuffix with h | h | h | h
    . cases h
      cases hentry
    . cases h
      cases hentry
    . cases h
      cases hentry
    . cases h
  . exact .inl rfl

theorem place_nested (hstart : files.workingDirectory = FileSystem.work)
    (h : files.locate nested = .ok place) :
    place = nested.fileNames.reverse ++ FileSystem.work := by
  have hwalk := (FileSystem.locate_eq_ok_iff.mp h).2
  simp only [nested, Path.fileNames, List.map_cons, List.map_nil, FileSystem.walk_cons_eq_ok_iff,
    FileSystem.base, hstart] at hwalk
  rcases hwalk with ⟨-, -, -, -, -, -, hwalk⟩
  exact (Except.ok.inj hwalk).symm

/-- The defaults are written once; the second time they are there already. -/
theorem create_creates_nested :
    (create notes nested false).result = .ok nested
      ∧ (load (create notes nested false).files nested).1 = .ok .default
      ∧ (create notes nested false).files.entry (Text.octets "notes" :: FileSystem.work) =
        some (.file "kept".toUTF8)
      ∧ ∃ e, (create (create notes nested false).files nested false).result = .error e
        ∧ e.kind = "FileExistsError" := by
  have h := create_creates notes nested false
  have hresult := h.reached isOpen_nested
  rcases h.others _ hresult with ⟨place, content, hplace, hcontent, hothers⟩
  have hne : Text.octets "notes" :: FileSystem.work ≠ place := by
    rw [place_nested h.start hplace]
    decide
  have hagain := create_creates (create notes nested false).files nested false
  rcases hagain.refused rfl place hplace (by rw [hcontent]; nofun) with ⟨e, he, hkind, -⟩
  exact ⟨hresult, h.loads _ hresult, (hothers _ hne _).1 rfl, e, he, hkind⟩

end ConfigFile
end NodeSettings
