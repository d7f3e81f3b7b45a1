import NodeSettings.FileSystem.Basic
import NodeSettings.Proofs.Except

/-!
This module contains what a file that has been written reads as, and that making directories and
appending to files only adds to what there is.
-/

namespace NodeSettings

def CodePoint.IsForPaths (p : CodePoint) : Prop :=
  p.octets?.isSome = true ∧ p ≠ .char '\x00'

namespace Text

variable {t : Text}

theorem unencodable?_eq_none_iff {front : Nat} {points : List CodePoint} :
    unencodable? front points = none ↔ ∀ p ∈ points, p.octets?.isSome = true := by
  induction points generalizing front with
  | nil => simp [unencodable?]
  | cons p points ih =>
    rw [unencodable?, List.forall_mem_cons]
    split
    . next h => simp [ih, h]
    . next h => simp [h]

theorem pathFault?_eq_none_iff : t.pathFault? = none ↔ ∀ p ∈ t.points, p.IsForPaths := by
  have hnul : t.hasNul = false ↔ ∀ p ∈ t.points, p ≠ .char '\x00' := by
    rw [hasNul, ← Bool.not_eq_true, List.contains_iff_mem]
    constructor
    . rintro h p hp rfl
      exact h hp
    . intro h hp
      exact h _ hp rfl
  unfold pathFault? CodePoint.IsForPaths
  rw [Option.or_eq_none_iff, unencodable?_eq_none_iff, forall₂_and, ← hnul]
  simp

theorem kind_of_pathFault? {fault : PathFault} (hnul : t.hasNul = false)
    (h : t.pathFault? = some fault) : fault.kind = "UnicodeEncodeError" := by
  have hkind {front : Nat} {points : List CodePoint}
      (h : unencodable? front points = some fault) : fault.kind = "UnicodeEncodeError" := by
    induction points generalizing front with
    | nil => cases h
    | cons p points ih =>
      rw [unencodable?] at h
      split at h
      . exact ih h
      . cases h
        rfl
  rw [pathFault?, hnul, if_neg Bool.false_ne_true, Option.or_none] at h
  exact hkind h

theorem octets_append (s t : Text) : (s ++ t).octets = s.octets ++ t.octets :=
  List.flatMap_append

end Text

namespace FileSystem

variable {fs fs' : FileSystem} {place : Location} {content : ByteArray}

def enter (place : Location) (name : FileName) : Location :=
  if name = here then place else if name = above then place.tail else name :: place

theorem walk_cons_eq_ok_iff {start target : Location} {name : FileName} {names : List FileName} :
    fs.walk start (name :: names) = .ok target ↔
      fs.entry start = some .directory ∧ name.length ≤ maxNameLength
        ∧ fs.walk (enter start name) names = .ok target := by
  rw [walk, enter]
  split
  . next h => simp [h]
  . next h => simp [h]
  . next h =>
    rw [h]
    split
    . next hlong => simp [Nat.not_le.mpr hlong]
    . next hlong =>
      have hshort : name.length ≤ maxNameLength := Nat.not_lt.mp hlong
      split
      . simp [hshort]
      . split
        . simp [hshort]
        . simp [hshort]

theorem walk_of_directories {start target : Location} {names : List FileName}
    (hdirectory : ∀ place, fs.entry place = some .directory → fs'.entry place = some .directory)
    (h : fs.walk start names = .ok target) : fs'.walk start names = .ok target := by
  induction names generalizing start with
  | nil => exact h
  | cons name names ih =>
    rw [walk_cons_eq_ok_iff] at h ⊢
    rcases h with ⟨hstart, hname, h⟩
    exact ⟨hdirectory start hstart, hname, ih h⟩

theorem checkPath_eq_ok_iff {t : Text} :
    checkPath t = .ok () ↔ t.pathFault? = none ∧ t.octets.length < maxPathLength := by
  unfold checkPath
  cases t.pathFault? with
  | some fault => simp
  | none => simp

theorem locate_eq_ok_iff {p : Path} :
    fs.locate p = .ok place ↔
      checkPath p.text = .ok () ∧ fs.walk (fs.base p.root) p.fileNames = .ok place := by
  rw [locate, Except.bind_eq_ok_iff]
  constructor
  . rintro ⟨⟨⟩, h⟩
    exact h
  . intro h
    exact ⟨(), h⟩

theorem locate_eq_walk {p : Path} (h : checkPath p.text = .ok ()) :
    fs.locate p = fs.walk (fs.base p.root) p.fileNames := by
  rw [locate, h, Except.ok_bind]

theorem walk_ne_refused (fault : PathFault) (start : Location) (names : List FileName) :
    fs.walk start names ≠ .error (.refused fault) := by
  induction names generalizing start with
  | nil => nofun
  | cons name names ih =>
    rw [walk]
    split
    . nofun
    . nofun
    . split
      . nofun
      . split
        . exact ih _
        . split
          . exact ih _
          . exact ih _

theorem locate_eq_refused_iff {p : Path} {fault : PathFault} :
    fs.locate p = .error (.refused fault) ↔ p.fault? = some fault := by
  unfold locate checkPath Path.fault?
  cases p.text.pathFault? with
  | some other => simp
  | none =>
    dsimp only
    split
    . simp
    . simp [walk_ne_refused]

theorem base_eq_of_workingDirectory (h : fs'.workingDirectory = fs.workingDirectory)
    (root : PathRoot) : fs'.base root = fs.base root := by
  cases root with
  | here => exact h
  | top | doubleTop => rfl

theorem locate_of_directories {p : Path} {target : Location}
    (hstart : fs'.workingDirectory = fs.workingDirectory)
    (hdirectory : ∀ place, fs.entry place = some .directory → fs'.entry place = some .directory)
    (h : fs.locate p = .ok target) : fs'.locate p = .ok target := by
  rw [locate_eq_ok_iff] at h ⊢
  rw [base_eq_of_workingDirectory hstart]
  exact ⟨h.1, walk_of_directories hdirectory h.2⟩

theorem entry_put_of_entry_ne {other : Location} {e new : Entry} (h : fs.entry other = some e)
    (hplace : fs.entry place ≠ some e) : (fs.put place new).entry other = some e := by
  have hne : other ≠ place := by
    rintro rfl
    exact hplace h
  rw [entry_put_of_ne _ _ hne, h]

/-- A file is on the way to nowhere, so that a new one does not turn any path elsewhere. -/
theorem locate_put {p : Path} {target : Location} (hplace : fs.entry place ≠ some .directory)
    (h : fs.locate p = .ok target) : (fs.put place (.file content)).locate p = .ok target := by
  apply locate_of_directories _ _ h
  . rfl
  . intro other hother
    exact entry_put_of_entry_ne hother hplace

theorem checkWritable_eq_ok_iff {target : Location} :
    fs.checkWritable place = .ok target ↔ fs.entry place ≠ some .directory ∧ target = place := by
  unfold checkWritable
  cases fs.entry place with
  | none => simp [eq_comm]
  | some e => cases e <;> simp [eq_comm]

theorem write_eq_ok_iff {p : Path} :
    fs.write p content = .ok fs' ↔
      ∃ place, fs.locate p = .ok place ∧ fs.entry place ≠ some .directory
        ∧ fs' = fs.put place (.file content) := by
  unfold write writable
  cases fs.locate p with
  | error e => simp [Except.map]
  | ok place =>
    rw [Except.ok_bind]
    cases hwritable : fs.checkWritable place with
    | error e =>
      have hnot : ∀ target, fs.checkWritable place ≠ .ok target := by simp [hwritable]
      simp only [Except.map, reduceCtorEq, false_iff, not_exists, not_and]
      rintro target ⟨⟩ hplace
      exact absurd (checkWritable_eq_ok_iff.mpr ⟨hplace, rfl⟩) (hnot place)
    | ok target =>
      rcases checkWritable_eq_ok_iff.mp hwritable with ⟨hplace, rfl⟩
      rw [eq_comm]
      simp [Except.map, hplace]

theorem checkWritable_ne_refused (fault : PathFault) (place : Location) :
    fs.checkWritable place ≠ .error (.refused fault) := by
  unfold checkWritable
  split <;> nofun

theorem write_eq_refused_iff {p : Path} {fault : PathFault} :
    fs.write p content = .error (.refused fault) ↔ p.fault? = some fault := by
  rw [← @locate_eq_refused_iff fs, write, writable]
  cases fs.locate p with
  | error e => simp [Except.map]
  | ok place =>
    have hwritable := @checkWritable_ne_refused fs fault place
    rw [Except.ok_bind]
    cases h : fs.checkWritable place with
    | error e =>
      rw [h] at hwritable
      simpa [Except.map] using hwritable
    | ok target => simp [Except.map]

theorem read_eq_refused_iff {p : Path} {fault : PathFault} :
    fs.read p = .error (.refused fault) ↔ p.fault? = some fault := by
  rw [← @locate_eq_refused_iff fs, read]
  cases fs.locate p with
  | error e => simp
  | ok place =>
    rw [Except.ok_bind, contentAt]
    split <;> simp

theorem of_write_eq_error {p : Path} {fault : FileFault} (h : fs.write p content = .error fault)
    (hlocate : fs.locate p = .ok place) : fs.entry place = some .directory := by
  apply Classical.byContradiction
  intro hplace
  have hwritten : fs.write p content = .ok _ := write_eq_ok_iff.mpr ⟨place, hlocate, hplace, rfl⟩
  rw [h] at hwritten
  cases hwritten

theorem read_of_write {p : Path} (h : fs.write p content = .ok fs') : fs'.read p = .ok content := by
  rcases write_eq_ok_iff.mp h with ⟨place, hlocate, hplace, rfl⟩
  unfold read
  rw [locate_put hplace hlocate, Except.ok_bind, contentAt, entry_put_self]
  rfl

structure Grows (fs fs' : FileSystem) : Prop where
  workingDirectory : fs'.workingDirectory = fs.workingDirectory
  directory : ∀ place, fs.entry place = some .directory → fs'.entry place = some .directory
  file : ∀ place content, fs.entry place = some (.file content) →
    ∃ more, fs'.entry place = some (.file (content ++ more))

theorem Grows.refl (fs : FileSystem) : fs.Grows fs := by
  constructor
  . rfl
  . intro place h
    exact h
  . intro place content h
    refine ⟨ByteArray.empty, ?_⟩
    rw [h, ByteArray.append_empty]

theorem Grows.trans {last : FileSystem} (h : fs.Grows fs') (hlast : fs'.Grows last) :
    fs.Grows last := by
  constructor
  . rw [hlast.workingDirectory, h.workingDirectory]
  . intro place hplace
    exact hlast.directory place (h.directory place hplace)
  . intro place content hplace
    rcases h.file place content hplace with ⟨more, hmore⟩
    rcases hlast.file place _ hmore with ⟨rest, hrest⟩
    refine ⟨more ++ rest, ?_⟩
    rw [hrest, ByteArray.append_assoc]

theorem Grows.locate {p : Path} {target : Location} (h : fs.Grows fs')
    (hp : fs.locate p = .ok target) : fs'.locate p = .ok target :=
  locate_of_directories h.workingDirectory h.directory hp

theorem grows_put {e : Entry} (h : fs.entry place = none) : fs.Grows (fs.put place e) := by
  have hne : ∀ e', fs.entry place ≠ some e' := by simp [h]
  constructor
  . rfl
  . intro other hother
    exact entry_put_of_entry_ne hother (hne _)
  . intro other content hother
    refine ⟨ByteArray.empty, ?_⟩
    rw [ByteArray.append_empty]
    exact entry_put_of_entry_ne hother (hne _)

structure GainsDirectories (fs fs' : FileSystem) : Prop where
  workingDirectory : fs'.workingDirectory = fs.workingDirectory
  kept : ∀ place e, fs.entry place = some e → fs'.entry place = some e
  gained : ∀ place e, fs.entry place = none → fs'.entry place = some e → e = .directory

theorem GainsDirectories.refl (fs : FileSystem) : fs.GainsDirectories fs := by
  constructor
  . rfl
  . intro place e h
    exact h
  . intro place e hnone h
    rw [hnone] at h
    cases h

theorem GainsDirectories.trans {last : FileSystem} (h : fs.GainsDirectories fs')
    (hlast : fs'.GainsDirectories last) : fs.GainsDirectories last := by
  constructor
  . rw [hlast.workingDirectory, h.workingDirectory]
  . intro place e hplace
    exact hlast.kept place e (h.kept place e hplace)
  . intro place e hnone hplace
    cases hbetween : fs'.entry place with
    | none => exact hlast.gained place e hbetween hplace
    | some between =>
      rw [hlast.kept place between hbetween] at hplace
      cases hplace
      exact h.gained place _ hnone hbetween

theorem GainsDirectories.grows (h : fs.GainsDirectories fs') : fs.Grows fs' := by
  constructor
  . exact h.workingDirectory
  . intro place hplace
    exact h.kept place _ hplace
  . intro place content hplace
    refine ⟨ByteArray.empty, ?_⟩
    rw [ByteArray.append_empty]
    exact h.kept place _ hplace

theorem gainsDirectories_put (h : fs.entry place = none) :
    fs.GainsDirectories (fs.put place .directory) := by
  constructor
  . rfl
  . intro other e hother
    apply entry_put_of_entry_ne hother
    simp [h]
  . intro other e hnone hother
    by_cases heq : other = place
    . rw [heq, entry_put_self] at hother
      cases hother
      rfl
    . rw [entry_put_of_ne _ _ heq, hnone] at hother
      cases hother

theorem append_of_file {before : ByteArray} (h : fs.entry place = some (.file before)) :
    fs.append place content = fs.put place (.file (before ++ content)) := by
  rw [append, h]

theorem entry_append_of_ne {other : Location} (h : other ≠ place) (fs : FileSystem)
    (content : ByteArray) : (fs.append place content).entry other = fs.entry other := by
  unfold append
  split
  . exact entry_put_of_ne _ _ h
  . exact entry_put_of_ne _ _ h

theorem grows_append (h : fs.entry place ≠ some .directory) (content : ByteArray) :
    fs.Grows (fs.append place content) := by
  cases hentry : fs.entry place with
  | none =>
    rw [append, hentry]
    exact grows_put hentry
  | some e =>
    cases e with
    | directory => exact absurd hentry h
    | file before =>
      rw [append_of_file hentry]
      constructor
      . rfl
      . intro other hother
        exact entry_put_of_entry_ne hother h
      . intro other content' hother
        by_cases heq : other = place
        . subst heq
          rw [hentry] at hother
          cases hother
          exact ⟨content, entry_put_self _ _ _⟩
        . refine ⟨ByteArray.empty, ?_⟩
          rw [entry_put_of_ne _ _ heq, hother, ByteArray.append_empty]

theorem exists_entry_append (fs : FileSystem) (place : Location) (content : ByteArray) :
    ∃ content', (fs.append place content).entry place = some (.file content') := by
  unfold append
  split
  . exact ⟨_, entry_put_self _ _ _⟩
  . exact ⟨_, entry_put_self _ _ _⟩

theorem makeDirectory_eq_ok_iff {p : Path} :
    fs.makeDirectory p = .ok fs' ↔
      ∃ place, fs.locate p = .ok place ∧ fs.entry place = none ∧ fs' = fs.put place .directory := by
  unfold makeDirectory
  rw [Except.bind_eq_ok_iff]
  apply exists_congr
  intro place
  cases fs.entry place with
  | none => simp [eq_comm]
  | some e => simp

theorem gainsDirectories_makeDirectory {p : Path} (h : fs.makeDirectory p = .ok fs') :
    fs.GainsDirectories fs' := by
  rcases makeDirectory_eq_ok_iff.mp h with ⟨place, -, hentry, rfl⟩
  exact gainsDirectories_put hentry

theorem orDirectory_snd (fs : FileSystem) (p : Path) (fault : FileFault) :
    (fs.orDirectory p fault).2 = fs := by
  unfold orDirectory
  split <;> rfl

theorem gainsDirectories_makeDirectoriesTo (root : PathRoot) (fs : FileSystem)
    (names : List Text) : fs.GainsDirectories (fs.makeDirectoriesTo root names).2 := by
  induction names generalizing fs with
  | nil => exact .refl fs
  | cons name outer ih =>
    have houter := ih fs
    unfold makeDirectoriesTo
    dsimp only
    split
    . next hmake => exact gainsDirectories_makeDirectory hmake
    . split
      . next hmake =>
        rw [hmake] at houter
        exact houter
      . next hmake =>
        rw [hmake] at houter
        split
        . next hlast => exact houter.trans (gainsDirectories_makeDirectory hlast)
        . exact houter
        . rw [orDirectory_snd]
          exact houter
    . rw [orDirectory_snd]
      exact .refl fs

theorem gainsDirectories_makeDirectories (fs : FileSystem) (p : Path) :
    fs.GainsDirectories (fs.makeDirectories p).2 :=
  gainsDirectories_makeDirectoriesTo _ fs _

theorem openToAppend_eq_ok {p : Path} (h : fs.openToAppend p = .ok (place, fs')) :
    fs.Grows fs' ∧ fs'.locate p = .ok place
      ∧ ∃ content, fs'.entry place = some (.file content) := by
  unfold openToAppend writable at h
  rw [Except.bind_eq_ok_iff] at h
  rcases h with ⟨target, htarget, h⟩
  cases h
  have htarget := Except.bind_eq_ok_iff.mp htarget
  rcases htarget with ⟨target, hlocate, hwritable⟩
  rw [checkWritable_eq_ok_iff] at hwritable
  rcases hwritable with ⟨hplace, rfl⟩
  have hgrows := grows_append hplace ByteArray.empty
  exact ⟨hgrows, hgrows.locate hlocate, exists_entry_append _ _ _⟩

end FileSystem
end NodeSettings
