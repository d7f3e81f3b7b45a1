import NodeSettings.Proofs.FileSystem

/-!
This module contains the directories that paths lead through. They are there if a path leads
anywhere, and those that are missing are made, unless a file is in the way.
-/

namespace NodeSettings

namespace Path

def first (p : Path) (k : Nat) : Path :=
  { p with names := p.names.take k }

theorem intercalate_cons_cons (between s t : Text) (ts : List Text) :
    Text.intercalate between (s :: t :: ts) = s ++ between ++ Text.intercalate between (t :: ts) :=
  rfl

theorem points_intercalate_take (between : Text) (names : List Text) (k : Nat) :
    (Text.intercalate between (names.take k)).points
      <+: (Text.intercalate between names).points := by
  fun_induction Text.intercalate between names generalizing k with
  | case1 => simp [Text.intercalate]
  | case2 name =>
    cases k with
    | zero => exact List.nil_prefix
    | succ k =>
      rw [List.take_succ_cons, List.take_nil]
      exact List.prefix_refl _
  | case3 name names hne ih =>
    rcases List.exists_cons_of_ne_nil hne with ⟨next, names, rfl⟩
    match k with
    | 0 => exact List.nil_prefix
    | 1 =>
      rw [Text.points_append, Text.points_append, List.append_assoc]
      exact List.prefix_append _ _
    | k + 2 =>
      rw [List.take_succ_cons, List.take_succ_cons, intercalate_cons_cons]
      exact (List.prefix_append_right_inj _).mpr (ih (k + 1))

theorem checkPath_of_prefix {s t : Text} (hpoints : s.points <+: t.points)
    (h : FileSystem.checkPath t = .ok ()) : FileSystem.checkPath s = .ok () := by
  rcases hpoints with ⟨rest, hrest⟩
  have ht : t = s ++ ⟨rest⟩ := congrArg Text.mk hrest.symm
  rw [FileSystem.checkPath_eq_ok_iff, Text.pathFault?_eq_none_iff] at h ⊢
  rw [ht, Text.octets_append, List.length_append] at h
  constructor
  . intro p hp
    exact h.1 p (List.mem_append_left rest hp)
  . omega

theorem checkPath_first {p : Path} (h : FileSystem.checkPath p.text = .ok ()) (k : Nat) :
    FileSystem.checkPath (p.first k).text = .ok () := by
  have hpoints := points_intercalate_take "/" p.names k
  rcases p with ⟨root, names⟩
  unfold text first at *
  cases root with
  | here =>
    dsimp only at *
    split
    . rfl
    . next htake =>
      rw [if_neg] at h
      . exact checkPath_of_prefix hpoints h
      . intro hnames
        rw [List.isEmpty_iff] at hnames
        rw [hnames, List.take_nil] at htake
        exact htake rfl
  | top | doubleTop =>
    apply checkPath_of_prefix _ h
    exact (List.prefix_append_right_inj _).mpr hpoints

theorem checkPath_outer {root : PathRoot} {name : Text} {outer : List Text}
    (h : FileSystem.checkPath (⟨root, (name :: outer).reverse⟩ : Path).text = .ok ()) :
    FileSystem.checkPath (⟨root, outer.reverse⟩ : Path).text = .ok () := by
  have hfirst := checkPath_first h outer.length
  rwa [first, List.reverse_cons, List.take_left' List.length_reverse] at hfirst

theorem fileNames_reverse (root : PathRoot) (names : List Text) :
    (⟨root, names.reverse⟩ : Path).fileNames = (names.map Text.octets).reverse := by
  rw [fileNames, List.map_reverse]

end Path

namespace FileSystem

variable {fs fs' : FileSystem} {p : Path} {root : PathRoot} {start target place : Location}
  {name : FileName} {names outer : List FileName}

theorem walk_take (h : fs.walk start names = .ok target) {k : Nat} (hk : k < names.length) :
    ∃ place, fs.walk start (names.take k) = .ok place ∧ fs.entry place = some .directory := by
  induction names generalizing start k with
  | nil => cases hk
  | cons name names ih =>
    rw [walk_cons_eq_ok_iff] at h
    rcases h with ⟨hstart, hname, h⟩
    cases k with
    | zero => exact ⟨start, rfl, hstart⟩
    | succ k =>
      rcases ih h (Nat.lt_of_succ_lt_succ hk) with ⟨place, hplace, hdirectory⟩
      refine ⟨place, ?_, hdirectory⟩
      rw [List.take_succ_cons, walk_cons_eq_ok_iff]
      exact ⟨hstart, hname, hplace⟩

theorem isDirectory_eq_true_iff :
    fs.isDirectory p = true ↔
      ∃ place, fs.locate p = .ok place ∧ fs.entry place = some .directory := by
  unfold isDirectory
  cases fs.locate p with
  | error fault => simp
  | ok place =>
    cases hentry : fs.entry place with
    | none => simp [hentry]
    | some e => cases e <;> simp [hentry, Entry.isDirectory]

theorem isDirectory_first (h : fs.locate p = .ok place) {k : Nat} (hk : k < p.names.length) :
    fs.isDirectory (p.first k) = true := by
  rw [locate_eq_ok_iff] at h
  have hk : k < p.fileNames.length := by rwa [Path.fileNames, List.length_map]
  rcases walk_take h.2 hk with ⟨outer, houter, hdirectory⟩
  rw [isDirectory_eq_true_iff]
  refine ⟨outer, locate_eq_ok_iff.mpr ⟨Path.checkPath_first h.1 k, ?_⟩, hdirectory⟩
  rw [Path.fileNames, ← List.map_take] at *
  exact houter

theorem exists_cons_suffix {other : List FileName} (h : other <:+ outer) (name : FileName) :
    ∃ next, next :: other <:+ name :: outer := by
  rcases h with ⟨before, rfl⟩
  rcases List.eq_nil_or_concat (name :: before) with hnil | ⟨init, next, hlast⟩
  . cases hnil
  . refine ⟨next, init, ?_⟩
    rw [← List.cons_append, hlast, List.concat_eq_append, List.append_assoc, List.singleton_append]

theorem forall_cons_suffix_iff {way : List FileName → Prop} :
    (∀ next other, next :: other <:+ name :: outer → way other) ↔
      ∀ other, other <:+ outer → way other := by
  constructor
  . intro h other hother
    rcases exists_cons_suffix hother name with ⟨next, hnext⟩
    exact h next other hnext
  . intro h next other hnext
    rcases List.suffix_cons_iff.mp hnext with heq | hother
    . cases heq
      exact h outer (List.suffix_refl _)
    . exact h other ((List.suffix_cons _ _).trans hother)

structure LeadsDown (name : FileName) : Prop where
  stays : name ≠ here
  rises : name ≠ above
  short : name.length ≤ maxNameLength

theorem LeadsDown.enter_eq (h : LeadsDown name) (place : Location) :
    enter place name = name :: place := by
  rw [enter, if_neg h.stays, if_neg h.rises]

theorem walk_append (start : Location) (names more : List FileName) :
    fs.walk start (names ++ more) = (do fs.walk (← fs.walk start names) more) := by
  induction names generalizing start with
  | nil => rfl
  | cons name names ih =>
    rw [List.cons_append, walk, walk]
    split
    . rfl
    . rfl
    . split
      . rfl
      . split
        . exact ih _
        . split
          . exact ih _
          . exact ih _

theorem walk_reverse_of_directories (hnames : ∀ name ∈ names, LeadsDown name)
    (hway : ∀ name outer, name :: outer <:+ names → fs.entry (outer ++ start) = some .directory) :
    fs.walk start names.reverse = .ok (names ++ start) := by
  induction names with
  | nil => rfl
  | cons name outer ih =>
    rw [List.forall_mem_cons] at hnames
    rw [forall_cons_suffix_iff] at hway
    have houter := ih hnames.2 fun next other hother =>
      hway other ((List.suffix_cons _ _).trans hother)
    rw [List.reverse_cons, walk_append, houter, Except.ok_bind, walk_cons_eq_ok_iff,
      hnames.1.enter_eq]
    exact ⟨hway outer (List.suffix_refl _), hnames.1.short, rfl⟩

theorem walk_reverse_of_missing (hnames : ∀ name ∈ names, LeadsDown name)
    (hfree : ∀ name outer, name :: outer <:+ names →
      ∀ content, fs.entry (outer ++ start) ≠ some (.file content))
    (hmissing : ¬ ∀ name outer, name :: outer <:+ names →
      fs.entry (outer ++ start) = some .directory) :
    fs.walk start names.reverse = .error .missing := by
  induction names with
  | nil =>
    refine absurd ?_ hmissing
    intro name outer h
    cases List.suffix_nil.mp h
  | cons name outer ih =>
    rw [List.forall_mem_cons] at hnames
    rw [forall_cons_suffix_iff] at hfree hmissing
    rw [List.reverse_cons, walk_append]
    by_cases hway : ∀ next other, next :: other <:+ outer →
        fs.entry (other ++ start) = some .directory
    . -- All is there but the last of the directories.
      have hnone : fs.entry (outer ++ start) = none := by
        cases hentry : fs.entry (outer ++ start) with
        | none => rfl
        | some e =>
          cases e with
          | file content => exact absurd hentry (hfree outer (List.suffix_refl _) content)
          | directory =>
            refine absurd ?_ hmissing
            intro other hother
            cases outer with
            | nil =>
              rw [List.suffix_nil.mp hother]
              exact hentry
            | cons next outer =>
              rcases List.suffix_cons_iff.mp hother with rfl | hother
              . exact hentry
              . exact forall_cons_suffix_iff.mp hway other hother
      rw [walk_reverse_of_directories hnames.2 hway, Except.ok_bind, walk, hnone]
      rfl
    . have hfree' : ∀ next other, next :: other <:+ outer →
          ∀ content, fs.entry (other ++ start) ≠ some (.file content) :=
        fun next other hother => hfree other ((List.suffix_cons _ _).trans hother)
      rw [ih hnames.2 hfree' hway]
      rfl

/-- There are directories all the way down to a place, and nothing else is different. -/
structure OpensWay (fs fs' : FileSystem) (start : Location) (names : List FileName) : Prop where
  directories : ∀ outer, outer <:+ names → fs'.entry (outer ++ start) = some .directory
  others : ∀ place, (∀ outer, outer <:+ names → place ≠ outer ++ start) →
    fs'.entry place = fs.entry place
  workingDirectory : fs'.workingDirectory = fs.workingDirectory

theorem OpensWay.base_eq (h : OpensWay fs fs' start names) (root : PathRoot) :
    fs'.base root = fs.base root :=
  base_eq_of_workingDirectory h.workingDirectory root

theorem OpensWay.entry_cons (h : OpensWay fs fs' start outer) (name : FileName) :
    fs'.entry (name :: outer ++ start) = fs.entry (name :: outer ++ start) := by
  apply h.others
  intro other hother heq
  have hlength := congrArg List.length heq
  have hle := hother.length_le
  simp only [List.length_append, List.length_cons] at hlength
  omega

theorem OpensWay.trans {last : FileSystem} (h : OpensWay fs fs' start outer)
    (hlast : OpensWay fs' last start (name :: outer)) :
    OpensWay fs last start (name :: outer) := by
  refine ⟨hlast.directories, ?_, hlast.workingDirectory.trans h.workingDirectory⟩
  intro place hplace
  rw [hlast.others place hplace]
  apply h.others
  intro other hother
  exact hplace other (hother.trans (List.suffix_cons _ _))

section

variable {name : Text} {names outer : List Text}

theorem locate_reverse_of_directories
    (hpath : checkPath (⟨root, names.reverse⟩ : Path).text = .ok ())
    (hnames : ∀ name ∈ names.map Text.octets, LeadsDown name)
    (hway : ∀ name outer, name :: outer <:+ names.map Text.octets →
      fs.entry (outer ++ fs.base root) = some .directory) :
    fs.locate ⟨root, names.reverse⟩ = .ok (names.map Text.octets ++ fs.base root) := by
  rw [locate_eq_walk hpath, Path.fileNames_reverse]
  exact walk_reverse_of_directories hnames hway

/-- A directory is made, or it is there already. -/
def Makes (fs : FileSystem) (p : Path) (fs' : FileSystem) : Prop :=
  fs.makeDirectory p = .ok fs'
    ∨ fs.makeDirectory p = .error .occupied ∧ fs.orDirectory p .occupied = (.ok (), fs')

theorem makeDirectoriesTo_of_makes (h : Makes fs ⟨root, (name :: outer).reverse⟩ fs') :
    fs.makeDirectoriesTo root (name :: outer) = (.ok (), fs') := by
  rcases h with hmake | ⟨hmake, hthere⟩
  . rw [makeDirectoriesTo, hmake]
  . rw [makeDirectoriesTo, hmake]
    exact hthere

theorem makeDirectoriesTo_of_missing {between : FileSystem}
    (hmissing : fs.makeDirectory ⟨root, (name :: outer).reverse⟩ = .error .missing)
    (houter : fs.makeDirectoriesTo root outer = (.ok (), between))
    (h : Makes between ⟨root, (name :: outer).reverse⟩ fs') :
    fs.makeDirectoriesTo root (name :: outer) = (.ok (), fs') := by
  rw [makeDirectoriesTo, hmissing]
  dsimp only
  rw [houter]
  dsimp only
  rcases h with hmake | ⟨hmake, hthere⟩
  . rw [hmake]
  . rw [hmake]
    exact hthere

theorem exists_makes
    (hpath : checkPath (⟨root, (name :: outer).reverse⟩ : Path).text = .ok ())
    (hnames : ∀ other ∈ (name :: outer).map Text.octets, LeadsDown other)
    (hway : ∀ other, other <:+ outer.map Text.octets →
      fs.entry (other ++ fs.base root) = some .directory)
    (hfree : ∀ content, fs.entry ((name :: outer).map Text.octets ++ fs.base root) ≠
      some (.file content)) :
    ∃ fs', Makes fs ⟨root, (name :: outer).reverse⟩ fs'
      ∧ OpensWay fs fs' (fs.base root) ((name :: outer).map Text.octets) := by
  have hlocate :=
    locate_reverse_of_directories hpath hnames (forall_cons_suffix_iff.mpr hway)
  cases hentry : fs.entry ((name :: outer).map Text.octets ++ fs.base root) with
  | none =>
    refine ⟨fs.put ((name :: outer).map Text.octets ++ fs.base root) .directory,
      .inl (makeDirectory_eq_ok_iff.mpr ⟨_, hlocate, hentry, rfl⟩), ?_⟩
    constructor
    . intro other hother
      rcases List.suffix_cons_iff.mp hother with rfl | hother
      . exact entry_put_self _ _ _
      . exact entry_put_of_entry_ne (hway other hother) (by rw [hentry]; nofun)
    . intro place hplace
      exact entry_put_of_ne _ _ (hplace _ (List.suffix_refl _))
    . rfl
  | some e =>
    cases e with
    | file content => exact absurd hentry (hfree content)
    | directory =>
      refine ⟨fs, .inr ⟨?_, ?_⟩, ?_, fun _ _ => rfl, rfl⟩
      . rw [makeDirectory, hlocate, Except.ok_bind, hentry]
        rfl
      . rw [orDirectory, if_pos (isDirectory_eq_true_iff.mpr ⟨_, hlocate, hentry⟩)]
      . intro other hother
        rcases List.suffix_cons_iff.mp hother with rfl | hother
        . exact hentry
        . exact hway other hother

/--
The directories on a way down are made where they are missing, at any depth, as long as no file is
in the way.
-/
theorem makeDirectoriesTo_of_free
    (hpath : checkPath (⟨root, names.reverse⟩ : Path).text = .ok ())
    (hnames : ∀ name ∈ names.map Text.octets, LeadsDown name)
    (hbase : fs.entry (fs.base root) = some .directory)
    (hfree : ∀ outer, outer <:+ names.map Text.octets →
      ∀ content, fs.entry (outer ++ fs.base root) ≠ some (.file content)) :
    ∃ fs', fs.makeDirectoriesTo root names = (.ok (), fs')
      ∧ OpensWay fs fs' (fs.base root) (names.map Text.octets) := by
  induction names with
  | nil =>
    refine ⟨fs, rfl, ?_, fun _ _ => rfl, rfl⟩
    intro outer houter
    rw [List.suffix_nil.mp houter]
    exact hbase
  | cons name outer ih =>
    have hlast := hfree _ (List.suffix_refl _)
    have hfree' : ∀ other, other <:+ outer.map Text.octets →
        ∀ content, fs.entry (other ++ fs.base root) ≠ some (.file content) :=
      fun other hother => hfree other (hother.trans (List.suffix_cons _ _))
    by_cases hway : ∀ other, other <:+ outer.map Text.octets →
        fs.entry (other ++ fs.base root) = some .directory
    . rcases exists_makes hpath hnames hway hlast with ⟨fs', hmakes, hopens⟩
      exact ⟨fs', makeDirectoriesTo_of_makes hmakes, hopens⟩
    . have hmissing : fs.makeDirectory ⟨root, (name :: outer).reverse⟩ = .error .missing := by
        rw [makeDirectory, locate_eq_walk hpath, Path.fileNames_reverse, walk_reverse_of_missing
          hnames (forall_cons_suffix_iff.mpr hfree') (mt forall_cons_suffix_iff.mp hway)]
        rfl
      have hpath' := Path.checkPath_outer hpath
      rcases ih hpath' (List.forall_mem_cons.mp hnames).2 hfree' with ⟨between, hbetween, hopens⟩
      have hbase' := hopens.base_eq root
      have hway' := hopens.directories
      rw [List.map_cons, ← hopens.entry_cons, ← hbase'] at hlast
      rw [← hbase'] at hway'
      rcases exists_makes hpath hnames hway' hlast with ⟨fs', hmakes, hopens'⟩
      rw [hbase'] at hopens'
      exact ⟨fs', makeDirectoriesTo_of_missing hmissing hbetween hmakes, hopens.trans hopens'⟩

end

end FileSystem
end NodeSettings
