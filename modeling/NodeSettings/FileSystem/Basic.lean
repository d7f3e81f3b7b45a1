import NodeSettings.FileSystem.Path

/-!
This module contains trees of files and directories. An operation either gives a fault and leaves
the tree as it is, or changes one place of it; the making of several directories may stop half-way.
-/

namespace NodeSettings

abbrev Location := List FileName

inductive Entry where
  | directory
  | file (content : ByteArray)

def Entry.isDirectory : Entry → Bool
  | directory => true
  | file _ => false

/-- A tree of files and directories, and the directory that paths start from. -/
structure FileSystem where
  entry : Location → Option Entry
  workingDirectory : Location

inductive FileFault where
  | missing
  | occupied
  | notADirectory
  | isADirectory
  | nameTooLong
  | refused (fault : PathFault)
deriving DecidableEq

namespace FileFault

def kind : FileFault → String
  | missing => "FileNotFoundError"
  | occupied => "FileExistsError"
  | notADirectory => "NotADirectoryError"
  | isADirectory => "IsADirectoryError"
  | nameTooLong => "OSError"
  | refused fault => fault.kind

def fileMessage (number : Nat) (description : String) (path : Text) : String :=
  "[Errno " ++ Text.decimal number ++ "] " ++ description ++ ": " ++ Text.quoted path

def message : FileFault → Text → String
  | missing => fileMessage 2 "No such file or directory"
  | occupied => fileMessage 17 "File exists"
  | notADirectory => fileMessage 20 "Not a directory"
  | isADirectory => fileMessage 21 "Is a directory"
  | nameTooLong => fileMessage 36 "File name too long"
  | refused fault => fun _ => fault.message

end FileFault

namespace FileSystem

def here : FileName := Text.octets "."

def above : FileName := Text.octets ".."

def work : Location :=
  [Text.octets "work"]

def empty : FileSystem where
  entry := fun place => if place = [] ∨ place = work then some .directory else none
  workingDirectory := work

def put (fs : FileSystem) (place : Location) (e : Entry) : FileSystem :=
  { fs with entry := fun other => if other = place then some e else fs.entry other }

@[simp]
theorem entry_put_self (fs : FileSystem) (place : Location) (e : Entry) :
    (fs.put place e).entry place = some e := by
  simp [put]

@[simp]
theorem entry_put_of_ne (fs : FileSystem) {place other : Location} (e : Entry)
    (h : other ≠ place) : (fs.put place e).entry other = fs.entry other := by
  simp [put, h]

def maxNameLength : Nat := 255

def maxPathLength : Nat := 4096

def walk (fs : FileSystem) (place : Location) : List FileName → Except FileFault Location
  | [] => return place
  | name :: names =>
    match fs.entry place with
    | none => throw .missing
    | some (.file _) => throw .notADirectory
    | some .directory =>
      if maxNameLength < name.length then throw .nameTooLong
      else if name = here then walk fs place names
      else if name = above then walk fs place.tail names
      else walk fs (name :: place) names

def base (fs : FileSystem) : PathRoot → Location
  | .here => fs.workingDirectory
  | .top | .doubleTop => []

def checkPath (t : Text) : Except FileFault Unit :=
  match t.pathFault? with
  | some fault => throw (.refused fault)
  | none => if maxPathLength ≤ t.octets.length then throw .nameTooLong else return ()

def locate (fs : FileSystem) (p : Path) : Except FileFault Location := do
  checkPath p.text
  fs.walk (fs.base p.root) p.fileNames

def locateWritten (fs : FileSystem) (p : WrittenPath) : Except FileFault Location := do
  if p.text.isEmpty then throw .missing
  checkPath p.text
  fs.walk (fs.base p.root) p.fileNames

def contentAt (fs : FileSystem) (place : Location) : Except FileFault ByteArray :=
  match fs.entry place with
  | none => throw .missing
  | some .directory => throw .isADirectory
  | some (.file content) => return content

def read (fs : FileSystem) (p : Path) : Except FileFault ByteArray := do
  fs.contentAt (← fs.locate p)

def readWritten (fs : FileSystem) (p : WrittenPath) : Except FileFault ByteArray := do
  fs.contentAt (← fs.locateWritten p)

def checkWritable (fs : FileSystem) (place : Location) : Except FileFault Location :=
  match fs.entry place with
  | some .directory => throw .isADirectory
  | _ => return place

def writable (fs : FileSystem) (p : Path) : Except FileFault Location := do
  fs.checkWritable (← fs.locate p)

def write (fs : FileSystem) (p : Path) (content : ByteArray) : Except FileFault FileSystem :=
  (fs.writable p).map fun place => fs.put place (.file content)

def writeWritten (fs : FileSystem) (p : WrittenPath) (content : ByteArray) :
    Except FileFault FileSystem := do
  let whole : WrittenPath := ⟨Path.dropSeparators p.text⟩
  let place ← fs.locateWritten (if p.endsOpen && !whole.text.isEmpty then whole else p)
  let place ← fs.checkWritable place
  if p.endsOpen then throw .isADirectory else return fs.put place (.file content)

def append (fs : FileSystem) (place : Location) (content : ByteArray) : FileSystem :=
  match fs.entry place with
  | some (.file before) => fs.put place (.file (before ++ content))
  | _ => fs.put place (.file content)

def openToAppend (fs : FileSystem) (p : Path) : Except FileFault (Location × FileSystem) := do
  let place ← fs.writable p
  return (place, fs.append place ByteArray.empty)

/--
There is something at a path, which there never is at one that is refused. A name that is too long
is a fault of its own.
-/
def exists? (fs : FileSystem) (p : Path) : Except FileFault Bool :=
  match fs.locate p with
  | .ok place => return (fs.entry place).isSome
  | .error .nameTooLong => throw .nameTooLong
  | .error _ => return false

def existsWritten (fs : FileSystem) (p : WrittenPath) : Bool :=
  match fs.locateWritten p with
  | .ok place => (fs.entry place).isSome
  | .error _ => false

def isDirectory (fs : FileSystem) (p : Path) : Bool :=
  match fs.locate p with
  | .ok place => (fs.entry place).any Entry.isDirectory
  | .error _ => false

def makeDirectory (fs : FileSystem) (p : Path) : Except FileFault FileSystem := do
  let place ← fs.locate p
  match fs.entry place with
  | some _ => throw .occupied
  | none => return fs.put place .directory

/-- A fault at a path does not count if there is a directory there. -/
def orDirectory (fs : FileSystem) (p : Path) (fault : FileFault) :
    Except (FileFault × Path) Unit × FileSystem :=
  if fs.isDirectory p then (.ok (), fs) else (.error (fault, p), fs)

/--
The tree with a directory and the ones that lead to it, given by their names from the last on.
-/
def makeDirectoriesTo (root : PathRoot) (fs : FileSystem) :
    List Text → Except (FileFault × Path) Unit × FileSystem
  | [] => (.ok (), fs)
  | name :: outer =>
    let p : Path := ⟨root, (name :: outer).reverse⟩
    match fs.makeDirectory p with
    | .ok fs => (.ok (), fs)
    | .error .missing =>
      match makeDirectoriesTo root fs outer with
      | (.error e, fs) => (.error e, fs)
      | (.ok (), fs) =>
        match fs.makeDirectory p with
        | .ok fs => (.ok (), fs)
        | .error .missing => (.error (.missing, p), fs)
        | .error fault => fs.orDirectory p fault
    | .error fault => fs.orDirectory p fault

def makeDirectories (fs : FileSystem) (p : Path) :
    Except (FileFault × Path) Unit × FileSystem :=
  fs.makeDirectoriesTo p.root p.names.reverse

/-- The last name of a path as it is written is a name, and none of the two that mean a place. -/
def hasLastName (p : WrittenPath) : Bool :=
  let (_, name) := Path.splitLast (Path.dropSeparators p.text)
  !name.isEmpty && name != "." && name != ".."

def makeWrittenDirectory (fs : FileSystem) (p : WrittenPath) : Except FileFault FileSystem := do
  let whole : WrittenPath := ⟨Path.dropSeparators p.text⟩
  let place ← fs.locateWritten (if whole.text.isEmpty then p else whole)
  if !hasLastName p then throw .occupied
  match fs.entry place with
  | some _ => throw .occupied
  | none => return fs.put place .directory

abbrev MakingFault := FileFault × WrittenPath

def makeOne (fs : FileSystem) (p : WrittenPath) : Except MakingFault Unit × FileSystem :=
  match fs.makeWrittenDirectory p with
  | .ok fs => (.ok (), fs)
  | .error fault => (.error (fault, p), fs)

/--
The tree with a directory, which must not be there, and the ones that lead to it, by the path as it
is written. The directories in front are made as long as there is nothing at their paths.
-/
def makeWrittenDirectories : Nat → FileSystem → WrittenPath →
    Except MakingFault Unit × FileSystem
  | 0, fs, p => fs.makeOne p
  | fuel + 1, fs, p =>
    let (outer, name) := Path.splitLast p.text
    let (outer, name) := if name.isEmpty then Path.splitLast outer else (outer, name)
    if outer.isEmpty || name.isEmpty || fs.existsWritten ⟨outer⟩ then fs.makeOne p
    else
      match makeWrittenDirectories fuel fs ⟨outer⟩ with
      | (.error (.occupied, _), fs) => if name = "." then (.ok (), fs) else fs.makeOne p
      | (.error e, fs) => (.error e, fs)
      | (.ok (), fs) => if name = "." then (.ok (), fs) else fs.makeOne p

def makeNewDirectories (fs : FileSystem) (p : WrittenPath) :
    Except MakingFault Unit × FileSystem :=
  makeWrittenDirectories p.text.points.length fs p

end FileSystem
end NodeSettings
