import NodeSettings.FileSystem.Name

/-!
This module contains paths: a root, if there is one, and the names below it. Writing a path gives
its shortest text, without empty names and without names for the place itself.
-/

namespace NodeSettings

inductive PathRoot where
  | here
  | top
  | doubleTop
deriving DecidableEq

structure Path where
  root : PathRoot
  names : List Text
deriving DecidableEq

namespace Path

def splitNames : List CodePoint → List (List CodePoint)
  | [] => [[]]
  | .char '/' :: points => [] :: splitNames points
  | p :: points =>
    match splitNames points with
    | [] => [[p]]
    | name :: names => (p :: name) :: names

/-- The root of a text; exactly two separators in front are a root of their own. -/
def rootOf : List CodePoint → PathRoot
  | .char '/' :: .char '/' :: .char '/' :: _ => .top
  | .char '/' :: .char '/' :: _ => .doubleTop
  | .char '/' :: _ => .top
  | _ => .here

def ofText (t : Text) : Path where
  root := rootOf t.points
  names :=
    (splitNames t.points |>.filter fun name => name != [] && name != [.char '.']).map Text.mk

/-- The text of a path; the working directory itself is a point. -/
def text (p : Path) : Text :=
  let names := Text.intercalate "/" p.names
  match p.root with
  | .here => if p.names.isEmpty then "." else names
  | .top => ("/" : Text) ++ names
  | .doubleTop => ("//" : Text) ++ names

def parent (p : Path) : Path :=
  { p with names := p.names.dropLast }

def hasNul (p : Path) : Bool :=
  p.text.hasNul

def fault? (p : Path) : Option PathFault :=
  p.text.pathFault?

def fileNames (p : Path) : List FileName :=
  p.names.map Text.octets

def dropSeparators (t : Text) : Text :=
  ⟨(t.points.reverse.dropWhile (· == .char '/')).reverse⟩

/--
What is in front of the last name of a text, and the last name. Separators between the two are left
out, unless there is nothing else in front.
-/
def splitLast (t : Text) : Text × Text :=
  let name := (t.points.reverse.takeWhile (· != .char '/')).reverse
  let front : Text := ⟨t.points.take (t.points.length - name.length)⟩
  let outer := dropSeparators front
  (if outer.isEmpty then front else outer, ⟨name⟩)

end Path

/-- A path as it is written, with every separator and every point. -/
structure WrittenPath where
  text : Text
deriving DecidableEq

namespace WrittenPath

def root (p : WrittenPath) : PathRoot :=
  Path.rootOf p.text.points

def fileNames (p : WrittenPath) : List FileName :=
  (Path.splitNames p.text.points).map fun name =>
    if name = [] then Text.octets "." else Text.octets ⟨name⟩

def endsOpen (p : WrittenPath) : Bool :=
  p.text.points.getLast? == some (.char '/')

end WrittenPath
end NodeSettings
