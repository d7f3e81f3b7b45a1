import NodeSettings.Text.Quoted

/-!
This module contains the names of files: the octets that a text stands for as a name, and why a text
can be refused as a path before any file is looked for.
-/

namespace NodeSettings

abbrev FileName := List UInt8

namespace CodePoint

/-- The octets of a point in names; some surrogates stand for an octet that is no character. -/
def octets? : CodePoint → Option FileName
  | char c => some (String.utf8EncodeChar c)
  | surrogate n =>
    if 0x480 ≤ n.val && n.val < 0x500 then some [UInt8.ofNat (n.val - 0x400)] else none

def isSurrogate : CodePoint → Bool
  | char _ => false
  | surrogate _ => true

end CodePoint

inductive PathFault where
  /-- A point stands for no octets: the number of points in front of it, it, and those behind it. -/
  | unencodable (front : Nat) (first : CodePoint) (behind : List CodePoint)
  | nul
deriving DecidableEq

namespace PathFault

def shownPoint (p : CodePoint) : String :=
  String.ofList ('\\' :: 'u' :: Text.hexadecimal 4 p.toNat)

def message : PathFault → String
  | unencodable front first behind =>
    let place := Text.decimal front
    (if behind.isEmpty then
        "'utf-8' codec can't encode character '" ++ shownPoint first ++ "' in position " ++ place
      else
        "'utf-8' codec can't encode characters in position " ++ place ++ "-"
          ++ Text.decimal (front + behind.length)) ++ ": surrogates not allowed"
  | nul => "embedded null byte"

def kind : PathFault → String
  | unencodable .. => "UnicodeEncodeError"
  | nul => "ValueError"

end PathFault

namespace Text

/-- The first point that stands for no octets, with the surrogates that follow it. -/
def unencodable? (front : Nat) : List CodePoint → Option PathFault
  | [] => none
  | p :: points =>
    if p.octets?.isSome then unencodable? (front + 1) points
    else some (.unencodable front p (points.takeWhile CodePoint.isSurrogate))

def hasNul (t : Text) : Bool :=
  t.points.contains (.char '\x00')

/-- Why a text is no path. A point without octets is met before any other fault. -/
def pathFault? (t : Text) : Option PathFault :=
  (unencodable? 0 t.points).or (if t.hasNul then some .nul else none)

def octets (t : Text) : FileName :=
  t.points.flatMap fun p => p.octets?.getD []

end Text
end NodeSettings
