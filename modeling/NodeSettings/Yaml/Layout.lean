import NodeSettings.Yaml.Style

/-!
This module contains the written form of trees of nodes: collections as indented blocks, one entry a
line, and empty ones as a pair of brackets.
-/

namespace NodeSettings
namespace Yaml

inductive Tree where
  | scalar (tag : Tag) (text : Text)
  /-- A scalar whose tag is written, since its text alone does not tell it. -/
  | tagged (tag : Tag) (style : Style) (text : Text)
  | block (tag : Tag) (lines : List (List Char))
  | sequence (items : List Tree)
  | mapping (entries : List (Tree × Tree))
  | set (entries : List (Tree × Tree))

namespace Layout

def step : Nat := 2

def shortTag : Tag → List Char
  | .null => "!!null".toList
  | .bool => "!!bool".toList
  | .int => "!!int".toList
  | .float => "!!float".toList
  | .binary => "!!binary".toList
  | .timestamp => "!!timestamp".toList
  | .seq => "!!seq".toList
  | .map => "!!map".toList
  | .set => "!!set".toList
  | _ => "!!str".toList

def maxKeyLength : Nat := 128

def isSimpleKey : Tree → Bool
  | .scalar tag text | .tagged tag _ text =>
    let cs := text.chars
    (shortTag tag).length + cs.length < maxKeyLength && !cs.isEmpty && !Style.isMultiline cs
  | .block .. => false
  | .sequence items => items.isEmpty
  | .mapping entries | .set entries => entries.isEmpty

inductive Opening where
  | inline
  | newLine
deriving DecidableEq

def Opening.write (indent : Nat) : Opening → List Char
  | inline => [' ']
  | newLine => Style.newLine indent

def joinLines (indent : Nat) : List (List Char) → List Char
  | [] => []
  | [line] => line
  | line :: lines => line ++ Style.newLine indent ++ joinLines indent lines

def writeTagged (isKey : Bool) (indent column : Nat) (tag : Tag) (style : Style) (text : Text) :
    List Char :=
  let sign := shortTag tag
  sign ++ ' ' :: Style.writeAs style (!isKey) indent (column + sign.length + 1) text

def writeBlock (indent : Nat) (tag : Tag) (lines : List (List Char)) : List Char :=
  shortTag tag ++ ' ' :: '|' :: lines.flatMap fun line => Style.newLine indent ++ line

def simpleKey : Tree → List Char
  | .scalar tag text => Style.write true 0 0 tag text
  | .tagged tag style text => writeTagged true 0 0 tag style text
  | .block tag lines => writeBlock 0 tag lines
  | .sequence .. => ['[', ']']
  | .mapping .. => ['\x7b', '\x7d']
  | .set .. => shortTag .set ++ [' ', '\x7b', '\x7d']

mutual

/--
A node behind a sign that ends at a column. Blocks behind the sign of a simple key begin on a new
line, and sequences there are not indented.
-/
def write (opening : Opening) (indent column : Nat) : Tree → List Char
  | .scalar tag text => ' ' :: Style.write false (indent + step) (column + 1) tag text
  | .tagged tag style text =>
    ' ' :: writeTagged false (indent + step) (column + 1) tag style text
  | .block tag lines => ' ' :: writeBlock (indent + step) tag lines
  | .sequence items =>
    if items.isEmpty then [' ', '[', ']']
    else
      let inner := if opening = .newLine then indent else indent + step
      opening.write inner ++ joinLines inner (writeItems inner items)
  | .mapping entries =>
    if entries.isEmpty then [' ', '\x7b', '\x7d']
    else
      let inner := indent + step
      opening.write inner ++ joinLines inner (writeEntries inner entries)
  | .set entries =>
    let inner := indent + step
    ' ' :: shortTag .set
      ++ if entries.isEmpty then [' ', '\x7b', '\x7d']
        else Style.newLine inner ++ joinLines inner (writeEntries inner entries)

def writeItems (indent : Nat) : List Tree → List (List Char)
  | [] => []
  | item :: items => ('-' :: write .inline indent (indent + 1) item) :: writeItems indent items

def writeEntries (indent : Nat) : List (Tree × Tree) → List (List Char)
  | [] => []
  | (key, value) :: entries =>
    let line :=
      if isSimpleKey key then
        let written := simpleKey key
        written ++ ':' :: write .newLine indent (indent + written.length + 1) value
      else
        '?' :: write .inline indent (indent + 1) key ++ Style.newLine indent
          ++ ':' :: write .inline indent (indent + 1) value
    line :: writeEntries indent entries

end

def ending (written : List Char) : Tree → List Char
  | .scalar .. =>
    if written.head?.any fun c => c == '\'' || c == '"' then ['\n'] else "\n...\n".toList
  | _ => ['\n']

def root : Tree → List Char
  | .scalar tag text => Style.write false step 0 tag text
  | .tagged tag style text => writeTagged false step 0 tag style text
  | .block tag lines => writeBlock step tag lines
  | .sequence items =>
    if items.isEmpty then ['[', ']'] else joinLines 0 (writeItems 0 items)
  | .mapping entries =>
    if entries.isEmpty then ['\x7b', '\x7d'] else joinLines 0 (writeEntries 0 entries)
  | .set entries =>
    shortTag .set
      ++ if entries.isEmpty then [' ', '\x7b', '\x7d']
        else Style.newLine 0 ++ joinLines 0 (writeEntries 0 entries)

def document (tree : Tree) : List Char :=
  let written := root tree
  written ++ ending written tree

end Layout
end Yaml
end NodeSettings
