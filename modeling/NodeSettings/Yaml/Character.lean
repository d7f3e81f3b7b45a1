/-!
This module contains the characters of YAML: which may stand in a document, which end a line, and
which end a word.
-/

namespace NodeSettings
namespace Yaml

def isAllowed (c : Char) : Bool :=
  let n := c.toNat
  n == 9 || n == 10 || n == 13 || (0x20 ≤ n && n ≤ 0x7E) || n == 0x85
    || (0xA0 ≤ n && n ≤ 0xD7FF) || (0xE000 ≤ n && n ≤ 0xFFFD) || 0x10000 ≤ n

/-- The mark that may stand in front of a document and has no width. -/
def byteOrderMark : Char := '\ufeff'

def isBreak (c : Char) : Bool :=
  c == '\n' || c == '\r' || c == '\u0085' || c == '\u2028' || c == '\u2029'

def isBlank (c : Char) : Bool :=
  c == ' ' || c == '\t'

def endsLine : List Char → Bool
  | [] => true
  | c :: _ => isBreak c

def endsField : List Char → Bool
  | [] => true
  | c :: _ => c == ' ' || isBreak c

def endsWord : List Char → Bool
  | [] => true
  | c :: _ => isBlank c || isBreak c

def startsWithMark : List Char → Bool
  | '-' :: '-' :: '-' :: cs => endsWord cs
  | '.' :: '.' :: '.' :: cs => endsWord cs
  | _ => false

def isNameChar (c : Char) : Bool :=
  c.isAlphanum || c == '-' || c == '_'

def isTagChar (c : Char) : Bool :=
  c.isAlphanum || "-;/?:@&=+$,_.!~*'()[]%".toList.contains c

/--
The line break that the characters begin with, as the character it stands for, and what follows it.
The breaks of one platform or another all stand for a line feed; the two separators stay.
-/
def lineBreak? : List Char → Option (Char × List Char)
  | '\r' :: '\n' :: cs => some ('\n', cs)
  | c :: cs =>
    if c == '\r' || c == '\n' || c == '\u0085' then some ('\n', cs)
    else if c == '\u2028' || c == '\u2029' then some (c, cs)
    else none
  | [] => none

end Yaml
end NodeSettings
