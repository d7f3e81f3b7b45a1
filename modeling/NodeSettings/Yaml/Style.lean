import NodeSettings.Text.Basic
import NodeSettings.Text.Digit
import NodeSettings.Yaml.Character
import NodeSettings.Yaml.Tag

/-!
This module contains the written form of scalars. A scalar is written plain if it reads back as what
it is, between single quotes if it has only printable ASCII characters and line breaks, and between
double quotes otherwise. Long lines are broken at spaces.
-/

namespace NodeSettings
namespace Yaml

inductive Style where
  | plain
  | single
  | double
deriving DecidableEq

namespace Style

def width : Nat := 80

def isWrittenBreak (c : Char) : Bool :=
  c == '\n' || c == '\u0085' || c == '\u2028' || c == '\u2029'

def isPrintableAscii (c : Char) : Bool :=
  ' ' ≤ c && c ≤ '~'

def hasBeside (first second : Char → Bool) : List Char → Bool
  | a :: b :: cs => (first a && second b) || hasBeside first second (b :: cs)
  | _ => false

/--
An indicator inside a text would end it: a colon before a blank, or a comment sign behind one.
-/
def hasInnerIndicator : List Char → Bool
  | a :: b :: cs =>
    (b == ':' && endsWord cs) || (b == '#' && (isBlank a || isBreak a))
      || hasInnerIndicator (b :: cs)
  | _ => false

def hasLeadingIndicator : List Char → Bool
  | [] => false
  | c :: cs =>
    "#,[]\x7b\x7d&*!|>'\"%@`".toList.contains c
      || ((c == '?' || c == ':' || c == '-') && endsWord cs)

def looksLikeMark : List Char → Bool
  | '-' :: '-' :: '-' :: _ => true
  | '.' :: '.' :: '.' :: _ => true
  | _ => false

def isMultiline (cs : List Char) : Bool :=
  cs.any isWrittenBreak

def hasSpecial (cs : List Char) : Bool :=
  cs.any fun c => c != '\n' && !isPrintableAscii c

def allowsPlain (cs : List Char) : Bool :=
  !(hasSpecial cs || isMultiline cs || cs.head? == some ' ' || cs.getLast? == some ' '
    || looksLikeMark cs || hasLeadingIndicator cs || hasInnerIndicator cs)

def allowsSingle (cs : List Char) : Bool :=
  !(hasSpecial cs || hasBeside (· == ' ') isWrittenBreak cs
    || hasBeside isWrittenBreak (· == ' ') cs)

/-- The style of a scalar. A key in front of its sign has to stay on one line. -/
def choose (isKey : Bool) (tag : Tag) (cs : List Char) : Style :=
  let oneLine := !isKey || (!cs.isEmpty && !isMultiline cs)
  if Tag.ofPlain cs = tag && oneLine && allowsPlain cs then plain
  else if allowsSingle cs && (!isKey || !isMultiline cs) then single
  else double

def newLine (indent : Nat) : List Char :=
  '\n' :: List.replicate indent ' '

/--
A text without quotes. `spaces` is the number of spaces since the last word; a single one becomes a
line break if the line is too long.
-/
def writePlain (split : Bool) (indent : Nat) : Nat → Nat → List Char → List Char
  | spaces, _, [] => List.replicate spaces ' '
  | spaces, column, c :: cs =>
    if c == ' ' then writePlain split indent (spaces + 1) column cs
    else if spaces = 1 && split && width < column then
      newLine indent ++ c :: writePlain split indent 0 (indent + 1) cs
    else
      List.replicate spaces ' ' ++ c :: writePlain split indent 0 (column + spaces + 1) cs

/-- What has been seen since the last character that is neither a space nor a line break. -/
inductive Pause where
  | spaces (n : Nat)
  | breaks (n : Nat)
deriving DecidableEq

def Pause.write (indent : Nat) : Pause → List Char
  | spaces n => List.replicate n ' '
  | breaks n => List.replicate n '\n' ++ newLine indent

def Pause.columnAfter (indent column : Nat) : Pause → Nat
  | spaces n => column + n
  | breaks _ => indent

def singleChar (c : Char) : List Char :=
  if c == '\'' then ['\'', '\''] else [c]

/--
A text between single quotes, without the first quote. A single space between two words becomes a
line break if the line is too long; it does not at the start of the text.
-/
def writeSingle (split : Bool) (indent : Nat) :
    Bool → Pause → Nat → List Char → List Char
  | _, pause, _, [] => pause.write indent ++ ['\'']
  | started, pause, column, c :: cs =>
    if c == ' ' then
      match pause with
      | .spaces n => writeSingle split indent started (.spaces (n + 1)) column cs
      | .breaks _ =>
        pause.write indent
          ++ writeSingle split indent true (.spaces 1) (pause.columnAfter indent column) cs
    else if c == '\n' then
      match pause with
      | .breaks n => writeSingle split indent started (.breaks (n + 1)) column cs
      | .spaces _ =>
        pause.write indent
          ++ writeSingle split indent true (.breaks 1) (pause.columnAfter indent column) cs
    else if started && pause == .spaces 1 && split && width < column then
      newLine indent ++ singleChar c
        ++ writeSingle split indent true (.spaces 0) (indent + (singleChar c).length) cs
    else
      pause.write indent ++ singleChar c
        ++ writeSingle split indent true (.spaces 0)
          (pause.columnAfter indent column + (singleChar c).length) cs

def shortEscape? (c : Char) : Option Char :=
  if c == '\x00' then some '0'
  else if c == '\x07' then some 'a'
  else if c == '\x08' then some 'b'
  else if c == '\t' then some 't'
  else if c == '\n' then some 'n'
  else if c == '\x0b' then some 'v'
  else if c == '\x0c' then some 'f'
  else if c == '\r' then some 'r'
  else if c == '\x1b' then some 'e'
  else if c == '"' then some '"'
  else if c == '\\' then some '\\'
  else if c == '\u0085' then some 'N'
  else if c == '\u00a0' then some '_'
  else if c == '\u2028' then some 'L'
  else if c == '\u2029' then some 'P'
  else none

def hexUpper (digits n : Nat) : List Char :=
  (Text.hexadecimal digits n).map Char.toUpper

def numberEscape (n : Nat) : List Char :=
  if n ≤ 0xFF then '\\' :: 'x' :: hexUpper 2 n
  else if n ≤ 0xFFFF then '\\' :: 'u' :: hexUpper 4 n
  else '\\' :: 'U' :: hexUpper 8 n

def doublePoint : CodePoint → Bool × List Char
  | .surrogate n => (true, numberEscape (CodePoint.surrogate n).toNat)
  | .char c =>
    if c != '"' && c != '\\' && isPrintableAscii c then (false, [c])
    else
      match shortEscape? c with
      | some letter => (true, ['\\', letter])
      | none => (true, numberEscape c.toNat)

/-- A line break that does not count, before the points; a space in front is kept by a sign. -/
def hiddenBreak (indent : Nat) (points : List CodePoint) : List Char × Nat :=
  if points.head? == some (.char ' ') then ('\\' :: newLine indent ++ ['\\'], indent + 1)
  else ('\\' :: newLine indent, indent)

/--
A text between double quotes, without the first quote. A line that is too long is broken before a
space and around an escape, but neither before the first character nor before the last.
-/
def writeDouble (split : Bool) (indent : Nat) :
    Bool → Bool → Nat → List CodePoint → List Char
  | _, _, _, [] => ['"']
  | started, afterEscape, column, p :: points =>
    let inside := split && started && !points.isEmpty
    let (escaped, written) := doublePoint p
    if escaped then
      let column := column + written.length
      if inside && width + 1 < column then
        let (line, column) := hiddenBreak indent points
        written ++ line ++ writeDouble split indent true true column points
      else written ++ writeDouble split indent true true column points
    else if inside && (p = .char ' ' || afterEscape) && width < column then
      let (line, column) := hiddenBreak indent (p :: points)
      line ++ written ++ writeDouble split indent true false (column + 1) points
    else written ++ writeDouble split indent true false (column + 1) points

/--
The written form of a scalar that begins at a column; further lines are indented. A key in front of
its sign is not broken.
-/
def write (isKey : Bool) (indent column : Nat) (tag : Tag) (text : Text) : List Char :=
  let double := '"' :: writeDouble (!isKey) indent false false (column + 1) text.points
  match text.chars? with
  | none => double
  | some cs =>
    match choose isKey tag cs with
    | plain => writePlain (!isKey) indent 0 column cs
    | single => '\'' :: writeSingle (!isKey) indent false (.spaces 0) (column + 1) cs
    | .double => double

def writeAs (style : Style) (split : Bool) (indent column : Nat) (text : Text) : List Char :=
  match style with
  | plain => writePlain split indent 0 column text.chars
  | single => '\'' :: writeSingle split indent false (.spaces 0) (column + 1) text.chars
  | .double => '"' :: writeDouble split indent false false (column + 1) text.points

end Style
end Yaml
end NodeSettings
