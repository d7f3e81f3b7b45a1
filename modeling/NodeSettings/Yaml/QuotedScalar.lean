import NodeSettings.Text.Basic
import NodeSettings.Text.Digit
import NodeSettings.Yaml.Character
import NodeSettings.Yaml.Fault

/-!
This module contains the reading of quoted scalars. The characters between the quotes are read as
pieces first, which takes care of escapes; line breaks among the pieces are folded afterwards.
-/

namespace NodeSettings
namespace Yaml

inductive Piece where
  /-- A point that is kept, whether written as it is or by an escape. -/
  | plain (p : CodePoint)
  | blank (c : Char)
  | newline (c : Char)
  | joined
deriving DecidableEq

namespace Piece

def hexNumber? (digits : List Char) : Option Nat :=
  (digits.mapM Text.hexValue?).map (Text.ofDigits 16 0)

def ofNumber (n : Nat) : Except Fault Piece :=
  match CodePoint.ofNat? n with
  | some p => return plain p
  | none => if 0x7FFFFFFF < n then throw .hugeCharacter else throw .noSuchCharacter

def ofHex (digits : List Char) : Except Fault Piece :=
  match hexNumber? digits with
  | none => throw .malformed
  | some n => ofNumber n

def escaped? : Char → Option Char
  | '0' => some '\x00'
  | 'a' => some '\x07'
  | 'b' => some '\x08'
  | 't' => some '\t'
  | '\t' => some '\t'
  | 'n' => some '\n'
  | 'v' => some '\x0b'
  | 'f' => some '\x0c'
  | 'r' => some '\r'
  | 'e' => some '\x1b'
  | ' ' => some ' '
  | '"' => some '"'
  | '\\' => some '\\'
  | '/' => some '/'
  | 'N' => some '\u0085'
  | '_' => some '\u00a0'
  | 'L' => some '\u2028'
  | 'P' => some '\u2029'
  | _ => none

/-- The pieces in front of the rest, as long as no document starts or ends behind a line break. -/
def behindBreak (piece : Piece) (rest : List Char)
    (pieces : Except Fault (List Piece × List Char)) : Except Fault (List Piece × List Char) := do
  if startsWithMark rest then throw .malformed
  let (more, after) ← pieces
  return (piece :: more, after)

def inFront (piece : Except Fault Piece) (pieces : Except Fault (List Piece × List Char)) :
    Except Fault (List Piece × List Char) := do
  let piece ← piece
  let (more, after) ← pieces
  return (piece :: more, after)

def double : List Char → Except Fault (List Piece × List Char)
  | [] => throw .malformed
  | '"' :: cs => return ([], cs)
  | '\\' :: '\r' :: '\n' :: cs => behindBreak joined cs (double cs)
  | '\\' :: 'x' :: a :: b :: cs => inFront (ofHex [a, b]) (double cs)
  | '\\' :: 'u' :: a :: b :: c :: d :: cs => inFront (ofHex [a, b, c, d]) (double cs)
  | '\\' :: 'U' :: a :: b :: c :: d :: e :: f :: g :: h :: cs =>
    inFront (ofHex [a, b, c, d, e, f, g, h]) (double cs)
  | '\\' :: c :: cs =>
    if isBreak c then behindBreak joined cs (double cs)
    else
      match escaped? c with
      | some c => inFront (pure (plain (.char c))) (double cs)
      | none => throw .malformed
  | '\r' :: '\n' :: cs => behindBreak (newline '\n') cs (double cs)
  | c :: cs =>
    if isBlank c then inFront (pure (blank c)) (double cs)
    else
      match lineBreak? [c] with
      | some (b, _) => behindBreak (newline b) cs (double cs)
      | none => inFront (pure (plain (.char c))) (double cs)

def single : List Char → Except Fault (List Piece × List Char)
  | [] => throw .malformed
  | '\'' :: '\'' :: cs => inFront (pure (plain (.char '\''))) (single cs)
  | '\'' :: cs => return ([], cs)
  | '\r' :: '\n' :: cs => behindBreak (newline '\n') cs (single cs)
  | c :: cs =>
    if isBlank c then inFront (pure (blank c)) (single cs)
    else
      match lineBreak? [c] with
      | some (b, _) => behindBreak (newline b) cs (single cs)
      | none => inFront (pure (plain (.char c))) (single cs)

end Piece

/-- What the folding of lines has seen last. -/
inductive Fold where
  | text
  | blanks (seen : List Char)
  /-- Line breaks; one alone becomes a space, of several the first is lost. -/
  | breaks (first : Char) (more : List Char)
  | hidden (more : List Char)
deriving DecidableEq

namespace Fold

def folded (first : Char) (more : List Char) : List Char :=
  if first != '\n' then first :: more
  else if more.isEmpty then [' ']
  else more

def flush (state : Fold) : List CodePoint :=
  List.map .char <|
    match state with
    | text => []
    | blanks seen => seen.reverse
    | breaks first more => folded first more.reverse
    | hidden more => more.reverse

def join (state : Fold) : List Piece → List CodePoint
  | [] => state.flush
  | .plain p :: pieces => state.flush ++ p :: join text pieces
  | .joined :: pieces => state.flush ++ join (hidden []) pieces
  | .blank c :: pieces =>
    match state with
    | text => join (blanks [c]) pieces
    | blanks seen => join (blanks (c :: seen)) pieces
    | state => join state pieces
  | .newline c :: pieces =>
    match state with
    | text | blanks _ => join (breaks c []) pieces
    | breaks first more => join (breaks first (c :: more)) pieces
    | hidden more => join (hidden (c :: more)) pieces

end Fold

def readDouble (cs : List Char) : Except Fault (Text × List Char) := do
  let (pieces, rest) ← Piece.double cs
  return (⟨Fold.join .text pieces⟩, rest)

def readSingle (cs : List Char) : Except Fault (Text × List Char) := do
  let (pieces, rest) ← Piece.single cs
  return (⟨Fold.join .text pieces⟩, rest)

end Yaml
end NodeSettings
