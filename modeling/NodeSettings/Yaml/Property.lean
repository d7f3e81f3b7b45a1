import NodeSettings.Yaml.Cursor
import NodeSettings.Yaml.Token

/-!
This module contains the reading of what stands beside the nodes of a document: names of anchors,
tags, and the directives in front. Each reading gives what it read and the characters that follow.
-/

namespace NodeSettings
namespace Yaml
namespace Property

def nonempty (kind : Char → Bool) (cs : List Char) : Except Fault (String × List Char) :=
  let (name, rest) := cs.span kind
  if name.isEmpty then throw .malformed else return (String.ofList name, rest)

/-- The name of an anchor, which ends before a blank, a break or one of some signs. -/
def anchorName (cs : List Char) : Except Fault (String × List Char) := do
  let (name, rest) ← nonempty isNameChar cs
  let ends := endsWord rest || rest.head?.any fun c => "?:,]\x7d%@`".toList.contains c
  if ends then return (name, rest) else throw .malformed

def escapedBytes : List Char → Except Fault (List Nat × List Char)
  | '%' :: a :: b :: cs =>
    match Text.hexValue? a, Text.hexValue? b with
    | some m, some n => do
      let (bytes, rest) ← escapedBytes cs
      return ((16 * m + n) :: bytes, rest)
    | _, _ => throw .malformed
  | '%' :: _ => throw .malformed
  | cs => return ([], cs)

def tagBody : Nat → List Char → Except Fault (List Char × List Char)
  | 0, cs => return ([], cs)
  | _ + 1, [] => return ([], [])
  | fuel + 1, c :: cs =>
    if c == '%' then do
      let (bytes, rest) ← escapedBytes (c :: cs)
      match String.fromUTF8? ⟨(bytes.map UInt8.ofNat).toArray⟩ with
      | none => throw .malformed
      | some chars =>
        let (more, rest) ← tagBody fuel rest
        return (chars.toList ++ more, rest)
    else if isTagChar c then do
      let (more, rest) ← tagBody fuel cs
      return (c :: more, rest)
    else return ([], c :: cs)

def tagUri (cs : List Char) : Except Fault (String × List Char) := do
  let (body, rest) ← tagBody (cs.length + 1) cs
  if cs.head?.any isTagChar then return (String.ofList body, rest) else throw .malformed

/-- A handle of tags: a single sign, or a name between two. -/
def handle (cs : List Char) : Except Fault (String × List Char) :=
  match cs with
  | '!' :: rest =>
    if rest.head? == some ' ' then return ("!", rest)
    else
      match rest.span isNameChar with
      | (name, '!' :: rest) => return (String.ofList ('!' :: name ++ ['!']), rest)
      | _ => throw .malformed
  | _ => throw .malformed

def hasHandle (cs : List Char) : Bool :=
  (cs.takeWhile fun c => !(c == ' ' || isBreak c)).contains '!'

def tag (cs : List Char) : Except Fault (Token × List Char) := do
  let (token, rest) ← match cs with
    | '<' :: cs => do
      let (suffix, rest) ← tagUri cs
      match rest with
      | '>' :: rest => pure (Token.tag none suffix, rest)
      | _ => throw .malformed
    | cs =>
      if endsWord cs then pure (Token.tag none "!", cs)
      else if hasHandle cs then do
        let (name, rest) ← handle ('!' :: cs)
        let (suffix, rest) ← tagUri rest
        pure (Token.tag (some name) suffix, rest)
      else do
        let (suffix, rest) ← tagUri cs
        pure (Token.tag (some "!") suffix, rest)
  if endsField rest then return (token, rest) else throw .malformed

def versionNumber (cs : List Char) : Except Fault (Nat × List Char) :=
  let (digits, rest) := cs.span Char.isDigit
  if digits.isEmpty then throw .malformed
  else if maxDigits < digits.length then throw (.tooManyDigits digits.length)
  else return (Text.decimalValue digits, rest)

def version (cs : List Char) : Except Fault (Directive × List Char) := do
  let (major, rest) ← versionNumber (cs.dropWhile (· == ' '))
  match rest with
  | '.' :: rest =>
    let (minor, rest) ← versionNumber rest
    if endsField rest then return (.version major minor, rest) else throw .malformed
  | _ => throw .malformed

def handleDefinition (cs : List Char) : Except Fault (Directive × List Char) := do
  let (name, rest) ← handle (cs.dropWhile (· == ' '))
  if rest.head? != some ' ' then throw .malformed
  let (leader, rest) ← tagUri (rest.dropWhile (· == ' '))
  if endsField rest then return (.handle name leader, rest) else throw .malformed

def directive (cs : List Char) : Except Fault (Directive × List Char) := do
  let (name, rest) ← nonempty isNameChar cs
  if !endsField rest then throw .malformed
  let (directive, rest) ← match name with
    | "YAML" => version rest
    | "TAG" => handleDefinition rest
    | _ => pure (Directive.unknown, rest.dropWhile (!isBreak ·))
  let rest := rest.dropWhile (· == ' ')
  let rest := if rest.head? == some '#' then rest.dropWhile (!isBreak ·) else rest
  if !endsLine rest then throw .malformed
  match lineBreak? rest with
  | some (_, rest) => return (directive, rest)
  | none => return (directive, rest)

end Property
end Yaml
end NodeSettings
