import NodeSettings.Yaml.Character

/-!
This module contains the position in a document up to which it is read.
-/

namespace NodeSettings
namespace Yaml

structure Cursor where
  rest : List Char
  index : Nat := 0
  line : Nat := 0
  column : Nat := 0
deriving DecidableEq

namespace Cursor

def next (p : Cursor) : Cursor :=
  match p.rest with
  | [] => p
  | c :: rest =>
    if isBreak c && !(c == '\r' && rest.head? == some '\n') then
      ⟨rest, p.index + 1, p.line + 1, 0⟩
    else if c == byteOrderMark then ⟨rest, p.index + 1, p.line, p.column⟩
    else ⟨rest, p.index + 1, p.line, p.column + 1⟩

def skip (p : Cursor) : Nat → Cursor
  | 0 => p
  | n + 1 => p.next.skip n

/-- The position where only some of the characters are still to come. -/
def skipTo (p : Cursor) (rest : List Char) : Cursor :=
  p.skip (p.rest.length - rest.length)

def skipWhile (p : Cursor) (kind : Char → Bool) : Cursor :=
  p.skip (p.rest.takeWhile kind).length

def skipComment (p : Cursor) : Cursor :=
  if p.rest.head? == some '#' then p.skipWhile (!isBreak ·) else p

def lineBreak? (p : Cursor) : Option (Char × Cursor) :=
  match p.rest with
  | '\r' :: '\n' :: _ => some ('\n', p.skip 2)
  | cs => (Yaml.lineBreak? cs).map fun (c, _) => (c, p.next)

end Cursor
end Yaml
end NodeSettings
