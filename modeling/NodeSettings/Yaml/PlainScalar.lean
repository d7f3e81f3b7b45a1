import NodeSettings.Yaml.Cursor

/-!
This module contains the reading of plain scalars: words without quotes, over one line or several.
-/

namespace NodeSettings
namespace Yaml
namespace Plain

def isFlowIndicator (c : Char) : Bool :=
  c == ',' || c == '[' || c == ']' || c == '\x7b' || c == '\x7d'

def word (flow : Bool) : List Char → List Char
  | [] => []
  | c :: cs =>
    if isBlank c || isBreak c then []
    else if c == ':' && (endsWord cs || (flow && cs.head?.any isFlowIndicator)) then []
    else if flow && (isFlowIndicator c || c == '?') then []
    else c :: word flow cs

structure Gap where
  /-- What the gap becomes in the text; nothing if no word can follow. -/
  text : List Char
  after : Cursor
  crossesLine : Bool

def emptyLines (fuel : Nat) (p : Cursor) : Option (List Char) × Cursor :=
  match fuel with
  | 0 => (some [], p)
  | fuel + 1 =>
    let p := p.skipWhile (· == ' ')
    match p.lineBreak? with
    | none => (some [], p)
    | some (c, p) =>
      if startsWithMark p.rest then (none, p)
      else
        let (more, p) := emptyLines fuel p
        (more.map (c :: ·), p)

def gap (p : Cursor) : Gap :=
  let spaces := p.rest.takeWhile (· == ' ')
  let p := p.skip spaces.length
  match p.lineBreak? with
  | none => ⟨spaces, p, false⟩
  | some (c, p) =>
    if startsWithMark p.rest then ⟨[], p, true⟩
    else
      match emptyLines (p.rest.length + 1) p with
      | (none, p) => ⟨[], p, true⟩
      | (some breaks, p) =>
        let text := if c != '\n' then c :: breaks else if breaks.isEmpty then [' '] else breaks
        ⟨text, p, true⟩

structure Scan where
  text : List Char
  after : Cursor
  crossesLine : Bool

/--
The words and gaps of a plain scalar, `before` being the gap in front of the next word. Outside flow
collections every further line has to be indented.
-/
def scan (flow : Bool) (indent : Nat) : Nat → List Char → Bool → Cursor → Scan
  | 0, _, crossed, p => ⟨[], p, crossed⟩
  | fuel + 1, before, crossed, p =>
    let chars := word flow p.rest
    if p.rest.head? == some '#' || chars.isEmpty then ⟨[], p, crossed⟩
    else
      let g := gap (p.skip chars.length)
      let ends := g.text.isEmpty || g.after.rest.head? == some '#'
        || (!flow && g.after.column < indent)
      if ends then ⟨before ++ chars, g.after, g.crossesLine⟩
      else
        let more := scan flow indent fuel g.text g.crossesLine g.after
        { more with text := before ++ chars ++ more.text }

end Plain

def readPlain (flow : Bool) (indent : Nat) (p : Cursor) : Plain.Scan :=
  Plain.scan flow indent (p.rest.length + 1) [] false p

def startsPlain (flow : Bool) : List Char → Bool
  | [] => false
  | c :: cs =>
    !(isBlank c || isBreak c || "-?:,[]\x7b\x7d#&*!|>'\"%@`".toList.contains c)
      || (!endsWord cs && (c == '-' || (!flow && (c == '?' || c == ':'))))

end Yaml
end NodeSettings
