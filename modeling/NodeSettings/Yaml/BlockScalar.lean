import NodeSettings.Text.Digit
import NodeSettings.Yaml.Cursor
import NodeSettings.Yaml.Fault

/-!
This module contains the reading of block scalars: indented lines that are kept or folded.
-/

namespace NodeSettings
namespace Yaml
namespace Block

inductive Chomping where
  | clip
  | strip
  | keep
deriving DecidableEq

structure Header where
  chomping : Chomping
  /-- The indentation of the lines relative to the parent, where it is given. -/
  increment : Option Nat

def chomping? : List Char → Option (Chomping × List Char)
  | '+' :: cs => some (.keep, cs)
  | '-' :: cs => some (.strip, cs)
  | _ => none

/-- The digit of an indentation, if the characters begin with one; it is not zero. -/
def increment? : List Char → Except Fault (Option (Nat × List Char))
  | c :: cs =>
    if c == '0' then throw .malformed
    else if '1' ≤ c && c ≤ '9' then return some (c.toNat - 48, cs)
    else return none
  | [] => return none

def header (cs : List Char) : Except Fault (Header × List Char) := do
  let (header, rest) ← match chomping? cs with
    | some (chomping, cs) =>
      match ← increment? cs with
      | some (n, cs) => pure (⟨chomping, some n⟩, cs)
      | none => pure (⟨chomping, none⟩, cs)
    | none =>
      match ← increment? cs with
      | some (n, cs) =>
        match chomping? cs with
        | some (chomping, cs) => pure (⟨chomping, some n⟩, cs)
        | none => pure (⟨.clip, some n⟩, cs)
      | none => pure (⟨.clip, none⟩, cs)
  if endsField rest then return (header, rest) else throw .malformed

def restOfLine (p : Cursor) : Except Fault Cursor :=
  let p := (p.skipWhile (· == ' ')).skipComment
  match p.lineBreak? with
  | some (_, p) => return p
  | none => if p.rest.isEmpty then return p else throw .malformed

/-- The breaks of the empty lines in front, the largest indentation of them, and what follows. -/
def leadingBreaks : Nat → Nat → Cursor → List Char × Nat × Cursor
  | 0, widest, p => ([], widest, p)
  | fuel + 1, widest, p =>
    let p := p.skipWhile (· == ' ')
    let widest := max widest p.column
    match p.lineBreak? with
    | none => ([], widest, p)
    | some (c, p) =>
      let (more, widest, p) := leadingBreaks fuel widest p
      (c :: more, widest, p)

def skipIndent (indent : Nat) (p : Cursor) : Cursor :=
  p.skip ((p.rest.takeWhile (· == ' ')).length.min (indent - p.column))

def breaks (indent : Nat) : Nat → Cursor → List Char × Cursor
  | 0, p => ([], p)
  | fuel + 1, p =>
    let p := skipIndent indent p
    match p.lineBreak? with
    | none => ([], p)
    | some (c, p) =>
      let (more, p) := breaks indent fuel p
      (c :: more, p)

def lines (folded : Bool) (indent : Nat) (chomping : Chomping) :
    Nat → List Char → Cursor → List Char × Cursor
  | 0, _, p => ([], p)
  | fuel + 1, before, p =>
    let line := p.rest.takeWhile (!isBreak ·)
    let indented := line.head?.any isBlank
    let p := p.skip line.length
    let (end?, p) := match p.lineBreak? with
      | some (c, p) => (some c, p)
      | none => (none, p)
    let (more, p) := breaks indent fuel p
    let ending := end?.toList
    if p.column = indent && !p.rest.isEmpty then
      let joint :=
        if folded && ending == ['\n'] && !indented && !p.rest.head?.any isBlank then
          (if more.isEmpty then [' '] else [])
        else ending
      let (text, p) := lines folded indent chomping fuel more p
      (before ++ line ++ joint ++ text, p)
    else
      let tail := match chomping with
        | .strip => []
        | .clip => ending
        | .keep => ending ++ more
      (before ++ line ++ tail, p)

end Block

/-- The text of the block scalar whose sign is behind the position, and the position after it. -/
def readBlock (folded : Bool) (parent : Nat) (p : Cursor) :
    Except Fault (List Char × Cursor) := do
  let (header, rest) ← Block.header p.rest
  let p ← Block.restOfLine (p.skipTo rest)
  let fuel := p.rest.length + 1
  let least := max 1 parent
  let (before, indent, p) := match header.increment with
    | none =>
      let (before, widest, p) := Block.leadingBreaks fuel 0 p
      (before, max least widest, p)
    | some n =>
      let indent := least + n - 1
      let (before, p) := Block.breaks indent fuel p
      (before, indent, p)
  if p.column = indent && !p.rest.isEmpty then
    return Block.lines folded indent header.chomping fuel before p
  else
    return (match header.chomping with
      | .keep => before
      | _ => [], p)

end Yaml
end NodeSettings
