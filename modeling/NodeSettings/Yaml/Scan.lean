import NodeSettings.Yaml.BlockScalar
import NodeSettings.Yaml.PlainScalar
import NodeSettings.Yaml.Property
import NodeSettings.Yaml.QuotedScalar

/-!
This module contains the reading of characters as tokens. Indentation opens and closes block
collections, and a node turns out to be a key only when the sign behind it is reached; its token is
then put in front of the tokens of the node.
-/

namespace NodeSettings
namespace Yaml

/-- A place where a key may have begun that has no sign in front of it. -/
structure Candidate where
  position : Nat
  isRequired : Bool
  index : Nat
  line : Nat
  column : Nat
deriving DecidableEq

structure Scanner where
  cursor : Cursor
  tokens : List Token := []
  count : Nat := 0
  /-- The indentation of the innermost block collection; none has -1. -/
  indent : Int := -1
  outerIndents : List Int := []
  allowsKey : Bool := true
  candidate : Option Candidate := none
  /-- The keys that may have begun in the collections around it, one for each flow collection. -/
  outerCandidates : List (Option Candidate) := []

namespace Scanner

def inFlow (s : Scanner) : Bool :=
  !s.outerCandidates.isEmpty

def push (s : Scanner) (t : Token) : Scanner :=
  { s with tokens := t :: s.tokens, count := s.count + 1 }

def insertAt (s : Scanner) (position : Nat) (t : Token) : Scanner :=
  let behind := s.count - position
  { s with tokens := s.tokens.take behind ++ t :: s.tokens.drop behind, count := s.count + 1 }

def advance (s : Scanner) (n : Nat) : Scanner :=
  { s with cursor := s.cursor.skip n }

/-- The position behind blanks, comments and line breaks; a line break allows a key again. -/
def skipGaps : Nat → Scanner → Scanner
  | 0, s => s
  | fuel + 1, s =>
    let p := (s.cursor.skipWhile (· == ' ')).skipComment
    match p.lineBreak? with
    | none => { s with cursor := p }
    | some (_, p) => skipGaps fuel { s with cursor := p, allowsKey := s.allowsKey || !s.inFlow }

def toNextToken (s : Scanner) : Scanner :=
  let p := s.cursor
  let p := if p.index == 0 && p.rest.head? == some byteOrderMark then p.next else p
  skipGaps (p.rest.length + 1) { s with cursor := p }

/-- A key cannot go on in another line, nor for more than 1024 characters. -/
def Candidate.isStale (p : Cursor) (c : Candidate) : Bool :=
  c.line != p.line || 1024 < p.index - c.index

def freshCandidate (p : Cursor) : Option Candidate → Except Fault (Option Candidate)
  | none => return none
  | some c =>
    if !Candidate.isStale p c then return some c
    else if c.isRequired then throw .malformed
    else return none

def dropStale (s : Scanner) : Except Fault Scanner := do
  let outer ← s.outerCandidates.mapM (freshCandidate s.cursor)
  let candidate ← freshCandidate s.cursor s.candidate
  return { s with candidate, outerCandidates := outer }

def dropCandidate (s : Scanner) : Except Fault Scanner :=
  match s.candidate with
  | some c => if c.isRequired then throw .malformed else return { s with candidate := none }
  | none => return s

def saveCandidate (s : Scanner) : Except Fault Scanner :=
  if !s.allowsKey then return s
  else do
    let s ← s.dropCandidate
    let p := s.cursor
    let isRequired := !s.inFlow && s.indent == p.column
    return { s with candidate := some ⟨s.count, isRequired, p.index, p.line, p.column⟩ }

def unwindTo (column : Int) : Nat → Scanner → Scanner
  | 0, s => s
  | fuel + 1, s =>
    if column < s.indent then
      match s.outerIndents with
      | [] => s
      | indent :: outer =>
        unwindTo column fuel { s.push .blockEnd with indent, outerIndents := outer }
    else s

def unwind (s : Scanner) (column : Int) : Scanner :=
  if s.inFlow then s else unwindTo column (s.outerIndents.length + 1) s

/-- A block collection may begin at a column: it does if that is indented further. -/
def opensAt (s : Scanner) (column : Nat) : Bool :=
  !s.inFlow && s.indent < column

def enter (s : Scanner) (column : Nat) : Scanner :=
  { s with indent := column, outerIndents := s.indent :: s.outerIndents }

def atEnd (s : Scanner) : Except Fault Scanner := do
  let s ← (s.unwind (-1)).dropCandidate
  return s.push .streamEnd

def atDirective (s : Scanner) : Except Fault Scanner := do
  let s ← (s.unwind (-1)).dropCandidate
  let (directive, rest) ← Property.directive (s.cursor.rest.drop 1)
  return { s with cursor := s.cursor.skipTo rest, allowsKey := false }.push (.directive directive)

def atMark (s : Scanner) (t : Token) : Except Fault Scanner := do
  let s ← (s.unwind (-1)).dropCandidate
  return ({ s with allowsKey := false }.advance 3).push t

def atFlowStart (s : Scanner) (t : Token) : Except Fault Scanner := do
  let s ← s.saveCandidate
  let s := { s with
    candidate := none, outerCandidates := s.candidate :: s.outerCandidates, allowsKey := true }
  return (s.advance 1).push t

def atFlowEnd (s : Scanner) (t : Token) : Except Fault Scanner := do
  let s ← s.dropCandidate
  match s.outerCandidates with
  | [] => throw .malformed
  | candidate :: outer =>
    let s := { s with candidate, outerCandidates := outer, allowsKey := false }
    return (s.advance 1).push t

def atFlowEntry (s : Scanner) : Except Fault Scanner := do
  let s ← { s with allowsKey := true }.dropCandidate
  return (s.advance 1).push .flowEntry

def atBlockEntry (s : Scanner) : Except Fault Scanner := do
  if !s.inFlow && !s.allowsKey then throw .malformed
  let column := s.cursor.column
  let s := if s.opensAt column then (s.enter column).push .blockSequenceStart else s
  let s ← { s with allowsKey := true }.dropCandidate
  return (s.advance 1).push .blockEntry

def atKey (s : Scanner) : Except Fault Scanner := do
  if !s.inFlow && !s.allowsKey then throw .malformed
  let column := s.cursor.column
  let s := if s.opensAt column then (s.enter column).push .blockMappingStart else s
  let s ← { s with allowsKey := !s.inFlow }.dropCandidate
  return (s.advance 1).push .key

def atValue (s : Scanner) : Except Fault Scanner :=
  match s.candidate with
  | some c =>
    let s := { s with candidate := none }.insertAt c.position .key
    let s :=
      if s.opensAt c.column then (s.enter c.column).insertAt c.position .blockMappingStart else s
    return ({ s with allowsKey := false }.advance 1).push .value
  | none => do
    if !s.inFlow && !s.allowsKey then throw .malformed
    let column := s.cursor.column
    let s := if s.opensAt column then (s.enter column).push .blockMappingStart else s
    return ({ s with allowsKey := !s.inFlow }.advance 1).push .value

def atProperty (s : Scanner) (read : List Char → Except Fault (Token × List Char)) :
    Except Fault Scanner := do
  let s ← s.saveCandidate
  let (t, rest) ← read (s.cursor.rest.drop 1)
  return { s with cursor := s.cursor.skipTo rest, allowsKey := false }.push t

def quotedToken (read : List Char → Except Fault (Text × List Char)) (cs : List Char) :
    Except Fault (Token × List Char) := do
  let (text, rest) ← read cs
  return (.scalar text false, rest)

def nameToken (kind : String → Token) (cs : List Char) : Except Fault (Token × List Char) := do
  let (name, rest) ← Property.anchorName cs
  return (kind name, rest)

def atBlockScalar (s : Scanner) (folded : Bool) : Except Fault Scanner := do
  let s ← { s with allowsKey := true }.dropCandidate
  let (text, p) ← readBlock folded (s.indent + 1).toNat s.cursor.next
  return { s with cursor := p }.push (.scalar (.ofChars text) false)

def atPlain (s : Scanner) : Except Fault Scanner := do
  let s ← s.saveCandidate
  let scan := readPlain s.inFlow (s.indent + 1).toNat s.cursor
  let s := { s with cursor := scan.after, allowsKey := scan.crossesLine }
  return s.push (.scalar (.ofChars scan.text) true)

def token (s : Scanner) : Except Fault Scanner :=
  let cs := s.cursor.rest
  let atLineStart := s.cursor.column == 0
  let rest := cs.drop 1
  match cs.head? with
  | none => s.atEnd
  | some c =>
    if atLineStart && c == '%' then s.atDirective
    else if atLineStart && c == '-' && startsWithMark cs then s.atMark .documentStart
    else if atLineStart && c == '.' && startsWithMark cs then s.atMark .documentEnd
    else if c == '[' then s.atFlowStart .flowSequenceStart
    else if c == '\x7b' then s.atFlowStart .flowMappingStart
    else if c == ']' then s.atFlowEnd .flowSequenceEnd
    else if c == '\x7d' then s.atFlowEnd .flowMappingEnd
    else if c == ',' then s.atFlowEntry
    else if c == '-' && endsWord rest then s.atBlockEntry
    else if c == '?' && (s.inFlow || endsWord rest) then s.atKey
    else if c == ':' && (s.inFlow || endsWord rest) then s.atValue
    else if c == '*' then s.atProperty (nameToken .alias)
    else if c == '&' then s.atProperty (nameToken .anchor)
    else if c == '!' then s.atProperty Property.tag
    else if c == '|' && !s.inFlow then s.atBlockScalar false
    else if c == '>' && !s.inFlow then s.atBlockScalar true
    else if c == '\'' then s.atProperty (quotedToken readSingle)
    else if c == '"' then s.atProperty (quotedToken readDouble)
    else if startsPlain s.inFlow cs then s.atPlain
    else throw .malformed

def step (s : Scanner) : Except Fault Scanner := do
  let s ← s.toNextToken.dropStale
  (s.unwind s.cursor.column).token

/-- The number of tokens in front of the first place where a key may still have begun. -/
def settledCount (s : Scanner) : Nat :=
  let pending := (s.candidate :: s.outerCandidates).filterMap fun candidate? =>
    (candidate?.filter fun c => !Candidate.isStale s.cursor c).map (·.position)
  pending.foldl min s.count

/-- The tokens that are settled when reading on turns out to be a fault, and the fault. -/
def broken (s : Scanner) (fault : Fault) : List Token :=
  (Token.broken fault :: s.tokens.drop (s.count - s.settledCount)).reverse

/-- The tokens to the end, or to the first fault. -/
def run : Nat → Scanner → List Token
  | 0, s => s.broken .malformed
  | fuel + 1, s =>
    match s.step with
    | .error fault => s.broken fault
    | .ok t => if t.tokens.head? == some .streamEnd then t.tokens.reverse else run fuel t

end Scanner

def tokens (cs : List Char) : List Token :=
  Scanner.run (cs.length + 1) ⟨⟨cs, 0, 0, 0⟩, [], 0, -1, [], true, none, []⟩

end Yaml
end NodeSettings
