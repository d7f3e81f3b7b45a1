import NodeSettings.Yaml.Node
import NodeSettings.Yaml.Token

/-!
This module contains the reading of tokens as nodes. Every reading function takes the tokens left,
gives the number of a node and the tokens it did not use, and is bounded by a number of calls that
grows with the tokens.
-/

namespace NodeSettings
namespace Yaml

structure Source where
  tokens : List Token
  handles : List (String × String)
  anchors : List (String × Nat) := []
  graph : Graph := {}

namespace Source

def fault (s : Source) : Fault :=
  match s.tokens with
  | .broken fault :: _ => fault
  | _ => .malformed

def drop (s : Source) : Source :=
  { s with tokens := s.tokens.drop 1 }

def nextIn (s : Source) (tokens : List Token) : Bool :=
  s.tokens.head?.any tokens.contains

def name (s : Source) (anchor : Option String) (n : Nat) : Source :=
  match anchor with
  | none => s
  | some a => { s with anchors := (a, n) :: s.anchors }

def named? (s : Source) (a : String) : Option Nat :=
  s.anchors.lookup a

def add (s : Source) (anchor : Option String) (node : Node) : Nat × Source :=
  let n := s.graph.next
  (n, { s with graph := s.graph.add node }.name anchor n)

/-- A node more of which the parts are read next; its name can be used for it already. -/
def openNode (s : Source) (anchor : Option String) : Nat × Source :=
  let n := s.graph.next
  (n, { s with graph := s.graph.reserve }.name anchor n)

def finish (s : Source) (n : Nat) (node : Node) : Source :=
  { s with graph := s.graph.finish n node }

end Source

namespace Compose

def defaultHandles : List (String × String) :=
  [("!", "!"), ("!!", Tag.leader)]

def tagName (s : Source) (handle : Option String) (suffix : String) :
    Except Fault (Option String) :=
  match handle with
  | none => return some suffix
  | some h =>
    match s.handles.lookup h with
    | some leader => return some (leader ++ suffix)
    | none => throw .malformed

def checkFront : List Token → Except Fault Unit
  | .broken fault :: _ => throw fault
  | _ => return ()

/--
The name and the tag in front of a node. A tag alone might be followed by a name, so that a fault
behind it counts before one of the tag.
-/
def properties (s : Source) : Except Fault ((Option String × Option String) × Source) :=
  match s.tokens with
  | .anchor a :: .tag handle suffix :: _ => do
    return ((some a, ← tagName s handle suffix), s.drop.drop)
  | .anchor a :: _ => return ((some a, none), s.drop)
  | .tag handle suffix :: .anchor a :: _ => do
    return ((some a, ← tagName s handle suffix), s.drop.drop)
  | .tag handle suffix :: rest => do
    checkFront rest
    return ((none, ← tagName s handle suffix), s.drop)
  | _ => return ((none, none), s)

def scalarTag (tag : Option String) (isPlain : Bool) (text : Text) : Tag :=
  match tag with
  | none => if isPlain then Tag.ofText text else .str
  | some "!" => Tag.ofText text
  | some name => Tag.ofName name

def collectionTag (tag : Option String) (usual : Tag) : Tag :=
  match tag with
  | none | some "!" => usual
  | some name => Tag.ofName name

inductive Place where
  | block
  | inMapping
  | flow
deriving DecidableEq

mutual

def node (place : Place) : Nat → Source → Except Fault (Nat × Source)
  | 0, s => throw s.fault
  | fuel + 1, s =>
    match s.tokens with
    | .alias a :: _ =>
      match s.named? a with
      | some n => return (n, s.drop)
      | none => throw .malformed
    | _ => do
      let ((anchor, tag), s) ← properties s
      checkFront s.tokens
      if anchor.any fun a => (s.named? a).isSome then throw .malformed
      let sequence (read : Source → Except Fault (List Nat × Source)) :
          Except Fault (Nat × Source) := do
        let (n, s) := s.openNode anchor
        let (items, s) ← read s
        return (n, s.finish n ⟨collectionTag tag .seq, .sequence items⟩)
      let mapping (read : Source → Except Fault (List (Nat × Nat) × Source)) :
          Except Fault (Nat × Source) := do
        let (n, s) := s.openNode anchor
        let (entries, s) ← read s
        return (n, s.finish n ⟨collectionTag tag .map, .mapping entries⟩)
      match s.tokens, place with
      | .blockEntry :: _, .inMapping => sequence fun s => indentlessItems fuel s
      | .scalar text isPlain :: _, _ =>
        return s.drop.add anchor ⟨scalarTag tag isPlain text, .scalar text⟩
      | .flowSequenceStart :: _, _ => sequence fun s => flowItems true fuel s.drop
      | .flowMappingStart :: _, _ => mapping fun s => flowEntries true fuel s.drop
      | .blockSequenceStart :: _, .block | .blockSequenceStart :: _, .inMapping =>
        sequence fun s => blockItems fuel s.drop
      | .blockMappingStart :: _, .block | .blockMappingStart :: _, .inMapping =>
        mapping fun s => blockEntries fuel s.drop
      | _, _ =>
        if anchor.isSome || tag.isSome then
          return s.add anchor ⟨scalarTag tag true "", .scalar ""⟩
        else throw s.fault

def nodeUnless (place : Place) (ends : List Token) : Nat → Source → Except Fault (Nat × Source)
  | 0, s => throw s.fault
  | fuel + 1, s =>
    if s.nextIn ends then return s.add none .empty else node place fuel s

def blockItems : Nat → Source → Except Fault (List Nat × Source)
  | 0, s => throw s.fault
  | fuel + 1, s =>
    match s.tokens with
    | .blockEntry :: _ => do
      let (item, s) ← nodeUnless .block [.blockEntry, .blockEnd] fuel s.drop
      let (items, s) ← blockItems fuel s
      return (item :: items, s)
    | .blockEnd :: _ => return ([], s.drop)
    | _ => throw s.fault

def indentlessItems : Nat → Source → Except Fault (List Nat × Source)
  | 0, s => throw s.fault
  | fuel + 1, s =>
    match s.tokens with
    | .blockEntry :: _ => do
      let (item, s) ← nodeUnless .block [.blockEntry, .key, .value, .blockEnd] fuel s.drop
      let (items, s) ← indentlessItems fuel s
      return (item :: items, s)
    | _ => return ([], s)

def blockEntries : Nat → Source → Except Fault (List (Nat × Nat) × Source)
  | 0, s => throw s.fault
  | fuel + 1, s =>
    match s.tokens with
    | .blockEnd :: _ => return ([], s.drop)
    | .key :: _ => do
      let (key, s) ← nodeUnless .inMapping [.key, .value, .blockEnd] fuel s.drop
      let (value, s) ← blockValue fuel s
      let (entries, s) ← blockEntries fuel s
      return ((key, value) :: entries, s)
    | _ => throw s.fault

def blockValue : Nat → Source → Except Fault (Nat × Source)
  | 0, s => throw s.fault
  | fuel + 1, s =>
    match s.tokens with
    | .value :: _ => nodeUnless .inMapping [.key, .value, .blockEnd] fuel s.drop
    | _ => return s.add none .empty

def flowItems (isFirst : Bool) : Nat → Source → Except Fault (List Nat × Source)
  | 0, s => throw s.fault
  | fuel + 1, s =>
    match s.tokens with
    | .flowSequenceEnd :: _ => return ([], s.drop)
    | _ => do
      let s ← if isFirst then pure s
        else if s.nextIn [.flowEntry] then pure s.drop
        else throw s.fault
      match s.tokens with
      | .flowSequenceEnd :: _ => return ([], s.drop)
      | .key :: _ =>
        let (pair, s) := s.openNode none
        let (key, s) ← nodeUnless .flow [.value, .flowEntry, .flowSequenceEnd] fuel s.drop
        let (value, s) ← flowValue [.flowEntry, .flowSequenceEnd] fuel s
        let s := s.finish pair ⟨.map, .mapping [(key, value)]⟩
        let (items, s) ← flowItems false fuel s
        return (pair :: items, s)
      | _ =>
        let (item, s) ← node .flow fuel s
        let (items, s) ← flowItems false fuel s
        return (item :: items, s)

def flowEntries (isFirst : Bool) : Nat → Source → Except Fault (List (Nat × Nat) × Source)
  | 0, s => throw s.fault
  | fuel + 1, s =>
    match s.tokens with
    | .flowMappingEnd :: _ => return ([], s.drop)
    | _ => do
      let s ← if isFirst then pure s
        else if s.nextIn [.flowEntry] then pure s.drop
        else throw s.fault
      match s.tokens with
      | .flowMappingEnd :: _ => return ([], s.drop)
      | .key :: _ =>
        let (key, s) ← nodeUnless .flow [.value, .flowEntry, .flowMappingEnd] fuel s.drop
        let (value, s) ← flowValue [.flowEntry, .flowMappingEnd] fuel s
        let (entries, s) ← flowEntries false fuel s
        return ((key, value) :: entries, s)
      | _ =>
        let (key, s) ← node .flow fuel s
        let (value, s) := s.add none .empty
        let (entries, s) ← flowEntries false fuel s
        return ((key, value) :: entries, s)

def flowValue (ends : List Token) : Nat → Source → Except Fault (Nat × Source)
  | 0, s => throw s.fault
  | fuel + 1, s =>
    match s.tokens with
    | .value :: _ => nodeUnless .flow ends fuel s.drop
    | _ => return s.add none .empty

end

def directives (version : Bool) (handles : List (String × String)) :
    List Token → Except Fault (List (String × String) × List Token)
  | .directive (.version major _) :: ts =>
    if version || major != 1 then throw .malformed else directives true handles ts
  | .directive (.handle name leader) :: ts =>
    if (handles.lookup name).isSome then throw .malformed
    else directives version ((name, leader) :: handles) ts
  | .directive .unknown :: ts => directives version handles ts
  | ts => return (handles, ts)

/-- Nothing but the end follows. Another document is read up to its start. -/
def checkEnd (ts : List Token) : Except Fault Unit :=
  match ts.dropWhile (· == .documentEnd) with
  | [.streamEnd] => return ()
  | ts => do
    let (_, ts) ← directives false [] ts
    checkFront ts
    throw .malformed

def bound (ts : List Token) : Nat :=
  4 * ts.length + 4

def document (ts : List Token) : Except Fault (Option (Nat × Graph)) := do
  match ts with
  | [.streamEnd] => return none
  | .directive _ :: _ | .documentStart :: _ =>
    let (handles, ts) ← directives false [] ts
    let handles := handles ++ defaultHandles
    match ts with
    | .documentStart :: ts =>
      let s : Source := ⟨ts, handles, [], {}⟩
      let ends := match ts with
        | .directive _ :: _ => true
        | _ => s.nextIn [.documentStart, .documentEnd, .streamEnd]
      let (n, s) ← if ends then pure (s.add none .empty) else node .block (bound ts) s
      checkEnd s.tokens
      return some (n, s.graph)
    | ts =>
      checkFront ts
      throw .malformed
  | ts =>
    let (n, s) ← node .block (bound ts) ⟨ts, defaultHandles, [], {}⟩
    checkEnd s.tokens
    return some (n, s.graph)

end Compose
end Yaml
end NodeSettings
