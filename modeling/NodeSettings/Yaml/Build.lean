import NodeSettings.Yaml.Merge
import NodeSettings.Yaml.ScalarValue

/-!
This module contains the values of nodes. Collections are filled level by level, so that of several
faults the one nearest to the root counts, and on one level the first. A node is built only once,
and a collection can be part of others, or of itself, before it is filled.
-/

namespace NodeSettings
namespace Yaml

/-- What a node is built as; parts that are nodes are given by their numbers. -/
inductive Built where
  | leaf (v : Value)
  | list (items : List Nat)
  | map (entries : List (Value × Nat))
  | set (members : List Value)
  | pairs (pairs : List (Nat × Nat))

structure Builder where
  graph : Graph
  built : Array (Option Built)
  unfilled : List Nat := []
  mergeBound : Nat

namespace Graph

/--
The text of a node. That of a mapping is the text under the key of its value; looking for it further
than there are nodes leads to where it has been before.
-/
def textWithin (g : Graph) : Nat → Nat → Except Fault Text
  | 0, _ => throw .endlessText
  | fuel + 1, n =>
    match (g.node n).content with
    | .scalar text => return text
    | .sequence _ => throw .malformed
    | .mapping entries =>
      match entries.find? fun (key, _) => (g.node key).tag = .value with
      | some (_, value) => textWithin g fuel value
      | none => throw .malformed

def text (g : Graph) (n : Nat) : Except Fault Text :=
  g.textWithin (g.nodes.size + 1) n

/-- The value of a node that is no collection. Its tag is looked at before its text. -/
def leafValue (g : Graph) (n : Nat) : Except Fault Value := do
  let node := g.node n
  if !node.tag.isScalar then throw .malformed
  let text ← g.text n
  if node.tag = .timestamp && (g.entries? n).isSome then throw .timestampInParts
  scalarValue node.tag (n + 1) text

end Graph

namespace Builder

def ofGraph (g : Graph) : Builder where
  graph := g
  built := Array.replicate g.nodes.size none
  mergeBound := g.entryCount + 1

def put (b : Builder) (n : Nat) (x : Built) : Builder :=
  { b with built := b.built.setIfInBounds n (some x) }

/-- The empty collection of a tag, unless it is the tag of something else. -/
def emptyOf? : Tag → Option Built
  | .seq => some (.list [])
  | .map => some (.map [])
  | .set => some (.set [])
  | .omap | .pairs => some (.pairs [])
  | _ => none

def build (b : Builder) (n : Nat) : Except Fault Builder :=
  if (b.built.getD n none).isSome then return b
  else
    match emptyOf? (b.graph.node n).tag with
    | some x => return { b.put n x with unfilled := n :: b.unfilled }
    | none => do return b.put n (.leaf (← b.graph.leafValue n))

def key (b : Builder) (n : Nat) : Except Fault Value :=
  match b.built.getD n none with
  | some (.leaf v) => return v
  | _ => throw .malformed

def items (b : Builder) (n : Nat) : Except Fault (List Nat) :=
  match (b.graph.node n).content with
  | .sequence items => return items
  | _ => throw .malformed

def buildEntries (b : Builder) (n : Nat) : Except Fault (Builder × List (Value × Nat)) := do
  if (b.graph.entries? n).isNone then throw .malformed
  let b := { b with graph := ← b.graph.merge b.mergeBound n }
  (b.graph.entries n).foldlM (fun (b, entries) (keyNode, valueNode) => do
    let b ← b.build keyNode
    let key ← b.key keyNode
    return (← b.build valueNode, Value.insert entries key valueNode)) (b, [])

def buildPairs (b : Builder) (n : Nat) : Except Fault (Builder × List (Nat × Nat)) := do
  let (b, pairs) ← (← b.items n).foldlM (fun (b, pairs) item => do
    match b.graph.entries? item with
    | some [(keyNode, valueNode)] =>
      let b ← b.build keyNode
      return (← b.build valueNode, (keyNode, valueNode) :: pairs)
    | _ => throw .malformed) (b, [])
  return (b, pairs.reverse)

def fill (b : Builder) (n : Nat) : Except Fault Builder :=
  match b.built.getD n none with
  | some (.list _) => do
    let items ← b.items n
    return (← items.foldlM build b).put n (.list items)
  | some (.map _) => do
    let (b, entries) ← b.buildEntries n
    return b.put n (.map entries)
  | some (.set _) => do
    let (b, entries) ← b.buildEntries n
    return b.put n (.set (entries.map (·.1)))
  | some (.pairs _) => do
    let (b, pairs) ← b.buildPairs n
    return b.put n (.pairs pairs)
  | _ => return b

/--
The builder after the collections of a level are filled, and those of all levels below. Every node
is filled at most once, which bounds the number of levels.
-/
def fillLevels : Nat → Builder → Except Fault Builder
  | 0, b => return b
  | fuel + 1, b =>
    if b.unfilled.isEmpty then return b
    else do
      fillLevels fuel (← b.unfilled.reverse.foldlM fill { b with unfilled := [] })

end Builder

def Built.value (values : Array Value) : Built → Value
  | leaf v => v
  | list items => .list (items.map fun n => values.getD n .null)
  | map entries => .map (entries.map fun (key, n) => (key, values.getD n .null))
  | set members => .set members
  | pairs ps => .list (ps.map fun (m, n) => .tuple [values.getD m .null, values.getD n .null])

namespace Builder

def values (b : Builder) (before : Array Value) : Array Value :=
  b.graph.finished.reverse.foldl (fun values n =>
    match b.built.getD n none with
    | some x => values.setIfInBounds n (x.value values)
    | none => values) before

/--
The number of times that the values are made. The first time gives all of them unless a node is part
of itself; such a node is unrolled further each time, and no reader of documents looks deeper.
-/
def rounds : Nat := 4

def value (b : Builder) (n : Nat) : Value :=
  let start := Array.replicate b.graph.nodes.size Value.null
  ((List.range rounds).foldl (fun values _ => b.values values) start).getD n .null

end Builder

def Graph.value (g : Graph) (root : Nat) : Except Fault Value := do
  let b ← (Builder.ofGraph g).build root
  return (← b.fillLevels (g.nodes.size + 1)).value root

end Yaml
end NodeSettings
