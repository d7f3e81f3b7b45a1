import NodeSettings.Text.Basic
import NodeSettings.Yaml.Tag

/-!
This module contains the nodes of documents. A node may be part of several others, and even of
itself, so that a document is a graph in which nodes are known by their numbers.
-/

namespace NodeSettings
namespace Yaml

/-- What a node consists of: a text, or other nodes by their numbers. -/
inductive Content where
  | scalar (text : Text)
  | sequence (items : List Nat)
  | mapping (entries : List (Nat × Nat))
deriving DecidableEq

structure Node where
  tag : Tag
  content : Content
deriving DecidableEq

def Node.empty : Node :=
  ⟨.null, .scalar ""⟩

instance : Inhabited Node := ⟨.empty⟩

structure Graph where
  nodes : Array Node := #[]
  /-- The numbers of the nodes that have been read to their ends, the last one first. -/
  finished : List Nat := []

namespace Graph

def node (g : Graph) (n : Nat) : Node :=
  g.nodes.getD n .empty

def next (g : Graph) : Nat :=
  g.nodes.size

def reserve (g : Graph) : Graph :=
  { g with nodes := g.nodes.push .empty }

def replace (g : Graph) (n : Nat) (node : Node) : Graph :=
  { g with nodes := g.nodes.setIfInBounds n node }

def finish (g : Graph) (n : Nat) (node : Node) : Graph :=
  ⟨g.nodes.setIfInBounds n node, n :: g.finished⟩

def add (g : Graph) (node : Node) : Graph :=
  ⟨g.nodes.push node, g.nodes.size :: g.finished⟩

def entries? (g : Graph) (n : Nat) : Option (List (Nat × Nat)) :=
  match (g.node n).content with
  | .mapping entries => some entries
  | _ => none

def entries (g : Graph) (n : Nat) : List (Nat × Nat) :=
  (g.entries? n).getD []

def setEntries (g : Graph) (n : Nat) (entries : List (Nat × Nat)) : Graph :=
  g.replace n { g.node n with content := .mapping entries }

def setTag (g : Graph) (n : Nat) (tag : Tag) : Graph :=
  g.replace n { g.node n with tag }

def entryCount (g : Graph) : Nat :=
  g.nodes.foldl (fun count node =>
    match node.content with
    | .mapping entries => count + entries.length
    | _ => count) 0

end Graph
end Yaml
end NodeSettings
