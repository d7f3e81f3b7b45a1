import NodeSettings.Yaml.Fault
import NodeSettings.Yaml.Node

/-!
This module contains the merging of mappings into others. An entry with the merge key stands for the
entries of a mapping, or of several, which then stand in front of the entries of its own mapping.
-/

namespace NodeSettings
namespace Yaml
namespace Graph

/--
The index and the value of the first merge key among the last entries of a mapping, which begin at
an index. A key of the value of the mapping in front of it becomes a text.
-/
def nextMerge (g : Graph) (index : Nat) : List (Nat × Nat) → Graph × Option (Nat × Nat)
  | [] => (g, none)
  | (key, value) :: rest =>
    match (g.node key).tag with
    | .merge => (g, some (index, value))
    | .value => nextMerge (g.setTag key .str) (index + 1) rest
    | _ => nextMerge g (index + 1) rest

/--
The graph after the merge keys of a mapping from an index on are replaced, `taken` being what those
before have given. Every replacement takes a merge key out of the graph and puts none into it, which
bounds their number even if a mapping is merged into itself.
-/
def mergeFrom : Nat → Graph → Nat → Nat → List (Nat × Nat) → Except Fault Graph
  | 0, g, _, _, _ => return g
  | fuel + 1, g, n, index, taken =>
    match g.nextMerge index ((g.entries n).drop index) with
    | (g, none) =>
      return if taken.isEmpty then g else g.setEntries n (taken ++ g.entries n)
    | (g, some (index, value)) => do
      let g := g.setEntries n ((g.entries n).eraseIdx index)
      match (g.node value).content with
      | .mapping _ =>
        let g ← mergeFrom fuel g value 0 []
        mergeFrom fuel g n index (taken ++ g.entries value)
      | .sequence items =>
        let (g, more) ← items.foldlM (fun (g, more) item => do
          if (g.entries? item).isNone then throw .malformed
          let g ← mergeFrom fuel g item 0 []
          return (g, g.entries item ++ more)) (g, [])
        mergeFrom fuel g n index (taken ++ more)
      | .scalar _ => throw .malformed

def merge (fuel : Nat) (g : Graph) (n : Nat) : Except Fault Graph :=
  g.mergeFrom fuel n 0 []

end Graph
end Yaml
end NodeSettings
