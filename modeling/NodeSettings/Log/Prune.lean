import NodeSettings.Value.Basic

/-!
This module contains the pruning of values: what holds nothing but nulls and empty texts, at any
depth, is left out, and the rest keeps its order.
-/

namespace NodeSettings
namespace Value

mutual

/-- The value without its empty parts, if anything is left. -/
def prune? : Value → Option Value
  | null => none
  | text t => if t.isEmpty then none else some (text t)
  | list items =>
    match pruneItems items with
    | [] => none
    | items => some (list items)
  | map entries =>
    match pruneEntries entries with
    | [] => none
    | entries => some (map entries)
  | v => some v

def pruneItems : List Value → List Value
  | [] => []
  | x :: xs =>
    match prune? x with
    | none => pruneItems xs
    | some y => y :: pruneItems xs

def pruneEntries : List (Value × Value) → List (Value × Value)
  | [] => []
  | (k, x) :: xs =>
    match prune? x with
    | none => pruneEntries xs
    | some y => (k, y) :: pruneEntries xs

end

end Value
end NodeSettings
