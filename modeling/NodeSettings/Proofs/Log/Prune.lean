import Mathlib.Data.List.Basic
import NodeSettings.Log.Prune
import NodeSettings.Proofs.Value

/-!
This module contains what pruning makes of a value: all of its leaves that are not empty, where they
were, and nothing that is empty around them.
-/

namespace NodeSettings
namespace Value

mutual

def nodes : Value → List Value
  | list items => list items :: nodesOfItems items
  | map entries => map entries :: nodesOfEntries entries
  | v => [v]

def nodesOfItems : List Value → List Value
  | [] => []
  | x :: xs => nodes x ++ nodesOfItems xs

def nodesOfEntries : List (Value × Value) → List Value
  | [] => []
  | (_, x) :: xs => nodes x ++ nodesOfEntries xs

end

def isLeaf : Value → Bool
  | list _ | map _ => false
  | _ => true

def leaves (v : Value) : List Value :=
  v.nodes.filter isLeaf

/-- There is nothing in a value: it is null, or an empty text, list or mapping. -/
def isHollow : Value → Bool
  | null => true
  | text t => t.isEmpty
  | list items => items.isEmpty
  | map entries => entries.isEmpty
  | _ => false

mutual

/--
A value is what is left of another when entries of lists and mappings are left out, at any depth.
The others keep their order and their keys.
-/
inductive Within : Value → Value → Prop where
  | self (v : Value) : Within v v
  | list {items kept : List Value} (h : ItemsWithin kept items) : Within (.list kept) (.list items)
  | map {entries kept : List (Value × Value)} (h : EntriesWithin kept entries) :
    Within (.map kept) (.map entries)

inductive ItemsWithin : List Value → List Value → Prop where
  | done : ItemsWithin [] []
  | keep {x y : Value} {xs ys : List Value} (first : Within y x) (later : ItemsWithin ys xs) :
    ItemsWithin (y :: ys) (x :: xs)
  | leave {x : Value} {xs ys : List Value} (later : ItemsWithin ys xs) : ItemsWithin ys (x :: xs)

inductive EntriesWithin : List (Value × Value) → List (Value × Value) → Prop where
  | done : EntriesWithin [] []
  | keep {key x y : Value} {xs ys : List (Value × Value)} (first : Within y x)
    (later : EntriesWithin ys xs) : EntriesWithin ((key, y) :: ys) ((key, x) :: xs)
  | leave {x : Value × Value} {xs ys : List (Value × Value)} (later : EntriesWithin ys xs) :
    EntriesWithin ys (x :: xs)

end

variable {v w x : Value} {items : List Value} {entries : List (Value × Value)}

theorem induction_on_entries {motive : Value → Prop}
    (leaf : ∀ v : Value, v.isLeaf = true → motive v)
    (list : ∀ items : List Value, (∀ x ∈ items, motive x) → motive (list items))
    (map : ∀ entries : List (Value × Value), (∀ entry ∈ entries, motive entry.2) →
      motive (map entries)) (v : Value) : motive v := by
  induction v using induction_on_parts with
  | h v ih =>
    cases v with
    | list items => exact list items ih
    | map entries =>
      apply map
      intro entry hentry
      exact ih entry.2 (mem_parts_map_iff.mpr ⟨entry, hentry, .inr rfl⟩)
    | _ => exact leaf _ rfl

theorem nodesOfItems_eq (items : List Value) : nodesOfItems items = items.flatMap nodes := by
  induction items with
  | nil => rfl
  | cons x xs ih => rw [nodesOfItems, ih, List.flatMap_cons]

theorem nodesOfEntries_eq (entries : List (Value × Value)) :
    nodesOfEntries entries = entries.flatMap fun entry => entry.2.nodes := by
  induction entries with
  | nil => rfl
  | cons entry entries ih => rw [nodesOfEntries, ih, List.flatMap_cons]

theorem leaves_list (items : List Value) : (list items).leaves = items.flatMap leaves := by
  unfold leaves
  rw [nodes, nodesOfItems_eq, List.filter_cons_of_neg (by simp [isLeaf]), List.filter_flatMap]

theorem leaves_map (entries : List (Value × Value)) :
    (map entries).leaves = entries.flatMap fun entry => entry.2.leaves := by
  unfold leaves
  rw [nodes, nodesOfEntries_eq, List.filter_cons_of_neg (by simp [isLeaf]), List.filter_flatMap]

theorem nodes_of_isLeaf (h : v.isLeaf = true) : v.nodes = [v] := by
  cases v with
  | list items | map entries => cases h
  | _ => rfl

theorem leaves_of_isLeaf (h : v.isLeaf = true) : v.leaves = [v] := by
  rw [leaves, nodes_of_isLeaf h, List.filter_cons_of_pos h, List.filter_nil]

theorem isHollow_iff_of_isLeaf (h : v.isLeaf = true) :
    v.isHollow = true ↔ v = .null ∨ v = .text "" := by
  cases v with
  | text t =>
    rcases t with ⟨points⟩
    cases points with
    | nil => exact iff_of_true rfl (.inr rfl)
    | cons p points => simp [isHollow, Text.isEmpty, Text.ofString, Text.ofChars]
  | list items | map entries => cases h
  | _ => simp [isHollow]

theorem pruneItems_eq (items : List Value) : pruneItems items = items.filterMap prune? := by
  induction items with
  | nil => rfl
  | cons x xs ih =>
    rw [pruneItems, List.filterMap_cons, ih]
    cases x.prune? <;> rfl

def pruneMember? (entry : Value × Value) : Option (Value × Value) :=
  entry.2.prune?.map fun y => (entry.1, y)

theorem pruneEntries_eq (entries : List (Value × Value)) :
    pruneEntries entries = entries.filterMap pruneMember? := by
  induction entries with
  | nil => rfl
  | cons entry entries ih =>
    rw [pruneEntries, List.filterMap_cons, ih, pruneMember?]
    cases entry.2.prune? <;> rfl

theorem prune?_of_isLeaf (h : v.isLeaf = true) :
    v.prune? = if v.isHollow then none else some v := by
  cases v with
  | list items | map entries => cases h
  | _ => rfl

theorem prune?_list (items : List Value) :
    (list items).prune? =
      if items.filterMap prune? = [] then none else some (list (items.filterMap prune?)) := by
  rw [prune?, pruneItems_eq]
  split
  . next h => rw [if_pos h]
  . next h => rw [if_neg h]

theorem prune?_map (entries : List (Value × Value)) :
    (map entries).prune? =
      if entries.filterMap pruneMember? = [] then none
      else some (map (entries.filterMap pruneMember?)) := by
  rw [prune?, pruneEntries_eq]
  split
  . next h => rw [if_pos h]
  . next h => rw [if_neg h]

theorem prune?_list_eq_some_iff :
    (list items).prune? = some w ↔
      items.filterMap prune? ≠ [] ∧ w = list (items.filterMap prune?) := by
  rw [prune?_list, Option.ite_none_left_eq_some, Option.some.injEq, eq_comm (a := w)]

theorem prune?_map_eq_some_iff :
    (map entries).prune? = some w ↔
      entries.filterMap pruneMember? ≠ [] ∧ w = map (entries.filterMap pruneMember?) := by
  rw [prune?_map, Option.ite_none_left_eq_some, Option.some.injEq, eq_comm (a := w)]

theorem pruneMember?_eq_some_iff {entry kept : Value × Value} :
    pruneMember? entry = some kept ↔ kept.1 = entry.1 ∧ entry.2.prune? = some kept.2 := by
  rcases kept with ⟨key, y⟩
  simp only [pruneMember?, Option.map_eq_some_iff, Prod.mk.injEq]
  constructor
  . rintro ⟨y, hy, rfl, rfl⟩
    exact ⟨rfl, hy⟩
  . rintro ⟨rfl, hy⟩
    exact ⟨y, hy, rfl, rfl⟩

theorem leaves_prune?_list (items : List Value) :
    (list items).prune?.toList.flatMap leaves =
      items.flatMap fun x => x.prune?.toList.flatMap leaves := by
  rw [← List.flatMap_assoc, ← List.filterMap_eq_flatMap_toList, prune?_list]
  split
  . next hnil => rw [hnil]; rfl
  . rw [Option.toList_some, List.flatMap_singleton, leaves_list]

theorem leaves_prune?_map (entries : List (Value × Value)) :
    (map entries).prune?.toList.flatMap leaves =
      entries.flatMap fun entry => entry.2.prune?.toList.flatMap leaves := by
  have hentry (entry : Value × Value) :
      (pruneMember? entry).toList.flatMap (fun kept => kept.2.leaves) =
        entry.2.prune?.toList.flatMap leaves := by
    rw [pruneMember?]
    cases entry.2.prune? <;> rfl
  simp only [← hentry]
  rw [← List.flatMap_assoc, ← List.filterMap_eq_flatMap_toList, prune?_map]
  split
  . next hnil => rw [hnil]; rfl
  . rw [Option.toList_some, List.flatMap_singleton, leaves_map]

/-- Pruning leaves the leaves that are not hollow, and no others. -/
theorem leaves_prune? (v : Value) :
    v.prune?.toList.flatMap leaves = v.leaves.filter fun x => !x.isHollow := by
  induction v using induction_on_entries with
  | leaf v hleaf =>
    rw [prune?_of_isLeaf hleaf, leaves_of_isLeaf hleaf]
    cases hhollow : v.isHollow with
    | true => simp [hhollow]
    | false => simp [hhollow, leaves_of_isLeaf hleaf]
  | list items ih =>
    rw [leaves_prune?_list, leaves_list, List.filter_flatMap]
    exact List.flatMap_congr ih
  | map entries ih =>
    rw [leaves_prune?_map, leaves_map, List.filter_flatMap]
    exact List.flatMap_congr ih

theorem prune?_eq_none_iff : v.prune? = none ↔ ∀ x ∈ v.leaves, x.isHollow = true := by
  induction v using induction_on_entries with
  | leaf v hleaf =>
    rw [prune?_of_isLeaf hleaf, leaves_of_isLeaf hleaf, List.forall_mem_singleton]
    simp
  | list items ih =>
    rw [prune?_list, leaves_list, List.forall_mem_flatMap]
    simp only [ite_eq_left_iff, reduceCtorEq, imp_false, Classical.not_not,
      List.filterMap_eq_nil_iff]
    exact forall₂_congr ih
  | map entries ih =>
    rw [prune?_map, leaves_map, List.forall_mem_flatMap]
    simp only [ite_eq_left_iff, reduceCtorEq, imp_false, Classical.not_not,
      List.filterMap_eq_nil_iff, pruneMember?, Option.map_eq_none_iff]
    exact forall₂_congr ih

theorem not_isHollow_of_prune? (h : v.prune? = some w) : ∀ x ∈ w.nodes, x.isHollow = false := by
  induction v using induction_on_entries generalizing w with
  | leaf v hleaf =>
    rw [prune?_of_isLeaf hleaf, Option.ite_none_left_eq_some, Option.some.injEq] at h
    rcases h with ⟨hhollow, rfl⟩
    rw [nodes_of_isLeaf hleaf, List.forall_mem_singleton]
    exact Bool.eq_false_iff.mpr hhollow
  | list items ih =>
    rcases prune?_list_eq_some_iff.mp h with ⟨hne, rfl⟩
    rw [nodes, nodesOfItems_eq, List.forall_mem_cons, List.forall_mem_flatMap]
    refine ⟨List.isEmpty_eq_false_iff.mpr hne, ?_⟩
    intro y hy
    rcases List.mem_filterMap.mp hy with ⟨x, hx, hprune⟩
    exact ih x hx hprune
  | map entries ih =>
    rcases prune?_map_eq_some_iff.mp h with ⟨hne, rfl⟩
    rw [nodes, nodesOfEntries_eq, List.forall_mem_cons, List.forall_mem_flatMap]
    refine ⟨List.isEmpty_eq_false_iff.mpr hne, ?_⟩
    intro kept hkept
    rcases List.mem_filterMap.mp hkept with ⟨entry, hentry, hprune⟩
    exact ih entry hentry (pruneMember?_eq_some_iff.mp hprune).2

theorem prune?_of_not_isHollow (h : ∀ x ∈ w.nodes, x.isHollow = false) : w.prune? = some w := by
  induction w using induction_on_entries with
  | leaf w hleaf =>
    rw [nodes_of_isLeaf hleaf, List.forall_mem_singleton] at h
    rw [prune?_of_isLeaf hleaf, h, if_neg Bool.false_ne_true]
  | list items ih =>
    rw [nodes, nodesOfItems_eq, List.forall_mem_cons, List.forall_mem_flatMap] at h
    have hitem : ∀ x ∈ items, x.prune? = some x := fun x hx => ih x hx (h.2 x hx)
    have hsame : items.filterMap prune? = items := by
      rw [List.filterMap_congr hitem, List.filterMap_some]
    rw [prune?_list_eq_some_iff, hsame]
    exact ⟨List.isEmpty_eq_false_iff.mp h.1, rfl⟩
  | map entries ih =>
    rw [nodes, nodesOfEntries_eq, List.forall_mem_cons, List.forall_mem_flatMap] at h
    have hentry : ∀ entry ∈ entries, pruneMember? entry = some entry := fun entry hentry =>
      pruneMember?_eq_some_iff.mpr ⟨rfl, ih entry hentry (h.2 entry hentry)⟩
    have hsame : entries.filterMap pruneMember? = entries := by
      rw [List.filterMap_congr hentry, List.filterMap_some]
    rw [prune?_map_eq_some_iff, hsame]
    exact ⟨List.isEmpty_eq_false_iff.mp h.1, rfl⟩

theorem itemsWithin_filterMap (h : ∀ x ∈ items, ∀ y, x.prune? = some y → Within y x) :
    ItemsWithin (items.filterMap prune?) items := by
  induction items with
  | nil => exact .done
  | cons x xs ih =>
    have hlater := ih fun x hx => h x (.tail _ hx)
    cases hprune : x.prune? with
    | none =>
      rw [List.filterMap_cons_none hprune]
      exact .leave hlater
    | some y =>
      rw [List.filterMap_cons_some hprune]
      exact .keep (h x (.head _) y hprune) hlater

theorem entriesWithin_filterMap
    (h : ∀ entry ∈ entries, ∀ y, entry.2.prune? = some y → Within y entry.2) :
    EntriesWithin (entries.filterMap pruneMember?) entries := by
  induction entries with
  | nil => exact .done
  | cons entry entries ih =>
    have hlater := ih fun entry hentry => h entry (.tail _ hentry)
    cases hprune : pruneMember? entry with
    | none =>
      rw [List.filterMap_cons_none hprune]
      exact .leave hlater
    | some kept =>
      rw [List.filterMap_cons_some hprune]
      rcases entry with ⟨key, x⟩
      rcases kept with ⟨key', y⟩
      rw [pruneMember?_eq_some_iff] at hprune
      rcases hprune with ⟨rfl, hprune⟩
      exact .keep (h _ (.head _) y hprune) hlater

theorem within_of_prune? (h : v.prune? = some w) : Within w v := by
  induction v using induction_on_entries generalizing w with
  | leaf v hleaf =>
    rw [prune?_of_isLeaf hleaf, Option.ite_none_left_eq_some, Option.some.injEq] at h
    rw [h.2]
    exact .self _
  | list items ih =>
    rcases prune?_list_eq_some_iff.mp h with ⟨-, rfl⟩
    exact .list (itemsWithin_filterMap fun x hx y => ih x hx)
  | map entries ih =>
    rcases prune?_map_eq_some_iff.mp h with ⟨-, rfl⟩
    exact .map (entriesWithin_filterMap fun entry hentry y => ih entry hentry)

/-- A value is what another comes to when it is pruned. -/
structure IsPruned (v w : Value) : Prop where
  full : ∀ x ∈ w.nodes, x ≠ .null ∧ x ≠ .text "" ∧ x ≠ .list [] ∧ x ≠ .map []
  leaves : w.leaves = v.leaves.filter fun x => !x.isHollow
  /-- Lists and mappings are there as far as there is anything in them, and so are the keys. -/
  within : Within w v
  again : w.prune? = some w

/--
Pruning gives the normal form without anything empty: nothing if all leaves are null or empty, and
otherwise a value with all the other leaves where they were, which pruning does not change any more.
-/
theorem prune?_normalizes (v : Value) :
    (v.prune? = none ↔ ∀ x ∈ v.leaves, x = .null ∨ x = .text "")
      ∧ ∀ w, v.prune? = some w → IsPruned v w := by
  constructor
  . rw [prune?_eq_none_iff]
    apply forall₂_congr
    intro x hx
    exact isHollow_iff_of_isLeaf (List.mem_filter.mp hx).2
  . intro w h
    have hfull := not_isHollow_of_prune? h
    constructor
    . intro x hx
      have hx := hfull x hx
      refine ⟨?_, ?_, ?_, ?_⟩
      . rintro rfl; cases hx
      . rintro rfl; cases hx
      . rintro rfl; cases hx
      . rintro rfl; cases hx
    . rw [← leaves_prune?, h, Option.toList_some, List.flatMap_singleton]
    . exact within_of_prune? h
    . exact prune?_of_not_isHollow hfull

def overgrown : Value :=
  .map [(.text "peers", .list [.list [.text "", .map [(.text "id", .null)]], .text "a", .null]),
    (.null, .boolean false), (.text "", .integer 0), (.text "rate", .float (.zero false)),
    (.text "none", .list [])]

def trimmed : Value :=
  .map [(.text "peers", .list [.text "a"]), (.null, .boolean false), (.text "", .integer 0),
    (.text "rate", .float (.zero false))]

theorem prune?_normalizes_overgrown :
    overgrown.prune? = some trimmed ∧ IsPruned overgrown trimmed := by
  have h : overgrown.prune? = some trimmed := rfl
  exact ⟨h, (prune?_normalizes overgrown).2 trimmed h⟩

end Value
end NodeSettings
