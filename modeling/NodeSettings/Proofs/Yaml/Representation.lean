import Mathlib.Data.List.Forall2
import NodeSettings.Proofs.Except
import NodeSettings.Proofs.Literal
import NodeSettings.Proofs.Value
import NodeSettings.Yaml.Write

/-!
This module contains which values documents can represent: what they contain decides, at any depth.
-/

namespace NodeSettings

namespace Value

/-- Documents have no form for a duration that is not written as a text, nor for an object. -/
def isStorable : Value → Bool
  | duration _ | foreign _ => false
  | _ => true

/-- No integer in the value has more digits than are written. -/
def HasShortIntegers (v : Value) : Prop :=
  ∀ n, v.Contains (.integer n) → n.natAbs < Nat.pow 10 maxDigits

theorem HasShortIntegers.of_parts {v : Value} (hself : ∀ n, v ≠ .integer n)
    (hparts : ∀ x ∈ v.parts, x.HasShortIntegers) : v.HasShortIntegers := by
  intro n hn
  rw [contains_iff] at hn
  rcases hn with hn | ⟨x, hx, hn⟩
  . exact absurd hn.symm (hself n)
  . exact hparts x hx n hn

end Value

namespace Yaml

variable {v w x : Value} {items : List Value} {entries : List (Value × Value)} {e : WriteFault}

theorem toTree_list (items : List Value) :
    toTree (.list items) = (do return .sequence (← toTrees items)) := by
  conv => lhs; unfold toTree

theorem toTree_tuple (items : List Value) : toTree (.tuple items) = toTree (.list items) := by
  rw [toTree_list]
  conv => lhs; unfold toTree

theorem toTree_map (entries : List (Value × Value)) :
    toTree (.map entries) = (do return .mapping (← toEntries entries)) := by
  conv => lhs; unfold toTree

theorem toTrees_cons (x : Value) (xs : List Value) :
    toTrees (x :: xs) = (do return (← toTree x) :: (← toTrees xs)) := by
  conv => lhs; unfold toTrees

theorem toEntries_pair_cons (k x : Value) (entries : List (Value × Value)) :
    toEntries ((k, x) :: entries) = (do
      let key ← toTree k
      let value ← toTree x
      return (key, value) :: (← toEntries entries)) := by
  conv => lhs; unfold toEntries

theorem exists_of_toTrees_eq_ok {trees : List Tree} (h : toTrees items = .ok trees) :
    ∀ x ∈ items, ∃ tree, toTree x = .ok tree := by
  induction items generalizing trees with
  | nil => simp
  | cons item items ih =>
    rw [toTrees_cons, Except.bind_eq_ok_iff] at h
    rcases h with ⟨first, hfirst, h⟩
    rw [Except.bind_eq_ok_iff] at h
    rcases h with ⟨rest, hrest, -⟩
    rw [List.forall_mem_cons]
    exact ⟨⟨first, hfirst⟩, ih hrest⟩

theorem exists_of_toTrees_eq_error (h : toTrees items = .error e) :
    ∃ x ∈ items, toTree x = .error e := by
  induction items with
  | nil => cases h
  | cons item items ih =>
    rw [toTrees_cons, Except.bind_eq_error_iff] at h
    rcases h with h | ⟨first, -, h⟩
    . exact ⟨item, .head _, h⟩
    . rw [Except.bind_eq_error_iff] at h
      rcases h with h | ⟨rest, -, h⟩
      . rcases ih h with ⟨x, hx, hfault⟩
        exact ⟨x, .tail _ hx, hfault⟩
      . cases h

theorem exists_of_toEntries_eq_ok {trees : List (Tree × Tree)}
    (h : toEntries entries = .ok trees) :
    ∀ x ∈ (Value.map entries).parts, ∃ tree, toTree x = .ok tree := by
  induction entries generalizing trees with
  | nil => simp [Value.parts]
  | cons entry entries ih =>
    rcases entry with ⟨k, x⟩
    have hparts : (Value.map ((k, x) :: entries)).parts = k :: x :: (Value.map entries).parts := rfl
    rw [toEntries_pair_cons, Except.bind_eq_ok_iff] at h
    rcases h with ⟨key, hkey, h⟩
    rw [Except.bind_eq_ok_iff] at h
    rcases h with ⟨value, hvalue, h⟩
    rw [Except.bind_eq_ok_iff] at h
    rcases h with ⟨rest, hrest, -⟩
    rw [hparts, List.forall_mem_cons, List.forall_mem_cons]
    exact ⟨⟨key, hkey⟩, ⟨value, hvalue⟩, ih hrest⟩

theorem exists_of_toEntries_eq_error (h : toEntries entries = .error e) :
    ∃ x ∈ (Value.map entries).parts, toTree x = .error e := by
  induction entries with
  | nil => cases h
  | cons entry entries ih =>
    rcases entry with ⟨k, x⟩
    rw [toEntries_pair_cons, Except.bind_eq_error_iff] at h
    rcases h with h | ⟨key, -, h⟩
    . exact ⟨k, .head _, h⟩
    . rw [Except.bind_eq_error_iff] at h
      rcases h with h | ⟨value, -, h⟩
      . exact ⟨x, .tail _ (.head _), h⟩
      . rw [Except.bind_eq_error_iff] at h
        rcases h with h | ⟨rest, -, h⟩
        . rcases ih h with ⟨y, hy, hfault⟩
          exact ⟨y, .tail _ (.tail _ hy), hfault⟩
        . cases h

def EntriesAlike (m m' : Value × Value) : Prop :=
  m.1 = m'.1 ∧ toTree m.2 = toTree m'.2

theorem toEntries_congr {others : List (Value × Value)}
    (h : List.Forall₂ EntriesAlike entries others) : toEntries entries = toEntries others := by
  induction h with
  | nil => rfl
  | @cons m m' rest rest' hm hrest ih =>
    rcases m with ⟨k, x⟩
    rcases m' with ⟨k', x'⟩
    rcases hm with ⟨hkey, hvalue⟩
    dsimp only at hkey hvalue
    rw [toEntries_pair_cons, toEntries_pair_cons, hkey, hvalue, ih]

theorem toTree_set (items : List Value) :
    toTree (.set items) = (do
      return .set ((← toTrees items).map fun item => (item, .scalar .null "null"))) := by
  conv => lhs; unfold toTree

theorem toTree_of_not_isStorable (h : v.isStorable = false) :
    toTree v = .error .unrepresentable := by
  cases v with
  | duration _ | foreign _ =>
    unfold toTree
    rfl
  | _ => cases h

theorem exists_toTree_of_mem_parts {tree : Tree} (h : toTree v = .ok tree) (hx : x ∈ v.parts) :
    ∃ inner, toTree x = .ok inner := by
  cases v with
  | list items =>
    rw [toTree_list, Except.bind_eq_ok_iff] at h
    rcases h with ⟨trees, h, -⟩
    exact exists_of_toTrees_eq_ok h x hx
  | tuple items =>
    rw [toTree_tuple, toTree_list, Except.bind_eq_ok_iff] at h
    rcases h with ⟨trees, h, -⟩
    exact exists_of_toTrees_eq_ok h x hx
  | map entries =>
    rw [toTree_map, Except.bind_eq_ok_iff] at h
    rcases h with ⟨trees, h, -⟩
    exact exists_of_toEntries_eq_ok h x hx
  | set items =>
    rw [toTree_set, Except.bind_eq_ok_iff] at h
    rcases h with ⟨trees, h, -⟩
    exact exists_of_toTrees_eq_ok h x hx
  | _ => cases hx

theorem exists_of_toTree_list_eq_error (h : toTree (.list items) = .error e) :
    ∃ x ∈ items, toTree x = .error e := by
  rw [toTree_list, Except.bind_eq_error_iff] at h
  rcases h with h | ⟨trees, -, h⟩
  . exact exists_of_toTrees_eq_error h
  . cases h

theorem exists_of_toTree_set_eq_error (h : toTree (.set items) = .error e) :
    ∃ x ∈ items, toTree x = .error e := by
  rw [toTree_set, Except.bind_eq_error_iff] at h
  rcases h with h | ⟨trees, -, h⟩
  . exact exists_of_toTrees_eq_error h
  . cases h

theorem exists_of_toTree_map_eq_error (h : toTree (.map entries) = .error e) :
    ∃ x ∈ (Value.map entries).parts, toTree x = .error e := by
  rw [toTree_map, Except.bind_eq_error_iff] at h
  rcases h with h | ⟨trees, -, h⟩
  . exact exists_of_toEntries_eq_error h
  . cases h

theorem toTree_ne_ok_of_contains (hcontains : v.Contains w) (hw : w.isStorable = false)
    (tree : Tree) : toTree v ≠ .ok tree := by
  intro h
  induction hcontains generalizing tree with
  | self w =>
    rw [toTree_of_not_isStorable hw] at h
    cases h
  | part hx inner ih =>
    rcases exists_toTree_of_mem_parts h hx with ⟨tree, h⟩
    exact ih hw tree h

inductive Hinders : Value → WriteFault → Prop where
  | unrepresentable {w : Value} (h : w.isStorable = false) : Hinders w .unrepresentable
  | tooManyDigits {n : Int} (h : Nat.pow 10 maxDigits ≤ n.natAbs) :
    Hinders (.integer n) .tooManyDigits

theorem hinders_of_toTree_integer {n : Int} (h : toTree (.integer n) = .error e) :
    Hinders (.integer n) e := by
  unfold toTree at h
  split at h
  . cases h
  . next htext =>
    cases h
    apply Hinders.tooManyDigits
    apply Nat.le_of_not_lt
    intro hshort
    have hok : integerText n = .ok (Text.integer n) := integerText_eq_ok_iff.mpr ⟨hshort, rfl⟩
    rw [htext] at hok
    cases hok

theorem exists_of_toTree_eq_error (h : toTree v = .error e) :
    ∃ w, v.Contains w ∧ Hinders w e := by
  induction v using Value.induction_on_parts with
  | h v ih =>
    -- The fault of a value that has parts is that of a part.
    have hpart : ∀ x ∈ v.parts, toTree x = .error e → ∃ w, v.Contains w ∧ Hinders w e := by
      intro x hx hfault
      rcases ih x hx hfault with ⟨w, hw, hhinders⟩
      exact ⟨w, .part hx hw, hhinders⟩
    cases v with
    | integer n => exact ⟨_, .self _, hinders_of_toTree_integer h⟩
    | list items =>
      rcases exists_of_toTree_list_eq_error h with ⟨x, hx, hfault⟩
      exact hpart x hx hfault
    | tuple items =>
      rw [toTree_tuple] at h
      rcases exists_of_toTree_list_eq_error h with ⟨x, hx, hfault⟩
      exact hpart x hx hfault
    | map entries =>
      rcases exists_of_toTree_map_eq_error h with ⟨x, hx, hfault⟩
      exact hpart x hx hfault
    | set items =>
      rcases exists_of_toTree_set_eq_error h with ⟨x, hx, hfault⟩
      exact hpart x hx hfault
    | duration _ | foreign _ =>
      unfold toTree at h
      cases h
      exact ⟨_, .self _, .unrepresentable rfl⟩
    | _ =>
      unfold toTree at h
      cases h

theorem write_ne_ok_of_contains (hcontains : v.Contains w) (hw : w.isStorable = false)
    (text : String) : Yaml.write v ≠ .ok text := by
  rw [write]
  cases h : toTree v with
  | error e => simp [Except.map]
  | ok tree => exact absurd h (toTree_ne_ok_of_contains hcontains hw tree)

theorem exists_of_write_eq_error (h : Yaml.write v = .error e) :
    ∃ w, v.Contains w ∧ Hinders w e := by
  rw [write] at h
  cases htree : toTree v with
  | ok tree =>
    rw [htree] at h
    cases h
  | error fault =>
    rw [htree] at h
    cases h
    exact exists_of_toTree_eq_error htree

end Yaml
end NodeSettings
