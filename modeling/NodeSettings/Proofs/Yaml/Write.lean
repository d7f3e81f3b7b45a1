import NodeSettings.Proofs.Except
import NodeSettings.Proofs.Yaml.Integer
import NodeSettings.Proofs.Yaml.Record
import NodeSettings.Proofs.Yaml.Read
import NodeSettings.Yaml.Write

/-!
This module contains the trees of values: texts, truth values and integers, lists of texts, and
records of values that are written are written as trees that denote them.
-/

namespace NodeSettings
namespace Yaml

def IsWritable (d : Nat) (v : Value) : Prop :=
  ∀ tree, toTree v = .ok tree → Denotes d tree v

theorem toTree_text (t : Text) : toTree (.text t) = .ok (.scalar .str t) := by
  unfold toTree
  rfl

theorem toEntries_cons (t : Text) (x : Value) (entries : List (Value × Value)) :
    toEntries ((.text t, x) :: entries) = (do
      let value ← toTree x
      return (.scalar .str t, value) :: (← toEntries entries)) := by
  conv => lhs; unfold toEntries
  rw [toTree_text]
  rfl

theorem isWritable_text (d : Nat) (t : Text) : IsWritable d (.text t) := by
  intro tree htree
  rw [toTree_text] at htree
  cases htree
  exact .scalar d (.inl rfl) fun _ => rfl

theorem isWritable_boolean (d : Nat) (b : Bool) : IsWritable d (.boolean b) := by
  intro tree htree
  cases b with
  | true =>
    cases htree
    exact .scalar d (.inr ⟨by decide, by decide⟩) fun _ => rfl
  | false =>
    cases htree
    exact .scalar d (.inr ⟨by decide, by decide⟩) fun _ => rfl

theorem isWritable_integer (d : Nat) (n : Int) : IsWritable d (.integer n) := by
  intro tree htree
  unfold toTree at htree
  split at htree
  . next s hs =>
    cases htree
    rcases isReadable_integer hs with ⟨hreadable, hvalue⟩
    exact .scalar d hreadable hvalue
  . cases htree

theorem toTrees_texts (ts : List Text) :
    toTrees (ts.map .text) = .ok (ts.map fun t => Tree.scalar .str t) := by
  induction ts with
  | nil => rfl
  | cons t ts ih =>
    rw [List.map_cons]
    unfold toTrees
    rw [toTree_text, ih]
    rfl

theorem isWritable_texts (d : Nat) (ts : List Text) :
    IsWritable (d + 1) (.list (ts.map .text)) := by
  intro tree htree
  unfold toTree at htree
  rw [toTrees_texts] at htree
  cases htree
  have hlist := Denotes.list d (ts.map fun t => (Tree.scalar .str t, Value.text t)) (by
    intro i hi
    rcases List.mem_map.mp hi with ⟨t, -, rfl⟩
    exact .scalar 0 (.inl rfl) fun _ => rfl)
  rw [List.map_map, List.map_map] at hlist
  exact hlist

theorem exists_entries {d : Nat} {members : List (List Char × Value)}
    (h : ∀ m ∈ members, IsWritable d m.2) {trees : List (Tree × Tree)}
    (htrees : toEntries (members.map fun m => (.text (.ofChars m.1), m.2)) = .ok trees) :
    ∃ entries : List Entry, trees = entries.map Entry.node
      ∧ entries.map (fun e => (e.key, e.value)) = members
      ∧ ∀ e ∈ entries, Denotes d e.tree e.value := by
  induction members generalizing trees with
  | nil =>
    cases htrees
    exact ⟨[], rfl, rfl, by simp⟩
  | cons m members ih =>
    rw [List.map_cons, toEntries_cons, Except.bind_eq_ok_iff] at htrees
    rcases htrees with ⟨tree, htree, hrest⟩
    rw [Except.bind_eq_ok_iff] at hrest
    rcases hrest with ⟨rest, hrest, hall⟩
    cases hall
    rcases ih (fun m hm => h m (.tail _ hm)) hrest with ⟨entries, rfl, hentries, hdenotes⟩
    refine ⟨⟨m.1, tree, m.2⟩ :: entries, rfl, ?_, ?_⟩
    . rw [List.map_cons, hentries]
    . intro e he
      rcases List.mem_cons.mp he with rfl | he
      . exact h m (.head _) tree htree
      . exact hdenotes e he

theorem isWritable_record {d : Nat} {members : List (List Char × Value)} (hne : members ≠ [])
    (hkeys : (members.map (·.1)).Nodup) (hkey : ∀ m ∈ members, IsKey m.1)
    (h : ∀ m ∈ members, IsWritable d m.2) :
    IsWritable (d + 1) (.map (members.map fun m => (.text (.ofChars m.1), m.2))) := by
  intro tree htree
  unfold toTree at htree
  rw [Except.bind_eq_ok_iff] at htree
  rcases htree with ⟨trees, htrees, heq⟩
  cases heq
  rcases exists_entries h htrees with ⟨entries, rfl, rfl, hdenotes⟩
  rw [List.map_map] at hkeys
  have hrecord := Denotes.record d entries (by simpa using hne) hkeys
    (fun e he => hkey _ (List.mem_map_of_mem he)) hdenotes
  rw [List.map_map]
  exact hrecord

/-- A record that is written is read back from its document. -/
theorem read_write {d : Nat} {entries : List (Value × Value)} {s : String}
    (h : IsWritable d (.map entries)) (hd : d < Builder.rounds)
    (hwrite : Yaml.write (.map entries) = .ok s) : Yaml.read s.toUTF8 = .ok (.map entries) := by
  unfold Yaml.write at hwrite
  cases htree : toTree (.map entries) with
  | error e =>
    rw [htree] at hwrite
    cases hwrite
  | ok tree =>
    rw [htree] at hwrite
    cases hwrite
    have hdenotes := h tree htree
    unfold toTree at htree
    rw [Except.bind_eq_ok_iff] at htree
    rcases htree with ⟨trees, -, heq⟩
    cases heq
    exact read_document hdenotes hd

end Yaml
end NodeSettings
