import NodeSettings.Proofs.Except
import NodeSettings.Proofs.Yaml.Scan.Document

/-!
This module contains the nodes of records: which nodes of a graph stand for a value, and that the
tokens of a record are read as such nodes.
-/

namespace NodeSettings
namespace Yaml

structure Member where
  keyNode : Nat
  valueNode : Nat
  key : List Char
  value : Value

namespace Member

def nodes (m : Member) : Nat × Nat :=
  (m.keyNode, m.valueNode)

def pair (m : Member) : Value × Value :=
  (.text (.ofChars m.key), m.value)

end Member

inductive Shows (g : Graph) : Nat → Nat → Value → Prop where
  | scalar (d : Nat) {n : Nat} {tag : Tag} {text : Text} {v : Value} (hfinished : n ∈ g.finished)
    (hnode : g.node n = ⟨tag, .scalar text⟩) (hvalue : ∀ mark, scalarValue tag mark text = .ok v) :
    Shows g d n v
  | list (d : Nat) {n : Nat} (items : List (Nat × Value)) (hfinished : n ∈ g.finished)
    (hnode : g.node n = ⟨.seq, .sequence (items.map (·.1))⟩)
    (hitems : ∀ i ∈ items, Shows g 0 i.1 i.2) : Shows g (d + 1) n (.list (items.map (·.2)))
  | record (d : Nat) {n : Nat} (members : List Member) (hfinished : n ∈ g.finished)
    (hnode : g.node n = ⟨.map, .mapping (members.map Member.nodes)⟩)
    (hkeys : (members.map (·.key)).Nodup)
    (hkey : ∀ m ∈ members, m.keyNode ∈ g.finished
      ∧ g.node m.keyNode = ⟨.str, .scalar (.ofChars m.key)⟩)
    (hmembers : ∀ m ∈ members, Shows g d m.valueNode m.value) :
    Shows g (d + 1) n (.map (members.map Member.pair))

def Graph.IsSound (g : Graph) : Prop :=
  ∀ n ∈ g.finished, n < g.nodes.size

structure Graph.Extends (g g' : Graph) : Prop where
  size_le : g.nodes.size ≤ g'.nodes.size
  sound : g'.IsSound
  kept : ∀ n ∈ g.finished, n ∈ g'.finished ∧ g'.node n = g.node n
  fresh : ∀ n ∈ g'.finished, n ∈ g.finished ∨ g.nodes.size ≤ n

variable {g g' g'' : Graph} {d n : Nat} {v : Value}

namespace Graph

theorem Extends.refl (h : g.IsSound) : g.Extends g :=
  ⟨Nat.le_refl _, h, fun _ hn => ⟨hn, rfl⟩, fun _ hn => .inl hn⟩

theorem Extends.trans (h : g.Extends g') (h' : g'.Extends g'') : g.Extends g'' := by
  refine ⟨Nat.le_trans h.size_le h'.size_le, h'.sound, ?_, ?_⟩
  . intro n hn
    rcases h.kept n hn with ⟨hn', hnode⟩
    rcases h'.kept n hn' with ⟨hn'', hnode'⟩
    exact ⟨hn'', hnode'.trans hnode⟩
  . intro n hn
    rcases h'.fresh n hn with hn | hn
    . exact h.fresh n hn
    . exact .inr (Nat.le_trans h.size_le hn)

theorem node_add_of_lt (g : Graph) (node : Node) (h : n < g.nodes.size) :
    (g.add node).node n = g.node n := by
  unfold Graph.node add
  simp [Array.getD_eq_getD_getElem?, Array.getElem?_push, Nat.ne_of_lt h]

theorem node_add_self (g : Graph) (node : Node) : (g.add node).node g.next = node := by
  unfold Graph.node add next
  simp [Array.getD_eq_getD_getElem?]

theorem extends_add (h : g.IsSound) (node : Node) : g.Extends (g.add node) := by
  refine ⟨?_, ?_, ?_, ?_⟩
  . simp [add]
  . intro n hn
    rcases List.mem_cons.mp hn with rfl | hn
    . simp [add]
    . have := h n hn
      simp only [add, Array.size_push]
      omega
  . intro n hn
    exact ⟨.tail _ hn, node_add_of_lt g node (h n hn)⟩
  . intro n hn
    rcases List.mem_cons.mp hn with rfl | hn
    . exact .inr (Nat.le_refl _)
    . exact .inl hn

theorem isSound_reserve (h : g.IsSound) : g.reserve.IsSound := by
  intro n hn
  have := h n hn
  simp only [reserve, Array.size_push]
  omega

theorem node_reserve_of_lt (g : Graph) (h : n < g.nodes.size) : g.reserve.node n = g.node n := by
  unfold Graph.node reserve
  simp [Array.getD_eq_getD_getElem?, Array.getElem?_push, Nat.ne_of_lt h]

theorem next_lt_of_extends_reserve (h : g.reserve.Extends g') : g.next < g'.nodes.size := by
  have hsize := h.size_le
  simp only [reserve, Array.size_push] at hsize
  exact hsize

theorem node_finish_self (h : g.reserve.Extends g') (node : Node) :
    (g'.finish g.next node).node g.next = node := by
  have hnext := next_lt_of_extends_reserve h
  unfold Graph.node finish
  simp [Array.getD_eq_getD_getElem?, hnext]

theorem node_finish_of_ne (g : Graph) {m : Nat} (node : Node) (h : n ≠ m) :
    (g.finish m node).node n = g.node n := by
  unfold Graph.node finish
  simp [Array.getD_eq_getD_getElem?, Array.getElem?_setIfInBounds_ne (Ne.symm h)]

theorem kept_finish (hg : g.IsSound) (h : g.reserve.Extends g') (node : Node) :
    ∀ n ∈ g'.finished, n ∈ (g'.finish g.next node).finished
      ∧ (g'.finish g.next node).node n = g'.node n := by
  intro n hn
  refine ⟨.tail _ hn, ?_⟩
  apply node_finish_of_ne
  rintro rfl
  rcases h.fresh _ hn with hn | hn
  . exact Nat.lt_irrefl _ (hg _ hn)
  . simp only [reserve, Array.size_push, next] at hn
    omega

theorem extends_finish (hg : g.IsSound) (h : g.reserve.Extends g') (node : Node) :
    g.Extends (g'.finish g.next node) := by
  have hnext := next_lt_of_extends_reserve h
  have hsize := h.size_le
  simp only [reserve, Array.size_push] at hsize
  refine ⟨?_, ?_, ?_, ?_⟩
  . simp only [finish, Array.size_setIfInBounds]
    omega
  . intro n hn
    simp only [finish, Array.size_setIfInBounds]
    rcases List.mem_cons.mp hn with rfl | hn
    . exact hnext
    . exact h.sound n hn
  . intro n hn
    rcases h.kept n hn with ⟨hn', hnode⟩
    rcases kept_finish hg h node n hn' with ⟨hn'', hnode'⟩
    exact ⟨hn'', by rw [hnode', hnode, node_reserve_of_lt g (hg n hn)]⟩
  . intro n hn
    rcases List.mem_cons.mp hn with rfl | hn
    . exact .inr (Nat.le_refl _)
    . rcases h.fresh n hn with hn | hn
      . exact .inl hn
      . simp only [reserve, Array.size_push] at hn
        exact .inr (by omega)

end Graph

theorem Shows.mono (h : Shows g d n v)
    (hkept : ∀ n ∈ g.finished, n ∈ g'.finished ∧ g'.node n = g.node n) : Shows g' d n v := by
  induction h with
  | scalar d hfinished hnode hvalue =>
    rcases hkept _ hfinished with ⟨hfinished', hsame⟩
    exact .scalar d hfinished' (hsame.trans hnode) hvalue
  | list d items hfinished hnode hitems ih =>
    rcases hkept _ hfinished with ⟨hfinished', hsame⟩
    exact .list d items hfinished' (hsame.trans hnode) ih
  | record d members hfinished hnode hkeys hkey hmembers ih =>
    rcases hkept _ hfinished with ⟨hfinished', hsame⟩
    refine .record d members hfinished' (hsame.trans hnode) hkeys ?_ ih
    intro m hm
    rcases hkey m hm with ⟨hkeyFinished, hkeyNode⟩
    rcases hkept _ hkeyFinished with ⟨hkeyFinished', hkeySame⟩
    exact ⟨hkeyFinished', hkeySame.trans hkeyNode⟩

namespace Compose

variable {place : Place} {fuel : Nat} {more : List Token} {handles : List (String × String)}
variable {anchors : List (String × Nat)} {tag : Tag} {text : Text}

theorem node_scalar (place : Place) (fuel : Nat) (isPlain : Bool) :
    node place (fuel + 1) ⟨.scalar text isPlain :: more, handles, anchors, g⟩ =
      .ok (g.next, ⟨more, handles, anchors,
        g.add ⟨scalarTag none isPlain text, .scalar text⟩⟩) := by
  rw [node]
  rfl

theorem node_mapping (hplace : place ≠ .flow) (fuel : Nat) :
    node place (fuel + 1) ⟨.blockMappingStart :: more, handles, anchors, g⟩ = (do
      let (entries, s) ← blockEntries fuel ⟨more, handles, anchors, g.reserve⟩
      return (g.next, s.finish g.next ⟨.map, .mapping entries⟩)) := by
  rw [node]
  cases place with
  | block => rfl
  | inMapping => rfl
  | flow => exact absurd rfl hplace

theorem node_items (fuel : Nat) :
    node .inMapping (fuel + 1) ⟨.blockEntry :: more, handles, anchors, g⟩ = (do
      let (items, s) ← indentlessItems fuel ⟨.blockEntry :: more, handles, anchors, g.reserve⟩
      return (g.next, s.finish g.next ⟨.seq, .sequence items⟩)) := by
  rw [node]
  rfl

theorem node_brackets (place : Place) (fuel : Nat) :
    node place (fuel + 2) ⟨.flowSequenceStart :: .flowSequenceEnd :: more, handles, anchors, g⟩ =
      .ok (g.next, ⟨more, handles, anchors, g.reserve.finish g.next ⟨.seq, .sequence []⟩⟩) := by
  rw [node]
  rfl

theorem nodeUnless_eq_node {token : Token} {ends : List Token} (place : Place) (fuel : Nat)
    (h : ends.contains token = false) :
    nodeUnless place ends (fuel + 1) ⟨token :: more, handles, anchors, g⟩ =
      node place fuel ⟨token :: more, handles, anchors, g⟩ := by
  have hnext : Source.nextIn ⟨token :: more, handles, anchors, g⟩ ends = false := h
  rw [nodeUnless, hnext, if_neg (by simp)]

theorem indentlessItems_end (fuel : Nat) (h : more.head? ≠ some .blockEntry) :
    indentlessItems (fuel + 1) ⟨more, handles, anchors, g⟩ =
      .ok ([], ⟨more, handles, anchors, g⟩) := by
  rw [indentlessItems]
  split
  . next htokens =>
    dsimp only at htokens
    rw [htokens] at h
    exact absurd rfl h
  . rfl

theorem indentlessItems_cons (fuel : Nat) :
    indentlessItems (fuel + 1) ⟨.blockEntry :: more, handles, anchors, g⟩ = (do
      let (item, s) ← nodeUnless .block [.blockEntry, .key, .value, .blockEnd] fuel
        ⟨more, handles, anchors, g⟩
      let (items, s) ← indentlessItems fuel s
      return (item :: items, s)) := by
  rw [indentlessItems]
  rfl

theorem blockEntries_end (fuel : Nat) :
    blockEntries (fuel + 1) ⟨.blockEnd :: more, handles, anchors, g⟩ =
      .ok ([], ⟨more, handles, anchors, g⟩) := by
  rw [blockEntries]
  rfl

theorem blockEntries_cons (fuel : Nat) :
    blockEntries (fuel + 1) ⟨.key :: more, handles, anchors, g⟩ = (do
      let (key, s) ← nodeUnless .inMapping [.key, .value, .blockEnd] fuel
        ⟨more, handles, anchors, g⟩
      let (value, s) ← blockValue fuel s
      let (entries, s) ← blockEntries fuel s
      return ((key, value) :: entries, s)) := by
  rw [blockEntries]
  rfl

theorem blockValue_eq (fuel : Nat) :
    blockValue (fuel + 1) ⟨.value :: more, handles, anchors, g⟩ =
      nodeUnless .inMapping [.key, .value, .blockEnd] fuel ⟨more, handles, anchors, g⟩ := by
  rw [blockValue]
  rfl

def ReadsNode (place : Place) (d : Nat) (read : List Token) (v : Value) : Prop :=
  ∀ (fuel : Nat) (more : List Token) (handles : List (String × String))
    (anchors : List (String × Nat)) ⦃g : Graph⦄,
    4 * read.length ≤ fuel → more.head? ≠ some .blockEntry → g.IsSound →
    ∃ g', node place fuel ⟨read ++ more, handles, anchors, g⟩ =
        .ok (g.next, ⟨more, handles, anchors, g'⟩)
      ∧ g.Extends g' ∧ Shows g' d g.next v

theorem readsNode_scalar (place : Place) (d : Nat) (hreadable : IsReadable tag text)
    (hvalue : ∀ mark, scalarValue tag mark text = .ok v) :
    ReadsNode place d (treeTokens (.scalar tag text)) v := by
  intro fuel more handles anchors g hfuel hmore hg
  rw [treeTokens] at hfuel ⊢
  cases fuel with
  | zero => cases hfuel
  | succ fuel =>
    refine ⟨g.add ⟨tag, .scalar text⟩, ?_, Graph.extends_add hg _, ?_⟩
    . rw [List.singleton_append, node_scalar, scalarTag_isPlain hreadable]
    . exact .scalar d (.head _) (Graph.node_add_self g _) hvalue

theorem readsItems {items : List (Tree × Value)} (hitems : ∀ i ∈ items, Denotes 0 i.1 i.2)
    (hfuel : 2 * (itemTokens (items.map (·.1))).length + 2 ≤ fuel)
    (hmore : more.head? ≠ some .blockEntry) (hg : g.IsSound) :
    ∃ (g' : Graph) (read : List (Nat × Value)),
      indentlessItems fuel ⟨itemTokens (items.map (·.1)) ++ more, handles, anchors, g⟩ =
        .ok (read.map (·.1), ⟨more, handles, anchors, g'⟩)
      ∧ g.Extends g' ∧ read.map (·.2) = items.map (·.2) ∧ ∀ i ∈ read, Shows g' 0 i.1 i.2 := by
  induction items generalizing fuel g with
  | nil =>
    cases fuel with
    | zero => cases hfuel
    | succ fuel =>
      refine ⟨g, [], ?_, .refl hg, rfl, by simp⟩
      exact indentlessItems_end fuel hmore
  | cons item items ih =>
    rcases item with ⟨tree, v⟩
    have hitem := hitems _ (.head _)
    cases hitem with
    | @scalar d tag text _ hreadable hvalue =>
      simp only [List.map_cons, itemTokens, treeTokens, List.singleton_append, List.length_cons]
        at hfuel ⊢
      have hsplit : ∃ fuel', fuel = fuel' + 3 := ⟨fuel - 3, by omega⟩
      rcases hsplit with ⟨fuel, rfl⟩
      have hadd := Graph.extends_add hg ⟨tag, .scalar text⟩
      rcases ih (fun i hi => hitems i (.tail _ hi)) (show _ ≤ fuel + 2 by omega) hadd.sound with
        ⟨g', read, hread, hextends, hvalues, hshows⟩
      refine ⟨g', (g.next, v) :: read, ?_, hadd.trans hextends, by simp [hvalues], ?_⟩
      . rw [List.cons_append, List.cons_append, indentlessItems_cons, nodeUnless_eq_node _ _ rfl,
          node_scalar, scalarTag_isPlain hreadable, Except.ok_bind]
        dsimp only
        rw [hread]
        rfl
      . intro i hi
        rcases List.mem_cons.mp hi with rfl | hi
        . have hfirst : Shows (g.add ⟨tag, .scalar text⟩) 0 g.next v :=
            .scalar 0 (.head _) (Graph.node_add_self g _) hvalue
          exact hfirst.mono hextends.kept
        . exact hshows i hi

theorem readsNode_list (d : Nat) {items : List (Tree × Value)}
    (hitems : ∀ i ∈ items, Denotes 0 i.1 i.2) :
    ReadsNode .inMapping (d + 1) (treeTokens (.sequence (items.map (·.1))))
      (.list (items.map (·.2))) := by
  intro fuel more handles anchors g hfuel hmore hg
  have hreserve := Graph.Extends.refl (Graph.isSound_reserve hg)
  rw [treeTokens] at hfuel ⊢
  cases items with
  | nil =>
    have hsplit : ∃ fuel', fuel = fuel' + 2 := ⟨fuel - 2, by simp at hfuel; omega⟩
    rcases hsplit with ⟨fuel, rfl⟩
    refine ⟨_, node_brackets .inMapping fuel, Graph.extends_finish hg hreserve _, ?_⟩
    exact .list d [] (.head _) (Graph.node_finish_self hreserve _) (by simp)
  | cons item items =>
    have hempty : ((item :: items).map (·.1)).isEmpty = false := rfl
    rw [hempty, if_neg (by simp)] at hfuel ⊢
    -- An item is a sign and a scalar at least, which is fuel enough for the sequence itself.
    have hpositive : 1 < (itemTokens ((item :: items).map (·.1))).length := by
      rcases Scanner.exists_scalar (hitems item (.head _)) with ⟨tag, text, htree, -⟩
      simp [itemTokens, treeTokens, htree]
    have hsplit : ∃ fuel', fuel = fuel' + 1 := ⟨fuel - 1, by omega⟩
    rcases hsplit with ⟨fuel, rfl⟩
    rcases readsItems hitems (show 2 * _ + 2 ≤ fuel by omega) hmore hreserve.sound with
      ⟨g', read, hread, hextends, hvalues, hshows⟩
    refine ⟨g'.finish g.next ⟨.seq, .sequence (read.map (·.1))⟩, ?_,
      Graph.extends_finish hg hextends _, ?_⟩
    . rw [List.map_cons, itemTokens, List.cons_append] at hread ⊢
      rw [node_items, hread]
      rfl
    . rw [← hvalues]
      refine .list d read (.head _) (Graph.node_finish_self hextends _) ?_
      intro i hi
      exact (hshows i hi).mono (Graph.kept_finish hg hextends _)

theorem exists_first_token (tree : Tree) : ∃ token rest, treeTokens tree = token :: rest
    ∧ [Token.key, .value, .blockEnd].contains token = false := by
  cases tree with
  | scalar _ _ | tagged _ _ _ | block _ _ | mapping _ | set _ =>
    exact ⟨_, _, by rw [treeTokens], rfl⟩
  | sequence items =>
    rw [treeTokens]
    cases items with
    | nil => exact ⟨_, _, rfl, rfl⟩
    | cons item items => exact ⟨_, _, by rw [List.isEmpty_cons, if_neg (by simp), itemTokens], rfl⟩

theorem head_entryTokens_ne (entries : List (Tree × Tree)) (more : List Token) :
    (entryTokens entries ++ .blockEnd :: more).head? ≠ some .blockEntry := by
  cases entries with
  | nil => simp [entryTokens]
  | cons entry entries =>
    rcases entry with ⟨key, value⟩
    simp [entryTokens]

theorem scalarTag_key {w : List Char} (h : IsKey w) : scalarTag none true (.ofChars w) = .str := by
  have htag := scalarTag_isPlain (.inl rfl : IsReadable .str (.ofChars w))
  rwa [isPlain_key h] at htag

theorem blockEntries_entry {w : List Char} (hkey : IsKey w) {tree : Tree} {value : Nat}
    {s : Source} (h : node .inMapping fuel ⟨treeTokens tree ++ more, handles, anchors,
      g.add ⟨.str, .scalar (.ofChars w)⟩⟩ = .ok (value, s)) :
    blockEntries (fuel + 3) ⟨.key :: .scalar (.ofChars w) true :: .value
        :: (treeTokens tree ++ more), handles, anchors, g⟩ = (do
      let (entries, s) ← blockEntries (fuel + 2) s
      return ((g.next, value) :: entries, s)) := by
  rcases exists_first_token tree with ⟨token, tokens, hfirst, hends⟩
  rw [hfirst, List.cons_append] at h ⊢
  rw [blockEntries_cons, nodeUnless_eq_node _ _ rfl, node_scalar, scalarTag_key hkey,
    Except.ok_bind]
  dsimp only
  rw [blockValue_eq, nodeUnless_eq_node _ _ hends, h, Except.ok_bind]

theorem readsEntries {entries : List Entry} (hkey : ∀ e ∈ entries, IsKey e.key)
    (hread : ∀ e ∈ entries, ReadsNode .inMapping d (treeTokens e.tree) e.value)
    (hfuel : 4 * ((entryTokens (entries.map Entry.node)).length + 1) ≤ fuel) (hg : g.IsSound) :
    ∃ (g' : Graph) (read : List Member),
      blockEntries fuel
          ⟨entryTokens (entries.map Entry.node) ++ .blockEnd :: more, handles, anchors, g⟩ =
        .ok (read.map Member.nodes, ⟨more, handles, anchors, g'⟩)
      ∧ g.Extends g' ∧ read.map Member.pair = entries.map Entry.pair
      ∧ read.map (·.key) = entries.map (·.key)
      ∧ (∀ m ∈ read, m.keyNode ∈ g'.finished
        ∧ g'.node m.keyNode = ⟨.str, .scalar (.ofChars m.key)⟩)
      ∧ ∀ m ∈ read, Shows g' d m.valueNode m.value := by
  induction entries generalizing fuel g with
  | nil =>
    cases fuel with
    | zero => omega
    | succ fuel =>
      refine ⟨g, [], ?_, .refl hg, rfl, rfl, by simp, by simp⟩
      exact blockEntries_end fuel
  | cons e entries ih =>
    have hfirst := hkey e (.head _)
    have hkeyTokens : treeTokens (.scalar .str (.ofChars e.key)) =
        [.scalar (.ofChars e.key) true] := by
      rw [treeTokens, isPlain_key hfirst]
    rw [List.map_cons, Entry.node, entryTokens, hkeyTokens, List.singleton_append] at hfuel ⊢
    simp only [List.length_cons, List.length_append] at hfuel
    have hsplit : ∃ fuel', fuel = fuel' + 3 := ⟨fuel - 3, by omega⟩
    rcases hsplit with ⟨fuel, rfl⟩
    have hadd := Graph.extends_add hg ⟨.str, .scalar (.ofChars e.key)⟩
    rcases hread e (.head _) fuel (entryTokens (entries.map Entry.node) ++ .blockEnd :: more)
      handles anchors (by omega) (head_entryTokens_ne _ _) hadd.sound with
      ⟨g₁, hnode, hvalue, hshows⟩
    rcases ih (fun e he => hkey e (.tail _ he)) (fun e he => hread e (.tail _ he))
      (show 4 * _ ≤ fuel + 2 by omega) hvalue.sound with
      ⟨g', read, hentries, hrest, hpairs, hkeys, hkeyNodes, hmembers⟩
    -- The node of the key stays as it is while the value and the other entries are read.
    have hkeyNode := hvalue.kept g.next (.head _)
    have hkeyNode' := hrest.kept g.next hkeyNode.1
    refine ⟨g', ⟨g.next, (g.add ⟨.str, .scalar (.ofChars e.key)⟩).next, e.key, e.value⟩ :: read, ?_,
      (hadd.trans hvalue).trans hrest, ?_, ?_, ?_, ?_⟩
    . simp only [List.cons_append, List.append_assoc]
      rw [blockEntries_entry hfirst hnode, hentries]
      rfl
    . rw [List.map_cons, List.map_cons, hpairs]
      rfl
    . rw [List.map_cons, List.map_cons, hkeys]
    . intro m hm
      rcases List.mem_cons.mp hm with rfl | hm
      . exact ⟨hkeyNode'.1, by rw [hkeyNode'.2, hkeyNode.2]; exact Graph.node_add_self g _⟩
      . exact hkeyNodes m hm
    . intro m hm
      rcases List.mem_cons.mp hm with rfl | hm
      . exact hshows.mono hrest.kept
      . exact hmembers m hm

theorem readsNode_record (hplace : place ≠ .flow) {entries : List Entry}
    (hkeys : (entries.map (·.key)).Nodup) (hkey : ∀ e ∈ entries, IsKey e.key)
    (hread : ∀ e ∈ entries, ReadsNode .inMapping d (treeTokens e.tree) e.value) :
    ReadsNode place (d + 1) (treeTokens (.mapping (entries.map Entry.node)))
      (.map (entries.map Entry.pair)) := by
  intro fuel more handles anchors g hfuel hmore hg
  have hreserve := Graph.isSound_reserve hg
  rw [treeTokens] at hfuel ⊢
  simp only [List.length_cons, List.length_append, List.length_nil] at hfuel
  have hsplit : ∃ fuel', fuel = fuel' + 1 := ⟨fuel - 1, by omega⟩
  rcases hsplit with ⟨fuel, rfl⟩
  rcases readsEntries hkey hread (show 4 * _ ≤ fuel by omega) hreserve with
    ⟨g', read, hentries, hextends, hpairs, hsame, hkeyNodes, hmembers⟩
  have hkept := Graph.kept_finish hg hextends ⟨.map, .mapping (read.map Member.nodes)⟩
  refine ⟨g'.finish g.next ⟨.map, .mapping (read.map Member.nodes)⟩, ?_,
    Graph.extends_finish hg hextends _, ?_⟩
  . rw [List.cons_append, List.append_assoc, List.singleton_append, node_mapping hplace, hentries]
    rfl
  . rw [← hpairs]
    refine .record d read (.head _) (Graph.node_finish_self hextends _) (by rwa [hsame]) ?_ ?_
    . intro m hm
      rcases hkeyNodes m hm with ⟨hfinished, hnode⟩
      rcases hkept _ hfinished with ⟨hfinished', hsame⟩
      exact ⟨hfinished', hsame.trans hnode⟩
    . intro m hm
      exact (hmembers m hm).mono hkept

theorem readsNode_of_denotes {tree : Tree} (h : Denotes d tree v) :
    ReadsNode .inMapping d (treeTokens tree) v := by
  induction h with
  | scalar d hreadable hvalue => exact readsNode_scalar .inMapping d hreadable hvalue
  | list d items hitems ih => exact readsNode_list d hitems
  | record d entries hne hkeys hkey hentries ih =>
    exact readsNode_record (by simp) hkeys hkey ih

theorem document_treeTokens {entries : List (Tree × Tree)} (h : Denotes d (.mapping entries) v) :
    ∃ n g, document (treeTokens (.mapping entries) ++ [.streamEnd]) = .ok (some (n, g))
      ∧ g.IsSound ∧ Shows g d n v := by
  cases h with
  | record d entries hne hkeys hkey hentries =>
    have hread : ReadsNode .block (d + 1) (treeTokens (.mapping (entries.map Entry.node)))
        (.map (entries.map Entry.pair)) :=
      readsNode_record (by simp) hkeys hkey fun e he => readsNode_of_denotes (hentries e he)
    have hempty : Graph.IsSound {} := by
      intro n hn
      cases hn
    rcases hread (bound (treeTokens (.mapping (entries.map Entry.node)) ++ [.streamEnd]))
      [.streamEnd] defaultHandles [] (by simp [bound]; omega) (by simp) hempty with
      ⟨g, hnode, hextends, hshows⟩
    refine ⟨_, g, ?_, hextends.sound, hshows⟩
    rw [treeTokens, List.cons_append] at hnode ⊢
    unfold document
    dsimp only
    rw [hnode]
    rfl

end Compose

end Yaml
end NodeSettings
