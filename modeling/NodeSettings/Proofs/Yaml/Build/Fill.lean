import NodeSettings.Proofs.Yaml.Compose
import NodeSettings.Yaml.Build

/-!
This module contains the building of nodes that stand for values. While collections are filled level
by level, every node that is built is either what it will be in the end, or a collection that is
still empty and waits for its turn.
-/

namespace NodeSettings
namespace Yaml

variable {g : Graph} {d n : Nat} {v : Value}

theorem Shows.finished (h : Shows g d n v) : n ∈ g.finished := by
  cases h <;> assumption

theorem Shows.lt_size (hg : g.IsSound) (h : Shows g d n v) : n < g.nodes.size :=
  hg n h.finished

theorem Shows.deeper (h : Shows g 0 n v) (d : Nat) : Shows g d n v := by
  cases h with
  | scalar _ hfinished hnode hvalue => exact .scalar d hfinished hnode hvalue

theorem isScalar_of_scalarValue {tag : Tag} {mark : Nat} {text : Text}
    (h : scalarValue tag mark text = .ok v) : tag.isScalar = true := by
  cases tag <;> first | rfl | cases h

theorem emptyOf?_of_isScalar {tag : Tag} (h : tag.isScalar = true) :
    Builder.emptyOf? tag = none := by
  cases tag <;> first | rfl | cases h

namespace Graph

def keyOf (g : Graph) (n : Nat) : Value :=
  match (g.node n).content with
  | .scalar text => .text text
  | _ => .null

def builtOf (g : Graph) (n : Nat) : Built :=
  match (g.node n).content with
  | .scalar text =>
    match scalarValue (g.node n).tag (n + 1) text with
    | .ok v => .leaf v
    | .error _ => .leaf .null
  | .sequence items => .list items
  | .mapping entries => .map (entries.map fun (key, value) => (g.keyOf key, value))

def parts (g : Graph) (n : Nat) : List Nat :=
  match (g.node n).content with
  | .scalar _ => []
  | .sequence items => items
  | .mapping entries => entries.map (·.2)

theorem leafValue_eq {tag : Tag} {text : Text} (hnode : g.node n = ⟨tag, .scalar text⟩)
    (hvalue : ∀ mark, scalarValue tag mark text = .ok v) : g.leafValue n = .ok v := by
  have htext : g.text n = .ok text := by
    rw [Graph.text, textWithin, hnode]
    rfl
  have hentries : g.entries? n = none := by
    rw [entries?, hnode]
  unfold leafValue
  dsimp only
  rw [htext, hentries, hnode, isScalar_of_scalarValue (hvalue 0)]
  simp only [Bool.not_true, Option.isSome_none, Bool.and_false, Bool.false_eq_true, if_false]
  exact hvalue (n + 1)

theorem builtOf_scalar {tag : Tag} {text : Text} (hnode : g.node n = ⟨tag, .scalar text⟩)
    (hvalue : ∀ mark, scalarValue tag mark text = .ok v) : g.builtOf n = .leaf v := by
  rw [builtOf, hnode]
  dsimp only
  rw [hvalue]

theorem nextMerge_eq (index : Nat) {entries : List (Nat × Nat)}
    (h : ∀ e ∈ entries, (g.node e.1).tag = .str) : g.nextMerge index entries = (g, none) := by
  induction entries generalizing index with
  | nil => rfl
  | cons e entries ih =>
    rw [nextMerge, h e (.head _)]
    exact ih (index + 1) fun e he => h e (.tail _ he)

theorem merge_eq (fuel : Nat) {entries : List (Nat × Nat)} (hentries : g.entries n = entries)
    (h : ∀ e ∈ entries, (g.node e.1).tag = .str) : g.merge fuel n = .ok g := by
  unfold merge
  cases fuel with
  | zero => rfl
  | succ fuel =>
    rw [mergeFrom, hentries, List.drop_zero, nextMerge_eq 0 h]
    rfl

end Graph

structure Builder.IsFilling (b : Builder) (g : Graph) (d : Nat) (pending : List Nat) : Prop where
  graph : b.graph = g
  size : b.built.size = g.nodes.size
  settled : ∀ n x, b.built.getD n none = some x →
    (x = g.builtOf n ∧ ∀ m ∈ g.parts n, (b.built.getD m none).isSome = true)
      ∨ ((n ∈ pending ∨ n ∈ b.unfilled) ∧ emptyOf? (g.node n).tag = some x)
  pending : ∀ n ∈ pending, (b.built.getD n none).isSome = true
    ∧ (emptyOf? (g.node n).tag).isSome = true ∧ ∃ v, Shows g (d + 1) n v
  unfilled : ∀ n ∈ b.unfilled, (b.built.getD n none).isSome = true
    ∧ (emptyOf? (g.node n).tag).isSome = true ∧ ∃ v, Shows g d n v

def Builder.Keeps (b b' : Builder) : Prop :=
  ∀ n, (b.built.getD n none).isSome = true → (b'.built.getD n none).isSome = true

namespace Builder

variable {b b' b'' : Builder} {pending : List Nat} {x : Built}

theorem Keeps.refl (b : Builder) : b.Keeps b :=
  fun _ h => h

theorem Keeps.trans (h : b.Keeps b') (h' : b'.Keeps b'') : b.Keeps b'' :=
  fun n hn => h' n (h n hn)

theorem built_put_self (h : n < b.built.size) (x : Built) :
    (b.put n x).built.getD n none = some x := by
  unfold put
  simp [Array.getD_eq_getD_getElem?, h]

theorem built_put_of_ne {m : Nat} (h : m ≠ n) (x : Built) :
    (b.put n x).built.getD m none = b.built.getD m none := by
  unfold put
  simp [Array.getD_eq_getD_getElem?, Array.getElem?_setIfInBounds_ne (Ne.symm h)]

theorem lt_size_of_isSome (h : (b.built.getD n none).isSome = true) : n < b.built.size := by
  by_cases hsize : n < b.built.size
  . exact hsize
  . have hout : b.built.getD n none = none := by
      simp [Array.getD_eq_getD_getElem?, hsize]
    rw [hout] at h
    cases h

theorem keeps_put (b : Builder) (n : Nat) (x : Built) : b.Keeps (b.put n x) := by
  intro m hm
  by_cases h : m = n
  . subst h
    rw [built_put_self (lt_size_of_isSome hm)]
    rfl
  . rwa [built_put_of_ne h]

theorem IsFilling.put_builtOf {pending' : List Nat} (hb : b.IsFilling g d pending)
    (hsub : ∀ m ∈ pending', m ∈ pending) (hsup : ∀ m ∈ pending, m = n ∨ m ∈ pending')
    (hn : n < b.built.size) (hparts : ∀ m ∈ g.parts n, (b.built.getD m none).isSome = true) :
    (b.put n (g.builtOf n)).IsFilling g d pending' := by
  have hkeeps := keeps_put b n (g.builtOf n)
  refine ⟨hb.graph, ?_, ?_, ?_, ?_⟩
  . rw [← hb.size]
    exact Array.size_setIfInBounds
  . intro m x hm
    by_cases hsame : m = n
    . subst hsame
      rw [built_put_self hn] at hm
      cases hm
      exact .inl ⟨rfl, fun k hk => hkeeps k (hparts k hk)⟩
    . rw [built_put_of_ne hsame] at hm
      rcases hb.settled m x hm with ⟨hx, hm⟩ | ⟨hm, hx⟩
      . exact .inl ⟨hx, fun k hk => hkeeps k (hm k hk)⟩
      . rcases hm with hm | hm
        . rcases hsup m hm with heq | hm
          . exact absurd heq hsame
          . exact .inr ⟨.inl hm, hx⟩
        . exact .inr ⟨.inr hm, hx⟩
  . intro m hm
    rcases hb.pending m (hsub m hm) with ⟨hbuilt, hrest⟩
    exact ⟨hkeeps m hbuilt, hrest⟩
  . intro m hm
    rcases hb.unfilled m hm with ⟨hbuilt, hrest⟩
    exact ⟨hkeeps m hbuilt, hrest⟩

theorem IsFilling.put_empty (hb : b.IsFilling g d pending) (h : Shows g d n v)
    (hn : n < b.built.size) (hempty : emptyOf? (g.node n).tag = some x) :
    ({ b.put n x with unfilled := n :: b.unfilled } : Builder).IsFilling g d pending := by
  have hkeeps := keeps_put b n x
  refine ⟨hb.graph, ?_, ?_, ?_, ?_⟩
  . rw [← hb.size]
    exact Array.size_setIfInBounds
  . intro m y hm
    by_cases hsame : m = n
    . subst hsame
      have hself := built_put_self hn x
      rw [show _ = some y from hm] at hself
      cases hself
      exact .inr ⟨.inr (.head _), hempty⟩
    . have hother := built_put_of_ne hsame x (b := b)
      rw [show _ = some y from hm] at hother
      rcases hb.settled m y hother.symm with ⟨hy, hm⟩ | ⟨hm, hy⟩
      . exact .inl ⟨hy, fun k hk => hkeeps k (hm k hk)⟩
      . rcases hm with hm | hm
        . exact .inr ⟨.inl hm, hy⟩
        . exact .inr ⟨.inr (.tail _ hm), hy⟩
  . intro m hm
    rcases hb.pending m hm with ⟨hbuilt, hrest⟩
    exact ⟨hkeeps m hbuilt, hrest⟩
  . intro m hm
    rcases List.mem_cons.mp hm with rfl | hm
    . refine ⟨?_, ?_, v, h⟩
      . show ((b.put m x).built.getD m none).isSome = true
        rw [built_put_self hn]
        rfl
      . rw [hempty]
        rfl
    . rcases hb.unfilled m hm with ⟨hbuilt, hrest⟩
      exact ⟨hkeeps m hbuilt, hrest⟩

theorem IsFilling.build (hg : g.IsSound) (hb : b.IsFilling g d pending) (h : Shows g d n v) :
    ∃ b', b.build n = .ok b' ∧ b'.IsFilling g d pending ∧ b.Keeps b'
      ∧ (b'.built.getD n none).isSome = true := by
  have hn : n < b.built.size := by
    rw [hb.size]
    exact h.lt_size hg
  have hself (x : Built) : ((b.put n x).built.getD n none).isSome = true := by
    rw [built_put_self hn]
    rfl
  unfold Builder.build
  by_cases hbuilt : (b.built.getD n none).isSome = true
  . rw [if_pos hbuilt]
    exact ⟨b, rfl, hb, .refl b, hbuilt⟩
  . rw [if_neg hbuilt, hb.graph]
    cases h with
    | scalar d hfinished hnode hvalue =>
      have hparts : g.parts n = [] := by
        rw [Graph.parts, hnode]
      have hput := hb.put_builtOf (fun _ hm => hm) (fun _ hm => .inr hm) hn (by simp [hparts])
      rw [Graph.builtOf_scalar hnode hvalue] at hput
      refine ⟨_, ?_, hput, keeps_put b n _, hself _⟩
      rw [hnode, emptyOf?_of_isScalar (isScalar_of_scalarValue (hvalue 0)),
        Graph.leafValue_eq hnode hvalue]
      rfl
    | list d items hfinished hnode hitems =>
      have hempty : emptyOf? (g.node n).tag = some (.list []) := by
        rw [hnode]
        rfl
      refine ⟨_, ?_, hb.put_empty (.list d items hfinished hnode hitems) hn hempty,
        keeps_put b n _, hself _⟩
      rw [hempty]
      rfl
    | record d members hfinished hnode hkeys hkey hmembers =>
      have hempty : emptyOf? (g.node n).tag = some (.map []) := by
        rw [hnode]
        rfl
      refine ⟨_, ?_, hb.put_empty (.record d members hfinished hnode hkeys hkey hmembers) hn hempty,
        keeps_put b n _, hself _⟩
      rw [hempty]
      rfl

theorem IsFilling.buildItems (hg : g.IsSound) (hb : b.IsFilling g d pending) {items : List Nat}
    (h : ∀ m ∈ items, ∃ v, Shows g d m v) :
    ∃ b', items.foldlM Builder.build b = .ok b' ∧ b'.IsFilling g d pending ∧ b.Keeps b'
      ∧ ∀ m ∈ items, (b'.built.getD m none).isSome = true := by
  induction items generalizing b with
  | nil => exact ⟨b, rfl, hb, .refl b, by simp⟩
  | cons item items ih =>
    rcases h item (.head _) with ⟨v, hshows⟩
    rcases hb.build hg hshows with ⟨b₁, hbuild, hb₁, hkeeps₁, hitem⟩
    rcases ih hb₁ (fun m hm => h m (.tail _ hm)) with ⟨b', hitems, hb', hkeeps', hrest⟩
    refine ⟨b', ?_, hb', hkeeps₁.trans hkeeps', ?_⟩
    . rw [List.foldlM_cons, hbuild]
      exact hitems
    . intro m hm
      rcases List.mem_cons.mp hm with rfl | hm
      . exact hkeeps' m hitem
      . exact hrest m hm

theorem IsFilling.key (hb : b.IsFilling g d pending) {cs : List Char}
    (hnode : g.node n = ⟨.str, .scalar (.ofChars cs)⟩)
    (hbuilt : (b.built.getD n none).isSome = true) : b.key n = .ok (.text (.ofChars cs)) := by
  rcases Option.isSome_iff_exists.mp hbuilt with ⟨x, hx⟩
  unfold Builder.key
  rw [hx]
  rcases hb.settled n x hx with ⟨rfl, -⟩ | ⟨-, hempty⟩
  . rw [Graph.builtOf_scalar hnode fun _ => rfl]
    rfl
  . rw [hnode] at hempty
    cases hempty

def builtMember (m : Member) : Value × Nat :=
  (.text (.ofChars m.key), m.valueNode)

theorem insert_of_forall_ne {α : Type} {entries : List (Value × α)} {key : Value}
    (h : ∀ e ∈ entries, e.1.equalLeaves key = false) (value : α) :
    Value.insert entries key value = entries ++ [(key, value)] := by
  induction entries with
  | nil => rfl
  | cons e entries ih =>
    rcases e with ⟨k, v⟩
    rw [Value.insert, if_neg (by simp [h (k, v) (.head _)]), ih fun e he => h e (.tail _ he)]
    rfl

theorem insert_member {before members : List Member} {m : Member}
    (hkeys : ((before ++ m :: members).map (·.key)).Nodup) :
    Value.insert (before.map builtMember) (.text (.ofChars m.key)) m.valueNode =
      (before ++ [m]).map builtMember := by
  rw [List.map_append]
  apply insert_of_forall_ne
  intro e he
  rw [List.mem_map] at he
  rcases he with ⟨m', hm', rfl⟩
  show (Text.ofChars m'.key == Text.ofChars m.key) = false
  rw [beq_eq_false_iff_ne]
  intro heq
  have hsame : m'.key = m.key := by
    rw [← Text.chars_ofChars m'.key, heq, Text.chars_ofChars]
  have hdisjoint := (List.nodup_append.mp (List.map_append ▸ hkeys)).2.2
  exact hdisjoint _ (List.mem_map_of_mem hm') _ (.head _) hsame

theorem IsFilling.buildMembers (hg : g.IsSound) (hb : b.IsFilling g d pending)
    {members : List Member} (before : List Member) (hkeys : ((before ++ members).map (·.key)).Nodup)
    (hkey : ∀ m ∈ members, m.keyNode ∈ g.finished
      ∧ g.node m.keyNode = ⟨.str, .scalar (.ofChars m.key)⟩)
    (hmembers : ∀ m ∈ members, ∃ v, Shows g d m.valueNode v) :
    ∃ b', ((members.map Member.nodes).foldlM (fun ((b, entries) : Builder × List (Value × Nat))
        ((keyNode, valueNode) : Nat × Nat) => do
          let b ← b.build keyNode
          let key ← b.key keyNode
          return (← b.build valueNode, Value.insert entries key valueNode))
          (b, before.map builtMember) : Except Fault _) =
        .ok (b', (before ++ members).map builtMember)
      ∧ b'.IsFilling g d pending ∧ b.Keeps b'
      ∧ ∀ m ∈ members, (b'.built.getD m.valueNode none).isSome = true := by
  induction members generalizing b before with
  | nil => exact ⟨b, by rw [List.append_nil]; rfl, hb, .refl b, by simp⟩
  | cons m members ih =>
    rcases hkey m (.head _) with ⟨hfinished, hnode⟩
    rcases hmembers m (.head _) with ⟨v, hshows⟩
    have hkeyShows : Shows g d m.keyNode (.text (.ofChars m.key)) :=
      .scalar d hfinished hnode fun _ => rfl
    rcases hb.build hg hkeyShows with ⟨b₁, hbuild₁, hb₁, hkeeps₁, hkeyBuilt⟩
    rcases hb₁.build hg hshows with ⟨b₂, hbuild₂, hb₂, hkeeps₂, hvalueBuilt⟩
    rcases ih hb₂ (before ++ [m]) (by simpa using hkeys)
      (fun m hm => hkey m (.tail _ hm)) (fun m hm => hmembers m (.tail _ hm)) with
      ⟨b', hrest, hb', hkeeps', hbuilt⟩
    refine ⟨b', ?_, hb', (hkeeps₁.trans hkeeps₂).trans hkeeps', ?_⟩
    . rw [List.map_cons, List.foldlM_cons]
      dsimp only [Member.nodes]
      rw [hbuild₁, Except.ok_bind, hb₁.key hnode hkeyBuilt, Except.ok_bind, hbuild₂, Except.ok_bind,
        insert_member hkeys]
      rw [List.append_cons before m members]
      exact hrest
    . intro m' hm'
      rcases List.mem_cons.mp hm' with rfl | hm'
      . exact hkeeps' _ hvalueBuilt
      . exact hbuilt m' hm'

theorem IsFilling.buildEntries (hg : g.IsSound) (hb : b.IsFilling g d pending)
    {members : List Member} (hnode : g.node n = ⟨.map, .mapping (members.map Member.nodes)⟩)
    (hkeys : (members.map (·.key)).Nodup)
    (hkey : ∀ m ∈ members, m.keyNode ∈ g.finished
      ∧ g.node m.keyNode = ⟨.str, .scalar (.ofChars m.key)⟩)
    (hmembers : ∀ m ∈ members, Shows g d m.valueNode m.value) :
    ∃ b', b.buildEntries n = .ok (b', members.map builtMember) ∧ b'.IsFilling g d pending
      ∧ b.Keeps b' ∧ ∀ m ∈ members, (b'.built.getD m.valueNode none).isSome = true := by
  rcases hb.buildMembers hg [] hkeys hkey (fun m hm => ⟨m.value, hmembers m hm⟩) with
    ⟨b', hbuild, hb', hkeeps, hparts⟩
  have hentries? : b.graph.entries? n = some (members.map Member.nodes) := by
    rw [hb.graph, Graph.entries?, hnode]
  have hentries : b.graph.entries n = members.map Member.nodes := by
    rw [Graph.entries, hentries?]
    rfl
  have hmerge : b.graph.merge b.mergeBound n = .ok b.graph := by
    apply Graph.merge_eq _ hentries
    intro e he
    rcases List.mem_map.mp he with ⟨m, hm, rfl⟩
    rw [hb.graph, Member.nodes, (hkey m hm).2]
  refine ⟨b', ?_, hb', hkeeps, hparts⟩
  unfold Builder.buildEntries
  rw [hentries?, hmerge, Except.ok_bind]
  dsimp only
  rw [hentries]
  exact hbuild

theorem builtOf_list {items : List Nat} (hnode : g.node n = ⟨.seq, .sequence items⟩) :
    g.builtOf n = .list items ∧ g.parts n = items := by
  rw [Graph.builtOf, Graph.parts, hnode]
  exact ⟨rfl, rfl⟩

theorem builtOf_record {members : List Member}
    (hnode : g.node n = ⟨.map, .mapping (members.map Member.nodes)⟩)
    (hkey : ∀ m ∈ members, m.keyNode ∈ g.finished
      ∧ g.node m.keyNode = ⟨.str, .scalar (.ofChars m.key)⟩) :
    g.builtOf n = .map (members.map builtMember) ∧ g.parts n = members.map (·.valueNode) := by
  rw [Graph.builtOf, Graph.parts, hnode]
  dsimp only
  rw [List.map_map, List.map_map]
  refine ⟨?_, rfl⟩
  congr 1
  apply List.map_congr_left
  intro m hm
  show (g.keyOf m.keyNode, m.valueNode) = builtMember m
  rw [Graph.keyOf, (hkey m hm).2, builtMember]

theorem IsFilling.exists_list (hb : b.IsFilling g d pending) {items : List Nat} {x : Built}
    (hnode : g.node n = ⟨.seq, .sequence items⟩) (hx : b.built.getD n none = some x) :
    ∃ before, x = .list before := by
  rcases hb.settled n x hx with ⟨rfl, -⟩ | ⟨-, hempty⟩
  . exact ⟨_, (builtOf_list hnode).1⟩
  . rw [hnode] at hempty
    cases hempty
    exact ⟨_, rfl⟩

theorem IsFilling.exists_map (hb : b.IsFilling g d pending) {entries : List (Nat × Nat)}
    {x : Built} (hnode : g.node n = ⟨.map, .mapping entries⟩)
    (hx : b.built.getD n none = some x) : ∃ before, x = .map before := by
  rcases hb.settled n x hx with ⟨rfl, -⟩ | ⟨-, hempty⟩
  . rw [Graph.builtOf, hnode]
    exact ⟨_, rfl⟩
  . rw [hnode] at hempty
    cases hempty
    exact ⟨_, rfl⟩

theorem IsFilling.fill (hg : g.IsSound) (hb : b.IsFilling g d (n :: pending)) :
    ∃ b', b.fill n = .ok b' ∧ b'.IsFilling g d pending ∧ b.Keeps b' := by
  rcases hb.pending n (.head _) with ⟨hbuilt, hempty, v, hshows⟩
  rcases Option.isSome_iff_exists.mp hbuilt with ⟨x, hx⟩
  -- Filling comes down to the parts: once they are built, the collection is put in its place.
  have hput {b' : Builder} (hb' : b'.IsFilling g d (n :: pending)) (hkeeps : b.Keeps b')
      (hparts : ∀ m ∈ g.parts n, (b'.built.getD m none).isSome = true) :
      (b'.put n (g.builtOf n)).IsFilling g d pending :=
    hb'.put_builtOf (fun m hm => .tail _ hm) (fun m hm => List.mem_cons.mp hm)
      (lt_size_of_isSome (hkeeps n hbuilt)) hparts
  unfold Builder.fill
  rw [hx]
  cases hshows with
  | scalar d hfinished hnode hvalue =>
    rw [hnode, emptyOf?_of_isScalar (isScalar_of_scalarValue (hvalue 0))] at hempty
    cases hempty
  | list d items hfinished hnode hitems =>
    rcases builtOf_list hnode with ⟨hsame, hpartsSame⟩
    rcases hb.exists_list hnode hx with ⟨before, rfl⟩
    have hshown : ∀ m ∈ items.map (·.1), ∃ v, Shows g d m v := by
      intro m hm
      rcases List.mem_map.mp hm with ⟨i, hi, rfl⟩
      exact ⟨i.2, (hitems i hi).deeper d⟩
    rcases hb.buildItems hg hshown with ⟨b', hbuild, hb', hkeeps, hparts⟩
    rw [← hpartsSame] at hparts
    have hfilled := hput hb' hkeeps hparts
    rw [hsame] at hfilled
    refine ⟨_, ?_, hfilled, hkeeps.trans (keeps_put b' n _)⟩
    dsimp only
    rw [Builder.items, hb.graph, hnode]
    dsimp only
    rw [Except.pure_eq_ok, Except.ok_bind, hbuild]
    rfl
  | record d members hfinished hnode hkeys hkey hmembers =>
    rcases builtOf_record hnode hkey with ⟨hsame, hpartsSame⟩
    rcases hb.exists_map hnode hx with ⟨before, rfl⟩
    rcases hb.buildEntries hg hnode hkeys hkey hmembers with ⟨b', hbuild, hb', hkeeps, hparts⟩
    have hfilled := hput hb' hkeeps (by simpa [hpartsSame] using hparts)
    rw [hsame] at hfilled
    refine ⟨_, ?_, hfilled, hkeeps.trans (keeps_put b' n _)⟩
    dsimp only
    rw [hbuild]
    rfl

theorem IsFilling.fillAll (hg : g.IsSound) (hb : b.IsFilling g d pending) :
    ∃ b', pending.foldlM Builder.fill b = .ok b' ∧ b'.IsFilling g d [] ∧ b.Keeps b' := by
  induction pending generalizing b with
  | nil => exact ⟨b, rfl, hb, .refl b⟩
  | cons n pending ih =>
    rcases hb.fill hg with ⟨b₁, hfill, hb₁, hkeeps₁⟩
    rcases ih hb₁ with ⟨b', hrest, hb', hkeeps'⟩
    refine ⟨b', ?_, hb', hkeeps₁.trans hkeeps'⟩
    rw [List.foldlM_cons, hfill]
    exact hrest

theorem IsFilling.descend (hb : b.IsFilling g (d + 1) []) :
    ({ b with unfilled := [] } : Builder).IsFilling g d b.unfilled.reverse := by
  refine ⟨hb.graph, hb.size, ?_, ?_, by simp⟩
  . intro n x hx
    rcases hb.settled n x hx with h | ⟨hn | hn, hx⟩
    . exact .inl h
    . cases hn
    . exact .inr ⟨.inl (List.mem_reverse.mpr hn), hx⟩
  . intro n hn
    exact hb.unfilled n (List.mem_reverse.mp hn)

structure IsFilled (b : Builder) (g : Graph) : Prop where
  graph : b.graph = g
  settled : ∀ n x, b.built.getD n none = some x →
    x = g.builtOf n ∧ ∀ m ∈ g.parts n, (b.built.getD m none).isSome = true

theorem IsFilling.isFilled (hb : b.IsFilling g d []) (hempty : b.unfilled = []) : b.IsFilled g := by
  refine ⟨hb.graph, ?_⟩
  intro n x hx
  rcases hb.settled n x hx with h | ⟨hn | hn, -⟩
  . exact h
  . cases hn
  . rw [hempty] at hn
    cases hn

theorem fillLevels_of_nil (fuel : Nat) (h : b.unfilled = []) : fillLevels fuel b = .ok b := by
  cases fuel with
  | zero => rfl
  | succ fuel =>
    rw [fillLevels, h]
    rfl

/-- Everything is filled in as many rounds as there are levels. -/
theorem IsFilling.fillLevels (hg : g.IsSound) (hb : b.IsFilling g d []) {fuel : Nat}
    (hfuel : d ≤ fuel) : ∃ b', b.fillLevels fuel = .ok b' ∧ b'.IsFilled g ∧ b.Keeps b' := by
  induction d generalizing b fuel with
  | zero =>
    -- What is of no depth is a scalar, and scalars are never left to be filled.
    have hempty : b.unfilled = [] := by
      rw [List.eq_nil_iff_forall_not_mem]
      intro n hn
      rcases hb.unfilled n hn with ⟨-, hempty, v, hshows⟩
      cases hshows with
      | scalar d hfinished hnode hvalue =>
        rw [hnode, emptyOf?_of_isScalar (isScalar_of_scalarValue (hvalue 0))] at hempty
        cases hempty
    exact ⟨b, fillLevels_of_nil fuel hempty, hb.isFilled hempty, .refl b⟩
  | succ d ih =>
    by_cases hempty : b.unfilled = []
    . exact ⟨b, fillLevels_of_nil fuel hempty, hb.isFilled hempty, .refl b⟩
    . cases fuel with
      | zero => omega
      | succ fuel =>
        rcases hb.descend.fillAll hg with ⟨b₁, hfill, hb₁, hkeeps₁⟩
        rcases ih hb₁ (Nat.le_of_succ_le_succ hfuel) with ⟨b', hrest, hb', hkeeps'⟩
        refine ⟨b', ?_, hb', Keeps.trans hkeeps₁ hkeeps'⟩
        have hfalse : b.unfilled.isEmpty = false := by simpa using hempty
        rw [Builder.fillLevels, hfalse, if_neg (by simp), hfill]
        exact hrest

theorem isFilling_ofGraph (g : Graph) (d : Nat) : (ofGraph g).IsFilling g d [] := by
  have hnone (n : Nat) : (ofGraph g).built.getD n none = none := by
    simp [ofGraph, Array.getD_eq_getD_getElem?, Array.getElem?_replicate]
    split <;> rfl
  refine ⟨rfl, Array.size_replicate, ?_, by simp, ?_⟩
  . intro n x hx
    rw [hnone n] at hx
    cases hx
  . intro n hn
    cases hn

end Builder
end Yaml
end NodeSettings
