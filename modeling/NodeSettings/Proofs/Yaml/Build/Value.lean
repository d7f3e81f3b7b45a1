import NodeSettings.Proofs.Yaml.Build.Fill

/-!
This module contains the values of nodes after everything is built. Each round of making values gets
those of one more depth right.
-/

namespace NodeSettings
namespace Yaml

variable {g : Graph} {d n : Nat} {v : Value}

namespace Builder

variable {b : Builder}

structure IsRight (b : Builder) (g : Graph) (depth : Nat) (values : Array Value) : Prop where
  size : values.size = g.nodes.size
  right : ∀ d < depth, ∀ n v, Shows g d n v → (b.built.getD n none).isSome = true →
    values.getD n .null = v

variable {values : Array Value} {depth : Nat}

theorem IsRight.mono {depth' : Nat} (h : b.IsRight g depth values) (hle : depth' ≤ depth) :
    b.IsRight g depth' values :=
  ⟨h.size, fun d hd => h.right d (Nat.lt_of_lt_of_le hd hle)⟩

theorem IsRight.value (hvalues : b.IsRight g d values) (h : Shows g d n v)
    (hparts : ∀ m ∈ g.parts n, (b.built.getD m none).isSome = true) :
    (g.builtOf n).value values = v := by
  cases h with
  | scalar d hfinished hnode hvalue =>
    rw [Graph.builtOf_scalar hnode hvalue]
    rfl
  | list d items hfinished hnode hitems =>
    rcases builtOf_list hnode with ⟨hsame, hpartsSame⟩
    rw [hpartsSame] at hparts
    rw [hsame, Built.value, List.map_map]
    congr 1
    apply List.map_congr_left
    intro i hi
    exact hvalues.right 0 (Nat.succ_pos d) _ _ (hitems i hi) (hparts _ (List.mem_map_of_mem hi))
  | record d members hfinished hnode hkeys hkey hmembers =>
    rcases builtOf_record hnode hkey with ⟨hsame, hpartsSame⟩
    rw [hpartsSame] at hparts
    rw [hsame, Built.value, List.map_map]
    congr 1
    apply List.map_congr_left
    intro m hm
    have hmember := hvalues.right d (Nat.lt_succ_self d) _ _ (hmembers m hm)
      (hparts _ (List.mem_map_of_mem hm))
    show (Value.text (.ofChars m.key), values.getD m.valueNode .null) = m.pair
    rw [hmember, Member.pair]

theorem getD_set_self (h : n < values.size) (v : Value) :
    (values.setIfInBounds n v).getD n .null = v := by
  simp [Array.getD_eq_getD_getElem?, h]

theorem getD_set_of_ne {m : Nat} (h : m ≠ n) (v : Value) :
    (values.setIfInBounds n v).getD m .null = values.getD m .null := by
  simp [Array.getD_eq_getD_getElem?, Array.getElem?_setIfInBounds_ne (Ne.symm h)]

def setValue (b : Builder) (values : Array Value) (n : Nat) : Array Value :=
  match b.built.getD n none with
  | some x => values.setIfInBounds n (x.value values)
  | none => values

theorem IsRight.setValue (hg : g.IsSound) (hb : b.IsFilled g) (hvalues : b.IsRight g depth values)
    (n : Nat) : b.IsRight g depth (b.setValue values n)
      ∧ (∀ v, Shows g depth n v → (b.built.getD n none).isSome = true →
        (b.setValue values n).getD n .null = v)
      ∧ ∀ m ≠ n, (b.setValue values n).getD m .null = values.getD m .null := by
  unfold Builder.setValue
  cases hx : b.built.getD n none with
  | none => exact ⟨hvalues, by simp, fun m _ => rfl⟩
  | some x =>
    rcases hb.settled n x hx with ⟨rfl, hparts⟩
    have hself {d : Nat} {v : Value} (hd : d ≤ depth) (h : Shows g d n v) :
        (values.setIfInBounds n ((g.builtOf n).value values)).getD n .null = v := by
      rw [getD_set_self, (hvalues.mono hd).value h hparts]
      rw [hvalues.size]
      exact h.lt_size hg
    refine ⟨⟨?_, ?_⟩, fun v h _ => hself (Nat.le_refl _) h, fun m hm => getD_set_of_ne hm _⟩
    . rw [← hvalues.size]
      exact Array.size_setIfInBounds
    . intro d hd m v h hbuilt
      by_cases hsame : m = n
      . subst hsame
        exact hself (Nat.le_of_lt hd) h
      . dsimp only
        rw [getD_set_of_ne hsame]
        exact hvalues.right d hd m v h hbuilt

theorem IsRight.setValues (hg : g.IsSound) (hb : b.IsFilled g) (hvalues : b.IsRight g depth values)
    (ns : List Nat) : b.IsRight g depth (ns.foldl b.setValue values)
      ∧ ∀ n v, Shows g depth n v → (b.built.getD n none).isSome = true →
        (n ∈ ns ∨ values.getD n .null = v) → (ns.foldl b.setValue values).getD n .null = v := by
  induction ns generalizing values with
  | nil =>
    refine ⟨hvalues, ?_⟩
    intro n v h hbuilt hn
    rcases hn with hn | hn
    . cases hn
    . exact hn
  | cons m ns ih =>
    rcases hvalues.setValue hg hb m with ⟨hset, hself, hother⟩
    rcases ih hset with ⟨hrest, hall⟩
    refine ⟨hrest, ?_⟩
    intro n v h hbuilt hn
    apply hall n v h hbuilt
    -- What comes later in the round counts only for the nodes that it is about.
    by_cases hsame : n = m
    . subst hsame
      exact .inr (hself v h hbuilt)
    . rcases hn with hn | hn
      . rcases List.mem_cons.mp hn with heq | hn
        . exact absurd heq hsame
        . exact .inl hn
      . rw [hother n hsame]
        exact .inr hn

theorem IsRight.round (hg : g.IsSound) (hb : b.IsFilled g) (hvalues : b.IsRight g depth values) :
    b.IsRight g (depth + 1) (b.values values) := by
  rcases hvalues.setValues hg hb b.graph.finished.reverse with ⟨hright, hall⟩
  refine ⟨hright.size, ?_⟩
  intro d hd n v h hbuilt
  by_cases hlast : d = depth
  -- The nodes of the new depth are all among those that were read to their ends.
  . subst hlast
    apply hall n v h hbuilt
    rw [hb.graph, List.mem_reverse]
    exact .inl h.finished
  . exact hright.right d (by omega) n v h hbuilt

theorem isRight_foldl (hg : g.IsSound) (hb : b.IsFilled g) (hvalues : b.IsRight g depth values)
    (rounds : List Nat) : b.IsRight g (depth + rounds.length)
      (rounds.foldl (fun values _ => b.values values) values) := by
  induction rounds generalizing depth values with
  | nil => exact hvalues
  | cons round rounds ih =>
    rw [List.length_cons, Nat.add_comm rounds.length, ← Nat.add_assoc]
    exact ih (hvalues.round hg hb)

theorem value_eq (hg : g.IsSound) (hb : b.IsFilled g) (h : Shows g d n v) (hd : d < rounds)
    (hbuilt : (b.built.getD n none).isSome = true) : b.value n = v := by
  have hstart : b.IsRight g 0 (Array.replicate b.graph.nodes.size .null) := by
    refine ⟨?_, ?_⟩
    . rw [hb.graph]
      exact Array.size_replicate
    . intro d hd
      omega
  have hright := isRight_foldl hg hb hstart (List.range rounds)
  rw [List.length_range, Nat.zero_add] at hright
  exact hright.right d hd n v h hbuilt

end Builder

theorem Shows.exists_le_size (hg : g.IsSound) (h : Shows g d n v) (hd : d < Builder.rounds) :
    ∃ d' ≤ g.nodes.size + 1, d' ≤ d ∧ Shows g d' n v := by
  have hn := h.lt_size hg
  have hless : d < 4 := hd
  cases h with
  | scalar d hfinished hnode hvalue =>
    exact ⟨0, by omega, by omega, .scalar 0 hfinished hnode hvalue⟩
  | list d items hfinished hnode hitems =>
    exact ⟨1, by omega, by omega, .list 0 items hfinished hnode hitems⟩
  | record d members hfinished hnode hkeys hkey hmembers =>
    cases members with
    | nil => exact ⟨1, by omega, by omega, .record 0 [] hfinished hnode hkeys (by simp) (by simp)⟩
    | cons m members =>
      -- The key is another node than the record, so that there are two of them.
      rcases hkey m (.head _) with ⟨hkeyFinished, hkeyNode⟩
      have hkeySize := hg _ hkeyFinished
      have hne : m.keyNode ≠ n := by
        rintro rfl
        rw [hnode] at hkeyNode
        cases hkeyNode
      exact ⟨d + 1, by omega, Nat.le_refl _,
        .record d (m :: members) hfinished hnode hkeys hkey hmembers⟩

theorem Graph.value_eq (hg : g.IsSound) (h : Shows g d n v) (hd : d < Builder.rounds) :
    g.value n = .ok v := by
  rcases h.exists_le_size hg hd with ⟨d, hfuel, hle, h⟩
  rcases (Builder.isFilling_ofGraph g d).build hg h with ⟨b₁, hbuild, hb₁, -, hroot⟩
  rcases hb₁.fillLevels hg hfuel with ⟨b', hfill, hb', hkeeps⟩
  unfold Graph.value
  rw [hbuild, Except.ok_bind, hfill, Except.ok_bind,
    Builder.value_eq hg hb' h (by omega) (hkeeps n hroot)]
  rfl

end Yaml
end NodeSettings
