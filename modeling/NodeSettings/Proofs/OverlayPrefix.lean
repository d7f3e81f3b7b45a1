import Mathlib.Data.List.Pairwise
import NodeSettings.Proofs.OverlayOrder

/-!
This module contains what an overlay that fails leaves behind. It stops at the first item that is
wrong: what the items in front of it give is assigned, and nothing else is.
-/

namespace NodeSettings

/-- No key stands twice in a document, or in a section of it. -/
def Value.HasDistinctKeys (document : Value) : Prop :=
  ∀ entries, document = .map entries →
    entries.Pairwise (fun e f => equalLeaves e.1 f.1 = false)
      ∧ ∀ x inner, (.text (Section.name x), .map inner) ∈ entries →
        inner.Pairwise fun e f => equalLeaves e.1 f.1 = false

namespace Overlay

def Item.IsApart (i j : Item) : Prop :=
  ∀ s, i.IsFor s → ¬ j.IsFor s

instance : Std.Symm Item.IsApart :=
  ⟨fun _ _ h s hj hi => h s hi hj⟩

/--
A configuration is left behind by a reading of items that stops: what the items read give is
assigned to it, and all else is as in the configuration before.
-/
structure Leaves (before after : Config) (done rest : List Item) : Prop where
  sound : ∀ i ∈ done, ∀ p, ¬ i.IsWrong p
  assigned : ∀ i ∈ done, ∀ s, i.IsFor s → i.raw ≠ .null → Reads s.type i.raw (after.get s)
  kept : ∀ i ∈ rest, ∀ s, i.IsFor s → after.get s = before.get s
  untouched : ∀ s, (∀ i ∈ done, i.IsFor s → i.raw = .null) → after.get s = before.get s

section

variable {entries : List (Value × Value)} {document : Value} {i j : Item} {s : Setting}
variable {c : Config} {todo more : List OverlayStep} {f : OverlayFault}

theorem pairwise_itemsIn {owner : Option Section}
    (h : entries.Pairwise fun e f => Value.equalLeaves e.1 f.1 = false) :
    (itemsIn owner entries).Pairwise Item.IsApart := by
  rw [itemsIn, List.pairwise_map]
  apply h.imp
  intro e f hne s hi hj
  rw [show e.1 = _ from hi.2, show f.1 = _ from hj.2, Value.equalLeaves_text_self] at hne
  cases hne

def outerName (s : Setting) : String :=
  match s.owner with
  | none => s.name
  | some x => x.name

theorem key_eq_outerName {key raw : Value} (hi : i ∈ opened key raw) (hfor : i.IsFor s) :
    key = .text (outerName s) := by
  unfold outerName
  rw [mem_opened_iff] at hi
  rcases hi with ⟨x, inner, hkey, -, hi⟩ | ⟨rfl, -⟩
  . rw [mem_itemsIn_iff] at hi
    rw [hfor.1, hi.1]
    exact hkey
  . rw [hfor.1]
    exact hfor.2

theorem pairwise_readingOrder (h : document.HasDistinctKeys) :
    (readingOrder document).Pairwise Item.IsApart := by
  cases document with
  | map entries =>
    rcases h entries rfl with ⟨houter, hinner⟩
    rw [readingOrder, List.pairwise_flatMap]
    constructor
    . intro e he
      unfold opened
      split
      . next x inner hx hraw =>
        apply pairwise_itemsIn
        apply hinner x
        rw [← sectionOf?_eq_some_iff.mp hx, ← hraw]
        exact he
      . apply List.pairwise_singleton
    . apply houter.imp
      intro e f hne i hi j hj s hfori hforj
      rw [key_eq_outerName hi hfori, key_eq_outerName hj hforj,
        Value.equalLeaves_text_self] at hne
      cases hne
  | _ => exact .nil

theorem eq_of_isFor {items : List Item} (h : items.Pairwise Item.IsApart) (hi : i ∈ items)
    (hj : j ∈ items) (hfori : i.IsFor s) (hforj : j.IsFor s) : i = j := by
  apply Classical.byContradiction
  intro hne
  exact h.forall hi hj hne s hfori hforj

theorem run_of_fault (h : i.Asks todo) (hf : firstFault todo = some f) :
    (run c (todo ++ more)).config = c := by
  cases h with
  | unwritable hkey => rfl
  | wrong hwrong => rfl
  | stray hstray => cases hf
  | null hstray hraw => cases hf
  | assign hfor hread => cases hf

theorem run_of_sound (h : firstFault todo = none) :
    (run c (todo ++ more)).config = (run (run c todo).config more).config := by
  rw [run_append, Outcome.andThen, run_fault, h]

section

variable {front back : List Item} (hasks : ∀ i ∈ front, i.Asks i.steps)
variable (hsound : ∀ i ∈ front, firstFault i.steps = none)

include hasks

theorem exists_of_assign {v : Value} (h : .assign s v ∈ front.flatMap Item.steps) :
    ∃ i ∈ front, i.IsFor s ∧ Reads s.type i.raw v := by
  rw [List.mem_flatMap] at h
  rcases h with ⟨i, hi, hmem⟩
  exact ⟨i, hi, (hasks i hi).of_mem_assign hmem⟩

theorem get_run_of_null (h : ∀ i ∈ front, i.IsFor s → i.raw = .null) :
    (run c (front.flatMap Item.steps)).config.get s = c.get s := by
  apply run_get_of_not_mem
  intro v hv
  rcases exists_of_assign hasks hv with ⟨i, hi, hfor, hread⟩
  rw [h i hi hfor] at hread
  exact not_reads_null hread

include hsound

theorem get_run_of_isFor (hdistinct : front.Pairwise Item.IsApart) (hi : i ∈ front)
    (hfor : i.IsFor s) (hraw : i.raw ≠ .null) :
    Reads s.type i.raw ((run c (front.flatMap Item.steps)).config.get s) := by
  have hnone := firstFault_flatMap_eq_none_iff.mpr hsound
  rw [← run_fault c, run_fault_eq_none_iff] at hnone
  rcases (hasks i hi).exists_mem_assign (hsound i hi) hfor hraw with ⟨v, hv⟩
  rcases run_get_of_mem (c := c) hnone (List.mem_flatMap.mpr ⟨i, hi, hv⟩) with ⟨w, hw, hget⟩
  rcases exists_of_assign hasks hw with ⟨j, hj, hforj, hread⟩
  rw [eq_of_isFor hdistinct hi hj hfor hforj, hget]
  exact hread

theorem leaves_run (hdistinct : (front ++ back).Pairwise Item.IsApart) :
    Leaves c (run c (front.flatMap Item.steps)).config front back where
  sound i hi p := (hasks i hi).not_isWrong (hsound i hi)
  assigned i hi s := by
    apply get_run_of_isFor hasks hsound _ hi
    exact (List.pairwise_append.mp hdistinct).1
  kept i hi s hfor := by
    apply get_run_of_null hasks
    intro j hj hforj
    exact absurd hfor ((List.pairwise_append.mp hdistinct).2.2 j hj i hi s hforj)
  untouched s h := get_run_of_null hasks h

end

theorem exists_stop {fault : OverlayFault} (hdistinct : (Value.map entries).HasDistinctKeys)
    (hfault : (c.overlay (.map entries)).fault = some fault) :
    ∃ front i back, readingOrder (.map entries) = front ++ i :: back ∧ i.Asks i.steps
      ∧ firstFault i.steps = some fault
      ∧ Leaves c (c.overlay (.map entries)).config front (i :: back) := by
  rw [overlay_map] at hfault ⊢
  rw [run_fault, firstFault_flatMap, List.findSome?_eq_some_iff] at hfault
  rcases hfault with ⟨front, i, back, horder, hfault, hsound⟩
  have hpairwise := pairwise_readingOrder hdistinct
  have hasks : ∀ j ∈ readingOrder (.map entries), j.Asks j.steps := fun j hj => asks_of_mem hj
  rw [horder] at hpairwise hasks
  have hfront : ∀ j ∈ front, j.Asks j.steps := fun j hj => hasks j (List.mem_append_left _ hj)
  have hi : i.Asks i.steps := hasks i (by simp)
  have hnone := firstFault_flatMap_eq_none_iff.mpr hsound
  refine ⟨front, i, back, horder, hi, hfault, ?_⟩
  rw [horder, List.flatMap_append, List.flatMap_cons, run_of_sound hnone, run_of_fault hi hfault]
  exact leaves_run hfront hsound hpairwise

theorem Leaves.get_of_not_mentions {d : Config} {front back : List Item}
    (h : Leaves c d front back) (horder : readingOrder document = front ++ back)
    (hnone : ∀ raw, ¬ Mentions document s raw) : d.get s = c.get s := by
  apply h.untouched
  intro i hi hfor
  apply absurd (mentions_iff.mpr ⟨i, _, hfor, rfl⟩) (hnone i.raw)
  rw [horder]
  exact List.mem_append_left _ hi

theorem Leaves.get_peers {d : Config} {front back : List Item} (h : Leaves c d front back)
    (horder : readingOrder document = front ++ back) {peers : List Value}
    (hmention : Mentions document .bootstrapPeers (.list peers))
    (hbad : ∃ peer ∈ peers, ∀ t, peer ≠ .text t) :
    d.get .bootstrapPeers = c.get .bootstrapPeers := by
  rcases mentions_iff.mp hmention with ⟨i, hi, hfor, hraw⟩
  rw [horder, List.mem_append] at hi
  cases hi with
  | inr hi => exact h.kept i hi _ hfor
  | inl hi =>
    have hread := h.assigned i hi _ hfor (by simp [hraw])
    rcases hbad with ⟨peer, hpeer, hne⟩
    rw [hraw] at hread
    generalize d.get .bootstrapPeers = v at hread
    cases hread with
    | texts hall =>
      rcases hall peer hpeer with ⟨t, ht⟩
      exact absurd ht (hne t)

end

end Overlay

namespace Config

/--
An overlay that fails stops at the first item, in the order of reading, that is wrong, and names its
path. What the items in front of it give is assigned; it and the items behind it give nothing.
-/
theorem overlay_stops_at_first_wrong {c : Config} {entries : List (Value × Value)}
    {fault : OverlayFault} (hdistinct : (Value.map entries).HasDistinctKeys)
    (hfault : (c.overlay (.map entries)).fault = some fault)
    (hkind : (Failure.overlay fault).kind = "ConfigParseError") :
    ∃ front i back path expected,
      Overlay.readingOrder (.map entries) = front ++ i :: back
      ∧ fault = .mistyped path expected
      ∧ (Failure.overlay fault).message =
        "'" ++ path ++ "' " ++ Failure.expectedMessage expected
      ∧ i.IsWrong path
      ∧ Overlay.Leaves c (c.overlay (.map entries)).config front (i :: back)
      ∧ (∀ s, (∀ raw, ¬ Mentions (.map entries) s raw) →
        (c.overlay (.map entries)).config.get s = c.get s)
      ∧ ∀ peers, Mentions (.map entries) .bootstrapPeers (.list peers) →
        (∃ peer ∈ peers, ∀ t, peer ≠ .text t) →
        (c.overlay (.map entries)).config.get .bootstrapPeers = c.get .bootstrapPeers := by
  rcases Overlay.exists_stop hdistinct hfault with ⟨front, i, back, horder, hasks, hi, hleaves⟩
  rcases hasks.exists_of_firstFault hi with ⟨e, rfl⟩ | ⟨path, expected, hpath, hwrong⟩
  . simp [Failure.kind] at hkind
  . refine ⟨front, i, back, path, expected, horder, hpath, ?_, hwrong, hleaves, ?_, ?_⟩
    . rw [hpath]
      rfl
    . intro s hnone
      exact hleaves.get_of_not_mentions horder hnone
    . intro peers hmention hbad
      exact hleaves.get_peers horder hmention hbad

def numberedPeers : List Value :=
  [.text "one", .integer 2]

/-- The entries of a document with a peer that is no text, and with settings on both sides of it. -/
def numberedEntries : List (Value × Value) :=
  [(.text "log_level", .text "warn"),
    (.text "network", .map [(.text "max_peers", .integer 12),
      (.text "bootstrap_peers", .list numberedPeers), (.text "enable_nat", .boolean false)]),
    (.text "node", .boolean true)]

theorem overlay_stops_at_first_wrong_numbered :
    (Value.map numberedEntries).HasDistinctKeys
      ∧ (default.overlay (.map numberedEntries)).fault =
        some (.mistyped "network.bootstrap_peers" .text)
      ∧ (default.overlay (.map numberedEntries)).config.get .bootstrapPeers =
        default.get .bootstrapPeers := by
  have hdistinct : (Value.map numberedEntries).HasDistinctKeys := by
    intro entries hentries
    cases hentries
    refine ⟨by decide, ?_⟩
    intro x inner hmem
    simp only [numberedEntries, List.mem_cons, List.not_mem_nil, or_false, Prod.mk.injEq,
      Value.map.injEq, reduceCtorEq, and_false, false_or] at hmem
    rw [hmem.2]
    decide
  have hfault : (default.overlay (.map numberedEntries)).fault =
      some (.mistyped "network.bootstrap_peers" .text) := by rfl
  have hmention : Mentions (.map numberedEntries) .bootstrapPeers (.list numberedPeers) :=
    .inner rfl (.tail _ (.head _)) (.tail _ (.head _))
  rcases overlay_stops_at_first_wrong hdistinct hfault rfl with
    ⟨_, _, _, _, _, -, -, -, -, -, -, hpeers⟩
  refine ⟨hdistinct, hfault, hpeers _ hmention ⟨.integer 2, .tail _ (.head _), ?_⟩⟩
  simp

end Config
end NodeSettings
