import Mathlib.Data.List.Forall2
import NodeSettings.Proofs.OverlayOrder

/-!
This module contains what a document gives to the configuration that it is laid over. Every setting
is known from what stands at its path, in whatever order the keys of the document stand there.
-/

namespace NodeSettings

inductive SameEntry : Value × Value → Value × Value → Prop where
  | same (e : Value × Value) : SameEntry e e
  | sect {inner inner' : List (Value × Value)} (x : Section) (h : inner.Perm inner') :
    SameEntry (.text x.name, .map inner) (.text x.name, .map inner')

/-- Two documents differ by the order of their keys, and by that of the keys in their sections. -/
inductive Reorders : Value → Value → Prop where
  | mapping {entries middle entries' : List (Value × Value)} (outer : entries.Perm middle)
      (inner : List.Forall₂ SameEntry middle entries') : Reorders (.map entries) (.map entries')

def Covers (entries entries' : List (Value × Value)) : Prop :=
  ∀ e ∈ entries, ∃ e' ∈ entries', SameEntry e e'

section

variable {entries entries' : List (Value × Value)} {e e' : Value × Value} {s : Setting}
variable {key raw : Value} {x : Section}

theorem SameEntry.symm (h : SameEntry e e') : SameEntry e' e := by
  cases h with
  | same => exact .same e
  | sect x h => exact .sect x h.symm

theorem SameEntry.key_eq (h : SameEntry e e') : e.1 = e'.1 := by
  cases h <;> rfl

theorem covers_of_forall₂ (h : List.Forall₂ SameEntry entries entries') :
    Covers entries entries' := by
  induction h with
  | nil =>
    intro e he
    cases he
  | cons hsame _ ih =>
    intro e he
    cases he with
    | head => exact ⟨_, .head _, hsame⟩
    | tail _ he =>
      rcases ih e he with ⟨e', he', hsame⟩
      exact ⟨e', .tail _ he', hsame⟩

theorem Reorders.covers (h : Reorders (.map entries) (.map entries')) :
    Covers entries entries' ∧ Covers entries' entries := by
  cases h with
  | mapping outer inner =>
    constructor
    . intro e he
      apply covers_of_forall₂ inner
      exact outer.mem_iff.mp he
    . intro e he
      have hback : List.Forall₂ SameEntry entries' _ := inner.flip.imp fun _ _ hsame => hsame.symm
      rcases covers_of_forall₂ hback e he with ⟨e', he', hsame⟩
      exact ⟨e', outer.mem_iff.mpr he', hsame⟩

namespace Covers

theorem mem (h : Covers entries entries') (hmem : (key, raw) ∈ entries)
    (hraw : ∀ x, key = .text (Section.name x) → ∀ inner, raw ≠ .map inner) :
    (key, raw) ∈ entries' := by
  rcases h _ hmem with ⟨e', he', hsame⟩
  generalize he : (key, raw) = e at hsame
  cases hsame with
  | same => exact he ▸ he'
  | @sect inner _ x =>
    cases he
    exact absurd rfl (hraw x rfl inner)

theorem exists_inner (h : Covers entries entries') {inner : List (Value × Value)}
    (hmem : (.text x.name, .map inner) ∈ entries) :
    ∃ inner', (.text x.name, .map inner') ∈ entries' ∧ inner.Perm inner' := by
  rcases h _ hmem with ⟨e', he', hsame⟩
  generalize he : ((.text x.name, .map inner) : Value × Value) = e at hsame
  cases hsame with
  | same =>
    rw [← he] at he'
    exact ⟨inner, he', .refl _⟩
  | @sect _ inner' y hperm =>
    rw [Prod.mk.injEq, Value.map.injEq] at he
    rw [← he.1] at he'
    rw [← he.2] at hperm
    exact ⟨inner', he', hperm⟩

theorem mentions (h : Covers entries entries') (hmention : Mentions (.map entries) s raw) :
    Mentions (.map entries') s raw := by
  cases hmention with
  | general howner hmem =>
    apply Mentions.general howner
    apply h.mem hmem
    intro x hname
    rw [Value.text.injEq, Text.ofString_inj] at hname
    exact absurd hname.symm (Section.name_ne_of_owner_eq_none howner x)
  | inner howner houter hmem =>
    rcases h.exists_inner houter with ⟨inner', houter', hperm⟩
    exact .inner howner houter' (hperm.mem_iff.mp hmem)

theorem misplaces (h : Covers entries entries') (hmisplaces : Misplaces (.map entries) x) :
    Misplaces (.map entries') x := by
  rcases hmisplaces with ⟨_, raw, hentries, hmem, hnull, hmap⟩
  cases hentries
  exact ⟨entries', raw, rfl, h.mem hmem fun _ _ => hmap, hnull, hmap⟩

theorem hasWritableKeys (h : Covers entries entries')
    (hkeys : (Value.map entries').HasWritableKeys) :
    (Value.map entries).HasWritableKeys := by
  intro _ hentries
  cases hentries
  have hkeys := hkeys entries' rfl
  constructor
  . intro e he
    rcases h e he with ⟨e', he', hsame⟩
    rw [hsame.key_eq]
    exact hkeys.1 e' he'
  . intro x inner hmem e he
    rcases h.exists_inner hmem with ⟨inner', houter, hperm⟩
    exact hkeys.2 x inner' houter e (hperm.mem_iff.mp he)

theorem hasShape (h : Covers entries entries') (hshape : HasShape (.map entries')) :
    HasShape (.map entries) where
  root := .inr ⟨entries, rfl⟩
  sections x hx := hshape.sections x (h.misplaces hx)
  settings s raw hmention := hshape.settings s raw (h.mentions hmention)

end Covers

end

namespace Overlay

variable {c : Config} {document other : Value}

theorem overlay_fault_eq_none_iff :
    (c.overlay document).fault = none ↔ document.HasWritableKeys ∧ HasShape document := by
  rw [← firstFault_steps_eq_none_iff, ← run_fault c]
  rfl

theorem overlay_fault_of_reorders (h : Reorders document other) :
    (c.overlay other).fault = none ↔ (c.overlay document).fault = none := by
  simp only [overlay_fault_eq_none_iff]
  cases h with
  | mapping outer inner =>
    rcases Reorders.covers (.mapping outer inner) with ⟨hthere, hback⟩
    constructor
    . intro hother
      exact ⟨hthere.hasWritableKeys hother.1, hthere.hasShape hother.2⟩
    . intro hdocument
      exact ⟨hback.hasWritableKeys hdocument.1, hback.hasShape hdocument.2⟩

theorem mentions_of_reorders (h : Reorders document other) {s : Setting} {raw : Value} :
    Mentions other s raw ↔ Mentions document s raw := by
  cases h with
  | mapping outer inner =>
    rcases Reorders.covers (.mapping outer inner) with ⟨hthere, hback⟩
    exact ⟨hback.mentions, hthere.mentions⟩

theorem get_of_mentions (hproper : document.IsProper) (h : (c.overlay document).fault = none)
    {s : Setting} {raw : Value} (hmention : Mentions document s raw) (hraw : raw ≠ .null) :
    Reads s.type raw ((c.overlay document).config.get s) := by
  rcases get_overlay hproper.hasWritableKeys h s with ⟨raw', hmention', hread⟩ | ⟨hnull, -⟩
  . rw [hproper.mentions_unique hmention hmention']
    exact hread
  . exact absurd (hnull raw hmention) hraw

theorem get_of_not_mentions (hproper : document.IsProper) (h : (c.overlay document).fault = none)
    {s : Setting} (hnone : ∀ raw, Mentions document s raw → raw = .null) :
    (c.overlay document).config.get s = c.get s := by
  rcases get_overlay hproper.hasWritableKeys h s with ⟨raw, hmention, hread⟩ | ⟨-, hget⟩
  . rw [hnone raw hmention] at hread
    exact absurd hread not_reads_null
  . exact hget

theorem config_of_reorders (hproper : document.IsProper) (h : (c.overlay document).fault = none)
    (horder : Reorders document other) :
    (c.overlay other).config = (c.overlay document).config := by
  have hother := (overlay_fault_of_reorders horder).mpr h
  have hkeys := (overlay_fault_eq_none_iff.mp hother).1
  ext s
  rcases get_overlay hkeys hother s with ⟨raw, hmention, hread⟩ | ⟨hnull, hget⟩
  . rw [mentions_of_reorders horder] at hmention
    have hraw : raw ≠ .null := by
      rintro rfl
      exact not_reads_null hread
    exact hread.unique (get_of_mentions hproper h hmention hraw)
  . rw [hget, get_of_not_mentions hproper h]
    intro raw hmention
    apply hnull
    rw [mentions_of_reorders horder]
    exact hmention

end Overlay

namespace Config

/--
A document that is accepted gives each setting what stands at its path, and leaves the others as
they are. It tells the keys that name nothing in the order of reading. Neither the acceptance nor
the configuration depends on the order of the keys.
-/
theorem overlay_reads_in_any_order {document : Value} (hproper : document.IsProper) (c : Config) :
    ((c.overlay document).fault = none →
      (∀ s raw, Mentions document s raw → raw ≠ .null →
        Reads s.type raw ((c.overlay document).config.get s))
      ∧ (∀ s, (∀ raw, Mentions document s raw → raw = .null) →
        (c.overlay document).config.get s = c.get s)
      ∧ (c.overlay document).ignored = Overlay.strayPaths document)
    ∧ ∀ other, Reorders document other →
      ((c.overlay other).fault = none ↔ (c.overlay document).fault = none)
      ∧ ((c.overlay document).fault = none →
        (c.overlay other).config = (c.overlay document).config) := by
  constructor
  . intro h
    refine ⟨?_, ?_, Overlay.overlay_ignored h⟩
    . intro s raw hmention hraw
      exact Overlay.get_of_mentions hproper h hmention hraw
    . intro s hnone
      exact Overlay.get_of_not_mentions hproper h hnone
  . intro other horder
    constructor
    . exact Overlay.overlay_fault_of_reorders horder
    . intro h
      exact Overlay.config_of_reorders hproper h horder

def scatteredDocument : Value :=
  .map [(.text "storage", .null), (.boolean true, .integer 7),
    (.text "network", .map [(.text "max_peers", .integer 12), (.text "colour", .null),
      (.text "peer_timeout", .null)])]

def gatheredDocument : Value :=
  .map [(.boolean true, .integer 7), (.text "storage", .null),
    (.text "network", .map [(.text "colour", .null), (.text "max_peers", .integer 12),
      (.text "peer_timeout", .null)])]

theorem overlay_reads_in_any_order_scattered :
    scatteredDocument.IsProper ∧ (default.overlay scatteredDocument).fault = none
      ∧ Reads .integer (.integer 12) ((default.overlay scatteredDocument).config.get .maxPeers)
      ∧ (default.overlay scatteredDocument).ignored = [("True" : Text), ("network.colour" : Text)]
      ∧ Reorders scatteredDocument gatheredDocument
      ∧ (default.overlay gatheredDocument).config = (default.overlay scatteredDocument).config := by
  have hproper : scatteredDocument.IsProper := by
    rintro entries ⟨⟩
    refine ⟨⟨?_, by decide⟩, ?_⟩
    . simp [Value.IsWritable, Value.plain, Value.literal]
    . intro x inner hmem
      simp only [List.mem_cons, List.not_mem_nil, or_false, Prod.mk.injEq, Value.map.injEq,
        reduceCtorEq, and_false, false_or] at hmem
      rcases hmem with ⟨-, rfl⟩
      exact ⟨by simp [Value.IsWritable, Value.plain], by decide⟩
  have hfault : (default.overlay scatteredDocument).fault = none := by rfl
  have hmention : Mentions scatteredDocument .maxPeers (.integer 12) :=
    .inner rfl (.tail _ (.tail _ (.head _))) (.head _)
  have horder : Reorders scatteredDocument gatheredDocument := by
    apply Reorders.mapping (.swap _ _ _)
    exact .cons (.same _) (.cons (.same _) (.cons (.sect .network (.swap _ _ _)) .nil))
  rcases overlay_reads_in_any_order hproper default with ⟨hresult, horders⟩
  refine ⟨hproper, hfault, ?_, ?_, horder, ?_⟩
  . exact (hresult hfault).1 _ _ hmention (by simp)
  . exact (hresult hfault).2.2
  . exact (horders _ horder).2 hfault

end Config
end NodeSettings
