import NodeSettings.Proofs.Merge
import NodeSettings.Proofs.OverlayPrefix
import NodeSettings.Proofs.OverlayResult

/-!
This module contains the merge of two documents. To lay one document over a configuration and then
another one is to lay their merge over it.
-/

namespace NodeSettings

/-- A document gives a setting something else than null. -/
def Gives (document : Value) (s : Setting) : Prop :=
  ∃ raw, Mentions document s raw ∧ raw ≠ .null

structure IsAcceptable (document : Value) : Prop where
  proper : document.IsProper
  shape : HasShape document

namespace Value

def mergeSection (key below above : Value) : Value :=
  match Overlay.sectionOf? key, below, above with
  | some _, map inner, map inner' => map (mergeEntries (fun _ => supersede) inner inner')
  | _, below, above => supersede below above

/-- The second document section by section over the first one, a null being nothing. -/
def merge : Value → Value → Value
  | map entries, map entries' => map (mergeEntries mergeSection entries entries')
  | below, above => supersede below above

def lookWithin? (name : String) : Option Value → Option Value
  | some (map entries) => look? name entries
  | _ => none

def at? (s : Setting) (document : Value) : Option Value :=
  match s.owner with
  | none => lookWithin? s.name (some document)
  | some x => lookWithin? s.name (lookWithin? x.name (some document))

def given? (s : Setting) (document : Value) : Option Value :=
  match document.at? s with
  | some null => none
  | raw? => raw?

def FitsSection (v? : Option Value) : Prop :=
  ∀ raw, v? = some raw → raw = .null ∨ ∃ inner, raw = .map inner ∧ AreProper inner

def innerEntries : Value → List (Value × Value)
  | map entries => entries
  | _ => []

section

variable {name : String} {raw below above : Value} {above? below? : Option Value}
variable {entries entries' inner inner' : List (Value × Value)} {x : Section} {s : Setting}
variable {d e : Value}

theorem lookWithin?_eq_some_iff {v? : Option Value} :
    lookWithin? name v? = some raw ↔
      ∃ entries, v? = some (.map entries) ∧ look? name entries = some raw := by
  unfold lookWithin?
  split
  . simp
  . next hne =>
    simp only [reduceCtorEq, false_iff, not_exists, not_and]
    intro entries hentries
    exact absurd hentries (hne entries)

theorem lookWithin?_of_ne (h : ∀ entries, d ≠ .map entries) : lookWithin? name (some d) = none := by
  unfold lookWithin?
  split
  . next hd =>
    cases hd
    exact absurd rfl (h _)
  . rfl

theorem at?_eq_some_iff (h : d.IsProper) : d.at? s = some raw ↔ Mentions d s raw := by
  constructor
  . intro hat
    unfold at? at hat
    split at hat
    . next howner =>
      rw [lookWithin?_eq_some_iff] at hat
      rcases hat with ⟨entries, hd, hlook⟩
      cases hd
      exact .general howner (mem_of_look? hlook)
    . next x howner =>
      rw [lookWithin?_eq_some_iff] at hat
      rcases hat with ⟨inner, hd, hlook⟩
      rw [lookWithin?_eq_some_iff] at hd
      rcases hd with ⟨entries, hd, houter⟩
      cases hd
      exact .inner howner (mem_of_look? houter) (mem_of_look? hlook)
  . intro hmention
    unfold at?
    cases hmention with
    | general howner hmem =>
      rw [howner]
      exact (look?_eq_some_iff (h _ rfl).1).mpr hmem
    | inner howner houter hmem =>
      have hlook := (look?_eq_some_iff (h _ rfl).1).mpr houter
      rw [howner]
      dsimp only [lookWithin?]
      rw [hlook]
      exact (look?_eq_some_iff ((h _ rfl).2 _ _ houter)).mpr hmem

theorem mergeSection_setting (h : s.owner = none) : mergeSection (.text s.name) = supersede := by
  funext below above
  unfold mergeSection
  split
  . next x _ _ hx =>
    rw [Overlay.sectionOf?_eq_some_iff, text.injEq, Text.ofString_inj] at hx
    exact absurd hx.symm (Section.name_ne_of_owner_eq_none h x)
  . rfl

theorem mergeSection_maps (x : Section) (inner inner' : List (Value × Value)) :
    mergeSection (.text x.name) (.map inner) (.map inner') =
      .map (mergeEntries (fun _ => supersede) inner inner') := by
  unfold mergeSection
  rw [Overlay.sectionOf?_eq_some_iff.mpr rfl]

theorem mergeSection_of_not_maps (key : Value)
    (h : (∀ inner, below ≠ .map inner) ∨ ∀ inner, above ≠ .map inner) :
    mergeSection key below above = supersede below above := by
  unfold mergeSection
  split
  . rcases h with h | h
    . exact absurd rfl (h _)
    . exact absurd rfl (h _)
  . rfl

theorem mergeSection_cases (x : Section) (below above : Value) :
    mergeSection (.text x.name) below above = below
      ∨ mergeSection (.text x.name) below above = above
      ∨ ∃ inner inner', below = .map inner ∧ above = .map inner'
        ∧ mergeSection (.text x.name) below above =
          .map (mergeEntries (fun _ => supersede) inner inner') := by
  by_cases hmaps : (∃ inner, below = .map inner) ∧ ∃ inner, above = .map inner
  . rcases hmaps with ⟨⟨inner, rfl⟩, inner', rfl⟩
    exact .inr (.inr ⟨inner, inner', rfl, rfl, mergeSection_maps x inner inner'⟩)
  . rw [not_and_or, not_exists, not_exists] at hmaps
    rw [mergeSection_of_not_maps _ hmaps]
    rcases supersede_eq_or below above with h | h
    . exact .inl h
    . exact .inr (.inl h)

theorem lookWithin?_mergeSection (h : FitsSection above?) :
    lookWithin? name (Option.merge (mergeSection (.text x.name)) below? above?) =
      Option.merge supersede (lookWithin? name below?) (lookWithin? name above?) := by
  cases above? with
  | none =>
    rw [Option.merge_none_right]
    exact (Option.merge_none_right ..).symm
  | some above =>
    cases below? with
    | none =>
      rw [Option.merge_none_left]
      exact (Option.merge_none_left ..).symm
    | some below =>
      rw [Option.merge_some_some]
      rcases h above rfl with rfl | ⟨inner', rfl, hproper⟩
      . rw [mergeSection_of_not_maps _ (.inr (by simp))]
        exact (Option.merge_none_right ..).symm
      -- What is below a mapping matters only if it is a mapping, too.
      . by_cases hbelow : ∃ inner, below = .map inner
        . rcases hbelow with ⟨inner, rfl⟩
          rw [mergeSection_maps]
          exact look?_mergeEntries hproper
        . rw [not_exists] at hbelow
          rw [mergeSection_of_not_maps _ (.inl hbelow), supersede_of_ne (by simp),
            lookWithin?_of_ne hbelow, Option.merge_none_left]

theorem merge_null (d : Value) : merge d .null = d := by
  cases d <;> rfl

theorem merge_of_ne (h : ∀ entries, d ≠ .map entries) :
    merge d (.map entries') = .map entries' := by
  unfold merge
  split
  . exact absurd rfl (h _)
  . rfl

theorem lookWithin?_merge (he : IsAcceptable e) :
    lookWithin? name (some (merge d e)) =
      Option.merge (mergeSection (.text name)) (lookWithin? name (some d))
        (lookWithin? name (some e)) := by
  rcases he.shape.root with rfl | ⟨entries', rfl⟩
  . rw [merge_null]
    exact (Option.merge_none_right ..).symm
  . by_cases hd : ∃ entries, d = .map entries
    . rcases hd with ⟨entries, rfl⟩
      exact look?_mergeEntries (he.proper _ rfl).1
    . rw [not_exists] at hd
      rw [merge_of_ne hd, lookWithin?_of_ne hd, Option.merge_none_left]

theorem fitsSection_of_isAcceptable (he : IsAcceptable e) (x : Section) :
    FitsSection (lookWithin? x.name (some e)) := by
  intro raw h
  rw [lookWithin?_eq_some_iff] at h
  rcases h with ⟨entries, hentries, hlook⟩
  cases hentries
  have hmem := mem_of_look? hlook
  apply Classical.byContradiction
  intro hnone
  rw [not_or] at hnone
  apply he.shape.sections x
  refine ⟨entries, raw, rfl, hmem, hnone.1, ?_⟩
  rintro inner rfl
  exact hnone.2 ⟨inner, rfl, (he.proper _ rfl).2 x inner hmem⟩

theorem at?_merge (he : IsAcceptable e) (s : Setting) :
    (merge d e).at? s = Option.merge supersede (d.at? s) (e.at? s) := by
  unfold at?
  split
  . next howner => rw [lookWithin?_merge he, mergeSection_setting howner]
  . next x howner =>
    rw [lookWithin?_merge he]
    apply lookWithin?_mergeSection
    exact fitsSection_of_isAcceptable he x

theorem FitsSection.merge (hbelow : FitsSection below?) (habove : FitsSection above?) :
    FitsSection (Option.merge (mergeSection (.text x.name)) below? above?) := by
  cases below? with
  | none =>
    rw [Option.merge_none_left]
    exact habove
  | some below =>
    cases above? with
    | none =>
      rw [Option.merge_none_right]
      exact hbelow
    | some above =>
      rw [Option.merge_some_some]
      rcases mergeSection_cases x below above with heq | heq | ⟨inner, inner', rfl, rfl, heq⟩
      . rw [heq]
        exact hbelow
      . rw [heq]
        exact habove
      . rcases hbelow _ rfl with hnull | ⟨_, hinner, hproper⟩
        . cases hnull
        . rcases habove _ rfl with hnull' | ⟨_, hinner', hproper'⟩
          . cases hnull'
          . cases hinner
            cases hinner'
            intro raw hraw
            cases hraw
            exact .inr ⟨_, heq, areProper_mergeEntries hproper hproper'⟩

theorem fitsSection_merge (hd : IsAcceptable d) (he : IsAcceptable e) (x : Section) :
    FitsSection (lookWithin? x.name (some (merge d e))) := by
  rw [lookWithin?_merge he]
  apply FitsSection.merge
  . exact fitsSection_of_isAcceptable hd x
  . exact fitsSection_of_isAcceptable he x

theorem merge_cases (hd : IsAcceptable d) (he : IsAcceptable e) :
    merge d e = d ∨ merge d e = e
      ∨ ∃ entries entries', d = .map entries ∧ e = .map entries'
        ∧ merge d e = .map (mergeEntries mergeSection entries entries') := by
  rcases he.shape.root with rfl | ⟨entries', rfl⟩
  . exact .inl (merge_null d)
  . rcases hd.shape.root with rfl | ⟨entries, rfl⟩
    . exact .inr (.inl rfl)
    . exact .inr (.inr ⟨entries, entries', rfl, rfl, rfl⟩)

theorem isProper_merge (hd : IsAcceptable d) (he : IsAcceptable e) : (merge d e).IsProper := by
  intro entries hentries
  have hproper : AreProper entries := by
    rcases merge_cases hd he with heq | heq | ⟨below, above, rfl, rfl, heq⟩
    . exact (hd.proper entries (heq ▸ hentries)).1
    . exact (he.proper entries (heq ▸ hentries)).1
    . rw [heq] at hentries
      cases hentries
      exact areProper_mergeEntries (hd.proper _ rfl).1 (he.proper _ rfl).1
  refine ⟨hproper, ?_⟩
  intro x inner hmem
  have hsection := fitsSection_merge hd he x
  rw [hentries] at hsection
  rcases hsection _ ((look?_eq_some_iff hproper).mpr hmem) with hnull | ⟨_, hinner, hproper'⟩
  . cases hnull
  . cases hinner
    exact hproper'

theorem hasShape_merge (hd : IsAcceptable d) (he : IsAcceptable e) : HasShape (merge d e) where
  root := by
    rcases merge_cases hd he with heq | heq | ⟨below, above, rfl, rfl, heq⟩
    . rw [heq]
      exact hd.shape.root
    . rw [heq]
      exact he.shape.root
    . exact .inr ⟨_, heq⟩
  sections := by
    rintro x ⟨entries, raw, hentries, hmem, hnull, hmap⟩
    have hproper := (isProper_merge hd he entries hentries).1
    have hsection := fitsSection_merge hd he x
    rw [hentries] at hsection
    rcases hsection _ ((look?_eq_some_iff hproper).mpr hmem) with h | ⟨inner, h, -⟩
    . exact hnull h
    . exact hmap inner h
  settings := by
    intro s raw hmention
    rw [← at?_eq_some_iff (isProper_merge hd he), at?_merge he] at hmention
    rcases eq_or_of_merge_supersede hmention with hat | hat
    . rw [at?_eq_some_iff hd.proper] at hat
      exact hd.shape.settings s raw hat
    . rw [at?_eq_some_iff he.proper] at hat
      exact he.shape.settings s raw hat

end

end Value

theorem IsAcceptable.merge {d e : Value} (hd : IsAcceptable d) (he : IsAcceptable e) :
    IsAcceptable (d.merge e) :=
  ⟨Value.isProper_merge hd he, Value.hasShape_merge hd he⟩

section

variable {d e : Value} {s : Setting} {raw : Value}

theorem given?_eq_some_iff (hd : d.IsProper) :
    d.given? s = some raw ↔ Mentions d s raw ∧ raw ≠ .null := by
  rw [← Value.at?_eq_some_iff hd]
  unfold Value.given?
  split
  . next hnull =>
    rw [hnull]
    simp only [reduceCtorEq, Option.some.injEq, false_iff, not_and]
    rintro rfl
    simp
  . next hne =>
    simp only [iff_self_and]
    rintro hat rfl
    exact hne hat

theorem given?_eq_none_iff (hd : d.IsProper) : d.given? s = none ↔ ¬ Gives d s := by
  constructor
  . rintro hnone ⟨raw, hgives⟩
    rw [← given?_eq_some_iff hd, hnone] at hgives
    cases hgives
  . intro hgives
    rw [Option.eq_none_iff_forall_ne_some]
    intro raw hraw
    exact hgives ⟨raw, (given?_eq_some_iff hd).mp hraw⟩

/-- A merge gives what its second document gives, and else what its first one gives. -/
theorem given?_merge (he : IsAcceptable e) (s : Setting) :
    (d.merge e).given? s = (e.given? s).or (d.given? s) := by
  unfold Value.given?
  rw [Value.at?_merge he]
  cases e.at? s with
  | none => simp
  | some above =>
    by_cases hnull : above = .null
    . subst hnull
      cases d.at? s <;> rfl
    . have hgiven : Option.merge Value.supersede (d.at? s) (some above) = some above := by
        cases d.at? s with
        | none => rfl
        | some below => rw [Option.merge_some_some, Value.supersede_of_ne hnull]
      rw [hgiven]
      split
      . next heq => exact absurd (Option.some.inj heq) hnull
      . rfl

theorem mentions_merge_iff (hd : IsAcceptable d) (he : IsAcceptable e) (hraw : raw ≠ .null) :
    Mentions (d.merge e) s raw ↔ Mentions e s raw ∨ ¬ Gives e s ∧ Mentions d s raw := by
  have hmerge : Mentions (d.merge e) s raw ↔ (d.merge e).given? s = some raw := by
    rw [given?_eq_some_iff (hd.merge he).proper, and_iff_left hraw]
  rw [hmerge, given?_merge he, Option.or_eq_some_iff, given?_eq_none_iff he.proper,
    given?_eq_some_iff he.proper, given?_eq_some_iff hd.proper, and_iff_left hraw,
    and_iff_left hraw]

end

theorem Value.IsProper.hasDistinctKeys {d : Value} (h : d.IsProper) : d.HasDistinctKeys := by
  intro entries hentries
  refine ⟨(h entries hentries).1.distinct, ?_⟩
  intro x inner hmem
  exact ((h entries hentries).2 x inner hmem).distinct

theorem Value.HasDistinctKeys.isProper {d : Value} (h : d.HasDistinctKeys)
    (hkeys : d.HasWritableKeys) : d.IsProper := by
  intro entries hentries
  have hwritable := hkeys entries hentries
  have hdistinct := h entries hentries
  refine ⟨⟨hwritable.1, hdistinct.1⟩, ?_⟩
  intro x inner hmem
  exact ⟨hwritable.2 x inner hmem, hdistinct.2 x inner hmem⟩

theorem Value.hasDistinctKeys_map {entries : List (Value × Value)}
    (houter : entries.Pairwise fun e f => equalLeaves e.1 f.1 = false)
    (hinner : ∀ e ∈ entries, e.2.innerEntries.Pairwise fun e f => equalLeaves e.1 f.1 = false) :
    (map entries).HasDistinctKeys := by
  intro entries' hentries
  cases hentries
  refine ⟨houter, ?_⟩
  intro x inner hmem
  exact hinner _ hmem

namespace Overlay

variable {c : Config} {d e : Value} {s : Setting} {raw : Value}

theorem isAcceptable_of_fault (hd : d.HasDistinctKeys) (h : (c.overlay d).fault = none) :
    IsAcceptable d := by
  rw [overlay_fault_eq_none_iff] at h
  exact ⟨hd.isProper h.1, h.2⟩

theorem fault_of_isAcceptable (hd : IsAcceptable d) (c : Config) : (c.overlay d).fault = none := by
  rw [overlay_fault_eq_none_iff]
  exact ⟨hd.proper.hasWritableKeys, hd.shape⟩

theorem get_of_given (hd : IsAcceptable d) (h : d.given? s = some raw) :
    Reads s.type raw ((c.overlay d).config.get s) := by
  rw [given?_eq_some_iff hd.proper] at h
  apply get_of_mentions hd.proper
  . apply fault_of_isAcceptable hd
  . exact h.1
  . exact h.2

theorem get_of_not_given (hd : IsAcceptable d) (h : d.given? s = none) :
    (c.overlay d).config.get s = c.get s := by
  rw [given?_eq_none_iff hd.proper] at h
  apply get_of_not_mentions hd.proper
  . apply fault_of_isAcceptable hd
  . intro raw hmention
    apply Classical.byContradiction
    intro hraw
    exact h ⟨raw, hmention, hraw⟩

theorem config_overlay_congr (hd : IsAcceptable d) (he : IsAcceptable e)
    (h : ∀ s, d.given? s = e.given? s) (c : Config) :
    (c.overlay d).config = (c.overlay e).config := by
  ext s
  have hs := h s
  cases hgiven : d.given? s with
  | none =>
    rw [hgiven] at hs
    rw [get_of_not_given hd hgiven, get_of_not_given he hs.symm]
  | some raw =>
    rw [hgiven] at hs
    have hread : Reads s.type raw ((c.overlay d).config.get s) := get_of_given hd hgiven
    apply hread.unique
    apply get_of_given he hs.symm

theorem config_overlay_overlay (hd : IsAcceptable d) (he : IsAcceptable e) (c : Config) :
    ((c.overlay d).config.overlay e).config = (c.overlay (d.merge e)).config := by
  have hmerge := hd.merge he
  ext s
  have hgiven := given?_merge (d := d) he s
  -- Both ways a setting has what the second document gives it, or the first one, or neither.
  cases hsecond : e.given? s with
  | some raw =>
    rw [hsecond, Option.some_or] at hgiven
    have hread : Reads s.type raw (((c.overlay d).config.overlay e).config.get s) :=
      get_of_given he hsecond
    apply hread.unique
    apply get_of_given hmerge hgiven
  | none =>
    rw [hsecond, Option.none_or] at hgiven
    rw [get_of_not_given he hsecond]
    cases hfirst : d.given? s with
    | some raw =>
      rw [hfirst] at hgiven
      have hread : Reads s.type raw ((c.overlay d).config.get s) := get_of_given hd hfirst
      apply hread.unique
      apply get_of_given hmerge hgiven
    | none =>
      rw [hfirst] at hgiven
      rw [get_of_not_given hd hfirst, get_of_not_given hmerge hgiven]

end Overlay

namespace Config

/--
To lay one document and then another one over a configuration is to lay their merge over it. In the
merge, each setting has what the second document gives it, or else what stands in the first one.
-/
theorem overlay_composes_by_merge {d e : Value} (hd : d.HasDistinctKeys) (he : e.HasDistinctKeys)
    {c : Config} (hdAccepted : (c.overlay d).fault = none)
    (heAccepted : (c.overlay e).fault = none) :
    (d.merge e).HasDistinctKeys
      ∧ (∀ s raw, raw ≠ .null →
        (Mentions (d.merge e) s raw ↔ Mentions e s raw ∨ ¬ Gives e s ∧ Mentions d s raw))
      ∧ ((c.overlay d).config.overlay e).fault = none
      ∧ (c.overlay (d.merge e)).fault = none
      ∧ ((c.overlay d).config.overlay e).config = (c.overlay (d.merge e)).config
      ∧ ((c.overlay d).config.overlay d).config = (c.overlay d).config
      ∧ ((∀ s, Gives d s → ¬ Gives e s) →
        ((c.overlay d).config.overlay e).config = ((c.overlay e).config.overlay d).config) := by
  have hd := Overlay.isAcceptable_of_fault hd hdAccepted
  have he := Overlay.isAcceptable_of_fault he heAccepted
  have hmerge := hd.merge he
  refine ⟨hmerge.proper.hasDistinctKeys, ?_, Overlay.fault_of_isAcceptable he _,
    Overlay.fault_of_isAcceptable hmerge c, Overlay.config_overlay_overlay hd he c, ?_, ?_⟩
  . intro s raw hraw
    exact mentions_merge_iff hd he hraw
  . rw [Overlay.config_overlay_overlay hd hd]
    apply Overlay.config_overlay_congr (hd.merge hd) hd
    intro s
    rw [given?_merge hd, Option.or_self]
  . intro hdisjoint
    rw [Overlay.config_overlay_overlay hd he, Overlay.config_overlay_overlay he hd]
    apply Overlay.config_overlay_congr hmerge (he.merge hd)
    intro s
    rw [given?_merge he, given?_merge hd]
    by_cases hgives : Gives d s
    . rw [(given?_eq_none_iff he.proper).mpr (hdisjoint s hgives), Option.none_or, Option.or_none]
    . rw [(given?_eq_none_iff hd.proper).mpr hgives, Option.none_or, Option.or_none]

def networkDocument : Value :=
  .map [(.text "network", .map [(.text "max_peers", .integer 12), (.text "colour", .integer 1)]),
    (.text "storage", .null)]

def storageDocument : Value :=
  .map [(.text "storage", .map [(.text "data_dir", .text "files")]),
    (.text "network", .map [(.text "max_peers", .null), (.text "enable_nat", .boolean false)]),
    (.text "log_level", .text "warn")]

def bothDocuments : Value :=
  .map [(.text "network", .map [(.text "max_peers", .integer 12), (.text "colour", .integer 1),
      (.text "enable_nat", .boolean false)]),
    (.text "storage", .map [(.text "data_dir", .text "files")]), (.text "log_level", .text "warn")]

theorem overlay_composes_by_merge_disjoint :
    networkDocument.HasDistinctKeys ∧ storageDocument.HasDistinctKeys
      ∧ (default.overlay networkDocument).fault = none
      ∧ (default.overlay storageDocument).fault = none
      ∧ (∀ s, Gives networkDocument s → ¬ Gives storageDocument s)
      ∧ ((default.overlay networkDocument).config.overlay storageDocument).config =
        (default.overlay bothDocuments).config
      ∧ ((default.overlay storageDocument).config.overlay networkDocument).config =
        (default.overlay bothDocuments).config := by
  have hnetwork : networkDocument.HasDistinctKeys :=
    Value.hasDistinctKeys_map (by decide) (by decide)
  have hstorage : storageDocument.HasDistinctKeys :=
    Value.hasDistinctKeys_map (by decide) (by decide)
  have hdisjoint : ∀ s, Gives networkDocument s → ¬ Gives storageDocument s := by
    intro s
    have hd := (Overlay.isAcceptable_of_fault (c := default) hnetwork rfl).proper
    have he := (Overlay.isAcceptable_of_fault (c := default) hstorage rfl).proper
    have hnone : networkDocument.given? s = none ∨ storageDocument.given? s = none := by
      cases s <;> first | exact .inl rfl | exact .inr rfl
    rw [given?_eq_none_iff hd, given?_eq_none_iff he] at hnone
    intro hgives
    exact hnone.resolve_left (not_not_intro hgives)
  have hmerge : networkDocument.merge storageDocument = bothDocuments := by rfl
  rcases overlay_composes_by_merge hnetwork hstorage (c := default) rfl rfl with
    ⟨-, -, -, -, hboth, -, horder⟩
  rw [hmerge] at hboth
  exact ⟨hnetwork, hstorage, rfl, rfl, hdisjoint, hboth, (horder hdisjoint).symm.trans hboth⟩

end Config
end NodeSettings
