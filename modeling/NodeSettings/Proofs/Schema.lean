import NodeSettings.Failure
import NodeSettings.Proofs.Overlay
import NodeSettings.Proofs.Validation

/-!
This module contains the schema of documents: the documents that describe a valid configuration, and
what the configuration of such a document is.
-/

namespace NodeSettings

/-- A value of a document stands for a value of a type. -/
inductive Reads : SettingType → Value → Value → Prop where
  | text (t : Text) : Reads .text (.text t) (.text t)
  | integer (n : Int) : Reads .integer (.integer n) (.integer n)
  | boolean (b : Bool) : Reads .boolean (.boolean b) (.boolean b)
  | duration {raw : Value} {d : Duration} (h : Duration.ofValue raw = .ok d) :
    Reads .duration raw (.duration d)
  | texts {items : List Value} (h : ∀ item ∈ items, ∃ t, item = .text t) :
    Reads .texts (.list items) (.list items)

theorem parse_eq_ok_iff {t : SettingType} {raw v : Value} :
    Overlay.parse t raw = .ok v ↔ Reads t raw v := by
  constructor
  . intro h
    unfold Overlay.parse at h
    split at h <;> try cases h
    . exact .text _
    . exact .integer _
    . exact .boolean _
    . split at h <;> cases h
      next hd => exact .duration hd
    . split at h <;> cases h
      next items' hitems =>
        rw [Overlay.asTexts?_eq_some_iff] at hitems
        rcases hitems with ⟨rfl, hitems⟩
        exact .texts hitems
  . intro h
    cases h with
    | text t => rfl
    | integer n => rfl
    | boolean b => rfl
    | duration hd => simp [Overlay.parse, hd]
    | @texts items hitems =>
      have htexts := Overlay.asTexts?_eq_some_iff.mpr ⟨rfl, hitems⟩
      simp [Overlay.parse, htexts]

theorem Reads.unique {t : SettingType} {raw v w : Value} (hv : Reads t raw v)
    (hw : Reads t raw w) : v = w := by
  rw [← parse_eq_ok_iff] at hv hw
  rw [hv] at hw
  exact Except.ok.inj hw

theorem not_reads_null {t : SettingType} {v : Value} : ¬ Reads t .null v := by
  intro h
  cases h with
  | duration hd => cases hd

structure AreProper (entries : List (Value × Value)) : Prop where
  writable : ∀ entry ∈ entries, entry.1.IsWritable
  distinct : entries.Pairwise fun e f => Value.equalLeaves e.1 f.1 = false

def Value.IsProper (document : Value) : Prop :=
  ∀ entries, document = .map entries →
    AreProper entries
      ∧ ∀ x inner, (.text (Section.name x), .map inner) ∈ entries → AreProper inner

/-- The document has nothing but a value of the right shape in every place that is known. -/
structure HasShape (document : Value) : Prop where
  root : document = .null ∨ ∃ entries, document = .map entries
  sections : ∀ x, ¬ Misplaces document x
  settings : ∀ s raw, Mentions document s raw → raw = .null ∨ ∃ v, Reads s.type raw v

/-- What the document gives a setting lies in the range of the setting. -/
def KeepsRanges (document : Value) : Prop :=
  ∀ s raw v, Mentions document s raw → Reads s.type raw v → s.range.Contains v

/-- A configuration is the defaults with what the document gives in the place of some of them. -/
def Describes (document : Value) (c : Config) : Prop :=
  ∀ s, (∃ raw, Mentions document s raw ∧ Reads s.type raw (c.get s))
    ∨ ((∀ raw, Mentions document s raw → raw = .null) ∧ c.get s = s.default)

theorem Value.equalLeaves_text_self (t : Text) : equalLeaves (.text t) (.text t) = true := by
  simp [equalLeaves]

theorem AreProper.unique {entries : List (Value × Value)} (h : AreProper entries) {t : Text}
    {v w : Value} (hv : (.text t, v) ∈ entries) (hw : (.text t, w) ∈ entries) : v = w := by
  have hdistinct := h.distinct
  clear h
  induction entries with
  | nil => cases hv
  | cons entry entries ih =>
    rw [List.pairwise_cons] at hdistinct
    rcases hdistinct with ⟨hhead, htail⟩
    cases hv with
    | head =>
      cases hw with
      | head => rfl
      | tail _ hw =>
        have hne := hhead _ hw
        rw [Value.equalLeaves_text_self] at hne
        cases hne
    | tail _ hv =>
      cases hw with
      | head =>
        have hne := hhead _ hv
        rw [Value.equalLeaves_text_self] at hne
        cases hne
      | tail _ hw => exact ih hv hw htail

namespace Value.IsProper

variable {document : Value} (h : document.IsProper)

include h

theorem hasWritableKeys : document.HasWritableKeys := by
  intro entries hentries
  rcases h entries hentries with ⟨hproper, hinner⟩
  refine ⟨hproper.writable, ?_⟩
  intro x inner hmem
  exact (hinner x inner hmem).writable

theorem mentions_unique {s : Setting} {v w : Value} (hv : Mentions document s v)
    (hw : Mentions document s w) : v = w := by
  cases hv with
  | general hv hmemv =>
    cases hw with
    | general hw hmemw => exact (h _ rfl).1.unique hmemv hmemw
    | inner hw _ _ =>
      rw [hv] at hw
      cases hw
  | inner hv houterv hmemv =>
    cases hw with
    | general hw _ =>
      rw [hw] at hv
      cases hv
    | inner hw houterw hmemw =>
      rw [hv] at hw
      cases hw
      have := (h _ rfl).1.unique houterv houterw
      cases this
      exact ((h _ rfl).2 _ _ houterv).unique hmemv hmemw

end Value.IsProper

theorem isWritable_integer_iff {n : Int} :
    (Value.integer n).IsWritable ↔ n.natAbs < Nat.pow 10 maxDigits := by
  unfold Value.IsWritable
  simp only [Value.plain, Value.literal]
  constructor
  . rintro ⟨name, h⟩
    rw [Except.bind_eq_ok_iff] at h
    rcases h with ⟨s, hs, -⟩
    rw [integerText_eq_ok_iff] at hs
    exact hs.1
  . intro h
    have hs : integerText n = .ok (Text.integer n) := by
      rw [integerText_eq_ok_iff]
      exact ⟨h, rfl⟩
    rw [hs]
    exact ⟨_, rfl⟩

namespace Overlay

theorem fail_mem_steps_iff {document : Value} (h : document.HasWritableKeys) :
    (∃ f, .fail f ∈ steps document) ↔ ¬ HasShape document := by
  constructor
  . rintro ⟨f, hf⟩ hshape
    rw [mem_steps_fail h] at hf
    rcases hf with ⟨hnull, hmap, -⟩ | ⟨x, hx, -⟩ | ⟨s, raw, e, hmention, hnull, he, -⟩
    . rcases hshape.root with hroot | ⟨entries, hroot⟩
      . exact hnull hroot
      . exact hmap entries hroot
    . exact hshape.sections x hx
    . rcases hshape.settings s raw hmention with hraw | ⟨v, hv⟩
      . exact hnull hraw
      . rw [← parse_eq_ok_iff, he] at hv
        cases hv
  . intro hshape
    apply Classical.byContradiction
    intro hnone
    have hfail : ∀ f, .fail f ∉ steps document := fun f hf => hnone ⟨f, hf⟩
    simp only [mem_steps_fail h] at hfail
    apply hshape
    constructor
    . apply Classical.byContradiction
      intro hroot
      simp only [not_or, not_exists] at hroot
      exact hfail .notAMapping (.inl ⟨hroot.1, hroot.2, rfl⟩)
    . intro x hx
      exact hfail _ (.inr (.inl ⟨x, hx, rfl⟩))
    . intro s raw hmention
      by_cases hnull : raw = .null
      . exact .inl hnull
      . right
        rcases Except.ok_or_error (parse s.type raw) with ⟨v, hv⟩ | ⟨e, he⟩
        . exact ⟨v, parse_eq_ok_iff.mp hv⟩
        . exact absurd (.inr (.inr ⟨s, raw, e, hmention, hnull, he, rfl⟩)) (hfail _)

theorem kind_of_fault {c : Config} {document : Value} {f : OverlayFault}
    (h : document.HasWritableKeys) (hf : (c.overlay document).fault = some f) :
    (Failure.overlay f).kind = "ConfigParseError" := by
  have hmem := mem_of_run_fault hf
  rw [mem_steps_fail h] at hmem
  rcases hmem with ⟨-, -, rfl⟩ | ⟨x, -, rfl⟩ | ⟨s, raw, e, -, -, -, rfl⟩ <;> rfl

theorem fault_eq_none_iff {c : Config} {document : Value} (h : document.HasWritableKeys) :
    (c.overlay document).fault = none ↔ HasShape document := by
  unfold Config.overlay
  rw [run_fault_eq_none_iff]
  have := fail_mem_steps_iff h
  constructor
  . intro hnone
    apply Classical.byContradiction
    intro hshape
    rcases this.mpr hshape with ⟨f, hf⟩
    exact hnone f hf
  . intro hshape f hf
    exact this.mp ⟨f, hf⟩ hshape

theorem get_overlay {c : Config} {document : Value} (h : document.HasWritableKeys)
    (hfault : (c.overlay document).fault = none) (s : Setting) :
    (∃ raw, Mentions document s raw ∧ Reads s.type raw ((c.overlay document).config.get s))
      ∨ ((∀ raw, Mentions document s raw → raw = .null)
        ∧ (c.overlay document).config.get s = c.get s) := by
  have hshape := (fault_eq_none_iff h).mp hfault
  have hfail : ∀ f, .fail f ∉ steps document := run_fault_eq_none_iff.mp hfault
  by_cases hsome : ∃ v, .assign s v ∈ steps document
  . left
    rcases hsome with ⟨v, hv⟩
    rcases run_get_of_mem (c := c) hfail hv with ⟨w, hw, hget⟩
    rcases (mem_steps_assign h).mp hw with ⟨raw, hmention, -, hparse⟩
    refine ⟨raw, hmention, ?_⟩
    unfold Config.overlay
    rw [hget]
    exact parse_eq_ok_iff.mp hparse
  . right
    have hnone : ∀ v, .assign s v ∉ steps document := fun v hv => hsome ⟨v, hv⟩
    refine ⟨?_, run_get_of_not_mem hnone⟩
    intro raw hmention
    rcases hshape.settings s raw hmention with hnull | ⟨v, hv⟩
    . exact hnull
    . exfalso
      apply hnone v
      rw [mem_steps_assign h]
      refine ⟨raw, hmention, ?_, parse_eq_ok_iff.mpr hv⟩
      rintro rfl
      exact not_reads_null hv

end Overlay

namespace Config

theorem ofDocument_cases (document : Value) :
    (∃ f, (default.overlay document).fault = some f
        ∧ ofDocument document = .error (.overlay f))
      ∨ ((default.overlay document).fault = none
        ∧ (default.overlay document).config.validate = .ok ()
        ∧ ofDocument document = .ok (default.overlay document).config)
      ∨ ((default.overlay document).fault = none
        ∧ ∃ v, (default.overlay document).config.validate = .error (.violation v)
          ∧ ofDocument document = .error (.validation (.violation v))) := by
  unfold ofDocument
  dsimp only
  cases hfault : (default.overlay document).fault with
  | some f => exact .inl ⟨f, rfl, rfl⟩
  | none =>
    right
    cases hvalid : (default.overlay document).config.validate with
    | ok u => exact .inl ⟨rfl, rfl, rfl⟩
    | error fault =>
      rcases exists_violation_of_validate (wellTyped_default.overlay document) hvalid with ⟨v, rfl⟩
      exact .inr ⟨rfl, v, rfl, rfl⟩

theorem describes_overlay_default {document : Value} (h : document.HasWritableKeys)
    (hfault : (default.overlay document).fault = none) :
    Describes document (default.overlay document).config := by
  intro s
  rcases Overlay.get_overlay h hfault s with hread | ⟨hnull, hget⟩
  . exact .inl hread
  . exact .inr ⟨hnull, hget⟩

theorem range_contains_default (s : Setting) : s.range.Contains s.default := by
  have := (validate_eq_ok_iff wellTyped_default).mp validate_default
  exact this s

theorem validate_eq_ok_iff_keepsRanges {document : Value} {c : Config} (h : document.IsProper)
    (hc : c.WellTyped) (hdescribes : Describes document c) :
    c.validate = .ok () ↔ KeepsRanges document := by
  rw [validate_eq_ok_iff hc]
  constructor
  . intro hall s raw v hmention hread
    have hs := hall s
    rcases hdescribes s with ⟨raw', hmention', hread'⟩ | ⟨hnull, -⟩
    -- The value in the configuration is the one that the document mentions, as there is no other.
    . rw [h.mentions_unique hmention' hmention, ← parse_eq_ok_iff] at hread'
      rw [← parse_eq_ok_iff, hread'] at hread
      rw [← Except.ok.inj hread]
      exact hs
    . rw [hnull raw hmention] at hread
      exact absurd hread not_reads_null
  . intro hranges s
    rcases hdescribes s with ⟨raw, hmention, hread⟩ | ⟨-, hdefault⟩
    . exact hranges s raw _ hmention hread
    . rw [hdefault]
      apply range_contains_default

/--
A document describes a configuration if and only if it has the right shape and keeps the ranges of
the settings. A wrong shape is reported before any range.
-/
theorem ofDocument_meets_schema {document : Value} (h : document.IsProper) :
    ((∃ c, ofDocument document = .ok c) ↔ HasShape document ∧ KeepsRanges document)
      ∧ (∀ c, ofDocument document = .ok c →
        Describes document c ∧ c.WellTyped ∧ c.validate = .ok ())
      ∧ (¬ HasShape document →
        ∃ f, ofDocument document = .error (.overlay f)
          ∧ (Failure.overlay f).kind = "ConfigParseError")
      ∧ (HasShape document → ¬ KeepsRanges document →
        ∃ v, ofDocument document = .error (.validation (.violation v))
          ∧ (Failure.validation (.violation v)).kind = "ConfigValidationError") := by
  have hkeys := h.hasWritableKeys
  have hshape := Overlay.fault_eq_none_iff (c := default) hkeys
  have htyped := wellTyped_default.overlay document
  have hdescribes := describes_overlay_default hkeys
  have hranges (hfault) := validate_eq_ok_iff_keepsRanges h htyped (hdescribes hfault)
  rcases ofDocument_cases document with ⟨f, hfault, hresult⟩ | ⟨hfault, hvalid, hresult⟩
    | ⟨hfault, v, hvalid, hresult⟩
  . -- The document has the wrong shape.
    have hwrong : ¬ HasShape document := by
      rw [← hshape, hfault]
      simp
    rw [hresult]
    refine ⟨?_, by simp, fun _ => ⟨f, rfl, Overlay.kind_of_fault hkeys hfault⟩, ?_⟩
    . simp [hwrong]
    . intro hright
      exact absurd hright hwrong
  . -- The document is accepted.
    have hright := hshape.mp hfault
    have hkeeps := (hranges hfault).mp hvalid
    rw [hresult]
    refine ⟨by simp [hright, hkeeps], ?_, fun hwrong => absurd hright hwrong, ?_⟩
    . rintro c ⟨⟩
      exact ⟨hdescribes hfault, htyped, hvalid⟩
    . intro _ hbreaks
      exact absurd hkeeps hbreaks
  . -- The document has the right shape, but a value is out of its range.
    have hright := hshape.mp hfault
    have hbreaks : ¬ KeepsRanges document := by
      rw [← hranges hfault, hvalid]
      simp
    rw [hresult]
    exact ⟨by simp [hbreaks], by simp, fun hwrong => absurd hright hwrong, fun _ _ => ⟨v, rfl, rfl⟩⟩

def peersDocument : Value :=
  .map [(.text "wallet", .null), (.boolean true, .integer 7),
    (.text "network", .map [(.text "max_peers", .integer 12)])]

theorem ofDocument_meets_schema_peers :
    peersDocument.IsProper ∧ HasShape peersDocument ∧ KeepsRanges peersDocument := by
  have hproper : peersDocument.IsProper := by
    rintro entries ⟨⟩
    refine ⟨⟨?_, by decide⟩, ?_⟩
    . simp [Value.IsWritable, Value.plain, Value.literal]
    . intro x inner hmem
      simp only [List.mem_cons, List.not_mem_nil, or_false, Prod.mk.injEq, Value.map.injEq,
        reduceCtorEq, and_false, false_or] at hmem
      rcases hmem with ⟨-, rfl⟩
      exact ⟨by simp [Value.IsWritable, Value.plain], by decide⟩
  exact ⟨hproper, (ofDocument_meets_schema hproper).1.mp ⟨_, rfl⟩⟩

end Config
end NodeSettings
