import NodeSettings.Config.Overlay
import NodeSettings.Proofs.Literal

/-!
This module contains what the steps of a document are: which settings a document mentions, and what
carrying out the steps does to the values of a configuration.
-/

namespace NodeSettings
namespace Setting

theorem find?_owner_name (s : Setting) : find? s.owner s.name = some s := by
  cases s <;> rfl

theorem find?_eq_some_iff {owner : Option Section} {n : String} {s : Setting} :
    find? owner n = some s ↔ s.owner = owner ∧ s.name = n := by
  constructor
  . intro h
    unfold find? at h
    have hname := List.find?_some h
    have hmem := List.mem_of_find?_eq_some h
    refine ⟨?_, by simpa using hname⟩
    cases owner with
    | none => exact owner_eq_none_iff.mpr hmem
    | some x => exact owner_eq_some_iff.mpr hmem
  . rintro ⟨rfl, rfl⟩
    apply find?_owner_name

theorem eq_of_owner_of_name {s t : Setting} (howner : s.owner = t.owner) (hname : s.name = t.name) :
    s = t := by
  have hs := find?_owner_name s
  rw [howner, hname, find?_owner_name] at hs
  exact (Option.some.inj hs).symm

theorem path_of_general {s : Setting} (h : s.owner = none) : s.path = s.name := by
  rw [path, h]

theorem path_of_owner {s : Setting} {x : Section} (h : s.owner = some x) :
    s.path = x.name ++ "." ++ s.name := by
  rw [path, h]

end Setting

namespace Section

theorem ofName?_eq_some_iff {n : String} {x : Section} : ofName? n = some x ↔ x.name = n := by
  constructor
  . intro h
    unfold ofName? at h
    have hname := List.find?_some h
    simpa using hname
  . rintro rfl
    cases x <;> rfl

theorem ofName?_name (x : Section) : ofName? x.name = some x := by
  rw [ofName?_eq_some_iff]

theorem name_ne_of_owner_eq_none {s : Setting} (h : s.owner = none) (x : Section) :
    x.name ≠ s.name := by
  cases s <;> simp [Setting.owner] at h <;> cases x <;> decide

end Section

def Value.IsWritable (key : Value) : Prop :=
  ∃ name, key.plain = .ok name

def Value.HasWritableKeys (document : Value) : Prop :=
  ∀ entries, document = .map entries →
    (∀ entry ∈ entries, entry.1.IsWritable)
      ∧ ∀ x inner, (.text (Section.name x), .map inner) ∈ entries → ∀ e ∈ inner, e.1.IsWritable

/-- A document has a value, which may be null, at the path of a setting. -/
inductive Mentions : Value → Setting → Value → Prop where
  | general {entries : List (Value × Value)} {s : Setting} {raw : Value} (owner : s.owner = none)
      (mem : (.text s.name, raw) ∈ entries) : Mentions (.map entries) s raw
  | inner {entries inner : List (Value × Value)} {s : Setting} {raw : Value} {x : Section}
      (owner : s.owner = some x) (outer : (.text x.name, .map inner) ∈ entries)
      (mem : (.text s.name, raw) ∈ inner) : Mentions (.map entries) s raw

def Misplaces (document : Value) (x : Section) : Prop :=
  ∃ entries raw, document = .map entries ∧ (.text x.name, raw) ∈ entries ∧ raw ≠ .null
    ∧ ∀ inner, raw ≠ .map inner

namespace Overlay

theorem mem_settingSteps_assign {path : String} {s t : Setting} {raw v : Value} :
    .assign t v ∈ settingSteps path s raw ↔ t = s ∧ raw ≠ .null ∧ parse s.type raw = .ok v := by
  unfold settingSteps
  split
  . simp
  . next hnull =>
    split
    . next w hw =>
      simp only [List.mem_singleton, OverlayStep.assign.injEq]
      constructor
      . rintro ⟨rfl, rfl⟩
        exact ⟨rfl, hnull, hw⟩
      . rintro ⟨rfl, -, h⟩
        rw [hw] at h
        exact ⟨rfl, (Except.ok.inj h).symm⟩
    . next e he => simp [he]

theorem mem_settingSteps_fail {path : String} {s : Setting} {raw : Value} {f : OverlayFault} :
    .fail f ∈ settingSteps path s raw ↔
      raw ≠ .null ∧ ∃ e, parse s.type raw = .error e ∧ f = .mistyped path e := by
  unfold settingSteps
  split
  . simp
  . next hnull =>
    split
    . next w hw => simp [hw]
    . next e he =>
      simp only [List.mem_singleton, OverlayStep.fail.injEq, he, Except.error.injEq]
      constructor
      . rintro rfl
        exact ⟨hnull, e, rfl, rfl⟩
      . rintro ⟨-, _, rfl, rfl⟩
        rfl

theorem bind_find?_eq_some_iff {key : Value} {name : Text} {owner : Option Section} {s : Setting}
    (h : key.plain = .ok name) :
    name.toString?.bind (Setting.find? owner) = some s ↔ s.owner = owner ∧ key = .text s.name := by
  rw [← Value.plain_eq_name_iff s.name_mem_names, h]
  simp only [Option.bind_eq_some_iff, Text.toString?_eq_some_iff, Setting.find?_eq_some_iff,
    Except.ok.injEq]
  constructor
  . rintro ⟨n, rfl, howner, rfl⟩
    exact ⟨howner, rfl⟩
  . rintro ⟨howner, rfl⟩
    exact ⟨s.name, rfl, howner, rfl⟩

theorem bind_ofName?_eq_some_iff {key : Value} {name : Text} {x : Section}
    (h : key.plain = .ok name) :
    name.toString?.bind Section.ofName? = some x ↔ key = .text x.name := by
  rw [← Value.plain_eq_name_iff x.name_mem_names, h]
  simp only [Option.bind_eq_some_iff, Text.toString?_eq_some_iff, Section.ofName?_eq_some_iff,
    Except.ok.injEq]
  constructor
  . rintro ⟨n, rfl, rfl⟩
    rfl
  . rintro rfl
    exact ⟨x.name, rfl, rfl⟩

theorem bind_ofName?_name (x : Section) :
    (x.name : Text).toString?.bind Section.ofName? = some x := by
  rw [Text.toString?_ofString, Option.bind_some, Section.ofName?_name]

theorem ownedSteps_cons_of_plain {owner : Option Section} {before : String} {key raw : Value}
    {entries : List (Value × Value)} {name : Text} (h : key.plain = .ok name) :
    ownedSteps owner before ((key, raw) :: entries) =
      (match name.toString?.bind (Setting.find? owner) with
        | none => [.ignore (before ++ name)]
        | some s => settingSteps (before ++ s.name) s raw) ++ ownedSteps owner before entries := by
  apply Eq.trans
  . rw [ownedSteps, h]
  . rfl

theorem mem_ownedSteps_iff {owner : Option Section} {before : String} {step : OverlayStep}
    {entries : List (Value × Value)} (hstep : ∀ path, step ≠ .ignore path)
    (h : ∀ e ∈ entries, e.1.IsWritable) :
    step ∈ ownedSteps owner before entries ↔
      ∃ s raw, s.owner = owner ∧ (.text s.name, raw) ∈ entries
        ∧ step ∈ settingSteps (before ++ s.name) s raw := by
  induction entries with
  | nil => simp [ownedSteps]
  | cons entry entries ih =>
    rcases entry with ⟨key, raw⟩
    rcases h _ List.mem_cons_self with ⟨name, hname⟩
    rw [ownedSteps_cons_of_plain hname, List.mem_append, ih (fun e he => h e (.tail _ he))]
    simp only [List.mem_cons, Prod.mk.injEq]
    cases hfind : name.toString?.bind (Setting.find? owner) with
    | none =>
      have hnone (t : Setting) : t.owner = owner → ¬ key = .text t.name := by
        intro ht hkey
        have := (bind_find?_eq_some_iff hname).mpr ⟨ht, hkey⟩
        rw [hfind] at this
        cases this
      constructor
      . rintro (hmem | ⟨s, raw', ho, hmem, hin⟩)
        . simp only [List.mem_singleton] at hmem
          exact absurd hmem (hstep _)
        . exact ⟨s, raw', ho, .inr hmem, hin⟩
      . rintro ⟨s, raw', ho, ⟨hkey, -⟩ | hmem, hin⟩
        . exact absurd hkey.symm (hnone s ho)
        . exact .inr ⟨s, raw', ho, hmem, hin⟩
    | some t =>
      rcases (bind_find?_eq_some_iff hname).mp hfind with ⟨ht, hkey⟩
      constructor
      . rintro (hin | ⟨s, raw', ho, hmem, hin⟩)
        . exact ⟨t, raw, ht, .inl ⟨hkey.symm, rfl⟩, hin⟩
        . exact ⟨s, raw', ho, .inr hmem, hin⟩
      . rintro ⟨s, raw', ho, ⟨hkey', rfl⟩ | hmem, hin⟩
        . have hs := (bind_find?_eq_some_iff hname).mpr ⟨ho, hkey'.symm⟩
          rw [hfind] at hs
          cases hs
          exact .inl hin
        . exact .inr ⟨s, raw', ho, hmem, hin⟩

theorem entrySteps_cons_of_plain {key raw : Value} {entries : List (Value × Value)} {name : Text}
    (h : key.plain = .ok name) :
    entrySteps ((key, raw) :: entries) =
      (match name.toString?.bind Section.ofName? with
        | some x => sectionSteps x raw
        | none =>
          match name.toString?.bind (Setting.find? none) with
          | none => [.ignore name]
          | some s => settingSteps s.name s raw) ++ entrySteps entries := by
  apply Eq.trans
  . rw [entrySteps, h]
  . rfl

theorem mem_entrySteps_iff {step : OverlayStep} {entries : List (Value × Value)}
    (hstep : ∀ path, step ≠ .ignore path) (h : ∀ e ∈ entries, e.1.IsWritable) :
    step ∈ entrySteps entries ↔
      (∃ s raw, s.owner = none ∧ (.text s.name, raw) ∈ entries ∧ step ∈ settingSteps s.name s raw)
        ∨ ∃ x raw, (.text (Section.name x), raw) ∈ entries ∧ step ∈ sectionSteps x raw := by
  induction entries with
  | nil => simp [entrySteps]
  | cons entry entries ih =>
    rcases entry with ⟨key, raw⟩
    rcases h _ List.mem_cons_self with ⟨name, hname⟩
    rw [entrySteps_cons_of_plain hname, List.mem_append, ih (fun e he => h e (.tail _ he))]
    have hsection (x : Section) :
        name.toString?.bind Section.ofName? = some x ↔ key = .text x.name :=
      bind_ofName?_eq_some_iff hname
    have hsetting (s : Setting) :
        name.toString?.bind (Setting.find? none) = some s ↔ s.owner = none ∧ key = .text s.name :=
      bind_find?_eq_some_iff hname
    simp only [List.mem_cons, Prod.mk.injEq]
    constructor
    . rintro (hin | ⟨s, raw', ho, hmem, hin⟩ | ⟨x, raw', hmem, hin⟩)
      . split at hin
        . next x hx => exact .inr ⟨x, raw, .inl ⟨((hsection x).mp hx).symm, rfl⟩, hin⟩
        . split at hin
          . simp only [List.mem_singleton] at hin
            exact absurd hin (hstep _)
          . next s hs =>
            rcases (hsetting s).mp hs with ⟨ho, hkey⟩
            exact .inl ⟨s, raw, ho, .inl ⟨hkey.symm, rfl⟩, hin⟩
      . exact .inl ⟨s, raw', ho, .inr hmem, hin⟩
      . exact .inr ⟨x, raw', .inr hmem, hin⟩
    . rintro (⟨s, raw', ho, ⟨hkey, rfl⟩ | hmem, hin⟩ | ⟨x, raw', ⟨hkey, rfl⟩ | hmem, hin⟩)
      . left
        -- No setting has the name of a section, so that sections are not in the way.
        have hnone : name.toString?.bind Section.ofName? = none := by
          rw [Option.eq_none_iff_forall_ne_some]
          intro x hx
          rw [hsection, ← hkey, Value.text.injEq, Text.ofString_inj] at hx
          exact Section.name_ne_of_owner_eq_none ho x hx.symm
        rw [hnone, (hsetting s).mpr ⟨ho, hkey.symm⟩]
        exact hin
      . exact .inr (.inl ⟨s, raw', ho, hmem, hin⟩)
      . left
        rw [(hsection x).mpr hkey.symm]
        exact hin
      . exact .inr (.inr ⟨x, raw', hmem, hin⟩)

theorem mem_sectionSteps_iff {x : Section} {raw : Value} {step : OverlayStep}
    (hstep : ∀ path, step ≠ .ignore path)
    (h : ∀ inner, raw = .map inner → ∀ e ∈ inner, e.1.IsWritable) :
    step ∈ sectionSteps x raw ↔
      (raw ≠ .null ∧ (∀ inner, raw ≠ .map inner) ∧ step = .fail (.mistyped x.name .object))
        ∨ ∃ inner s raw', raw = .map inner ∧ s.owner = some x ∧ (.text s.name, raw') ∈ inner
          ∧ step ∈ settingSteps s.path s raw' := by
  unfold sectionSteps
  split
  . simp
  . next inner =>
    rw [mem_ownedSteps_iff hstep (h inner rfl)]
    constructor
    . rintro ⟨s, raw', ho, hmem, hin⟩
      rw [← Setting.path_of_owner ho] at hin
      exact .inr ⟨inner, s, raw', rfl, ho, hmem, hin⟩
    . rintro (⟨-, hmap, -⟩ | ⟨_, s, raw', hinner, ho, hmem, hin⟩)
      . exact absurd rfl (hmap inner)
      . cases hinner
        rw [Setting.path_of_owner ho] at hin
        exact ⟨s, raw', ho, hmem, hin⟩
  . next hnull hmap =>
    simp only [List.mem_singleton]
    constructor
    . intro hfail
      exact .inl ⟨hnull, hmap, hfail⟩
    . rintro (⟨-, -, hfail⟩ | ⟨inner, _, _, hinner, -⟩)
      . exact hfail
      . exact absurd hinner (hmap inner)

theorem mem_steps_iff {document : Value} {step : OverlayStep} (hstep : ∀ path, step ≠ .ignore path)
    (h : document.HasWritableKeys) :
    step ∈ steps document ↔
      (document ≠ .null ∧ (∀ entries, document ≠ .map entries) ∧ step = .fail .notAMapping)
        ∨ (∃ x, Misplaces document x ∧ step = .fail (.mistyped x.name .object))
        ∨ ∃ s raw, Mentions document s raw ∧ step ∈ settingSteps s.path s raw := by
  unfold steps
  split
  . simp only [ne_eq, not_true_eq_false, false_and, List.not_mem_nil, false_or, false_iff]
    rintro (⟨x, ⟨_, _, hmap, -⟩, -⟩ | ⟨s, raw, hmention, -⟩)
    . cases hmap
    . cases hmention
  . next entries =>
    have hkeys := h entries rfl
    rw [mem_entrySteps_iff hstep hkeys.1]
    constructor
    . rintro (⟨s, raw, ho, hmem, hin⟩ | ⟨x, raw, hmem, hin⟩)
      . rw [← Setting.path_of_general ho] at hin
        exact .inr (.inr ⟨s, raw, .general ho hmem, hin⟩)
      . have hinner : ∀ inner, raw = .map inner → ∀ e ∈ inner, e.1.IsWritable := by
          rintro inner rfl
          exact hkeys.2 x inner hmem
        rw [mem_sectionSteps_iff hstep hinner] at hin
        rcases hin with ⟨hnull, hmap, hfail⟩ | ⟨inner, s, raw', rfl, ho, hmem', hin⟩
        . exact .inr (.inl ⟨x, ⟨entries, raw, rfl, hmem, hnull, hmap⟩, hfail⟩)
        . exact .inr (.inr ⟨s, raw', .inner ho hmem hmem', hin⟩)
    . rintro (⟨-, hmap, -⟩ | ⟨x, ⟨_, raw, hentries, hmem, hnull, hmap⟩, hfail⟩
        | ⟨s, raw, hmention, hin⟩)
      . exact absurd rfl (hmap entries)
      . cases hentries
        refine .inr ⟨x, raw, hmem, ?_⟩
        rw [mem_sectionSteps_iff hstep (fun inner heq => absurd heq (hmap inner))]
        exact .inl ⟨hnull, hmap, hfail⟩
      . cases hmention with
        | general ho hmem =>
          rw [Setting.path_of_general ho] at hin
          exact .inl ⟨s, raw, ho, hmem, hin⟩
        | @inner _ inner _ _ x ho houter hmem =>
          refine .inr ⟨x, .map inner, houter, ?_⟩
          have hinner : ∀ i, .map inner = Value.map i → ∀ e ∈ i, e.1.IsWritable := by
            rintro i ⟨⟩
            exact hkeys.2 x inner houter
          rw [mem_sectionSteps_iff hstep hinner]
          exact .inr ⟨inner, s, raw, rfl, ho, hmem, hin⟩
  . next hnull hmap =>
    simp only [List.mem_singleton]
    constructor
    . intro hfail
      exact .inl ⟨hnull, hmap, hfail⟩
    . rintro (⟨-, -, hfail⟩ | ⟨x, ⟨entries, _, hentries, -⟩, -⟩ | ⟨s, raw, hmention, -⟩)
      . exact hfail
      . exact absurd hentries (hmap entries)
      . cases hmention <;> exact absurd rfl (hmap _)

theorem mem_steps_assign {document : Value} {s : Setting} {v : Value}
    (h : document.HasWritableKeys) :
    .assign s v ∈ steps document ↔
      ∃ raw, Mentions document s raw ∧ raw ≠ .null ∧ parse s.type raw = .ok v := by
  rw [mem_steps_iff (by simp) h]
  simp only [mem_settingSteps_assign, reduceCtorEq, and_false, exists_false, false_or]
  constructor
  . rintro ⟨t, raw, hmention, rfl, hrest⟩
    exact ⟨raw, hmention, hrest⟩
  . rintro ⟨raw, hmention, hrest⟩
    exact ⟨s, raw, hmention, rfl, hrest⟩

theorem mem_steps_fail {document : Value} {f : OverlayFault} (h : document.HasWritableKeys) :
    .fail f ∈ steps document ↔
      (document ≠ .null ∧ (∀ entries, document ≠ .map entries) ∧ f = .notAMapping)
        ∨ (∃ x, Misplaces document x ∧ f = .mistyped x.name .object)
        ∨ ∃ s raw e, Mentions document s raw ∧ raw ≠ .null ∧ parse s.type raw = .error e
          ∧ f = .mistyped s.path e := by
  rw [mem_steps_iff (by simp) h]
  simp only [mem_settingSteps_fail, OverlayStep.fail.injEq]
  constructor
  . rintro (hroot | hsection | ⟨s, raw, hmention, hnull, e, he, hf⟩)
    . exact .inl hroot
    . exact .inr (.inl hsection)
    . exact .inr (.inr ⟨s, raw, e, hmention, hnull, he, hf⟩)
  . rintro (hroot | hsection | ⟨s, raw, e, hmention, hnull, he, hf⟩)
    . exact .inl hroot
    . exact .inr (.inl hsection)
    . exact .inr (.inr ⟨s, raw, hmention, hnull, e, he, hf⟩)

theorem run_fault_eq_none_iff {c : Config} {todo : List OverlayStep} :
    (run c todo).fault = none ↔ ∀ f, .fail f ∉ todo := by
  induction todo generalizing c with
  | nil => simp [run]
  | cons step todo ih =>
    cases step with
    | ignore path => simp [run, ih]
    | assign s v => simp [run, ih]
    | fail f =>
      simp only [run, reduceCtorEq, List.mem_cons, OverlayStep.fail.injEq, false_iff,
        Classical.not_forall, Classical.not_not]
      exact ⟨f, .inl rfl⟩

theorem mem_of_run_fault {c : Config} {todo : List OverlayStep} {f : OverlayFault}
    (h : (run c todo).fault = some f) : .fail f ∈ todo := by
  induction todo generalizing c with
  | nil => cases h
  | cons step todo ih =>
    cases step with
    | ignore path => exact .tail _ (ih h)
    | assign s v => exact .tail _ (ih h)
    | fail g =>
      cases h
      exact .head _

theorem run_get (c : Config) (todo : List OverlayStep) (s : Setting) :
    (run c todo).config.get s = c.get s
      ∨ ∃ v, .assign s v ∈ todo ∧ (run c todo).config.get s = v := by
  induction todo generalizing c with
  | nil => exact .inl rfl
  | cons step todo ih =>
    cases step with
    | ignore path =>
      rcases ih c with h | ⟨v, hmem, h⟩
      . exact .inl h
      . exact .inr ⟨v, .tail _ hmem, h⟩
    | assign t w =>
      rcases ih (c.set t w) with h | ⟨v, hmem, h⟩
      . by_cases hs : s = t
        . subst hs
          rw [Config.get_set_self] at h
          exact .inr ⟨w, .head _, h⟩
        . rw [Config.get_set_of_ne c w hs] at h
          exact .inl h
      . exact .inr ⟨v, .tail _ hmem, h⟩
    | fail f => exact .inl rfl

theorem run_get_of_mem {c : Config} {todo : List OverlayStep} {s : Setting} {v : Value}
    (h : ∀ f, .fail f ∉ todo) (hv : .assign s v ∈ todo) :
    ∃ w, .assign s w ∈ todo ∧ (run c todo).config.get s = w := by
  induction todo generalizing c with
  | nil => cases hv
  | cons step todo ih =>
    have hrest : ∀ f, .fail f ∉ todo := fun f hf => h f (.tail _ hf)
    cases step with
    | ignore path =>
      rcases ih (c := c) hrest (by simpa using hv) with ⟨w, hmem, hw⟩
      exact ⟨w, .tail _ hmem, hw⟩
    | assign t u =>
      rcases run_get (c.set t u) todo s with hget | ⟨w, hmem, hw⟩
      . by_cases hs : s = t
        . subst hs
          rw [Config.get_set_self] at hget
          exact ⟨u, .head _, hget⟩
        . have hv' : .assign s v ∈ todo := by simpa [hs] using hv
          rcases ih (c := c.set t u) hrest hv' with ⟨w, hmem, hw⟩
          exact ⟨w, .tail _ hmem, hw⟩
      . exact ⟨w, .tail _ hmem, hw⟩
    | fail f => exact absurd (.head _) (h f)

theorem run_get_of_not_mem {c : Config} {todo : List OverlayStep} {s : Setting}
    (h : ∀ v, .assign s v ∉ todo) : (run c todo).config.get s = c.get s := by
  rcases run_get c todo s with hget | ⟨v, hmem, -⟩
  . exact hget
  . exact absurd hmem (h v)

theorem asTexts?_eq_some_iff {items out : List Value} :
    asTexts? items = some out ↔ out = items ∧ ∀ item ∈ items, ∃ t, item = .text t := by
  unfold asTexts?
  split
  . next hall =>
    rw [List.all_eq_true] at hall
    constructor
    . intro h
      refine ⟨(Option.some.inj h).symm, ?_⟩
      intro item hitem
      have := hall item hitem
      cases item with
      | text t => exact ⟨t, rfl⟩
      | _ => cases this
    . rintro ⟨rfl, -⟩
      rfl
  . next hall =>
    constructor
    . intro h
      cases h
    . rintro ⟨-, htexts⟩
      exfalso
      apply hall
      rw [List.all_eq_true]
      intro item hitem
      rcases htexts item hitem with ⟨t, rfl⟩
      rfl

theorem admits_of_parse {t : SettingType} {raw v : Value} (h : parse t raw = .ok v) :
    t.admits v = true := by
  unfold parse at h
  split at h <;> try cases h
  . rfl
  . rfl
  . rfl
  . split at h <;> cases h
    rfl
  . split at h <;> cases h
    next items' hitems =>
      unfold asTexts? at hitems
      split at hitems <;> cases hitems
      assumption

theorem admits_of_mem_settingSteps {path : String} {s t : Setting} {raw v : Value}
    (h : .assign t v ∈ settingSteps path s raw) : t.type.admits v = true := by
  rw [mem_settingSteps_assign] at h
  rcases h with ⟨rfl, -, h⟩
  exact admits_of_parse h

theorem admits_of_mem_ownedSteps {owner : Option Section} {before : String} {s : Setting}
    {v : Value} {entries : List (Value × Value)}
    (h : .assign s v ∈ ownedSteps owner before entries) : s.type.admits v = true := by
  induction entries with
  | nil => simp [ownedSteps] at h
  | cons entry entries ih =>
    rcases entry with ⟨key, raw⟩
    cases hkey : key.plain with
    | error e => simp [ownedSteps, hkey] at h
    | ok name =>
      rw [ownedSteps_cons_of_plain hkey, List.mem_append] at h
      rcases h with h | h
      . split at h
        . simp at h
        . exact admits_of_mem_settingSteps h
      . exact ih h

theorem admits_of_mem_sectionSteps {x : Section} {raw : Value} {s : Setting} {v : Value}
    (h : .assign s v ∈ sectionSteps x raw) : s.type.admits v = true := by
  unfold sectionSteps at h
  split at h
  . simp at h
  . exact admits_of_mem_ownedSteps h
  . simp at h

theorem admits_of_mem_steps {document : Value} {s : Setting} {v : Value}
    (h : .assign s v ∈ steps document) : s.type.admits v = true := by
  unfold steps at h
  split at h
  . simp at h
  . next entries =>
    induction entries with
    | nil => simp [entrySteps] at h
    | cons entry entries ih =>
      rcases entry with ⟨key, raw⟩
      cases hkey : key.plain with
      | error e => simp [entrySteps, hkey] at h
      | ok name =>
        rw [entrySteps_cons_of_plain hkey, List.mem_append] at h
        rcases h with h | h
        . split at h
          . exact admits_of_mem_sectionSteps h
          . split at h
            . simp at h
            . exact admits_of_mem_settingSteps h
        . exact ih h
  . simp at h

theorem wellTyped_run {c : Config} {todo : List OverlayStep} (hc : c.WellTyped)
    (h : ∀ s v, .assign s v ∈ todo → s.type.admits v = true) : (run c todo).config.WellTyped := by
  intro s
  rcases run_get c todo s with hget | ⟨v, hmem, hget⟩
  . rw [hget]
    exact hc s
  . rw [hget]
    exact h s v hmem

end Overlay

theorem Config.WellTyped.overlay {c : Config} (h : c.WellTyped) (document : Value) :
    (c.overlay document).config.WellTyped := by
  unfold Config.overlay
  apply Overlay.wellTyped_run h
  intro s v hmem
  exact Overlay.admits_of_mem_steps hmem

end NodeSettings
