import NodeSettings.Proofs.Schema

/-!
This module contains the first fault of a document, and the documents of which the first fault is a
key that cannot be written.
-/

namespace NodeSettings
namespace Overlay

def firstFault (todo : List OverlayStep) : Option OverlayFault :=
  todo.findSome? fun
    | .fail f => some f
    | _ => none

theorem run_fault (c : Config) (todo : List OverlayStep) :
    (run c todo).fault = firstFault todo := by
  unfold firstFault
  induction todo generalizing c with
  | nil => rfl
  | cons step todo ih =>
    cases step with
    | ignore path => simp [run, ih]
    | assign s v => simp [run, ih]
    | fail f => simp [run]

theorem firstFault_append (xs ys : List OverlayStep) :
    firstFault (xs ++ ys) = (firstFault xs).or (firstFault ys) := by
  unfold firstFault
  rw [List.findSome?_append]

theorem firstFault_settingSteps_ne {path : String} {s : Setting} {raw : Value} {e : LiteralFault} :
    firstFault (settingSteps path s raw) ≠ some (.unnameable e) := by
  unfold settingSteps
  split
  . simp [firstFault]
  . split <;> simp [firstFault]

theorem not_isWritable_iff {key : Value} : ¬ key.IsWritable ↔ ∃ e, key.plain = .error e := by
  unfold Value.IsWritable
  cases key.plain with
  | ok name => simp
  | error e =>
    constructor
    . intro _
      exact ⟨e, rfl⟩
    . simp

/--
Steps of entries that come entry by entry, from the plain form of the key and what stands behind it,
up to the first key that has no such form.
-/
structure IsWalk (walk : List (Value × Value) → List OverlayStep)
    (item : Text → Value → List OverlayStep) : Prop where
  nil : walk [] = []
  cons {key raw : Value} {entries : List (Value × Value)} {name : Text} (h : key.plain = .ok name) :
    walk ((key, raw) :: entries) = item name raw ++ walk entries
  stop {key raw : Value} {entries : List (Value × Value)} {e : LiteralFault}
    (h : key.plain = .error e) : walk ((key, raw) :: entries) = [.fail (.unnameable e)]

namespace IsWalk

variable {walk : List (Value × Value) → List OverlayStep} {item : Text → Value → List OverlayStep}

theorem append (hw : IsWalk walk item) {front : List (Value × Value)}
    (h : firstFault (walk front) = none) (back : List (Value × Value)) :
    walk (front ++ back) = walk front ++ walk back := by
  induction front with
  | nil => rw [hw.nil, List.nil_append, List.nil_append]
  | cons entry front ih =>
    rcases entry with ⟨key, raw⟩
    cases hkey : key.plain with
    | error e =>
      rw [hw.stop hkey] at h
      simp [firstFault] at h
    | ok name =>
      rw [hw.cons hkey, firstFault_append, Option.or_eq_none_iff] at h
      rw [List.cons_append, hw.cons hkey, hw.cons hkey, ih h.2, List.append_assoc]

theorem isWritable (hw : IsWalk walk item) {entries : List (Value × Value)}
    (h : firstFault (walk entries) = none) : ∀ entry ∈ entries, entry.1.IsWritable := by
  induction entries with
  | nil => simp
  | cons entry entries ih =>
    rcases entry with ⟨key, raw⟩
    cases hkey : key.plain with
    | error e =>
      rw [hw.stop hkey] at h
      simp [firstFault] at h
    | ok name =>
      rw [hw.cons hkey, firstFault_append, Option.or_eq_none_iff] at h
      simp only [List.mem_cons, forall_eq_or_imp]
      exact ⟨⟨name, hkey⟩, ih h.2⟩

theorem item_of_mem (hw : IsWalk walk item) {entries : List (Value × Value)}
    (h : firstFault (walk entries) = none) {key raw : Value} {name : Text}
    (hmem : (key, raw) ∈ entries) (hkey : key.plain = .ok name) :
    firstFault (item name raw) = none := by
  induction entries with
  | nil => cases hmem
  | cons entry entries ih =>
    rcases entry with ⟨key', raw'⟩
    cases hkey' : key'.plain with
    | error e =>
      rw [hw.stop hkey'] at h
      simp [firstFault] at h
    | ok name' =>
      rw [hw.cons hkey', firstFault_append, Option.or_eq_none_iff] at h
      cases hmem with
      | head =>
        rw [hkey] at hkey'
        cases hkey'
        exact h.1
      | tail _ hmem => exact ih h.2 hmem

theorem unnameable_iff (hw : IsWalk walk item) {entries : List (Value × Value)} :
    (∃ e, firstFault (walk entries) = some (.unnameable e)) ↔
      ∃ front key raw back, entries = front ++ (key, raw) :: back
        ∧ firstFault (walk front) = none
        ∧ (¬ key.IsWritable
          ∨ ∃ name e, key.plain = .ok name
            ∧ firstFault (item name raw) = some (.unnameable e)) := by
  constructor
  . intro h
    induction entries with
    | nil =>
      rw [hw.nil] at h
      simp [firstFault] at h
    | cons entry entries ih =>
      rcases entry with ⟨key, raw⟩
      cases hkey : key.plain with
      | error e =>
        refine ⟨[], key, raw, entries, rfl, ?_, .inl ?_⟩
        . rw [hw.nil]
          rfl
        . rw [not_isWritable_iff]
          exact ⟨e, hkey⟩
      | ok name =>
        rcases h with ⟨e, h⟩
        rw [hw.cons hkey, firstFault_append] at h
        cases hitem : firstFault (item name raw) with
        | some f =>
          rw [hitem, Option.some_or, Option.some.injEq] at h
          subst h
          refine ⟨[], key, raw, entries, rfl, ?_, .inr ⟨name, e, hkey, hitem⟩⟩
          rw [hw.nil]
          rfl
        | none =>
          rw [hitem, Option.none_or] at h
          rcases ih ⟨e, h⟩ with ⟨front, key', raw', back, rfl, hfront, hstop⟩
          refine ⟨(key, raw) :: front, key', raw', back, rfl, ?_, hstop⟩
          rw [hw.cons hkey, firstFault_append, hitem, hfront]
          rfl
  . intro h
    rcases h with ⟨front, key, raw, back, rfl, hfront, hstop⟩
    rw [hw.append hfront, firstFault_append, hfront, Option.none_or]
    rcases hstop with hstop | ⟨name, e, hkey, hitem⟩
    . rw [not_isWritable_iff] at hstop
      rcases hstop with ⟨e, hkey⟩
      rw [hw.stop hkey]
      exact ⟨e, rfl⟩
    . rw [hw.cons hkey, firstFault_append, hitem]
      exact ⟨e, rfl⟩

end IsWalk

def ownedItem (owner : Option Section) (before : String) (name : Text) (raw : Value) :
    List OverlayStep :=
  match name.toString?.bind (Setting.find? owner) with
  | none => [.ignore (before ++ name)]
  | some s => settingSteps (before ++ s.name) s raw

theorem isWalk_ownedSteps (owner : Option Section) (before : String) :
    IsWalk (ownedSteps owner before) (ownedItem owner before) where
  nil := rfl
  cons h := ownedSteps_cons_of_plain h
  stop h := by rw [ownedSteps, h]

def entryItem (name : Text) (raw : Value) : List OverlayStep :=
  match name.toString?.bind Section.ofName? with
  | some x => sectionSteps x raw
  | none =>
    match name.toString?.bind (Setting.find? none) with
    | none => [.ignore name]
    | some s => settingSteps s.name s raw

theorem isWalk_entrySteps : IsWalk entrySteps entryItem where
  nil := rfl
  cons h := entrySteps_cons_of_plain h
  stop h := by rw [entrySteps, h]

theorem firstFault_ownedItem_ne {owner : Option Section} {before : String} {name : Text}
    {raw : Value} {e : LiteralFault} :
    firstFault (ownedItem owner before name raw) ≠ some (.unnameable e) := by
  unfold ownedItem
  split
  . simp [firstFault]
  . apply firstFault_settingSteps_ne

theorem entryItem_unnameable_iff {key raw : Value} {name : Text} {e : LiteralFault}
    (hkey : key.plain = .ok name) :
    firstFault (entryItem name raw) = some (.unnameable e) ↔
      ∃ x, key = .text (Section.name x)
        ∧ firstFault (sectionSteps x raw) = some (.unnameable e) := by
  unfold entryItem
  cases hx : name.toString?.bind Section.ofName? with
  | some x =>
    have hname := (bind_ofName?_eq_some_iff hkey).mp hx
    constructor
    . intro h
      exact ⟨x, hname, h⟩
    . intro h
      rcases h with ⟨y, hy, h⟩
      rw [← bind_ofName?_eq_some_iff hkey, hx] at hy
      cases hy
      exact h
  | none =>
    have hnone : ¬ ∃ x, key = .text (Section.name x)
        ∧ firstFault (sectionSteps x raw) = some (.unnameable e) := by
      intro h
      rcases h with ⟨x, hname, -⟩
      rw [← bind_ofName?_eq_some_iff hkey, hx] at hname
      cases hname
    simp only [hnone, iff_false]
    split
    . simp [firstFault]
    . apply firstFault_settingSteps_ne

theorem firstFault_sectionSteps_map (x : Section) (inner : List (Value × Value)) :
    firstFault (steps (.map [(.text x.name, .map inner)])) =
      firstFault (sectionSteps x (.map inner)) := by
  have hname : (Value.text x.name).plain = .ok (x.name : Text) := rfl
  have hitem : entryItem (x.name : Text) (.map inner) = sectionSteps x (.map inner) := by
    rw [entryItem, bind_ofName?_name]
  rw [steps, isWalk_entrySteps.cons hname, firstFault_append, hitem, isWalk_entrySteps.nil]
  simp [firstFault]

def IsSound (entries : List (Value × Value)) : Prop :=
  (Value.map entries).HasWritableKeys ∧ HasShape (.map entries)

theorem firstFault_steps_eq_none_iff {document : Value} :
    firstFault (steps document) = none ↔ document.HasWritableKeys ∧ HasShape document := by
  -- A fault is known from the overlay of any configuration.
  have hfault : (Config.default.overlay document).fault = firstFault (steps document) :=
    run_fault _ _
  constructor
  . intro h
    have hkeys : document.HasWritableKeys := by
      intro entries hentries
      subst hentries
      refine ⟨isWalk_entrySteps.isWritable h, ?_⟩
      intro x inner hmem
      have hitem := isWalk_entrySteps.item_of_mem h hmem rfl
      rw [entryItem, bind_ofName?_name] at hitem
      exact (isWalk_ownedSteps _ _).isWritable hitem
    refine ⟨hkeys, ?_⟩
    rw [← fault_eq_none_iff (c := .default) hkeys, hfault]
    exact h
  . intro h
    rw [← hfault, fault_eq_none_iff h.1]
    exact h.2

/--
An overlay meets a key that cannot be written, in the document itself or in a section of it, before
anything that has the wrong shape.
-/
inductive MeetsUnwritable : Value → Prop where
  | general {front back : List (Value × Value)} {key raw : Value} (hfront : IsSound front)
      (hkey : ¬ key.IsWritable) : MeetsUnwritable (.map (front ++ (key, raw) :: back))
  | inner {front back front' back' : List (Value × Value)} {key raw : Value} {x : Section}
      (hfront : IsSound front) (hfront' : IsSound [(.text x.name, .map front')])
      (hkey : ¬ key.IsWritable) :
      MeetsUnwritable
        (.map (front ++ (.text x.name, .map (front' ++ (key, raw) :: back')) :: back))

theorem sectionSteps_unnameable_iff {x : Section} {raw : Value} :
    (∃ e, firstFault (sectionSteps x raw) = some (.unnameable e)) ↔
      ∃ front key raw' back, raw = .map (front ++ (key, raw') :: back)
        ∧ IsSound [(.text x.name, .map front)] ∧ ¬ key.IsWritable := by
  have hsound (front : List (Value × Value)) :
      IsSound [(.text x.name, .map front)] ↔
        firstFault (ownedSteps (some x) (x.name ++ ".") front) = none := by
    unfold IsSound
    rw [← firstFault_steps_eq_none_iff, firstFault_sectionSteps_map, sectionSteps]
  unfold sectionSteps
  split
  . simp [firstFault]
  . next inner =>
    rw [(isWalk_ownedSteps _ _).unnameable_iff]
    simp only [hsound, Value.map.injEq, firstFault_ownedItem_ne, and_false, exists_false, or_false]
  . next hnull hmap =>
    simp only [firstFault, List.findSome?_cons, Option.some.injEq, reduceCtorEq, exists_false,
      false_iff]
    intro h
    rcases h with ⟨_, _, _, _, h, -⟩
    exact hmap _ h

theorem steps_unnameable_iff {document : Value} :
    (∃ e, firstFault (steps document) = some (.unnameable e)) ↔ MeetsUnwritable document := by
  have hsound (front : List (Value × Value)) :
      IsSound front ↔ firstFault (entrySteps front) = none := by
    unfold IsSound
    rw [← firstFault_steps_eq_none_iff, steps]
  constructor
  . intro h
    unfold steps at h
    split at h
    . simp [firstFault] at h
    . next entries =>
      rw [isWalk_entrySteps.unnameable_iff] at h
      rcases h with ⟨front, key, raw, back, rfl, hfront, hkey | ⟨name, e, hkey, hitem⟩⟩
      . exact .general ((hsound front).mpr hfront) hkey
      . rw [entryItem_unnameable_iff hkey] at hitem
        rcases hitem with ⟨x, rfl, hx⟩
        rcases sectionSteps_unnameable_iff.mp ⟨e, hx⟩ with
          ⟨front', key', raw', back', rfl, hfront', hkey'⟩
        exact .inner ((hsound front).mpr hfront) hfront' hkey'
    . simp [firstFault] at h
  . intro h
    cases h with
    | @general front back key raw hfront hkey =>
      rw [steps, isWalk_entrySteps.unnameable_iff]
      exact ⟨front, key, raw, back, rfl, (hsound front).mp hfront, .inl hkey⟩
    | @inner front back front' back' key raw x hfront hfront' hkey =>
      rw [steps, isWalk_entrySteps.unnameable_iff]
      rcases sectionSteps_unnameable_iff.mpr ⟨front', key, raw, back', rfl, hfront', hkey⟩ with
        ⟨e, he⟩
      have hname : (Value.text x.name).plain = .ok (x.name : Text) := rfl
      refine ⟨front, _, _, back, rfl, (hsound front).mp hfront, .inr ⟨_, e, hname, ?_⟩⟩
      rw [entryItem_unnameable_iff hname]
      exact ⟨x, rfl, he⟩

theorem overlay_unnameable_iff {c : Config} {document : Value} :
    (∃ e, (c.overlay document).fault = some (.unnameable e)) ↔ MeetsUnwritable document := by
  unfold Config.overlay
  rw [run_fault]
  apply steps_unnameable_iff

end Overlay
end NodeSettings
