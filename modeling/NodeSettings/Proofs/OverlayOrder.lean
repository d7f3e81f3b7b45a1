import NodeSettings.Proofs.OverlayFault

/-!
This module contains the order in which the items of a document are read: depth first, those of a
section in the place of the section. An item asks for one step at most, and an overlay carries out
what the items ask for, one after the other.
-/

namespace NodeSettings
namespace Overlay

structure Item where
  owner : Option Section
  key : Value
  raw : Value

def sectionOf? : Value → Option Section
  | .text t => t.toString?.bind Section.ofName?
  | _ => none

def itemsIn (owner : Option Section) (entries : List (Value × Value)) : List Item :=
  entries.map fun e => ⟨owner, e.1, e.2⟩

def opened (key raw : Value) : List Item :=
  match sectionOf? key, raw with
  | some x, .map inner => itemsIn (some x) inner
  | _, _ => [⟨none, key, raw⟩]

def readingOrder : Value → List Item
  | .map entries => entries.flatMap fun e => opened e.1 e.2
  | _ => []

def knownNames : Option Section → List String
  | none => Setting.general.map Setting.name ++ Section.all.map Section.name
  | some x => x.settings.map Setting.name

namespace Item

def IsFor (i : Item) (s : Setting) : Prop :=
  s.owner = i.owner ∧ i.key = .text s.name

def IsSection (i : Item) (x : Section) : Prop :=
  i.owner = none ∧ i.key = .text x.name

def isStray (i : Item) : Bool :=
  match i.key with
  | .text t => (knownNames i.owner).all fun n => t ≠ (n : Text)
  | _ => true

def path (i : Item) : Text :=
  let name := i.key.plain.toOption.getD default
  match i.owner with
  | none => name
  | some x => (x.name ++ "." : String) ++ name

/-- What stands behind the name of a setting or of a section has not the shape that it must have. -/
inductive IsWrong (i : Item) : String → Prop where
  | setting {s : Setting} (hfor : i.IsFor s) (hraw : i.raw ≠ .null)
    (hread : ∀ v, ¬ Reads s.type i.raw v) : i.IsWrong s.path
  | sect {x : Section} (hfor : i.IsSection x) (hraw : i.raw ≠ .null)
    (hmap : ∀ inner, i.raw ≠ .map inner) : i.IsWrong x.name

inductive Asks (i : Item) : List OverlayStep → Prop where
  | unwritable {fault : LiteralFault} (hkey : i.key.plain = .error fault) :
    i.Asks [.fail (.unnameable fault)]
  | stray (hstray : i.isStray = true) : i.Asks [.ignore i.path]
  | null (hstray : i.isStray = false) (hraw : i.raw = .null) : i.Asks []
  | assign {s : Setting} {v : Value} (hfor : i.IsFor s) (hread : Reads s.type i.raw v) :
    i.Asks [.assign s v]
  | wrong {p : String} {expected : Expected} (hwrong : i.IsWrong p) :
    i.Asks [.fail (.mistyped p expected)]

def steps (i : Item) : List OverlayStep :=
  match i.key.plain with
  | .error fault => [.fail (.unnameable fault)]
  | .ok name =>
    match i.owner with
    | none => entryItem name i.raw
    | some x => ownedItem (some x) (x.name ++ ".") name i.raw

end Item

/-- The paths of the keys that name nothing, in the order in which they are read. -/
def strayPaths (document : Value) : List Text :=
  ((readingOrder document).filter Item.isStray).map Item.path

def Outcome.andThen (o : Outcome) (next : Config → Outcome) : Outcome :=
  match o.fault with
  | some _ => o
  | none => { next o.config with ignored := o.ignored ++ (next o.config).ignored }

theorem run_append (c : Config) (front back : List OverlayStep) :
    run c (front ++ back) = (run c front).andThen fun d => run d back := by
  induction front generalizing c with
  | nil => simp [run, Outcome.andThen]
  | cons step front ih =>
    cases step with
    | ignore path =>
      rw [List.cons_append, run, run, ih]
      unfold Outcome.andThen
      dsimp only
      split <;> simp_all
    | assign s v =>
      rw [List.cons_append, run, run, ih]
    | fail f => rfl

theorem run_flatMap_congr {α : Type} {todo : List α} {f g : α → List OverlayStep}
    (h : ∀ a ∈ todo, ∀ c, run c (f a) = run c (g a)) (c : Config) :
    run c (todo.flatMap f) = run c (todo.flatMap g) := by
  induction todo generalizing c with
  | nil => rfl
  | cons a todo ih =>
    rw [List.flatMap_cons, List.flatMap_cons, run_append, run_append, h a (.head _)]
    congr
    funext d
    apply ih
    intro b hb
    exact h b (.tail _ hb)

theorem IsWalk.run_walk {walk : List (Value × Value) → List OverlayStep}
    {item : Text → Value → List OverlayStep} {owner : Option Section} (hw : IsWalk walk item)
    (hitem : ∀ i : Item, i.owner = owner → ∀ name, i.key.plain = .ok name →
      i.steps = item name i.raw) (c : Config) (entries : List (Value × Value)) :
    run c (walk entries) = run c ((itemsIn owner entries).flatMap Item.steps) := by
  induction entries generalizing c with
  | nil =>
    rw [hw.nil]
    rfl
  | cons entry entries ih =>
    rcases entry with ⟨key, raw⟩
    show _ = run c (Item.steps ⟨owner, key, raw⟩ ++ (itemsIn owner entries).flatMap Item.steps)
    cases hkey : key.plain with
    | error fault =>
      rw [hw.stop hkey, Item.steps, hkey]
      rfl
    | ok name =>
      rw [hw.cons hkey, hitem ⟨owner, key, raw⟩ rfl name hkey, run_append, run_append]
      congr
      funext d
      apply ih

theorem run_ownedSteps (c : Config) (x : Section) (inner : List (Value × Value)) :
    run c (ownedSteps (some x) (x.name ++ ".") inner) =
      run c ((itemsIn (some x) inner).flatMap Item.steps) := by
  apply (isWalk_ownedSteps _ _).run_walk
  intro i howner name hkey
  rw [Item.steps, hkey, howner]

theorem run_entrySteps (c : Config) (entries : List (Value × Value)) :
    run c (entrySteps entries) = run c ((itemsIn none entries).flatMap Item.steps) := by
  apply isWalk_entrySteps.run_walk
  intro i howner name hkey
  rw [Item.steps, hkey, howner]

theorem sectionOf?_eq_some_iff {key : Value} {x : Section} :
    sectionOf? key = some x ↔ key = .text x.name := by
  unfold sectionOf?
  split
  . apply bind_ofName?_eq_some_iff
    rfl
  . next hkey =>
    simp only [reduceCtorEq, false_iff]
    apply hkey

theorem run_opened (c : Config) (key raw : Value) :
    run c (Item.steps ⟨none, key, raw⟩) = run c ((opened key raw).flatMap Item.steps) := by
  unfold opened
  split
  . next x inner hx =>
    rw [sectionOf?_eq_some_iff] at hx
    subst hx
    rw [← run_ownedSteps]
    show run c (entryItem (x.name : Text) (.map inner)) = _
    rw [entryItem, bind_ofName?_name]
    rfl
  . rw [List.flatMap_cons, List.flatMap_nil, List.append_nil]

/-- An overlay carries out what the items of the document ask for, in the order of reading. -/
theorem overlay_map (c : Config) (entries : List (Value × Value)) :
    c.overlay (.map entries) = run c ((readingOrder (.map entries)).flatMap Item.steps) := by
  unfold Config.overlay
  rw [steps, run_entrySteps, readingOrder, List.flatMap_assoc, itemsIn, List.flatMap_map]
  apply run_flatMap_congr
  intro e he d
  apply run_opened

namespace Item

variable {i : Item} {s t : Setting} {x : Section}

theorem isStray_iff :
    i.isStray = true ↔ (∀ s, ¬ i.IsFor s) ∧ ∀ x, ¬ i.IsSection x := by
  unfold isStray IsFor IsSection
  split
  . next t ht =>
    simp only [ht, Value.text.injEq, List.all_eq_true, decide_eq_true_eq]
    cases howner : i.owner with
    | none =>
      simp [knownNames, ← Setting.owner_eq_none_iff, Section.mem_all, or_imp, forall_and]
    | some x => simp [knownNames, ← Setting.owner_eq_some_iff]
  . next hkey =>
    simp only [true_iff]
    constructor
    . intro s hs
      exact hkey _ hs.2
    . intro x hx
      exact hkey _ hx.2

theorem IsFor.unique (hs : i.IsFor s) (ht : i.IsFor t) : s = t := by
  have hname := ht.2
  rw [hs.2, Value.text.injEq, Text.ofString_inj] at hname
  apply Setting.eq_of_owner_of_name _ hname
  rw [hs.1, ht.1]

theorem IsFor.isStray_eq_false (hs : i.IsFor s) : i.isStray = false := by
  rw [Bool.eq_false_iff, ne_eq, isStray_iff]
  intro h
  exact h.1 s hs

theorem IsSection.isStray_eq_false (hx : i.IsSection x) : i.isStray = false := by
  rw [Bool.eq_false_iff, ne_eq, isStray_iff]
  intro h
  exact h.2 x hx

theorem IsFor.not_isSection (hs : i.IsFor s) : ¬ i.IsSection x := by
  intro hx
  have howner := hs.1
  have hname := hx.2
  rw [hx.1] at howner
  rw [hs.2, Value.text.injEq, Text.ofString_inj] at hname
  exact Section.name_ne_of_owner_eq_none howner x hname.symm

theorem asks_settingSteps (hs : i.IsFor s) : i.Asks (settingSteps s.path s i.raw) := by
  unfold settingSteps
  split
  . next hraw => exact .null hs.isStray_eq_false hraw
  . next hraw =>
    split
    . next v hv =>
      rw [parse_eq_ok_iff] at hv
      exact .assign hs hv
    . next expected he =>
      apply Asks.wrong
      apply IsWrong.setting hs hraw
      intro v hv
      rw [← parse_eq_ok_iff, he] at hv
      cases hv

theorem asks_sectionSteps (hx : i.IsSection x) (hmap : ∀ inner, i.raw ≠ .map inner) :
    i.Asks (sectionSteps x i.raw) := by
  unfold sectionSteps
  split
  . next hraw => exact .null hx.isStray_eq_false hraw
  . next inner hraw => exact absurd hraw (hmap inner)
  . next hraw _ =>
    apply Asks.wrong
    exact .sect hx hraw hmap

theorem path_of_general {name : Text} (howner : i.owner = none) (hkey : i.key.plain = .ok name) :
    i.path = name := by
  rw [path, howner, hkey]
  rfl

theorem path_of_owner {name : Text} (howner : i.owner = some x) (hkey : i.key.plain = .ok name) :
    i.path = (x.name ++ "." : String) ++ name := by
  rw [path, howner, hkey]
  rfl

theorem asks_ownedItem {name : Text} (howner : i.owner = some x) (hkey : i.key.plain = .ok name) :
    i.Asks (ownedItem (some x) (x.name ++ ".") name i.raw) := by
  unfold ownedItem
  split
  . next hnone =>
    rw [← path_of_owner howner hkey]
    apply Asks.stray
    rw [isStray_iff]
    constructor
    . intro s hs
      have hfind := (bind_find?_eq_some_iff hkey).mpr hs
      rw [howner, hnone] at hfind
      cases hfind
    . intro y hy
      have := hy.1
      rw [howner] at this
      cases this
  . next s hs =>
    rw [bind_find?_eq_some_iff hkey] at hs
    rw [← Setting.path_of_owner hs.1]
    apply asks_settingSteps
    rw [IsFor, howner]
    exact hs

theorem asks_entryItem {name : Text} (howner : i.owner = none) (hkey : i.key.plain = .ok name)
    (hmap : ∀ x, i.IsSection x → ∀ inner, i.raw ≠ .map inner) :
    i.Asks (entryItem name i.raw) := by
  unfold entryItem
  split
  . next x hx =>
    rw [bind_ofName?_eq_some_iff hkey] at hx
    apply asks_sectionSteps ⟨howner, hx⟩
    exact hmap x ⟨howner, hx⟩
  . next hnoSection =>
    split
    . next hnone =>
      rw [← path_of_general howner hkey]
      apply Asks.stray
      rw [isStray_iff]
      constructor
      . intro s hs
        have hfind := (bind_find?_eq_some_iff hkey).mpr hs
        rw [howner, hnone] at hfind
        cases hfind
      . intro y hy
        have hfind := (bind_ofName?_eq_some_iff hkey).mpr hy.2
        rw [hnoSection] at hfind
        cases hfind
    . next s hs =>
      rw [bind_find?_eq_some_iff hkey] at hs
      rw [← Setting.path_of_general hs.1]
      apply asks_settingSteps
      rw [IsFor, howner]
      exact hs

/-- An item asks for one step at most, as long as it is not a section that is a mapping. -/
theorem asks_steps (hmap : ∀ x, i.IsSection x → ∀ inner, i.raw ≠ .map inner) :
    i.Asks i.steps := by
  unfold steps
  cases hkey : i.key.plain with
  | error fault => exact .unwritable hkey
  | ok name =>
    cases howner : i.owner with
    | none => exact asks_entryItem howner hkey hmap
    | some x => exact asks_ownedItem howner hkey

namespace Asks

variable {todo : List OverlayStep} {v : Value} {p : String} {f : OverlayFault}

theorem exists_of_firstFault (h : i.Asks todo) (hf : firstFault todo = some f) :
    (∃ fault, f = .unnameable fault) ∨ ∃ p expected, f = .mistyped p expected ∧ i.IsWrong p := by
  cases h with
  | unwritable hkey =>
    cases hf
    exact .inl ⟨_, rfl⟩
  | wrong hwrong =>
    cases hf
    exact .inr ⟨_, _, rfl, hwrong⟩
  | stray hstray => cases hf
  | null hstray hraw => cases hf
  | assign hfor hread => cases hf

theorem not_isWrong (h : i.Asks todo) (hf : firstFault todo = none) : ¬ i.IsWrong p := by
  intro hwrong
  cases h with
  | unwritable hkey => cases hf
  | wrong hwrong => cases hf
  | stray hstray =>
    rw [isStray_iff] at hstray
    cases hwrong with
    | setting hfor _ _ => exact hstray.1 _ hfor
    | sect hfor _ _ => exact hstray.2 _ hfor
  | null hstray hraw => cases hwrong <;> contradiction
  | assign hfor hread =>
    cases hwrong with
    | setting hfor' _ hnone =>
      rw [hfor.unique hfor'] at hread
      exact hnone _ hread
    | sect hfor' _ _ => exact hfor.not_isSection hfor'

theorem of_mem_assign (h : i.Asks todo) (hmem : .assign s v ∈ todo) :
    i.IsFor s ∧ Reads s.type i.raw v := by
  cases h with
  | assign hfor hread =>
    simp only [List.mem_singleton, OverlayStep.assign.injEq] at hmem
    rw [hmem.1, hmem.2]
    exact ⟨hfor, hread⟩
  | unwritable hkey => simp at hmem
  | wrong hwrong => simp at hmem
  | stray hstray => simp at hmem
  | null hstray hraw => simp at hmem

theorem exists_mem_assign (h : i.Asks todo) (hf : firstFault todo = none) (hfor : i.IsFor s)
    (hraw : i.raw ≠ .null) : ∃ v, .assign s v ∈ todo := by
  cases h with
  | @assign t v hfor' hread =>
    rw [hfor.unique hfor']
    exact ⟨v, .head _⟩
  | unwritable hkey => cases hf
  | wrong hwrong => cases hf
  | stray hstray =>
    rw [hfor.isStray_eq_false] at hstray
    cases hstray
  | null hstray hnull => exact absurd hnull hraw

end Asks

end Item

section

variable {i : Item} {key raw : Value} {entries : List (Value × Value)} {s : Setting}

theorem opened_section (x : Section) (inner : List (Value × Value)) :
    opened (.text x.name) (.map inner) = itemsIn (some x) inner := by
  unfold opened
  rw [sectionOf?_eq_some_iff.mpr rfl]

theorem mem_opened_iff :
    i ∈ opened key raw ↔
      (∃ x inner, key = .text (Section.name x) ∧ raw = .map inner ∧ i ∈ itemsIn (some x) inner)
        ∨ i = ⟨none, key, raw⟩ ∧ ∀ x, i.IsSection x → ∀ inner, i.raw ≠ .map inner := by
  unfold opened
  split
  . next x inner hx =>
    rw [sectionOf?_eq_some_iff] at hx
    subst hx
    constructor
    . intro hmem
      exact .inl ⟨x, inner, rfl, rfl, hmem⟩
    . rintro (⟨y, inner', hname, hmap, hmem⟩ | ⟨rfl, hclosed⟩)
      . cases hmap
        rw [← sectionOf?_eq_some_iff, sectionOf?_eq_some_iff.mpr rfl] at hname
        cases hname
        exact hmem
      . exact absurd rfl (hclosed x ⟨rfl, rfl⟩ inner)
  . next hclosed =>
    rw [List.mem_singleton]
    constructor
    . rintro rfl
      refine .inr ⟨rfl, ?_⟩
      intro x hx inner hmap
      exact hclosed x inner (sectionOf?_eq_some_iff.mpr hx.2) hmap
    . rintro (⟨x, inner, hname, hmap, -⟩ | ⟨rfl, -⟩)
      . exact absurd hmap (hclosed x inner (sectionOf?_eq_some_iff.mpr hname))
      . rfl

theorem mem_readingOrder_iff :
    i ∈ readingOrder (.map entries) ↔ ∃ key raw, (key, raw) ∈ entries ∧ i ∈ opened key raw := by
  simp [readingOrder]

theorem mem_itemsIn_iff {owner : Option Section} :
    i ∈ itemsIn owner entries ↔ i.owner = owner ∧ (i.key, i.raw) ∈ entries := by
  unfold itemsIn
  rw [List.mem_map]
  constructor
  . rintro ⟨e, hmem, rfl⟩
    exact ⟨rfl, hmem⟩
  . rintro ⟨rfl, hmem⟩
    exact ⟨_, hmem, rfl⟩

theorem asks_of_mem {document : Value} (h : i ∈ readingOrder document) : i.Asks i.steps := by
  cases document with
  | map entries =>
    rw [mem_readingOrder_iff] at h
    rcases h with ⟨key, raw, -, hmem⟩
    rw [mem_opened_iff] at hmem
    apply Item.asks_steps
    intro x hx inner
    rcases hmem with ⟨y, inner', -, -, hmem⟩ | ⟨-, hclosed⟩
    . rw [mem_itemsIn_iff, hx.1] at hmem
      cases hmem.1
    . exact hclosed x hx inner
  | _ => cases h

theorem mentions_iff {document : Value} :
    Mentions document s raw ↔ ∃ i ∈ readingOrder document, i.IsFor s ∧ i.raw = raw := by
  constructor
  . intro h
    cases h with
    | general howner hmem =>
      refine ⟨⟨none, .text s.name, raw⟩, ?_, ⟨howner, rfl⟩, rfl⟩
      rw [mem_readingOrder_iff]
      refine ⟨_, _, hmem, ?_⟩
      rw [mem_opened_iff]
      refine .inr ⟨rfl, ?_⟩
      intro x hx
      exact absurd hx (Item.IsFor.not_isSection ⟨howner, rfl⟩)
    | @inner entries inner _ _ x howner houter hmem =>
      refine ⟨⟨some x, .text s.name, raw⟩, ?_, ⟨howner, rfl⟩, rfl⟩
      rw [mem_readingOrder_iff]
      refine ⟨_, _, houter, ?_⟩
      rw [opened_section, mem_itemsIn_iff]
      exact ⟨rfl, hmem⟩
  . rintro ⟨i, hi, hfor, rfl⟩
    cases document with
    | map entries =>
      rw [mem_readingOrder_iff] at hi
      rcases hi with ⟨key, raw, hentry, hi⟩
      rw [mem_opened_iff] at hi
      rcases hi with ⟨x, inner, rfl, rfl, hi⟩ | ⟨rfl, -⟩
      . rw [mem_itemsIn_iff, hfor.2] at hi
        apply Mentions.inner _ hentry hi.2
        rw [hfor.1, hi.1]
      . rcases hfor with ⟨howner, rfl⟩
        exact .general howner hentry
    | _ => cases hi

end

def ignoredPath? : OverlayStep → Option Text
  | .ignore path => some path
  | _ => none

theorem firstFault_flatMap {α : Type} (todo : List α) (f : α → List OverlayStep) :
    firstFault (todo.flatMap f) = todo.findSome? fun a => firstFault (f a) := by
  induction todo with
  | nil => rfl
  | cons a todo ih =>
    rw [List.flatMap_cons, firstFault_append, ih, List.findSome?_cons]
    cases firstFault (f a) <;> rfl

theorem firstFault_flatMap_eq_none_iff {α : Type} {todo : List α} {f : α → List OverlayStep} :
    firstFault (todo.flatMap f) = none ↔ ∀ a ∈ todo, firstFault (f a) = none := by
  rw [firstFault_flatMap, List.findSome?_eq_none_iff]

theorem run_ignored {c : Config} {todo : List OverlayStep} (h : firstFault todo = none) :
    (run c todo).ignored = todo.filterMap ignoredPath? := by
  induction todo generalizing c with
  | nil => rfl
  | cons step todo ih =>
    cases step with
    | ignore path =>
      show path :: (run c todo).ignored = path :: todo.filterMap ignoredPath?
      rw [ih h]
    | assign s v => exact ih h
    | fail f => cases h

theorem Item.Asks.filterMap_ignored {i : Item} {todo : List OverlayStep} (h : i.Asks todo)
    (hf : firstFault todo = none) :
    todo.filterMap ignoredPath? = ([i].filter isStray).map path := by
  cases h with
  | unwritable hkey => cases hf
  | wrong hwrong => cases hf
  | stray hstray =>
    rw [List.filter_cons_of_pos hstray]
    rfl
  | null hstray hraw =>
    rw [List.filter_cons_of_neg (by simp [hstray])]
    rfl
  | assign hfor hread =>
    rw [List.filter_cons_of_neg (by simp [hfor.isStray_eq_false])]
    rfl

theorem filterMap_steps {items : List Item} (hasks : ∀ i ∈ items, i.Asks i.steps)
    (h : ∀ i ∈ items, firstFault i.steps = none) :
    (items.flatMap Item.steps).filterMap ignoredPath? =
      (items.filter Item.isStray).map Item.path := by
  induction items with
  | nil => rfl
  | cons i items ih =>
    rw [List.flatMap_cons, List.filterMap_append,
      (hasks i (.head _)).filterMap_ignored (h i (.head _)),
      ih (fun j hj => hasks j (.tail _ hj)) (fun j hj => h j (.tail _ hj)), ← List.map_append,
      ← List.filter_append]
    rfl

theorem overlay_ignored {c : Config} {document : Value} (h : (c.overlay document).fault = none) :
    (c.overlay document).ignored = strayPaths document := by
  cases document with
  | map entries =>
    rw [overlay_map] at h ⊢
    rw [run_fault] at h
    rw [run_ignored h]
    rw [firstFault_flatMap_eq_none_iff] at h
    exact filterMap_steps (fun i hi => asks_of_mem hi) h
  | null => rfl
  | _ => cases h

end Overlay
end NodeSettings
