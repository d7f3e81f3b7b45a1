import NodeSettings.Proofs.Session.Effect

/-!
This module contains what a session can do to a configuration through views of it: nothing, whatever
it tries and however many views it tries it through.
-/

namespace NodeSettings

namespace Value

def isFixed : Value → Bool
  | text _ | integer _ | boolean _ | duration _ => true
  | tuple items => items.all fun | .text _ => true | _ => false
  | _ => false

theorem isFixed_shown {type : SettingType} {v : Value} (h : type.admits v = true) :
    v.shown.isFixed = true := by
  cases v with
  | text t => rfl
  | integer n => rfl
  | boolean b => rfl
  | duration d => rfl
  | list items =>
    cases type with
    | texts => exact h
    | _ => cases h
  | _ => cases type <;> cases h

theorem isFixed_numberAttribute {n : Int} {name : String} {w : Value}
    (h : numberAttribute? n name = some w) : w.isFixed = true := by
  unfold numberAttribute? at h
  split at h <;> cases h <;> rfl

theorem isFixed_durationAttribute {d : Duration} {name : String} {w : Value}
    (h : durationAttribute? d name = some w) : w.isFixed = true := by
  unfold durationAttribute? at h
  split at h <;> cases h <;> rfl

theorem isFixed_inner {v w : Value} {name : String} (hv : v.isFixed = true)
    (h : v.inner name = .ok w) : w.isFixed = true := by
  unfold inner at h
  split at h
  . next hinner =>
    cases h
    cases v with
    | boolean b => exact isFixed_numberAttribute hinner
    | integer n => exact isFixed_numberAttribute hinner
    | duration d => exact isFixed_durationAttribute hinner
    | float x => cases hv
    | undefined mark => cases hv
    | _ => cases hinner
  . cases h

theorem kind_refusal (v : Value) (name : String) : (v.refusal name).kind = "AttributeError" := by
  unfold refusal
  split
  . rfl
  . split
    . split <;> rfl
    . rfl
    . rfl

end Value

namespace Session

variable {s : Session} {t : Step} {steps done : List Step} {slot owner inner : Slot} {n : Nat}

theorem exists_appended_of_isFixed {v : Value} (h : v.isFixed = true) (x : Value) :
    ∃ f, appended x v = .error f ∧ f.kind = "AttributeError" := by
  cases v with
  | list items => cases h
  | _ => exact ⟨_, rfl, rfl⟩

/-- A part of the configuration of a number, or a view of what presents it. -/
inductive Presents (n : Nat) (p : Part) : Slot → Prop where
  | part : Presents n p (.config n ⟨p, 0⟩)
  | view {slot : Slot} (h : Presents n p slot) : Presents n p slot.viewed

theorem Presents.exists_views {p : Part} (h : Presents n p slot) :
    ∃ views, slot = .config n ⟨p, views⟩ := by
  induction h with
  | part => exact ⟨0, rfl⟩
  | view h ih =>
    rcases ih with ⟨views, rfl⟩
    exact ⟨views + 1, rfl⟩

/--
A step sets out to change the configuration of a number not through a view: from what is kept of it
itself, or by a path that leaks, be it from a view, from a method or from a handle.
-/
def goesAround (s : Session) (n : Nat) (t : Step) : Bool :=
  match place? t with
  | none => false
  | some (on, names) =>
    match s.slot on with
    | .ok slot => s.about? slot == some n && (isRaw slot || leaks slot names)
    | .error _ => false

/-- All that a run does to the configuration of a number it does through views. -/
def keepsToViews (n : Nat) : Session → List Step → Bool
  | _, [] => true
  | s, t :: steps => !s.goesAround n t && keepsToViews n (s.step t).2 steps

theorem WritesTo.goesAround (h : s.WritesTo t n) : s.goesAround n t = true := by
  rcases h with ⟨on, names, reach, hplace, hreached, hview⟩
  rcases reached_eq_ok_iff.mp hreached with ⟨slot, hslot, hfollow⟩
  simp only [Session.goesAround, hplace, hslot, about?_of_follow hfollow]
  rcases leaks_of_follow hfollow hview with hraw | hleaks
  . simp [hraw]
  . simp [hleaks]

theorem config_run_of_keepsToViews (hn : n < s.configs.length)
    (h : s.keepsToViews n steps = true) : (s.run steps).config n = s.config n := by
  induction steps generalizing s with
  | nil => rfl
  | cons t steps ih =>
    rw [keepsToViews, Bool.and_eq_true] at h
    have hnot : ¬ s.WritesTo t n := by
      intro hwrites
      rw [hwrites.goesAround] at h
      exact absurd h.1 (by decide)
    have hchange := change_step s t
    rw [run_cons, ih (Nat.lt_of_lt_of_le hn hchange.length_le) h.2, hchange.config_eq hn hnot]

theorem keepsToViews_of_isPrefix (hdone : done <+: steps) (h : s.keepsToViews n steps = true) :
    s.keepsToViews n done = true := by
  induction done generalizing s steps with
  | nil => rfl
  | cons t done ih =>
    rcases hdone with ⟨rest, rfl⟩
    rw [List.cons_append, keepsToViews, Bool.and_eq_true] at h
    rw [keepsToViews, Bool.and_eq_true]
    exact ⟨h.1, ih (List.prefix_append done rest) h.2⟩

theorem assignTo_of_isView (h : owner.isView = true) (s : Session) (name : String) (v : Value) :
    s.assignTo owner name v = .error (.cannotSet name) := by
  cases owner with
  | config n reach =>
    have hview : reach.isView = true := h
    simp only [assignTo, Reach.assignable, hview]
    rfl
  | handle k views | value w views | method o action views =>
    have hview : (views != 0) = true := h
    simp only [assignTo, hview]
    rfl

theorem deleteFrom_of_isView (h : owner.isView = true) (s : Session) (name : String) :
    s.deleteFrom owner name = .error (.cannotDelete name) := by
  cases owner with
  | config n reach =>
    have hview : reach.isView = true := h
    simp only [deleteFrom, Reach.deletable, hview]
    rfl
  | handle k views | value w views | method o action views =>
    have hview : (views != 0) = true := h
    simp only [deleteFrom, hview]
    rfl

theorem kind_methodRefusal (name : String) : (methodRefusal name).kind = "AttributeError" := by
  unfold methodRefusal
  split <;> rfl

theorem IsShielded.exists_assignTo (h : IsShielded owner) (s : Session) (name : String)
    (v : Value) : ∃ f, s.assignTo owner name v = .error f ∧ f.kind = "AttributeError" := by
  cases h with
  | view hview => exact ⟨.cannotSet name, assignTo_of_isView hview s name v, rfl⟩
  | value w => exact ⟨w.refusal name, rfl, w.kind_refusal name⟩
  | method o action => exact ⟨methodRefusal name, rfl, kind_methodRefusal name⟩

theorem IsShielded.exists_deleteFrom (h : IsShielded owner) (s : Session) (name : String) :
    ∃ f, s.deleteFrom owner name = .error f ∧ f.kind = "AttributeError" := by
  cases h with
  | view hview => exact ⟨.cannotDelete name, deleteFrom_of_isView hview s name, rfl⟩
  | value w => exact ⟨w.refusal name, rfl, w.kind_refusal name⟩
  | method o action => exact ⟨methodRefusal name, rfl, kind_methodRefusal name⟩

def attribute? : Step → Option (String × List String × String)
  | .assign on names name _ | .put on names name _ | .delete on names name =>
    some (on, names, name)
  | _ => none

theorem step_of_isShielded {on name : String} {names : List String}
    (ht : attribute? t = some (on, names, name)) (hreached : s.reached on names = .ok owner)
    (howner : IsShielded owner) :
    ∃ f changes, (s.step t).1 = .failed f changes ∧ f.kind = "AttributeError" := by
  rw [← reached_fresh] at hreached
  cases t with
  | assign on' names' name' v =>
    cases ht
    rcases howner.exists_assignTo s.fresh name v with ⟨f, hassign, hkind⟩
    rcases reached_eq_ok_iff.mp hreached with ⟨slot, hslot, hfollow⟩
    have hbind : (s.fresh.follow slot names).bind (fun owner => s.fresh.assignTo owner name v)
        = .error f := by
      rw [hfollow]
      exact hassign
    show ∃ f changes, (s.fresh.assign on names name v).1 = .failed f changes ∧ _
    simp only [assign, hslot, hbind]
    cases slot <;> exact ⟨f, _, rfl, hkind⟩
  | put on' names' name' v =>
    cases ht
    rcases howner.exists_assignTo s.fresh name v with ⟨f, hassign, hkind⟩
    have hbind : (s.fresh.reached on names).bind (fun owner => s.fresh.assignTo owner name v)
        = .error f := by
      rw [hreached]
      exact hassign
    show ∃ f changes, (s.fresh.put on names name v).1 = .failed f changes ∧ _
    simp only [put, hbind]
    exact ⟨f, _, rfl, hkind⟩
  | delete on' names' name' =>
    cases ht
    rcases howner.exists_deleteFrom s.fresh name with ⟨f, hdelete, hkind⟩
    have hbind : (s.fresh.reached on names).bind (fun owner => s.fresh.deleteFrom owner name)
        = .error f := by
      rw [hreached]
      exact hdelete
    show ∃ f changes, (s.fresh.delete on names name).1 = .failed f changes ∧ _
    simp only [delete, hbind]
    exact ⟨f, _, rfl, hkind⟩
  | _ => cases ht

inductive IsFixed (n : Nat) : Slot → Prop where
  | view {reach : Reach} (h : reach.isView = true) : IsFixed n (.config n reach)
  | value {v : Value} {views : Nat} (h : v.isFixed = true) : IsFixed n (.value v views)
  | method {owner : Owner} {name : String} {views : Nat} : IsFixed n (.method owner name views)

theorem IsFixed.member_view {reach : Reach} {name : String} (htyped : (s.config n).WellTyped)
    (hview : reach.isView = true) (h : s.attr (.config n reach) name = .ok inner) :
    IsFixed n inner := by
  simp only [attr] at h
  cases hreached : reach.member (s.config n) name with
  | error e =>
    rw [hreached] at h
    cases h
  | ok reached =>
    rw [hreached] at h
    cases reached with
    | action =>
      cases h
      exact .method
    | object r =>
      cases h
      exact .view ((Reach.isView_of_member hreached).trans hview)
    | value w =>
      cases h
      apply IsFixed.value
      unfold Reach.member at hreached
      rw [Except.bind_eq_ok_iff] at hreached
      rcases hreached with ⟨m, -, hreached⟩
      split at hreached
      . cases hreached
      . rcases Except.unit_bind_eq_ok_iff.mp hreached with ⟨-, hreached⟩
        split at hreached
        . next x _ =>
          cases hreached
          rw [Reach.seen, hview]
          exact Value.isFixed_shown (htyped.settings x)
        . rw [(reach.isWhole_seen htyped.toIsWhole).sections] at hreached
          cases hreached

theorem IsFixed.member {name : String} (htyped : (s.config n).WellTyped) (hslot : IsFixed n slot)
    (hname : isOpening name = false) (h : s.member slot name = .ok inner) : IsFixed n inner := by
  have htarget : name ≠ Slot.targetName := by
    rintro rfl
    rw [isOpening_targetName] at hname
    cases hname
  rw [member_eq_attr htarget] at h
  cases hslot with
  | view hview => exact .member_view htyped hview h
  | @value v views hv =>
    simp only [attr] at h
    cases hinner : v.inner name with
    | error e =>
      rw [hinner] at h
      cases h
    | ok w =>
      rw [hinner] at h
      cases h
      exact .value (Value.isFixed_inner hv hinner)
  | method =>
    have howner : name ≠ Slot.ownerName := by
      rintro rfl
      rw [isOpening_ownerName] at hname
      cases hname
    simp [attr, howner] at h

theorem isFixed_of_follow {reach : Reach} {names : List String} {v : Value} {k : Nat}
    (htyped : (s.config n).WellTyped) (hview : reach.isView = true)
    (hnames : names.any isOpening = false)
    (h : s.follow (.config n reach) names = .ok (.value v k)) : v.isFixed = true := by
  have hfixed : IsFixed n (.value v k) := by
    apply follow_of_members h (.view hview)
    intro name hname x y hx hmember
    exact hx.member htyped (by simpa using List.any_eq_false.mp hnames name hname) hmember
  cases hfixed with
  | value h => exact h

/--
By names that open nothing, what is reached through a view cannot be assigned to or deleted from,
and what is reached through a view of the configuration of a number is a view, a method, or a value
that cannot be changed or added to.
-/
structure Shields (s : Session) (n : Nat) : Prop where
  refuses : ∀ t on names name slot owner, attribute? t = some (on, names, name) →
    s.slot on = .ok slot → slot.isView = true → names.any isOpening = false →
    s.reached on names = .ok owner →
    ∃ f changes, (s.step t).1 = .failed f changes ∧ f.kind = "AttributeError"
  isFixed : ∀ on names reach v views, s.slot on = .ok (.config n reach) → reach.isView = true →
    names.any isOpening = false → s.reached on names = .ok (.value v views) → v.isFixed = true
  append : ∀ on names reach v views x, s.slot on = .ok (.config n reach) → reach.isView = true →
    names.any isOpening = false → s.reached on names = .ok (.value v views) →
    ∃ f, appended x v = .error f ∧ f.kind = "AttributeError"

theorem shields_of_wellTyped (htyped : (s.config n).WellTyped) : s.Shields n := by
  have hfixed : ∀ on names reach v views, s.slot on = .ok (.config n reach) →
      reach.isView = true → names.any isOpening = false →
      s.reached on names = .ok (.value v views) → v.isFixed = true := by
    intro on names reach v views hslot hview hnames hreached
    rw [reached_eq hslot] at hreached
    exact isFixed_of_follow htyped hview hnames hreached
  constructor
  . intro t on names name slot owner ht hslot hview hnames hreached
    have hshielded : IsShielded slot := .view hview
    have hfollow := hreached
    rw [reached_eq hslot] at hfollow
    exact step_of_isShielded ht hreached (hshielded.follow hnames hfollow)
  . exact hfixed
  . intro on names reach v views x hslot hview hnames hreached
    exact exists_appended_of_isFixed (hfixed on names reach v views hslot hview hnames hreached) x

/-- A setting of the configuration of a number can be assigned to and deleted through a path. -/
structure Exposes (s : Session) (n : Nat) (on : String) (names : List String) (setting : Setting) :
    Prop where
  assign : ∀ v, s.step (.put on names setting.name v) =
    (.done, s.fresh.setConfig n ((s.config n).set setting v))
  delete : s.step (.delete on names setting.name) =
    (.done, s.fresh.setConfig n ((s.config n).remove (.setting setting)))

theorem exposes_of_reached {on : String} {names : List String} {reach : Reach} {setting : Setting}
    (hreached : s.reached on names = .ok (.config n reach)) (hpart : reach.part = setting.owner)
    (hview : reach.isView = false) (hlacks : (s.config n).lacks (.setting setting) = false) :
    s.Exposes n on names setting := by
  have hfield : reach.field setting.name = .ok (.setting setting) := by
    rw [Reach.field, Part.member_of_owner hpart.symm]
    rfl
  have hassignable : reach.assignable setting.name = .ok (.setting setting) := by
    simp [Reach.assignable, hview, hfield]
  have hdeletable : reach.deletable (s.config n) setting.name = .ok (.setting setting) := by
    simp [Reach.deletable, hview, hfield, hlacks]
  constructor
  . intro v
    show s.fresh.put on names setting.name v = _
    rw [put, reached_fresh, hreached]
    simp only [Except.bind, assignTo, hassignable]
    rfl
  . show s.fresh.delete on names setting.name = _
    rw [delete, reached_fresh, hreached]
    simp only [Except.bind, deleteFrom, show s.fresh.config n = s.config n from rfl, hdeletable]
    rfl

/--
The names that open views and methods lead through any number of views of the configuration of a
number to itself, and every setting of it can be assigned to and deleted there.
-/
structure Opens (s : Session) (n : Nat) : Prop where
  target : ∀ on p views setting, s.slot on = .ok (.config n ⟨p, views⟩) → setting ∈ p.settings →
    s.Exposes n on (List.replicate views Slot.targetName ++ p.wayToOwner setting) setting
  owner : ∀ on views action setting, s.slot on = .ok (.config n ⟨none, views⟩) →
    action ∈ Part.actions none →
    s.Exposes n on ([action, Slot.ownerName] ++ Part.wayToOwner none setting) setting

theorem opens_of_isWhole (h : (s.config n).IsWhole) : s.Opens n := by
  constructor
  . intro on p views setting hslot hsetting
    rcases @follow_wayToOwner s n ⟨p, 0⟩ setting hsetting (h.has p setting).owner with
      ⟨r, hfollow, hpart, hview⟩
    apply exposes_of_reached _ hpart hview (h.fields _)
    rw [reached_eq hslot, follow_append, follow_targets]
    exact hfollow
  . intro on views action setting hslot haction
    rcases @follow_wayToOwner s n {} setting setting.mem_all (h.has none setting).owner with
      ⟨r, hfollow, hpart, hview⟩
    apply exposes_of_reached _ hpart hview (h.fields _)
    rw [reached_eq hslot, follow_append, follow_owner s n views haction]
    exact hfollow

/--
Whatever a run does through views of a configuration, and to other configurations, the configuration
stays as it is, and all that is tried through a view is refused, as long as no name is used that
opens views or methods. Through what a view is of, or the owner of a method, the configuration is
open to assignment and deletion.
-/
theorem views_change_nothing (hn : n < s.configs.length) (htyped : (s.config n).WellTyped)
    (h : s.keepsToViews n steps = true) :
    ∀ done, done <+: steps →
      (s.run done).config n = s.config n ∧ (s.run done).Shields n ∧ (s.run done).Opens n := by
  intro done hdone
  have hconfig := config_run_of_keepsToViews hn (keepsToViews_of_isPrefix hdone h)
  rw [← hconfig] at htyped
  exact ⟨hconfig, shields_of_wellTyped htyped, opens_of_isWhole htyped.toIsWhole⟩

def viewSteps : List Step :=
  [.new "a", .view "a" "v", .view "v" "w", .sect "w" "network" "n"]

def viewedTwice : Session :=
  run { files := .empty } viewSteps

def attempts : List Step :=
  [.put "w" ["network"] "max_peers" (.integer 7), .assign "n" [] "bootstrap_peers" (.list []),
    .delete "v" ["storage"] "data_dir", .appendPeer "v" (.text "p"),
    .setKey "w" "max_peers" (.integer 7),
    .overlay "v" (.map [(.text "environment", .text "production")]), .copy "v" "c",
    .appendPeer "c" (.text "p"), .assign "c" ["network"] "max_peers" (.integer 7)]

theorem views_change_nothing_attempts :
    0 < viewedTwice.configs.length ∧ (viewedTwice.config 0).WellTyped
      ∧ viewedTwice.keepsToViews 0 attempts = true
      ∧ (viewedTwice.run attempts).config 0 = viewedTwice.config 0
      ∧ (viewedTwice.run attempts).Shields 0
      ∧ ((viewedTwice.run attempts).step (.put "w" [Slot.targetName, Slot.targetName] "environment"
          (.text "x"))).1 = .done
      ∧ (((viewedTwice.run attempts).step (.put "w" ["copy", Slot.ownerName, "network"] "max_peers"
          (.integer 7))).2.config 0).get .maxPeers = .integer 7
      ∧ (((viewedTwice.run attempts).step (.delete "v" [Slot.targetName] "environment")).2.config
          0).lacks (.setting .environment) = true := by
  have hthere : 0 < viewedTwice.configs.length := by decide +kernel
  have htyped : (viewedTwice.config 0).WellTyped :=
    Aggregate.wellTyped_coe Config.wellTyped_default
  have hkeeps : viewedTwice.keepsToViews 0 attempts = true := by decide +kernel
  have hviews := views_change_nothing hthere htyped hkeeps attempts (List.prefix_refl attempts)
  rcases hviews with ⟨hconfig, hshields, hopens⟩
  have hview : (viewedTwice.run attempts).slot "w" = .ok (.config 0 ⟨none, 2⟩) := rfl
  have hother : (viewedTwice.run attempts).slot "v" = .ok (.config 0 ⟨none, 1⟩) := rfl
  have htarget := (hopens.target "w" none 2 .environment hview (Setting.mem_all _)).assign
  have howner := (hopens.owner "w" 2 "copy" .maxPeers hview (.head _)).assign (.integer 7)
  have hdelete := (hopens.target "v" none 1 .environment hother (Setting.mem_all _)).delete
  refine ⟨hthere, htyped, hkeeps, hconfig, hshields, ?_, ?_, ?_⟩
  . exact congrArg Prod.fst (htarget (.text "x"))
  . rw [show ["copy", Slot.ownerName, "network"] =
      ["copy", Slot.ownerName] ++ Part.wayToOwner none .maxPeers from rfl]
    rw [show "max_peers" = Setting.name .maxPeers from rfl, howner]
    rfl
  . rw [show [Slot.targetName] =
      List.replicate 1 Slot.targetName ++ Part.wayToOwner none .environment from rfl]
    rw [show "environment" = Setting.name .environment from rfl, hdelete]
    rfl

end Session
end NodeSettings
