import NodeSettings.Proofs.Gather
import NodeSettings.Proofs.Session.Change

/-!
This module contains what attributes lead to. Whatever they lead to of a configuration, they do not
lead to another one, and from a view they lead to views, values and methods only, unless they ask a
view for what it is of or a method for its owner.
-/

namespace NodeSettings

namespace Part

def wayToOwner (p : Part) (s : Setting) : List String :=
  match p, s.owner with
  | none, some x => [x.name]
  | _, _ => []

def wayTo (p : Part) (s : Setting) : List String :=
  p.wayToOwner s ++ [s.name]

end Part

theorem Reach.seen_congr {r q : Reach} (h : r.isView = q.isView) (a : Aggregate) :
    r.seen a = q.seen a := by
  rw [seen, h, seen]

namespace Session

variable {s : Session} {slot inner : Slot} {name : String} {names : List String} {n k : Nat}
variable {reach : Reach} {setting : Setting}

inductive IsMember (s : Session) (name : String) : Slot → Slot → Prop where
  | part {n : Nat} {reach inner : Reach} (h : inner.isView = reach.isView) :
    IsMember s name (.config n reach) (.config n inner)
  | value {slot : Slot} {v : Value} : IsMember s name slot (.value v 0)
  | action {n : Nat} {reach : Reach} :
    IsMember s name (.config n reach) (.method (.config n) name 0)
  | handleAction {k views : Nat} :
    IsMember s name (.handle k views) (.method (.handle k) name 0)
  | active {k views : Nat} :
    IsMember s name (.handle k views) (.config (s.handleAt k).active ⟨none, 1⟩)
  | own {k views : Nat} (h : name = Handle.activeName) :
    IsMember s name (.handle k views) (.config (s.handleAt k).active ⟨none, min views 1⟩)
  | owner {owner : Owner} {action : String} {views : Nat} (h : name = Slot.ownerName) :
    IsMember s name (.method owner action views) (owner.slot views)
  | target {slot inner : Slot} (h : name = Slot.targetName) (htarget : slot.target? = some inner) :
    IsMember s name slot inner

theorem isMember_of_attr (h : s.attr slot name = .ok inner) : s.IsMember name slot inner := by
  cases slot with
  | config n reach =>
    simp only [attr] at h
    cases hreached : reach.member (s.config n) name with
    | error e =>
      rw [hreached] at h
      cases h
    | ok reached =>
      rw [hreached] at h
      cases reached with
      | object r =>
        cases h
        exact .part (Reach.isView_of_member hreached)
      | value v =>
        cases h
        exact .value
      | action =>
        cases h
        exact .action
  | handle k views =>
    simp only [attr] at h
    split at h
    . cases h
      exact .active
    . split at h
      . next hname =>
        cases h
        exact .own hname
      . split at h
        . cases h
          exact .handleAction
        . cases h
  | value v views =>
    simp only [attr] at h
    cases hinner : v.inner name with
    | error e =>
      rw [hinner] at h
      cases h
    | ok w =>
      rw [hinner] at h
      cases h
      exact .value
  | method owner action views =>
    simp only [attr] at h
    split at h
    . next hname =>
      cases h
      exact .owner hname
    . cases h

theorem member_of_target (h : slot.target? = some inner) :
    s.member slot Slot.targetName = .ok inner := by
  rw [member, h]
  exact if_pos rfl

theorem member_eq_attr (h : name ≠ Slot.targetName) : s.member slot name = s.attr slot name := by
  unfold member
  split
  . exact if_neg h
  . rfl

theorem isMember_of_member (h : s.member slot name = .ok inner) : s.IsMember name slot inner := by
  unfold member at h
  split at h
  . next target htarget =>
    split at h
    . next hname =>
      cases h
      exact .target hname htarget
    . exact isMember_of_attr h
  . exact isMember_of_attr h

theorem follow_of_members {P : Slot → Prop} (h : s.follow slot names = .ok inner) (hslot : P slot)
    (hmember : ∀ name ∈ names, ∀ slot inner, P slot → s.member slot name = .ok inner → P inner) :
    P inner := by
  induction names generalizing slot with
  | nil =>
    cases h
    exact hslot
  | cons name names ih =>
    unfold Session.follow at h
    cases hfound : s.member slot name with
    | error e => simp [hfound] at h
    | ok found =>
      rw [hfound] at h
      apply ih h
      . exact hmember name (.head _) _ _ hslot hfound
      . intro other hother
        exact hmember other (.tail _ hother)

def ownerNumber (s : Session) : Owner → Nat
  | .config n => n
  | .handle k => (s.handleAt k).active

/-- The number of the configuration that something belongs to, or that is active in it. -/
def about? (s : Session) : Slot → Option Nat
  | .config n _ => some n
  | .handle k _ => some (s.handleAt k).active
  | .method owner _ _ => some (s.ownerNumber owner)
  | .value .. => none

theorem IsMember.about?_eq (h : s.IsMember name slot inner) :
    s.about? inner = none ∨ s.about? inner = s.about? slot := by
  cases h with
  | value => exact .inl rfl
  | part | action | handleAction | active | own => exact .inr rfl
  | @owner owner action views hname => cases owner <;> exact .inr rfl
  | target hname htarget =>
    unfold Slot.target? at htarget
    split at htarget <;> cases htarget <;> exact .inr rfl

theorem about?_of_follow {reach : Reach} (h : s.follow slot names = .ok (.config n reach)) :
    s.about? slot = some n := by
  have habout : s.about? (.config n reach) = none
      ∨ s.about? (.config n reach) = s.about? slot := by
    apply follow_of_members (P := fun x => s.about? x = none ∨ s.about? x = s.about? slot) h
      (.inr rfl)
    intro name _ x y hx hmember
    rcases (isMember_of_member hmember).about?_eq with hy | hy
    . exact .inl hy
    . rwa [hy]
  simpa [about?, eq_comm] using habout

/--
A name under which a view gives what it is of, or one in double underscores, as methods have for
their owners and everything has for its class and the like.
-/
def isOpening (name : String) : Bool :=
  name == Slot.targetName || name.toList.take 2 == ['_', '_']

theorem isOpening_targetName : isOpening Slot.targetName = true := by
  decide +kernel

theorem isOpening_ownerName : isOpening Slot.ownerName = true := by
  decide +kernel

/-- A view, or a value or a method that something has under a name. -/
inductive IsShielded : Slot → Prop where
  | view {slot : Slot} (h : slot.isView = true) : IsShielded slot
  | value (v : Value) : IsShielded (.value v 0)
  | method (owner : Owner) (name : String) : IsShielded (.method owner name 0)

theorem not_isShielded_config {reach : Reach} (hview : reach.isView = false) :
    ¬ IsShielded (.config n reach) := by
  rintro (h | v | ⟨owner, action⟩)
  exact absurd (hview.symm.trans h) (by decide)

theorem IsMember.isShielded (h : s.IsMember name slot inner) (hslot : IsShielded slot)
    (hname : isOpening name = false) : IsShielded inner := by
  cases h with
  | part hview =>
    cases hslot with
    | view hslot => exact .view (hview.trans hslot)
  | value => exact .value _
  | action | handleAction => exact .method _ _
  | active => exact .view rfl
  | @own k views hprivate =>
    cases hslot with
    | view hslot =>
      have hviews : min views 1 = 1 := by
        have hne : views ≠ 0 := by simpa [Slot.isView] using hslot
        omega
      rw [hviews]
      exact .view rfl
  | owner howner => simp [howner, isOpening_ownerName] at hname
  | target htarget => simp [htarget, isOpening_targetName] at hname

theorem IsShielded.follow (hslot : IsShielded slot) (hnames : names.any isOpening = false)
    (h : s.follow slot names = .ok inner) : IsShielded inner := by
  apply follow_of_members h hslot
  intro name hname x y hx hmember
  exact (isMember_of_member hmember).isShielded hx
    (by simpa using List.any_eq_false.mp hnames name hname)

/-- A configuration itself, or a part of it, behind no view. -/
def isRaw : Slot → Bool
  | .config _ reach => !reach.isView
  | _ => false

/--
A path may lead to more than views although it begins at something else than a configuration: it
has a name in it that opens views or methods, or it begins at a handle and does not go on to a view
or a method of it.
-/
def leaks (slot : Slot) (names : List String) : Bool :=
  names.any isOpening ||
    match slot with
    | .handle _ 0 => names.head?.all (· == Handle.activeName)
    | _ => false

theorem head?_of_follow_handle {reach : Reach}
    (h : s.follow (.handle k 0) names = .ok (.config n reach)) (hview : reach.isView = false)
    (hnames : names.any isOpening = false) : names.head? = some Handle.activeName := by
  cases names with
  | nil => cases h
  | cons name names =>
    rw [List.any_cons, Bool.or_eq_false_iff] at hnames
    unfold Session.follow at h
    cases hmember : s.member (.handle k 0) name with
    | error e => simp [hmember] at h
    | ok inner =>
      rw [hmember] at h
      -- What is not private is a view, a value or a method, and these lead to nothing else.
      have hnot : ¬ IsShielded inner := fun hshielded =>
        not_isShielded_config hview (hshielded.follow hnames.2 h)
      cases isMember_of_member hmember with
      | active => exact absurd (.view rfl) hnot
      | own hname => rw [hname, List.head?_cons]
      | value => exact absurd (.value _) hnot
      | handleAction => exact absurd (.method _ _) hnot
      | target hname htarget => cases htarget

/-- Only from a configuration itself, or by a path that leaks, a configuration itself is reached. -/
theorem leaks_of_follow {reach : Reach} (h : s.follow slot names = .ok (.config n reach))
    (hview : reach.isView = false) : isRaw slot = true ∨ leaks slot names = true := by
  cases hnames : names.any isOpening with
  | true => exact .inr (by simp [leaks, hnames])
  | false =>
    have hnot : ¬ IsShielded slot := fun hshielded =>
      not_isShielded_config hview (hshielded.follow hnames h)
    cases slot with
    | config m r =>
      left
      cases hr : r.isView with
      | true => exact absurd (.view hr) hnot
      | false => simp [isRaw, hr]
    | handle k views =>
      right
      cases views with
      | zero => simp [leaks, head?_of_follow_handle h hview hnames]
      | succ views => exact absurd (.view rfl) hnot
    | value v views =>
      cases views with
      | zero => exact absurd (.value v) hnot
      | succ views => exact absurd (.view rfl) hnot
    | method owner action views =>
      cases views with
      | zero => exact absurd (.method owner action) hnot
      | succ views => exact absurd (.view rfl) hnot

theorem follow_append (s : Session) (slot : Slot) (names more : List String) :
    s.follow slot (names ++ more) = (s.follow slot names).bind (s.follow · more) := by
  induction names generalizing slot with
  | nil => rfl
  | cons name names ih =>
    rw [List.cons_append, Session.follow, Session.follow]
    cases s.member slot name with
    | error e => rfl
    | ok inner => exact ih inner

theorem ne_targetName_of_member {p : Part} {m : Member} (h : p.member name = .ok m) :
    name ≠ Slot.targetName := by
  rintro rfl
  revert h
  rcases p with _ | x
  . nofun
  . cases x <;> nofun

theorem member_config (s : Session) (n : Nat) {m : Member} (h : reach.part.member name = .ok m) :
    s.member (.config n reach) name = s.attr (.config n reach) name :=
  member_eq_attr (ne_targetName_of_member h)

theorem member_section {views : Nat} {x : Section} (hlacks : (s.config n).lacks (.sect x) = false)
    (h : (s.config n).inPlace x = none) :
    s.member (.config n ⟨none, views⟩) x.name
      = .ok (.config n ⟨some x, if views != 0 then 1 else 0⟩) := by
  rw [member_config s n (Part.member_section x), attr, Reach.member_section views hlacks,
    Reach.sectionReached, Reach.inPlace_seen_eq_none_iff.mpr h]
  rfl

theorem member_setting (h : setting.owner = reach.part)
    (hlacks : (s.config n).lacks (.setting setting) = false) :
    s.member (.config n reach) setting.name
      = .ok (.value ((reach.seen (s.config n)).get setting) 0) := by
  rw [member_config s n (Part.member_of_owner h), attr, Reach.member_of_owner h hlacks]
  rfl

theorem follow_wayToOwner (h : setting ∈ reach.part.settings)
    (hthere : (s.config n).HasOwner reach.part setting) :
    ∃ r, s.follow (.config n reach) (reach.part.wayToOwner setting) = .ok (.config n r)
      ∧ r.part = setting.owner ∧ r.isView = reach.isView := by
  rcases reach with ⟨part, views⟩
  cases part with
  | some x => exact ⟨_, rfl, (Setting.owner_eq_some_iff.mpr h).symm, rfl⟩
  | none =>
    have hthere := hthere rfl
    simp only [Part.wayToOwner]
    cases howner : setting.owner with
    | none => exact ⟨_, rfl, rfl, rfl⟩
    | some x =>
      rcases hthere x howner with ⟨hlacks, hplace⟩
      simp only [Session.follow, member_section hlacks hplace]
      refine ⟨_, rfl, rfl, ?_⟩
      cases hviews : views != 0 with
      | true => simp [Reach.isView, hviews]
      | false => simp [Reach.isView, hviews]

theorem follow_wayTo (h : setting ∈ reach.part.settings)
    (hthere : (s.config n).Has reach.part setting) :
    s.follow (.config n reach) (reach.part.wayTo setting)
      = .ok (.value ((reach.seen (s.config n)).get setting) 0) := by
  rcases follow_wayToOwner h hthere.owner with ⟨r, hfollow, hpart, hview⟩
  rw [Part.wayTo, follow_append, hfollow]
  show s.follow (.config n r) [setting.name] = _
  rw [Session.follow, member_setting hpart.symm hthere.field, Reach.seen_congr hview]
  rfl

theorem follow_targets (s : Session) (n : Nat) (p : Part) (views : Nat) :
    s.follow (.config n ⟨p, views⟩) (List.replicate views Slot.targetName) =
      .ok (.config n ⟨p, 0⟩) := by
  induction views with
  | zero => rfl
  | succ views ih =>
    rw [List.replicate_succ, Session.follow, member_of_target rfl]
    exact ih

theorem member_action (s : Session) (n views : Nat) {action : String}
    (h : action ∈ Part.actions none) :
    s.member (.config n ⟨none, views⟩) action = .ok (.method (.config n) action 0) := by
  have hactions : ∀ action ∈ Part.actions none,
      Part.member none action = .ok .action ∧ action ≠ Slot.targetName := by
    decide
  rcases hactions action h with ⟨hmember, hne⟩
  have hattr : s.attr (.config n ⟨none, views⟩) action = .ok (.method (.config n) action 0) := by
    rw [attr, Reach.member, hmember]
    rfl
  rw [member_eq_attr hne, hattr]

theorem follow_owner (s : Session) (n views : Nat) {action : String}
    (h : action ∈ Part.actions none) :
    s.follow (.config n ⟨none, views⟩) [action, Slot.ownerName] = .ok (.config n {}) := by
  rw [Session.follow, member_action s n views h]
  rfl

end Session
end NodeSettings
