import NodeSettings.Proofs.Session.Handle

/-!
This module contains that the configurations of a session are independent of each other, and that a
view stays with the configuration it was made of.
-/

namespace NodeSettings

namespace Session

variable {s : Session} {t : Step} {steps later : List Step} {slot : Slot} {n : Nat}
variable {reach : Reach} {setting : Setting}

theorem step_get {on : String} {names : List String} {v : Value}
    (h : s.reached on names = .ok (.value v 0)) :
    (s.step (.get on names)).1 = .value (.value v) := by
  show (s.fresh.get on names).1 = _
  unfold get
  rw [reached_fresh, h]
  rfl

theorem step_get_wayTo {name : String} (hslot : s.slot name = .ok (.config n reach))
    (h : setting ∈ reach.part.settings)
    (hthere : (s.config n).Has reach.part setting) :
    (s.step (.get name (reach.part.wayTo setting))).1
      = .value (.value ((reach.seen (s.config n)).get setting)) := by
  apply step_get
  rw [reached_eq hslot]
  exact follow_wayTo h hthere

theorem step_get_section {name : String} {views : Nat} {x : Section} {v : Value}
    (hslot : s.slot name = .ok (.config n ⟨none, views⟩))
    (hlacks : (s.config n).lacks (.sect x) = false)
    (h : (Reach.seen ⟨none, views⟩ (s.config n)).inPlace x = some v) :
    (s.step (.get name [x.name])).1 = .value (.value v) := by
  apply step_get
  rw [reached_eq hslot, Session.follow, member_config s n (Part.member_section x), attr,
    Reach.member_section views hlacks, Reach.sectionReached, h]
  rfl

theorem step_get_lacking {name : String} {f : Field} (hslot : s.slot name = .ok (.config n reach))
    (hf : f ∈ reach.part.fields) (hlacks : (s.config n).lacks f = true) :
    (s.step (.get name [f.name])).1 =
      .failed (.noAttribute reach.part.typeName f.name) none := by
  have hmember := Part.member_of_mem_fields hf
  have hneed : (s.config n).need f = .error (.noAttribute reach.part.typeName f.name) := by
    rw [Aggregate.need, if_pos hlacks, Part.part_of_mem_fields hf]
    rfl
  have hreached : s.fresh.reached name [f.name] =
      .error (.noAttribute reach.part.typeName f.name) := by
    rw [reached_fresh, reached_eq hslot, Session.follow, member_config s n hmember, attr,
      Reach.member, hmember, Except.ok_bind]
    dsimp only
    rw [hneed]
    rfl
  show (s.fresh.get name [f.name]).1 = _
  rw [get, hreached]
  rfl

theorem step_view {on : String} (hslot : s.slot on = .ok slot) (dest : String) :
    (s.step (.view on dest)).2.slot dest = .ok slot.viewed := by
  show (s.fresh.view on dest).2.slot dest = _
  simp only [view, slot_fresh, hslot]
  apply slot_keep_self

def Produces (s : Session) (t : Step) (n : Nat) : Prop :=
  n = s.nextNumber ∧ (s.step t).2.configs.length = n + 1

/--
A name stands for the configuration of a number, for a handle that it is active in, or for a method
of one of them.
-/
def Holds (s : Session) (name : String) (n : Nat) : Prop :=
  ∃ slot, s.slot name = .ok slot ∧ s.about? slot = some n

def Spares (s : Session) (t : Step) (n : Nat) : Prop :=
  ∀ on names, place? t = some (on, names) → ¬ s.Holds on n

theorem Produces.lt_run (h : s.Produces t n) (later : List Step) :
    n < ((s.step t).2.run later).configs.length := by
  apply Nat.lt_of_lt_of_le _ (length_configs_run _ later)
  rw [h.2]
  exact Nat.lt_succ_self n

theorem Produces.ne {u : Step} {m : Nat} (h : s.Produces t n)
    (hu : ((s.step t).2.run later).Produces u m) : n ≠ m := by
  rw [hu.1]
  exact Nat.ne_of_lt (h.lt_run later)

theorem produces_of_makes? {dest : String} {changes : Changes} (ht : makes? t = some dest)
    (h : (s.step t).1 = .changed changes) : s.Produces t s.nextNumber := by
  refine ⟨rfl, ?_⟩
  have hmakes := makes_step (s := s) ht
  generalize s.step t = out at h hmakes ⊢
  cases hmakes with
  | fails hhas => cases h
  | @adds c s' hhas =>
    show s'.configs.length = _
    simp [hhas.configs, nextNumber]

theorem WritesTo.holds {on : String} {names : List String} (h : s.WritesTo t n)
    (hplace : place? t = some (on, names)) : s.Holds on n := by
  rcases h with ⟨on', names', reach, hplace', hreached, -⟩
  rw [hplace] at hplace'
  cases hplace'
  rcases reached_eq_ok_iff.mp hreached with ⟨slot, hslot, hfollow⟩
  exact ⟨slot, hslot, about?_of_follow hfollow⟩

theorem Spares.not_writesTo (h : s.Spares t n) : ¬ s.WritesTo t n := by
  intro hwrites
  have hwrites' := hwrites
  rcases hwrites' with ⟨on, names, reach, hplace, -⟩
  exact h on names hplace (hwrites.holds hplace)

theorem Holds.unique {name : String} {m : Nat} (hm : s.Holds name m) (hn : s.Holds name n) :
    m = n := by
  rcases hm with ⟨slot, hslot, hm⟩
  rcases hn with ⟨slot', hslot', hn⟩
  rw [hslot] at hslot'
  cases hslot'
  rw [hm] at hn
  exact Option.some.inj hn

def shownAs (reach : Reach) (v : Value) : Value :=
  if reach.isView then v.shown else v

/--
A name shows what the settings of a part of a configuration hold now, and what has been put in place
of its sections, and fails to show what has been deleted. A view shows lists as fixed.
-/
structure Shows (s : Session) (name : String) (n : Nat) (reach : Reach) : Prop where
  settings : ∀ setting ∈ reach.part.settings, (s.config n).Has reach.part setting →
    (s.step (.get name (reach.part.wayTo setting))).1
      = .value (.value (shownAs reach ((s.config n).get setting)))
  sections : ∀ x v, reach.part = none → (s.config n).lacks (.sect x) = false →
    (s.config n).inPlace x = some v →
    (s.step (.get name [x.name])).1 = .value (.value (shownAs reach v))
  lacking : ∀ f ∈ reach.part.fields, (s.config n).lacks f = true →
    (s.step (.get name [f.name])).1 = .failed (.noAttribute reach.part.typeName f.name) none

theorem shows_of_slot {name : String} (hslot : s.slot name = .ok (.config n reach)) :
    s.Shows name n reach := by
  constructor
  . intro setting hsetting hthere
    rw [step_get_wayTo hslot hsetting hthere, Reach.seen, shownAs]
    cases reach.isView with
    | true => rfl
    | false => rfl
  . intro x v hpart hlacks hv
    rcases reach with ⟨part, views⟩
    cases hpart
    apply step_get_section hslot hlacks
    unfold Reach.seen shownAs
    split
    . show ((s.config n).inPlace x).map Value.shown = _
      rw [hv]
      rfl
    . exact hv
  . intro f hf hlacks
    exact step_get_lacking hslot hf hlacks

/--
From here on every step that makes a configuration makes one of its own, which changes only by a
step that writes from a name that holds it. A view is of the configuration that its name had when it
was made, and shows what that holds now, whatever becomes of the name.
-/
structure KeepsApart (s : Session) : Prop where
  makes : ∀ t dest, makes? t = some dest → s.Makes dest (s.step t)
  produces : ∀ t dest changes, makes? t = some dest → (s.step t).1 = .changed changes →
    s.Produces t s.nextNumber
  distinct : ∀ t n later u m, s.Produces t n → ((s.step t).2.run later).Produces u m → n ≠ m
  holds : ∀ name m n, s.Holds name m → s.Holds name n → m = n
  spared : ∀ t n later u, s.Produces t n → ((s.step t).2.run later).Spares u n →
    (((s.step t).2.run later).step u).2.config n = ((s.step t).2.run later).config n
  viewed : ∀ on dest n reach, s.slot on = .ok (.config n reach) →
    (s.step (.view on dest)).2.slot dest = .ok (.config n ⟨reach.part, reach.views + 1⟩)
  active : ∀ on dest k views, s.slot on = .ok (.handle k views) →
    (s.step (.handleView on dest)).2.slot dest = .ok (.config (s.handleAt k).active ⟨none, 1⟩)
  follows : ∀ name n reach later, s.slot name = .ok (.config n reach) →
    (∀ t ∈ later, dest? t ≠ some name) → (s.run later).Shows name n reach

theorem run_keepsApart (start : Session) (steps : List Step) : (start.run steps).KeepsApart := by
  constructor
  . intro t dest ht
    exact makes_step ht
  . intro t dest changes ht h
    exact produces_of_makes? ht h
  . intro t n later u m h hu
    exact h.ne hu
  . intro name m n hm hn
    exact hm.unique hn
  . intro t n later u h hspares
    exact (change_step _ u).config_eq (h.lt_run later) hspares.not_writesTo
  . intro on dest n reach hslot
    exact step_view hslot dest
  . intro on dest k views hslot
    exact (step_handleView hslot dest).2
  . intro name n reach later hslot hlater
    apply shows_of_slot
    rw [slot_run hlater, hslot]

def reassignments : List Step :=
  [.assign "a" ["network"] "max_peers" (.integer 7), .new "a",
    .assign "a" ["network"] "max_peers" (.integer 9)]

theorem run_keepsApart_reassigned :
    ((viewedTwice.run reassignments).step (.get "w" ["network", "max_peers"])).1
        = .value (.value (.integer 7))
      ∧ ((viewedTwice.run reassignments).step (.get "a" ["network", "max_peers"])).1
        = .value (.value (.integer 9)) := by
  have hother : ∀ t ∈ reassignments, dest? t ≠ some "w" := by decide
  have hview := (run_keepsApart { files := .empty } viewSteps).follows "w" 0 ⟨none, 2⟩ _ rfl hother
  have hname := (run_keepsApart viewedTwice reassignments).follows "a" 1 {} [] rfl (by simp)
  exact ⟨hview.settings .maxPeers (Setting.mem_all _) ⟨fun _ _ _ => ⟨rfl, rfl⟩, rfl⟩,
    hname.settings .maxPeers (Setting.mem_all _) ⟨fun _ _ _ => ⟨rfl, rfl⟩, rfl⟩⟩

end Session
end NodeSettings
