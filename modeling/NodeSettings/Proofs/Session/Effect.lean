import NodeSettings.Proofs.Session.Frame
import NodeSettings.Proofs.Session.Reached

/-!
This module contains what a step of a session can do when all that is kept is there and a
configuration is only written through a name that owns it. Everything that holds of runs of sessions
follows from this.
-/

namespace NodeSettings
namespace Session

variable {s s' : Session} {t : Step} {slot inner : Slot} {k n : Nat} {c : Aggregate}

def IsOwned (s : Session) (n : Nat) : Prop :=
  ∃ name reach, (name, .config n reach) ∈ s.slots ∧ reach.isView = false

def IsThere (s : Session) : Slot → Prop
  | .config n _ | .method (.config n) .. => n < s.configs.length
  | .handle k _ | .method (.handle k) .. => k < s.handles.length
  | .value .. => True

structure Offers (s : Session) (slot : Slot) : Prop where
  isThere : s.IsThere slot
  owned : ∀ n reach, slot = .config n reach → reach.isView = false → s.IsOwned n

theorem Offers.view {slot : Slot} (h : s.IsThere slot) (hview : slot.isView = true) :
    s.Offers slot := by
  refine ⟨h, ?_⟩
  rintro n reach rfl hraw
  exact absurd (hraw.symm.trans hview) (by decide)

structure IsClosed (s : Session) : Prop where
  slots : ∀ name slot, (name, slot) ∈ s.slots → s.Offers slot
  handles : ∀ h ∈ s.handles, h.active < s.configs.length

theorem IsClosed.offers {name : String} (hs : s.IsClosed) (h : s.slot name = .ok slot) :
    s.Offers slot :=
  hs.slots name slot (exists_mem_of_slot h)

theorem handleAt_eq_getElem (h : k < s.handles.length) : s.handleAt k = s.handles[k] := by
  rw [handleAt, List.getD_eq_getElem?_getD, List.getElem?_eq_getElem h]
  rfl

theorem handleAt_mem (h : k < s.handles.length) : s.handleAt k ∈ s.handles := by
  rw [handleAt_eq_getElem h]
  apply List.getElem_mem

theorem IsClosed.active_lt (hs : s.IsClosed) (h : k < s.handles.length) :
    (s.handleAt k).active < s.configs.length :=
  hs.handles _ (handleAt_mem h)

theorem IsMember.isThere {name : String} (h : s.IsMember name slot inner) (hs : s.IsClosed)
    (hslot : s.IsThere slot) : s.IsThere inner := by
  cases h with
  | part | action | handleAction => exact hslot
  | value => trivial
  | active | own => exact hs.active_lt hslot
  | @owner owner action views hname => cases owner <;> exact hslot
  | target hname htarget =>
    unfold Slot.target? at htarget
    split at htarget
    . cases htarget
      exact hslot
    . cases htarget
      exact hslot
    . cases htarget
      trivial
    . next owner action views =>
      cases htarget
      cases owner <;> exact hslot
    . cases htarget

theorem Offers.follow {names : List String} (hs : s.IsClosed) (hslot : s.Offers slot)
    (hnames : isRaw slot = true ∨ leaks slot names = false) (h : s.follow slot names = .ok inner) :
    s.Offers inner := by
  constructor
  . apply follow_of_members h hslot.isThere
    intro name _ x y hx hmember
    exact (isMember_of_member hmember).isThere hs hx
  . rintro n reach rfl hview
    have hraw : isRaw slot = true := by
      rcases leaks_of_follow h hview with hraw | hleaks
      . exact hraw
      . exact hnames.resolve_right (by simp [hleaks])
    have habout := about?_of_follow h
    unfold isRaw at hraw
    split at hraw
    . cases habout
      exact hslot.owned n _ rfl (by simpa using hraw)
    . cases hraw

def walk? : Step → Option (String × List String)
  | .assign on names _ _ | .put on names _ _ | .delete on names _ => some (on, names)
  | .sect on name _ => some (on, [name])
  | _ => none

/-- A step does not get around the views of something by a path that leaks. -/
def Respects (s : Session) (t : Step) : Prop :=
  ∀ on names slot, walk? t = some (on, names) → s.slot on = .ok slot →
    isRaw slot = true ∨ leaks slot names = false

inductive Effect (s : Session) (t : Step) (s' : Session) : Prop where
  | stays (h : s'.Has s.configs s.slots s.handles)
  | keeps (name : String) (slot : Slot) (offered : s.Offers slot)
    (h : s'.Has s.configs ((name, slot) :: s.slots) s.handles)
  | adds (name : String) (c : Aggregate)
    (h : s'.Has (s.configs ++ [c]) ((name, .config s.nextNumber {}) :: s.slots) s.handles)
  | changes (n : Nat) (c : Aggregate) (owned : s.IsOwned n)
    (h : s'.Has (s.configs.set n c) s.slots s.handles)
  | builds (name : String) (source : Option Path) (c : Aggregate)
    (delivers : s.Delivers t s.handles.length c)
    (h : s'.Has (s.configs ++ [c]) ((name, .handle s.handles.length 0) :: s.slots)
      (s.handles ++ [⟨source, s.nextNumber⟩]))
  | reloads (name : String) (k : Nat) (c : Aggregate) (there : k < s.handles.length)
    (delivers : s.Delivers t k c)
    (h : s'.Has (s.configs ++ [c]) ((name, .config s.nextNumber ⟨none, 1⟩) :: s.slots)
      (s.handles.set k { s.handleAt k with active := s.nextNumber }))

theorem Offers.viewed (h : s.Offers slot) : s.Offers slot.viewed := by
  apply Offers.view
  . cases slot with
    | method owner action views => cases owner <;> exact h.isThere
    | _ => exact h.isThere
  . cases slot <;> simp [Slot.viewed, Slot.isView, Reach.isView]

theorem walk?_of_place? {on : String} {names : List String} (h : place? t = some (on, names)) :
    walk? t = some (on, names) ∨ names = [] := by
  cases t <;> cases h <;> first | exact .inl rfl | exact .inr rfl

theorem WritesTo.isOwned (h : s.WritesTo t n) (hs : s.IsClosed) (ht : s.Respects t) :
    s.IsOwned n := by
  rcases h with ⟨on, names, reach, hplace, hreached, hview⟩
  rcases reached_eq_ok_iff.mp hreached with ⟨slot, hslot, hfollow⟩
  have hoffers : s.Offers (.config n reach) := by
    rcases walk?_of_place? hplace with hwalk | rfl
    . exact (hs.offers hslot).follow hs (ht on names slot hwalk hslot) hfollow
    . cases hfollow
      exact hs.offers hslot
  exact hoffers.owned n reach rfl hview

theorem Shares.offers (h : s.Shares t slot) (hs : s.IsClosed) (ht : s.Respects t) :
    s.Offers slot := by
  cases h with
  | view hslot => exact (hs.offers hslot).viewed
  | sect hreached =>
    rcases reached_eq_ok_iff.mp hreached with ⟨start, hstart, hfollow⟩
    exact (hs.offers hstart).follow hs (ht _ _ _ rfl hstart) hfollow
  | active hslot => exact .view (hs.active_lt (hs.offers hslot).isThere) rfl

theorem IsClosed.effect_step (hs : s.IsClosed) (ht : s.Respects t) :
    s.Effect t (s.step t).2 := by
  cases change_step s t with
  | stays h => exact .stays h
  | keeps name slot under shares h => exact .keeps name slot (shares.offers hs ht) h
  | adds name c under h => exact .adds name c h
  | writes n c target h => exact .changes n c (target.isOwned hs ht) h
  | builds name source c under delivers h => exact .builds name source c delivers h
  | reloads on name k views c under kept delivers h =>
    exact .reloads name k c (hs.offers kept).isThere delivers h

end Session
end NodeSettings
