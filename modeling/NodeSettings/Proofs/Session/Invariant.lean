import NodeSettings.Proofs.Session.Effect

/-!
This module contains what every step of a session preserves: all that is kept and all that is active
is there, and a configuration that only views are kept of does not change.
-/

namespace NodeSettings
namespace Session

variable {s s' : Session} {t : Step} {slot : Slot} {n : Nat} {c : Aggregate}

structure Grows (s s' : Session) : Prop where
  configs : s.configs.length ≤ s'.configs.length
  slots : ∀ entry ∈ s.slots, entry ∈ s'.slots
  handles : s.handles.length ≤ s'.handles.length

theorem Effect.grows (h : s.Effect t s') : s.Grows s' := by
  cases h with
  | stays h | keeps name slot offered h | adds name c h | changes n c owned h
  | builds name source c delivers h | reloads name k c there delivers h =>
    constructor
    . simp [h.configs]
    . intro entry hentry
      simp [h.slots, hentry]
    . simp [h.handles]

theorem IsThere.of_grows (h : s.IsThere slot) (hs : s.Grows s') : s'.IsThere slot := by
  cases slot with
  | config n reach => exact Nat.lt_of_lt_of_le h hs.configs
  | handle k views => exact Nat.lt_of_lt_of_le h hs.handles
  | value v views => trivial
  | method owner action views =>
    cases owner with
    | config n => exact Nat.lt_of_lt_of_le h hs.configs
    | handle k => exact Nat.lt_of_lt_of_le h hs.handles

theorem Offers.of_grows (h : s.Offers slot) (hs : s.Grows s') : s'.Offers slot := by
  refine ⟨h.isThere.of_grows hs, ?_⟩
  intro n reach hslot hview
  rcases h.owned n reach hslot hview with ⟨name, r, hmem, hr⟩
  exact ⟨name, r, hs.slots _ hmem, hr⟩

theorem IsClosed.slots_of_cons {name : String} (hs : s.IsClosed) (hgrows : s.Grows s')
    (hslots : s'.slots = (name, slot) :: s.slots) (hslot : s'.Offers slot) :
    ∀ name' slot', (name', slot') ∈ s'.slots → s'.Offers slot' := by
  intro name' slot' hmem
  rw [hslots] at hmem
  cases hmem with
  | head => exact hslot
  | tail _ hmem => exact (hs.slots _ _ hmem).of_grows hgrows

theorem IsClosed.of_effect (hs : s.IsClosed) (h : s.Effect t s') : s'.IsClosed := by
  have hgrows := h.grows
  -- Configurations are never taken away, so that what was active is still there.
  have hactive : ∀ h ∈ s.handles, h.active < s'.configs.length := by
    intro h hmem
    exact Nat.lt_of_lt_of_le (hs.handles h hmem) hgrows.configs
  cases h with
  | stays h | changes n c owned h =>
    constructor
    . intro name slot hmem
      rw [h.slots] at hmem
      exact (hs.slots _ _ hmem).of_grows hgrows
    . rwa [h.handles]
  | keeps name slot offered h =>
    constructor
    . exact hs.slots_of_cons hgrows h.slots (offered.of_grows hgrows)
    . rwa [h.handles]
  | adds name c h =>
    constructor
    . apply hs.slots_of_cons hgrows h.slots
      constructor
      . simp [IsThere, h.configs, nextNumber]
      . intro n reach heq hview
        cases heq
        exact ⟨name, {}, by simp [h.slots], rfl⟩
    . rwa [h.handles]
  | builds name source c delivers h =>
    constructor
    . apply hs.slots_of_cons hgrows h.slots
      refine ⟨by simp [IsThere, h.handles], ?_⟩
      intro n reach heq
      cases heq
    . intro handle hmem
      rw [h.handles, List.mem_append, List.mem_singleton] at hmem
      rcases hmem with hmem | rfl
      . exact hactive handle hmem
      . simp [h.configs, nextNumber]
  | reloads name k c there delivers h =>
    constructor
    . apply hs.slots_of_cons hgrows h.slots
      apply Offers.view _ rfl
      simp [IsThere, h.configs, nextNumber]
    . intro handle hmem
      rw [h.handles] at hmem
      rcases List.mem_or_eq_of_mem_set hmem with hmem | rfl
      . exact hactive handle hmem
      . simp [h.configs, nextNumber]

def IsSealed (s : Session) (n : Nat) : Prop :=
  n < s.configs.length ∧ ¬ s.IsOwned n

theorem not_isOwned_of_cons {name : String} (hn : ¬ s.IsOwned n)
    (hslots : s'.slots = (name, slot) :: s.slots)
    (hslot : ∀ reach, slot = .config n reach → reach.isView = true) : ¬ s'.IsOwned n := by
  rintro ⟨name', reach, hmem, hview⟩
  rw [hslots] at hmem
  cases hmem with
  | head =>
    rw [hslot reach rfl] at hview
    cases hview
  | tail _ hmem => exact hn ⟨name', reach, hmem, hview⟩

theorem IsSealed.of_effect (hn : s.IsSealed n) (h : s.Effect t s') : s'.IsSealed n := by
  have hlt : n < s'.configs.length := Nat.lt_of_lt_of_le hn.1 h.grows.configs
  refine ⟨hlt, ?_⟩
  cases h with
  | stays h | changes m c owned h =>
    rintro ⟨name, reach, hmem, hview⟩
    rw [h.slots] at hmem
    exact hn.2 ⟨name, reach, hmem, hview⟩
  | keeps name slot offered h =>
    apply not_isOwned_of_cons hn.2 h.slots
    rintro reach rfl
    rw [← Bool.not_eq_false]
    exact fun hview => hn.2 (offered.owned n reach rfl hview)
  | adds name c h =>
    apply not_isOwned_of_cons hn.2 h.slots
    intro reach heq
    cases heq
    exact absurd hn.1 (Nat.lt_irrefl _)
  | builds name source c delivers h =>
    apply not_isOwned_of_cons hn.2 h.slots
    intro reach heq
    cases heq
  | reloads name k c there delivers h =>
    apply not_isOwned_of_cons hn.2 h.slots
    intro reach heq
    cases heq
    rfl

theorem IsSealed.config_of_effect (hn : s.IsSealed n) (h : s.Effect t s') :
    s'.config n = s.config n := by
  cases h with
  | stays h | keeps name slot offered h => exact config_eq_of_configs h.configs n
  | adds name c h | builds name source c delivers h | reloads name k c there delivers h =>
    exact config_eq_of_append hn.1 h.configs
  | changes m c owned h =>
    -- What is changed belongs to something else than a view, and is not sealed.
    have hne : m ≠ n := by
      rintro rfl
      exact hn.2 owned
    exact config_eq_of_set h.configs hne

theorem IsSealed.of_added {name : String} (hs : s.IsClosed)
    (hconfigs : s'.configs = s.configs ++ [c])
    (hslots : s'.slots = (name, slot) :: s.slots)
    (hslot : ∀ reach, slot = .config s.nextNumber reach → reach.isView = true) :
    s'.IsSealed s.nextNumber := by
  refine ⟨by simp [hconfigs, nextNumber], ?_⟩
  apply not_isOwned_of_cons _ hslots hslot
  rintro ⟨name, reach, hmem, -⟩
  exact absurd (hs.slots _ _ hmem).isThere (Nat.lt_irrefl _)

end Session
end NodeSettings
