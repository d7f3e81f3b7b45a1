import Mathlib.Data.List.Forall2

/-!
This module contains lemmas about computations that may end with a fault.
-/

namespace NodeSettings
namespace Except

variable {ε ε' α β : Type}

@[simp]
theorem pure_eq_ok (a : α) : (pure a : Except ε α) = .ok a := rfl

@[simp]
theorem throw_eq_error (e : ε) : (throw e : Except ε α) = .error e := rfl

@[simp]
theorem ok_bind (a : α) (f : α → Except ε β) : ((.ok a : Except ε α) >>= f) = f a := rfl

@[simp]
theorem error_bind (e : ε) (f : α → Except ε β) :
    ((.error e : Except ε α) >>= f) = .error e := rfl

theorem bind_eq_ok_iff {x : Except ε α} {f : α → Except ε β} {b : β} :
    (x >>= f) = .ok b ↔ ∃ a, x = .ok a ∧ f a = .ok b := by
  cases x <;> simp

theorem unit_bind_eq_ok_iff {x : Except ε Unit} {f : Unit → Except ε β} {b : β} :
    (x >>= f) = .ok b ↔ x = .ok () ∧ f () = .ok b := by
  cases x <;> simp

theorem bind_eq_error_iff {x : Except ε α} {f : α → Except ε β} {e : ε} :
    (x >>= f) = .error e ↔ x = .error e ∨ ∃ a, x = .ok a ∧ f a = .error e := by
  cases x <;> simp

theorem mapError_eq_ok_iff {x : Except ε α} {f : ε → ε'} {a : α} :
    x.mapError f = .ok a ↔ x = .ok a := by
  constructor
  . intro h
    cases x with
    | error e => cases h
    | ok b =>
      cases h
      rfl
  . rintro rfl
    rfl

theorem ok_or_error (x : Except ε α) : (∃ a, x = .ok a) ∨ ∃ e, x = .error e := by
  cases x <;> simp

theorem exists_foldlM_eq_ok {f : β → α → Except ε β} {items : List α}
    (h : ∀ a ∈ items, ∀ b, ∃ b', f b a = .ok b') (b : β) :
    ∃ b', items.foldlM f b = .ok b' := by
  induction items generalizing b with
  | nil => exact ⟨b, rfl⟩
  | cons a items ih =>
    rcases h a (.head _) b with ⟨b', hb⟩
    rw [List.foldlM_cons, hb]
    apply ih
    intro a' ha'
    exact h a' (.tail _ ha')

theorem of_foldlM_eq_ok {f : β → α → Except ε β} {p : β → Prop} {items : List α}
    (h : ∀ a ∈ items, ∀ b b', p b → f b a = .ok b' → p b') {b b' : β} (hb : p b)
    (hfold : items.foldlM f b = .ok b') : p b' := by
  induction items generalizing b with
  | nil =>
    cases hfold
    exact hb
  | cons a items ih =>
    rw [List.foldlM_cons, bind_eq_ok_iff] at hfold
    rcases hfold with ⟨next, hnext, hfold⟩
    exact ih (fun a ha => h a (.tail _ ha)) (h a (.head _) b next hb hnext) hfold

theorem mapM_eq_ok_iff {f : α → Except ε β} {items : List α} {results : List β} :
    items.mapM f = .ok results ↔ List.Forall₂ (fun a b => f a = .ok b) items results := by
  induction items generalizing results with
  | nil =>
    rw [List.mapM_nil, pure_eq_ok, Except.ok.injEq, List.forall₂_nil_left_iff, eq_comm]
  | cons a items ih =>
    rw [List.mapM_cons, bind_eq_ok_iff, List.forall₂_cons_left_iff]
    apply exists_congr
    intro b
    rw [bind_eq_ok_iff, ← exists_and_left]
    apply exists_congr
    intro rest
    rw [ih, pure_eq_ok, Except.ok.injEq, eq_comm (a := results), and_left_comm]

theorem forall₂_of_mapM_eq_ok {f : α → Except ε β} {R : α → β → Prop} {items : List α}
    {results : List β} (h : ∀ a ∈ items, ∀ b, f a = .ok b → R a b)
    (hresults : items.mapM f = .ok results) : List.Forall₂ R items results := by
  have hboth := (List.forall₂_and_left _ _).mpr ⟨h, mapM_eq_ok_iff.mp hresults⟩
  exact hboth.imp fun a b hab => hab.1 b hab.2

theorem exists_mapM_eq_ok {f : α → Except ε β} {items : List α}
    (h : ∀ a ∈ items, ∃ b, f a = .ok b) : ∃ results, items.mapM f = .ok results := by
  induction items with
  | nil => exact ⟨[], rfl⟩
  | cons a items ih =>
    rw [List.forall_mem_cons] at h
    rcases h.1 with ⟨b, hb⟩
    rcases ih h.2 with ⟨rest, hrest⟩
    refine ⟨b :: rest, ?_⟩
    rw [List.mapM_cons, hb, hrest]
    rfl

theorem forM_eq_ok_iff {f : α → Except ε Unit} {items : List α} :
    items.forM f = .ok () ↔ ∀ a ∈ items, f a = .ok () := by
  induction items with
  | nil => simp [List.forM]
  | cons a items ih =>
    rw [List.forM, unit_bind_eq_ok_iff, List.forall_mem_cons, ← ih]

theorem exists_of_forM_eq_error {f : α → Except ε Unit} {items : List α} {e : ε}
    (h : items.forM f = .error e) : ∃ a ∈ items, f a = .error e := by
  induction items with
  | nil => cases h
  | cons a items ih =>
    rw [List.forM, bind_eq_error_iff] at h
    rcases h with h | ⟨u, -, h⟩
    . exact ⟨a, .head _, h⟩
    . rcases ih h with ⟨b, hb, hf⟩
      exact ⟨b, .tail _ hb, hf⟩

end Except
end NodeSettings
