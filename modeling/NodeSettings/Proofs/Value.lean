import NodeSettings.Config.Document

/-!
This module contains what is in a value: its parts, and what it contains at any depth.
-/

namespace NodeSettings
namespace Value

variable {v w x : Value} {items : List Value} {entries : List (Value × Value)}

def parts : Value → List Value
  | list items | tuple items | set items => items
  | map entries => entries.flatMap fun (k, x) => [k, x]
  | _ => []

theorem mem_parts_map_iff :
    x ∈ (map entries).parts ↔ ∃ entry ∈ entries, x = entry.1 ∨ x = entry.2 := by
  simp [parts]

theorem sizeOf_lt_of_mem_parts (h : x ∈ v.parts) : sizeOf x < sizeOf v := by
  have hitems : ∀ items : List Value, x ∈ items → sizeOf x < sizeOf items := fun _ =>
    List.sizeOf_lt_of_mem
  cases v with
  | list items | tuple items | set items =>
    have hlt := hitems items h
    simp only [list.sizeOf_spec, tuple.sizeOf_spec, set.sizeOf_spec]
    omega
  | map entries =>
    rcases mem_parts_map_iff.mp h with ⟨⟨k, y⟩, hentry, hx⟩
    have hlt := List.sizeOf_lt_of_mem hentry
    simp only [map.sizeOf_spec, Prod.mk.sizeOf_spec] at hlt ⊢
    rcases hx with rfl | rfl <;> omega
  | _ => cases h

theorem induction_on_parts {motive : Value → Prop}
    (h : ∀ v : Value, (∀ x ∈ v.parts, motive x) → motive v) (v : Value) : motive v := by
  apply h
  intro x hx
  have := sizeOf_lt_of_mem_parts hx
  exact induction_on_parts h x
termination_by sizeOf v

/-- A value contains itself and whatever its parts contain. -/
inductive Contains : Value → Value → Prop where
  | self (v : Value) : Contains v v
  | part {v x w : Value} (h : x ∈ v.parts) (inner : Contains x w) : Contains v w

theorem contains_iff : v.Contains w ↔ w = v ∨ ∃ x ∈ v.parts, x.Contains w := by
  constructor
  . intro h
    cases h with
    | self => exact .inl rfl
    | part h inner => exact .inr ⟨_, h, inner⟩
  . rintro (rfl | ⟨x, hx, h⟩)
    . exact .self w
    . exact .part hx h

theorem contains_text_iff {t : Text} : (text t).Contains w ↔ w = text t := by
  rw [contains_iff]
  simp [parts]

theorem writtenItems_eq_map (items : List Value) : writtenItems items = items.map written := by
  induction items with
  | nil => rfl
  | cons item items ih => rw [writtenItems, ih, List.map_cons]

theorem contains_integer_of_written {n : Int} (h : v.written.Contains (.integer n)) :
    v.Contains (.integer n) := by
  induction v using induction_on_parts with
  | h v ih =>
    cases v with
    | duration d =>
      rw [written, contains_text_iff] at h
      cases h
    | list items =>
      rw [written, writtenItems_eq_map, contains_iff] at h
      rcases h with h | ⟨x, hx, h⟩
      . cases h
      . rcases List.mem_map.mp hx with ⟨y, hy, rfl⟩
        exact .part hy (ih y hy h)
    | _ => exact h

end Value
end NodeSettings
