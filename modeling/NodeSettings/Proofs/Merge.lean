import NodeSettings.Proofs.Schema

/-!
This module contains the merge of the entries of two mappings: no key comes twice in it, and what
stands behind a name is known from what stands behind it on both sides.
-/

namespace NodeSettings
namespace Value

def supersede (below : Value) : Value → Value
  | null => below
  | above => above

def mergeEntry (join : Value → Value → Value → Value) (key above : Value) :
    List (Value × Value) → List (Value × Value)
  | [] => [(key, above)]
  | (k, below) :: entries =>
    if equalLeaves k key then (k, join k below above) :: entries
    else (k, below) :: mergeEntry join key above entries

def mergeEntries (join : Value → Value → Value → Value) (entries : List (Value × Value)) :
    List (Value × Value) → List (Value × Value)
  | [] => entries
  | (key, above) :: rest => mergeEntries join (mergeEntry join key above entries) rest

def look? (name : String) (entries : List (Value × Value)) : Option Value :=
  (entries.find? fun e => equalLeaves e.1 (.text name)).map Prod.snd

section

variable {join : Value → Value → Value → Value} {name : String} {key raw below above : Value}
variable {entries entries' : List (Value × Value)} {e : Value × Value} {t : Text}

theorem supersede_eq_or (below above : Value) :
    supersede below above = below ∨ supersede below above = above := by
  cases above <;> simp [supersede]

theorem supersede_of_ne (h : above ≠ .null) : supersede below above = above := by
  cases above <;> simp_all [supersede]

theorem eq_or_of_merge_supersede {below? above? : Option Value}
    (h : Option.merge supersede below? above? = some raw) :
    below? = some raw ∨ above? = some raw := by
  cases below? with
  | none =>
    rw [Option.merge_none_left] at h
    exact .inr h
  | some below =>
    cases above? with
    | none =>
      rw [Option.merge_none_right] at h
      exact .inl h
    | some above =>
      rw [Option.merge_some_some] at h
      rcases supersede_eq_or below above with heq | heq
      . exact .inl (heq ▸ h)
      . exact .inr (heq ▸ h)

theorem equalLeaves_text_iff : equalLeaves key (.text t) = true ↔ key = .text t := by
  cases key with
  | float x =>
    -- A float may be equal to an integer, and a text is none.
    have hfalse : equalLeaves (.float x) (.text t) = false := by
      simp only [equalLeaves]
      cases (float x).asInteger? with
      | none => rfl
      | some m => rfl
    rw [hfalse]
    simp
  | _ => simp [equalLeaves, asInteger?]

theorem eq_of_equalLeaves_text (h : equalLeaves (.text t) key = true) : key = .text t := by
  cases key with
  | text s =>
    simp only [equalLeaves, beq_iff_eq] at h
    rw [h]
  | _ => cases h

theorem look?_nil : look? name [] = none := rfl

theorem look?_cons_self : look? name ((.text name, raw) :: entries) = some raw := by
  unfold look?
  rw [List.find?_cons_of_pos]
  . rfl
  . rw [equalLeaves_text_iff]

theorem look?_cons_of_ne (h : key ≠ .text name) :
    look? name ((key, raw) :: entries) = look? name entries := by
  unfold look?
  rw [List.find?_cons_of_neg]
  rw [equalLeaves_text_iff]
  exact h

theorem look?_eq_none_iff : look? name entries = none ↔ ∀ raw, (.text name, raw) ∉ entries := by
  unfold look?
  rw [Option.map_eq_none_iff, List.find?_eq_none]
  simp only [equalLeaves_text_iff, Prod.forall]
  constructor
  . intro h raw hmem
    exact h _ _ hmem rfl
  . rintro h key raw hmem rfl
    exact h raw hmem

theorem mem_of_look? (h : look? name entries = some raw) : (.text name, raw) ∈ entries := by
  unfold look? at h
  rw [Option.map_eq_some_iff] at h
  rcases h with ⟨⟨key, raw'⟩, hfind, rfl⟩
  have hkey := List.find?_some hfind
  rw [equalLeaves_text_iff] at hkey
  rw [← hkey]
  exact List.mem_of_find?_eq_some hfind

theorem look?_eq_some_iff (h : AreProper entries) :
    look? name entries = some raw ↔ (.text name, raw) ∈ entries := by
  constructor
  . apply mem_of_look?
  . intro hmem
    cases hlook : look? name entries with
    | none =>
      rw [look?_eq_none_iff] at hlook
      exact absurd hmem (hlook raw)
    | some raw' => rw [h.unique hmem (mem_of_look? hlook)]

theorem areProper_cons_iff :
    AreProper (e :: entries) ↔
      e.1.IsWritable ∧ (∀ f ∈ entries, equalLeaves e.1 f.1 = false) ∧ AreProper entries := by
  constructor
  . rintro ⟨hwritable, hdistinct⟩
    rw [List.pairwise_cons] at hdistinct
    refine ⟨hwritable _ (.head _), hdistinct.1, ?_, hdistinct.2⟩
    intro f hf
    exact hwritable f (.tail _ hf)
  . rintro ⟨hwritable, hdistinct, hrest⟩
    refine ⟨?_, List.pairwise_cons.mpr ⟨hdistinct, hrest.distinct⟩⟩
    rw [List.forall_mem_cons]
    exact ⟨hwritable, hrest.writable⟩

theorem look?_mergeEntry_self :
    look? name (mergeEntry join (.text name) above entries) =
      Option.merge (join (.text name)) (look? name entries) (some above) := by
  induction entries with
  | nil =>
    rw [mergeEntry, look?_cons_self]
    rfl
  | cons entry entries ih =>
    rcases entry with ⟨key, below⟩
    unfold mergeEntry
    by_cases hkey : key = .text name
    . subst hkey
      rw [if_pos (equalLeaves_text_self _), look?_cons_self, look?_cons_self]
      rfl
    . rw [if_neg (by rwa [equalLeaves_text_iff]), look?_cons_of_ne hkey, look?_cons_of_ne hkey]
      apply ih

theorem look?_mergeEntry_of_ne (h : key ≠ .text name) :
    look? name (mergeEntry join key above entries) = look? name entries := by
  induction entries with
  | nil => rw [mergeEntry, look?_cons_of_ne h]
  | cons entry entries ih =>
    rcases entry with ⟨k, below⟩
    unfold mergeEntry
    split
    . next hequal =>
      have hk : k ≠ .text name := by
        rintro rfl
        exact h (eq_of_equalLeaves_text hequal)
      rw [look?_cons_of_ne hk, look?_cons_of_ne hk]
    . by_cases hk : k = .text name
      . subst hk
        rw [look?_cons_self, look?_cons_self]
      . rw [look?_cons_of_ne hk, look?_cons_of_ne hk, ih]

theorem look?_mergeEntries (h : AreProper entries') :
    look? name (mergeEntries join entries entries') =
      Option.merge (join (.text name)) (look? name entries) (look? name entries') := by
  induction entries' generalizing entries with
  | nil => rw [mergeEntries, look?_nil, Option.merge_none_right]
  | cons entry entries' ih =>
    rcases entry with ⟨key, above⟩
    rw [areProper_cons_iff] at h
    rw [mergeEntries, ih h.2.2]
    by_cases hkey : key = .text name
    -- The name does not come a second time, so that it is joined once.
    . subst hkey
      have hrest : look? name entries' = none := by
        rw [look?_eq_none_iff]
        intro raw hmem
        have hne := h.2.1 _ hmem
        rw [equalLeaves_text_self] at hne
        cases hne
      rw [look?_mergeEntry_self, look?_cons_self, hrest, Option.merge_none_right]
    . rw [look?_mergeEntry_of_ne hkey, look?_cons_of_ne hkey]

theorem exists_of_mem_mergeEntry (h : e ∈ mergeEntry join key above entries) :
    e.1 = key ∨ ∃ raw, (e.1, raw) ∈ entries := by
  induction entries with
  | nil =>
    rw [mergeEntry, List.mem_singleton] at h
    rw [h]
    exact .inl rfl
  | cons entry entries ih =>
    rcases entry with ⟨k, below⟩
    unfold mergeEntry at h
    split at h
    . cases h with
      | head => exact .inr ⟨below, .head _⟩
      | tail _ h => exact .inr ⟨e.2, .tail _ h⟩
    . cases h with
      | head => exact .inr ⟨below, .head _⟩
      | tail _ h =>
        rcases ih h with h | ⟨raw, h⟩
        . exact .inl h
        . exact .inr ⟨raw, .tail _ h⟩

theorem areProper_mergeEntry (h : AreProper entries) (hkey : key.IsWritable) :
    AreProper (mergeEntry join key above entries) := by
  induction entries with
  | nil =>
    rw [mergeEntry, areProper_cons_iff]
    exact ⟨hkey, by simp, h⟩
  | cons entry entries ih =>
    rcases entry with ⟨k, below⟩
    rw [areProper_cons_iff] at h
    unfold mergeEntry
    split
    . rw [areProper_cons_iff]
      exact h
    . next hne =>
      rw [areProper_cons_iff]
      refine ⟨h.1, ?_, ih h.2.2⟩
      intro e he
      rcases exists_of_mem_mergeEntry he with heq | ⟨raw, hmem⟩
      . rw [heq]
        simpa using hne
      . exact h.2.1 (e.1, raw) hmem

theorem areProper_mergeEntries (h : AreProper entries) (h' : AreProper entries') :
    AreProper (mergeEntries join entries entries') := by
  induction entries' generalizing entries with
  | nil => exact h
  | cons entry entries' ih =>
    rw [areProper_cons_iff] at h'
    apply ih
    . exact areProper_mergeEntry h h'.1
    . exact h'.2.2

end

end Value
end NodeSettings
