import Mathlib.Data.List.TakeDrop
import Mathlib.Data.List.TakeWhile
import NodeSettings.Text.Basic
import NodeSettings.Text.Blank

/-!
This module contains lemmas about texts without surrogates, which are strings, about runs of
characters of one kind, and about blanks at both ends.
-/

namespace NodeSettings

section

variable {p : Char → Bool} {cs more : List Char}

theorem takeWhile_append_of_head (hcs : ∀ c ∈ cs, p c = true)
    (hmore : ∀ c ∈ more.head?, p c = false) : (cs ++ more).takeWhile p = cs := by
  rw [List.takeWhile_append_of_pos hcs]
  cases more with
  | nil => simp
  | cons c more =>
    have hc : p c = false := hmore c rfl
    rw [List.takeWhile_cons_of_neg (by simp [hc]), List.append_nil]

theorem dropWhile_append_of_head (hcs : ∀ c ∈ cs, p c = true)
    (hmore : ∀ c ∈ more.head?, p c = false) : (cs ++ more).dropWhile p = more := by
  rw [List.dropWhile_append_of_pos hcs]
  cases more with
  | nil => rfl
  | cons c more =>
    have hc : p c = false := hmore c rfl
    rw [List.dropWhile_cons_of_neg (by simp [hc])]

theorem span_append_of_head (hcs : ∀ c ∈ cs, p c = true)
    (hmore : ∀ c ∈ more.head?, p c = false) : (cs ++ more).span p = (cs, more) := by
  rw [List.span_eq_takeWhile_dropWhile, takeWhile_append_of_head hcs hmore,
    dropWhile_append_of_head hcs hmore]

theorem eq_append_of_span {before behind : List Char} (h : cs.span p = (before, behind)) :
    cs = before ++ behind ∧ ∀ c ∈ before, p c = true := by
  rw [List.span_eq_takeWhile_dropWhile] at h
  cases h
  refine ⟨List.takeWhile_append_dropWhile.symm, ?_⟩
  intro c hc
  exact List.mem_takeWhile_imp hc

end

section

variable {α : Type}

theorem exists_behind_run (p : α → Bool) (xs : List α) :
    ∃ front rest, xs = front ++ rest ∧ (∀ x ∈ front, p x = true)
      ∧ ∀ x ∈ rest.head?, p x = false := by
  refine ⟨xs.takeWhile p, xs.dropWhile p, List.takeWhile_append_dropWhile.symm, ?_, ?_⟩
  . intro x hx
    exact List.mem_takeWhile_imp hx
  . intro x hx
    have hhead := List.head?_dropWhile_not p xs
    rw [Option.mem_def] at hx
    rw [hx] at hhead
    exact hhead

theorem exists_core (p : α → Bool) (xs : List α) :
    ∃ front core back, xs = front ++ (core ++ back) ∧ (∀ x ∈ front, p x = true)
      ∧ (∀ x ∈ back, p x = true) ∧ (∀ x ∈ core.head?, p x = false)
      ∧ ∀ x ∈ core.getLast?, p x = false := by
  rcases exists_behind_run p xs with ⟨front, rest, rfl, hfront, hhead⟩
  -- The run at the end is the one in front of what is left, read the other way round.
  rcases exists_behind_run p rest.reverse with ⟨back, core, hrest, hback, hlast⟩
  have hsplit : rest = core.reverse ++ back.reverse := by
    rw [← List.reverse_append, ← hrest, List.reverse_reverse]
  refine ⟨front, core.reverse, back.reverse, by rw [hsplit], hfront, ?_, ?_, ?_⟩
  . intro x hx
    exact hback x (List.mem_reverse.mp hx)
  . intro x hx
    apply hhead x
    rw [Option.mem_def] at hx ⊢
    rw [hsplit, List.head?_append, hx, Option.some_or]
  . rw [List.getLast?_reverse]
    exact hlast

end

namespace Text

variable {front core back : List Char}

theorem dropBlanks_append (hfront : ∀ c ∈ front, isBlank c = true)
    (hcore : ∀ c ∈ core.head?, isBlank c = false) : dropBlanks (front ++ core) = core :=
  dropWhile_append_of_head hfront hcore

theorem stripChars_append (hfront : ∀ c ∈ front, isBlank c = true)
    (hback : ∀ c ∈ back, isBlank c = true)
    (hhead : ∀ c ∈ core.head?, isBlank c = false)
    (hlast : ∀ c ∈ core.getLast?, isBlank c = false) :
    stripChars (front ++ (core ++ back)) = core := by
  unfold stripChars
  by_cases hcore : core = []
  . subst hcore
    have hblank : ∀ c ∈ front ++ back, isBlank c = true := by
      intro c hc
      rw [List.mem_append] at hc
      rcases hc with hc | hc
      . exact hfront c hc
      . exact hback c hc
    have hnil : dropBlanks (front ++ back ++ []) = [] := dropBlanks_append hblank (by simp)
    rw [List.append_nil] at hnil
    rw [List.nil_append, hnil]
    rfl
  . rw [dropBlanks_append hfront, List.reverse_append, dropBlanks_append, List.reverse_reverse]
    . intro c hc
      rw [List.mem_reverse] at hc
      exact hback c hc
    . rw [List.head?_reverse]
      exact hlast
    . rcases List.exists_cons_of_ne_nil hcore with ⟨c, cs, rfl⟩
      exact hhead

end Text

namespace CodePoint

theorem ofNat?_toNat (p : CodePoint) : ofNat? p.toNat = some p := by
  cases p with
  | char c =>
    have hvalid : c.toNat < 0xD800 ∨ (0xDFFF < c.toNat ∧ c.toNat < 0x110000) := c.valid
    unfold ofNat?
    rw [dif_neg, if_pos]
    . simp only [toNat, Char.ofNat_toNat]
    . simp only [toNat]
      omega
    . simp only [toNat]
      omega
  | surrogate n =>
    have hn := n.isLt
    have htoNat : (surrogate n).toNat = 0xD800 + n.val := rfl
    unfold ofNat?
    rw [dif_pos (by omega)]
    refine congrArg (fun i => some (surrogate i)) (Fin.ext ?_)
    show 0xD800 + n.val - 0xD800 = n.val
    omega

end CodePoint

namespace Text

theorem toString?_ofString (s : String) : (s : Text).toString? = some s := by
  simp [toString?, ofString]

theorem chars_ofChars (cs : List Char) : (ofChars cs).chars = cs := by
  unfold chars ofChars
  rw [List.map_map]
  exact List.map_id cs

theorem chars_append (s t : Text) : (s ++ t).chars = s.chars ++ t.chars := by
  unfold chars
  rw [points_append, List.map_append]

theorem chars_eq_iff {t : Text} {cs : List Char} (h : '\ufffd' ∉ cs) :
    t.chars = cs ↔ t = ofChars cs := by
  constructor
  . rintro rfl
    rcases t with ⟨points⟩
    unfold ofChars
    congr
    induction points with
    | nil => rfl
    | cons p points ih =>
      cases p with
      | surrogate n => exact absurd (.head _) h
      | char c =>
        have hrest := ih fun hmem => h (.tail _ hmem)
        exact congrArg (CodePoint.char c :: ·) hrest
  . rintro rfl
    exact chars_ofChars cs

theorem chars?_eq_some {t : Text} {cs : List Char} (h : t.chars? = some cs) : t = ofChars cs := by
  rcases t with ⟨points⟩
  simp only [chars?] at h
  unfold ofChars
  congr
  induction points generalizing cs with
  | nil =>
    simp at h
    subst h
    rfl
  | cons p points ih =>
    rw [List.mapM_cons] at h
    cases p with
    | surrogate n => simp at h
    | char c =>
      simp only [Option.pure_def, Option.bind_eq_bind, Option.bind_some, Option.bind_eq_some_iff,
        Option.some.injEq] at h
      rcases h with ⟨ds, hds, rfl⟩
      rw [ih hds]
      rfl

theorem chars?_eq_some_iff {t : Text} {cs : List Char} : t.chars? = some cs ↔ t = ofChars cs := by
  constructor
  . apply chars?_eq_some
  . rintro rfl
    apply chars?_ofChars

theorem toString?_eq_some_iff {t : Text} {s : String} : t.toString? = some s ↔ t = (s : Text) := by
  constructor
  . intro h
    unfold toString? at h
    simp only [Option.map_eq_some_iff] at h
    rcases h with ⟨cs, hcs, rfl⟩
    rw [chars?_eq_some hcs]
    simp [ofString]
  . rintro rfl
    apply toString?_ofString

theorem ofString_injective {s t : String} (h : (s : Text) = (t : Text)) : s = t := by
  have := congrArg toString? h
  simpa [toString?_ofString] using this

@[simp]
theorem ofString_inj {s t : String} : (s : Text) = (t : Text) ↔ s = t := by
  constructor
  . apply ofString_injective
  . rintro rfl
    rfl

end Text
end NodeSettings
