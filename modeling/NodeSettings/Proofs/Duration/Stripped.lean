import NodeSettings.Proofs.Duration.Part
import NodeSettings.Proofs.Text

/-!
This module contains what is left of a text without the blanks around it and without its sign, which
is what a duration is read from.
-/

namespace NodeSettings

namespace CodePoint

def isBlank (p : CodePoint) : Bool :=
  p.isChar Text.isBlank

def shown : CodePoint → Char
  | char c => c
  | surrogate _ => '\ufffd'

theorem isBlank_shown (p : CodePoint) : Text.isBlank p.shown = p.isBlank := by
  cases p with
  | char c => rfl
  | surrogate n =>
    show Text.isBlank '\ufffd' = false
    decide

end CodePoint

theorem Text.chars_eq_map (t : Text) : t.chars = t.points.map CodePoint.shown := by
  unfold chars
  congr

namespace Duration

inductive Sign where
  | none | plus | minus
deriving DecidableEq

namespace Sign

def chars : Sign → List Char
  | none => []
  | plus => ['+']
  | minus => ['-']

def isMinus (s : Sign) : Bool :=
  s = minus

end Sign

/-- A text, cut into blanks, a sign and a bare text behind it, and blanks again. -/
structure Stripped (raw : Text) where
  front : List CodePoint
  sign : Sign
  bare : Text
  back : List CodePoint
  eq_append : raw.points = front ++ ((Text.ofChars sign.chars ++ bare).points ++ back)
  front_isBlank : ∀ p ∈ front, p.isBlank = true
  back_isBlank : ∀ p ∈ back, p.isBlank = true
  head_not_isBlank : ∀ p ∈ (Text.ofChars sign.chars ++ bare).points.head?, p.isBlank = false
  last_not_isBlank : ∀ p ∈ (Text.ofChars sign.chars ++ bare).points.getLast?, p.isBlank = false
  /-- There is no sign only if there is none to take away. -/
  head_of_none : sign = .none → ∀ p ∈ bare.points.head?, p ≠ .char '+' ∧ p ≠ .char '-'

section

variable {c : Char}

theorem isBlank_of_isDecimal (h : Text.isDecimal c = true) : Text.isBlank c = false := by
  unfold Text.isDecimal Text.digitValue? at h
  split at h
  . next hascii =>
    split at h
    . next hdigit =>
      have hrange : 48 ≤ c.toNat ∧ c.toNat ≤ 57 := Char.isDigit_iff_toNat.mp hdigit
      unfold Text.isBlank
      simp
      omega
    . cases h
  . have hdigits : ∀ z ∈ Text.zeroPoints, ∀ i < 10, Text.isBlank (Char.ofNat (z + i)) = false := by
      decide +kernel
    rw [Option.isSome_map, List.find?_isSome] at h
    rcases h with ⟨z, hz, hrange⟩
    rw [Bool.and_eq_true, decide_eq_true_eq, decide_eq_true_eq] at hrange
    have hblank := hdigits z hz (c.toNat - z) (by omega)
    rwa [Nat.add_sub_cancel' hrange.1, Char.ofNat_toNat] at hblank

theorem isBlank_of_mem_chars {p : Part} (h : c ∈ p.chars) : Text.isBlank c = false := by
  have hsymbols : ∀ u : AmountUnit,
      (u.symbols.all fun symbol => symbol.all (!Text.isBlank ·)) = true := by
    intro u
    cases u <;> decide
  rw [Part.chars, List.mem_append] at h
  rcases h with h | h
  . have hnumber := isNumberChar_of_mem_number h
    unfold isNumberChar at hnumber
    rw [Bool.or_eq_true, beq_iff_eq] at hnumber
    rcases hnumber with hnumber | rfl
    . exact isBlank_of_isDecimal hnumber
    . decide
  . have hsymbol := List.all_eq_true.mp (hsymbols _) p.symbol p.symbol_mem
    simpa using List.all_eq_true.mp hsymbol c h

end

section

variable {points : List CodePoint} {raw t : Text} {c : Char}

theorem isBlank_of_mem_map {blank : Bool} (h : ∀ p ∈ points, p.isBlank = blank) :
    ∀ c ∈ points.map CodePoint.shown, Text.isBlank c = blank := by
  intro c hc
  rw [List.mem_map] at hc
  rcases hc with ⟨p, hp, rfl⟩
  rw [CodePoint.isBlank_shown]
  exact h p hp

theorem isBlank_of_mem_map_option {p? : Option CodePoint} (h : ∀ p ∈ p?, p.isBlank = false) :
    ∀ c ∈ p?.map CodePoint.shown, Text.isBlank c = false := by
  intro c hc
  rw [Option.mem_def, Option.map_eq_some_iff] at hc
  rcases hc with ⟨p, hp, rfl⟩
  rw [CodePoint.isBlank_shown]
  exact h p hp

theorem Stripped.stripChars_eq (r : Stripped raw) :
    Text.stripChars raw.chars = r.sign.chars ++ r.bare.chars := by
  have hcore : r.sign.chars ++ r.bare.chars = (Text.ofChars r.sign.chars ++ r.bare).chars := by
    rw [Text.chars_append, Text.chars_ofChars]
  rw [hcore, Text.chars_eq_map raw, r.eq_append, List.map_append, List.map_append,
    ← Text.chars_eq_map]
  apply Text.stripChars_append
  . exact isBlank_of_mem_map r.front_isBlank
  . exact isBlank_of_mem_map r.back_isBlank
  . rw [Text.chars_eq_map, List.head?_map]
    exact isBlank_of_mem_map_option r.head_not_isBlank
  . rw [Text.chars_eq_map, List.getLast?_map]
    exact isBlank_of_mem_map_option r.last_not_isBlank

theorem Stripped.readSign_eq (r : Stripped raw) :
    readSign (Text.stripChars raw.chars) = (r.sign.isMinus, r.bare.chars) := by
  have hnone := r.head_of_none
  rw [r.stripChars_eq]
  cases hsign : r.sign with
  | plus => rfl
  | minus => rfl
  | none =>
    have hhead : ∀ c ∈ r.bare.chars.head?, c ≠ '+' ∧ c ≠ '-' := by
      intro c hc
      rw [Text.chars_eq_map, List.head?_map, Option.mem_def, Option.map_eq_some_iff] at hc
      rcases hc with ⟨p, hp, rfl⟩
      have hsigns := hnone hsign p hp
      cases p with
      | char c => simpa [CodePoint.shown] using hsigns
      | surrogate n =>
        show '\ufffd' ≠ '+' ∧ '\ufffd' ≠ '-'
        decide
    show readSign r.bare.chars = (false, r.bare.chars)
    unfold readSign
    split
    . next hbare =>
      rw [hbare] at hhead
      exact absurd rfl (hhead _ rfl).2
    . next hbare =>
      rw [hbare] at hhead
      exact absurd rfl (hhead _ rfl).1
    . rfl

theorem exists_stripped (raw : Text) : Nonempty (Stripped raw) := by
  rcases exists_core CodePoint.isBlank raw.points with
    ⟨front, core, back, hraw, hfront, hback, hhead, hlast⟩
  by_cases hplus : ∃ points, core = .char '+' :: points
  . rcases hplus with ⟨points, rfl⟩
    exact ⟨⟨front, .plus, ⟨points⟩, back, hraw, hfront, hback, hhead, hlast, nofun⟩⟩
  . by_cases hminus : ∃ points, core = .char '-' :: points
    . rcases hminus with ⟨points, rfl⟩
      exact ⟨⟨front, .minus, ⟨points⟩, back, hraw, hfront, hback, hhead, hlast, nofun⟩⟩
    . refine ⟨⟨front, .none, ⟨core⟩, back, hraw, hfront, hback, hhead, hlast, ?_⟩⟩
      intro _ p hp
      cases core with
      | nil => cases hp
      | cons q points =>
        cases hp
        constructor
        . rintro rfl
          exact hplus ⟨points, rfl⟩
        . rintro rfl
          exact hminus ⟨points, rfl⟩

end

end Duration
end NodeSettings
