import NodeSettings.Proofs.Digits
import NodeSettings.Proofs.Duration.Sum

/-!
This module contains the reading of canonical texts of durations: a duration of at most 53 bits is
read back from its text.
-/

namespace NodeSettings

namespace Duration

def partChars (part : Nat × TimeUnit) : List Char :=
  Nat.toDigits 10 part.1 ++ part.2.symbol.toList

def lengthOf (parts : List (Nat × TimeUnit)) : Nat :=
  parts.foldr (fun part length => part.1 * part.2.size + length) 0

variable {n : Nat} {u : TimeUnit} {part : Nat × TimeUnit} {parts : List (Nat × TimeUnit)}

theorem toList_partText (part : Nat × TimeUnit) : (partText part).toList = partChars part := by
  rw [partText, String.toList_append, Text.decimal, String.toList_ofList, partChars]

theorem lengthOf_cons (part : Nat × TimeUnit) (parts : List (Nat × TimeUnit)) :
    lengthOf (part :: parts) = part.1 * part.2.size + lengthOf parts := rfl

theorem lengthOf_amounts (units : List TimeUnit) (n : Nat) :
    lengthOf (amounts (units ++ [.microsecond]) n) = n := by
  induction units generalizing n with
  | nil =>
    rw [List.nil_append, amounts]
    have hsize : n / TimeUnit.microsecond.size = n := Nat.div_one n
    rw [hsize, amounts]
    split
    . next hzero => exact hzero.symm
    . simp [lengthOf, TimeUnit.size]
  | cons u units ih =>
    rw [List.cons_append, amounts]
    have hdivide := Nat.div_add_mod n u.size
    split
    . next hzero =>
      rw [ih]
      rw [hzero] at hdivide
      omega
    . rw [lengthOf_cons, ih, Nat.mul_comm]
      exact hdivide

theorem lengthOf_descending (n : Nat) : lengthOf (amounts TimeUnit.descending n) = n :=
  lengthOf_amounts [.hour, .minute, .second, .millisecond] n

theorem amounts_ne_nil (h : n ≠ 0) : amounts TimeUnit.descending n ≠ [] := by
  intro hempty
  have hlength := lengthOf_descending n
  rw [hempty] at hlength
  exact h hlength.symm

theorem pos_of_mem_amounts {units : List TimeUnit} (h : part ∈ amounts units n) : 0 < part.1 := by
  induction units generalizing n with
  | nil => cases h
  | cons u units ih =>
    rw [amounts] at h
    split at h
    . exact ih h
    . next hzero =>
      rcases List.mem_cons.mp h with rfl | h
      . exact Nat.pos_of_ne_zero hzero
      . exact ih h

theorem symbol_mem_symbols (u : TimeUnit) : u.symbol.toList ∈ u.toAmountUnit.symbols := by
  cases u <;> decide

def canonicalPart (part : Nat × TimeUnit) : WholePart where
  digits := Nat.toDigits 10 part.1
  unit := part.2
  symbol := part.2.symbol.toList
  ne_nil := Nat.toDigits_ne_nil
  isDigit _ := Nat.isDigit_of_mem_toDigits (by decide) (by decide)
  symbol_mem := symbol_mem_symbols part.2

theorem chars_canonicalPart (part : Nat × TimeUnit) :
    (canonicalPart part).toPart.chars = partChars part :=
  (canonicalPart part).chars_toPart

theorem microsOf_canonicalParts (parts : List (Nat × TimeUnit)) :
    microsOf (parts.map canonicalPart) = lengthOf parts := by
  induction parts with
  | nil => rfl
  | cons part parts ih =>
    rw [List.map_cons, microsOf_cons, ih, lengthOf_cons, WholePart.micros]
    show Text.decimalValue (Nat.toDigits 10 part.1) * part.2.size + _ = _
    rw [Text.decimalValue_toDigits]

theorem toList_format {d : Duration} (h : d.micros ≠ 0) :
    d.format.toList = (signOf d.micros).chars
      ++ (amounts TimeUnit.descending d.micros.natAbs).flatMap partChars := by
  have hchars (parts : List (Nat × TimeUnit)) :
      (String.join (parts.map partText)).toList = parts.flatMap partChars := by
    rw [String.toList_join, List.flatMap_map]
    exact congrArg (parts.flatMap ·) (funext toList_partText)
  unfold format signOf
  rw [if_neg h, String.toList_append, hchars]
  congr 1
  split <;> rfl

theorem format_eq_written {d : Duration} (h : d.micros ≠ 0) :
    (d.format : Text) =
      written [] (signOf d.micros)
        ((amounts TimeUnit.descending d.micros.natAbs).map canonicalPart) [] := by
  rw [Text.ofString, toList_format h, written, List.nil_append, List.append_nil, List.flatMap_map]
  simp only [chars_canonicalPart]

/-- A duration of at most 53 bits is read back from its text. -/
theorem ofText_format {d : Duration} (h : d.micros.natAbs ≤ twoPow 53) :
    ofText (d.format : Text) = .ok d := by
  by_cases hzero : d.micros = 0
  -- The empty duration has a text of its own.
  . have heq : d = zero := Duration.ext hzero
    subst heq
    show ofText ("0s" : String) = .ok zero
    decide +kernel
  . have hlength := lengthOf_descending d.micros.natAbs
    have hne := amounts_ne_nil (Int.natAbs_ne_zero.mpr hzero)
    rw [format_eq_written hzero]
    apply ofText_written
    . simp
    . simp
    . simpa using hne
    . rw [microsOf_canonicalParts, hlength]
      exact h
    . rw [microsOf_canonicalParts, hlength, integer_signOf]

/-- Of a duration of at most 53 bits, the value that documents have is read as the duration. -/
theorem ofValue_format {d : Duration} (h : d.micros.natAbs ≤ Nat.pow 2 53) :
    ofValue (.text d.format) = .ok d :=
  ofText_format h

def lowestExact : Duration :=
  ⟨-9007199254740992, by decide⟩

/-- The bound itself is read back with its sign: all the sums and products are exact there. -/
theorem ofValue_format_lowest :
    lowestExact.micros.natAbs = Nat.pow 2 53
      ∧ lowestExact.format = "-2501999h47m34s740ms992us"
      ∧ ofValue (.text "-2501999h47m34s740ms992us") = .ok lowestExact := by
  have h : lowestExact.micros.natAbs = Nat.pow 2 53 := by decide
  have hformat : lowestExact.format = "-2501999h47m34s740ms992us" := by
    decide +kernel
  have hread := ofValue_format (Nat.le_of_eq h)
  rw [hformat] at hread
  exact ⟨h, hformat, hread⟩

end Duration
end NodeSettings
