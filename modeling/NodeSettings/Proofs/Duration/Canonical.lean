import NodeSettings.Proofs.Duration
import NodeSettings.Proofs.Duration.Precision

/-!
This module contains what the texts of durations are written of: canonical parts that add up to the
duration, whatever its length and its sign. Two durations have two texts.
-/

namespace NodeSettings
namespace Duration

def TimeUnit.limit? : TimeUnit → Option Nat
  | hour => none
  | minute | second => some 60
  | millisecond | microsecond => some 1000

/-- A number without leading zeros that is not too large for its unit. -/
structure IsCanonicalPart (p : WholePart) : Prop where
  symbol_eq : p.symbol = p.unit.symbol.toList
  pos : 0 < Text.decimalValue p.digits
  head_ne_zero : p.digits.head? ≠ some '0'
  lt_limit : ∀ limit ∈ p.unit.limit?, Text.decimalValue p.digits < limit

structure IsCanonical (parts : List WholePart) : Prop where
  ne_nil : parts ≠ []
  /-- No unit stands twice, and the larger one stands first. -/
  descending : (parts.map WholePart.unit).Sublist TimeUnit.descending
  isCanonicalPart : ∀ p ∈ parts, IsCanonicalPart p

section

variable {n : Nat} {u : TimeUnit} {units : List TimeUnit} {part : Nat × TimeUnit} {d e : Duration}

theorem sublist_amounts (units : List TimeUnit) (n : Nat) :
    ((amounts units n).map Prod.snd).Sublist units := by
  induction units generalizing n with
  | nil => exact List.Sublist.refl []
  | cons u units ih =>
    rw [amounts]
    split
    . exact (ih _).cons u
    . exact (ih _).cons_cons u

theorem mem_amounts_cons (h : part ∈ amounts (u :: units) n) :
    part = (n / u.size, u) ∨ part ∈ amounts units (n % u.size) := by
  rw [amounts] at h
  split at h
  . exact .inr h
  . exact List.mem_cons.mp h

theorem lt_limit_of_mem_amounts (h : part ∈ amounts TimeUnit.descending n) :
    ∀ limit ∈ part.2.limit?, part.1 < limit := by
  intro limit hlimit
  rcases mem_amounts_cons h with rfl | h
  . cases hlimit
  rcases mem_amounts_cons h with rfl | h
  . cases hlimit
    show n % 3600000000 / 60000000 < 60
    omega
  rcases mem_amounts_cons h with rfl | h
  . cases hlimit
    show n % 3600000000 % 60000000 / 1000000 < 60
    omega
  rcases mem_amounts_cons h with rfl | h
  . cases hlimit
    show n % 3600000000 % 60000000 % 1000000 / 1000 < 1000
    omega
  rcases mem_amounts_cons h with rfl | h
  . cases hlimit
    show n % 3600000000 % 60000000 % 1000000 % 1000 / 1 < 1000
    omega
  . cases h

theorem head_toDigits_ne_zero (hn : 0 < n) : (Nat.toDigits 10 n).head? ≠ some '0' := by
  have hzero : ∀ d < 10, 0 < d → Nat.digitChar d ≠ '0' := by decide
  rcases Text.exists_digits_cons (show 1 < 10 by decide) n with ⟨d, ds, hds, hlt, -, hpos⟩
  rw [hds, List.map_cons, List.head?_cons, ne_eq, Option.some.injEq]
  exact hzero d (hlt d List.mem_cons_self) (hpos hn)

theorem isCanonicalPart_of_mem_amounts (h : part ∈ amounts TimeUnit.descending n) :
    IsCanonicalPart (canonicalPart part) := by
  have hpos := pos_of_mem_amounts h
  have hvalue : Text.decimalValue (canonicalPart part).digits = part.1 :=
    Text.decimalValue_toDigits part.1
  constructor
  . rfl
  . rw [hvalue]
    exact hpos
  . exact head_toDigits_ne_zero hpos
  . rw [hvalue]
    exact lt_limit_of_mem_amounts h

theorem isCanonical_amounts (hn : n ≠ 0) :
    IsCanonical ((amounts TimeUnit.descending n).map canonicalPart) where
  ne_nil := by simpa using amounts_ne_nil hn
  descending := by
    rw [List.map_map]
    exact sublist_amounts TimeUnit.descending n
  isCanonicalPart := by
    intro p hp
    rw [List.mem_map] at hp
    rcases hp with ⟨part, hpart, rfl⟩
    exact isCanonicalPart_of_mem_amounts hpart

theorem readSign_append (s : Sign) (ps : List Part) :
    readSign (s.chars ++ ps.flatMap Part.chars) = (s.isMinus, ps.flatMap Part.chars) := by
  cases s with
  | plus => rfl
  | minus => rfl
  | none =>
    rw [Sign.chars, List.nil_append]
    unfold readSign
    split
    . next h =>
      exact absurd (congrArg List.head? h) (head?_flatMap_chars_ne (by decide) ps)
    . next h =>
      exact absurd (congrArg List.head? h) (head?_flatMap_chars_ne (by decide) ps)
    . rfl

theorem micros_toPart (p : WholePart) : p.toPart.micros = p.micros := by
  have hsize : p.unit.toAmountUnit.micros = p.unit.size := by
    cases p.unit <;> norm_num [TimeUnit.toAmountUnit, AmountUnit.micros, TimeUnit.size]
  have hvalue : p.toPart.value = Text.decimalValue p.digits := by
    show (Text.decimalValue (p.digits ++ []) : ℚ) / 10 ^ 0 = _
    rw [List.append_nil, pow_zero, div_one]
  rw [Part.micros, hvalue, WholePart.micros, Nat.cast_mul]
  exact congrArg _ hsize

theorem exactMicros_toParts (parts : List WholePart) :
    exactMicros (parts.map WholePart.toPart) = microsOf parts := by
  induction parts with
  | nil => rfl
  | cons p parts ih =>
    rw [List.map_cons, exactMicros_cons, ih, microsOf_cons, Nat.cast_add, micros_toPart]

theorem exists_parts_of_format (d : Duration) :
    ∃ parts : List WholePart,
      d.format.toList = (signOf d.micros).chars ++ (parts.map WholePart.toPart).flatMap Part.chars
        ∧ microsOf parts = d.micros.natAbs := by
  by_cases hzero : d.micros = 0
  . refine ⟨[canonicalPart (0, .second)], ?_, ?_⟩
    . rw [format, if_pos hzero, hzero]
      decide
    . rw [hzero]
      decide
  . refine ⟨(amounts TimeUnit.descending d.micros.natAbs).map canonicalPart, ?_, ?_⟩
    . rw [toList_format hzero, List.flatMap_map, List.flatMap_map]
      simp only [chars_canonicalPart]
    . rw [microsOf_canonicalParts, lengthOf_descending]

/-- The sign and the parts are found again in the text, and they make up the duration. -/
theorem format_inj (h : e.format = d.format) : e = d := by
  rcases exists_parts_of_format d with ⟨parts, hd, hsum⟩
  rcases exists_parts_of_format e with ⟨parts', he, hsum'⟩
  have hread := congrArg readSign (congrArg String.toList h)
  rw [hd, he, readSign_append, readSign_append, Prod.mk.injEq, flatMap_chars_inj] at hread
  rcases hread with ⟨hsign, hparts⟩
  have hmicros : (microsOf parts' : ℚ) = microsOf parts := by
    rw [← exactMicros_toParts, hparts, exactMicros_toParts]
  rw [Nat.cast_inj, hsum', hsum] at hmicros
  ext
  rw [← integer_signOf e.micros, ← integer_signOf d.micros, hmicros, Sign.integer, Sign.integer,
    hsign]

theorem micros_eq_fields (d : Duration) :
    d.micros = (d.wholeDays * 86400 + d.restSeconds) * 1000000 + d.restMicros := by
  have hfdiv : Int.fdiv d.micros 86400000000 = d.micros / 86400000000 :=
    Int.fdiv_eq_ediv_of_nonneg _ (by decide)
  have hfmod : Int.fmod d.micros 86400000000 = d.micros % 86400000000 :=
    Int.fmod_eq_emod_of_nonneg _ (by decide)
  unfold wholeDays daysOf restSeconds restMicros
  rw [hfdiv, hfmod]
  omega

end

/--
The text of a duration other than zero is a minus if it is negative, and canonical parts that add up
to its length. No other duration has this text.
-/
theorem format_isCanonical (d : Duration) :
    (d.format = "0s" ↔ d = zero)
      ∧ (d ≠ zero → ∃ parts : List WholePart, IsCanonical parts
        ∧ d.format.toList =
          (if d.micros < 0 then ['-'] else []) ++ parts.flatMap (fun p => p.digits ++ p.symbol)
        ∧ microsOf parts = d.micros.natAbs)
      ∧ (∀ e : Duration, e.format = d.format → e = d)
      ∧ d.micros = (d.wholeDays * 86400 + d.restSeconds) * 1000000 + d.restMicros := by
  refine ⟨?_, ?_, fun e => format_inj, micros_eq_fields d⟩
  . constructor
    . intro h
      exact format_inj (h.trans rfl)
    . rintro rfl
      rfl
  . intro hne
    have hzero : d.micros ≠ 0 := fun h => hne (Duration.ext h)
    refine ⟨_, isCanonical_amounts (Int.natAbs_ne_zero.mpr hzero), ?_, ?_⟩
    . rw [toList_format hzero, List.flatMap_map]
      congr 1
      unfold signOf
      split <;> rfl
    . rw [microsOf_canonicalParts, lengthOf_descending]

def greatestDuration : Duration :=
  ⟨86399999999999999999, by decide⟩

def leastDuration : Duration :=
  ⟨-86399999913600000000, by decide⟩

theorem format_isCanonical_limits :
    greatestDuration.format = "23999999999h59m59s999ms999us"
      ∧ (∃ parts : List WholePart, IsCanonical parts
        ∧ "23999999999h59m59s999ms999us".toList = parts.flatMap (fun p => p.digits ++ p.symbol)
        ∧ microsOf parts = 86399999999999999999)
      ∧ leastDuration.format = "-23999999976h"
      ∧ ∀ e : Duration, e.format = "-23999999976h" → e = leastDuration := by
  have hgreatest : greatestDuration.format = "23999999999h59m59s999ms999us" := by decide +kernel
  have hleast : leastDuration.format = "-23999999976h" := by decide +kernel
  rcases (format_isCanonical greatestDuration).2.1 (by decide) with ⟨parts, hparts, htext, hsum⟩
  have hunique := (format_isCanonical leastDuration).2.2.1
  rw [hgreatest] at htext
  rw [hleast] at hunique
  exact ⟨hgreatest, ⟨parts, hparts, htext, hsum⟩, hleast, hunique⟩

end Duration
end NodeSettings
