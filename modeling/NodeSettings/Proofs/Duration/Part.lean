import NodeSettings.Duration.Parse
import NodeSettings.Proofs.Text

/-!
This module contains the parts that texts of durations are written of, each a number with its unit.
The amounts read from a text are those of its parts, and a text is written of its parts in one way
only.
-/

namespace NodeSettings
namespace Duration

def AmountUnit.symbols : AmountUnit → List (List Char)
  | nanosecond => [['n', 's']]
  | microsecond => [['u', 's'], ['\u00b5', 's'], ['\u03bc', 's']]
  | millisecond => [['m', 's']]
  | second => [['s']]
  | minute => [['m']]
  | hour => [['h']]

/-- A number as it is written, and the symbol of a unit behind it. -/
@[ext]
structure Part where
  whole : List Char
  /-- The digits behind the point, where there is a point. -/
  fraction : Option (List Char)
  unit : AmountUnit
  symbol : List Char
  isDecimal_whole : ∀ c ∈ whole, Text.isDecimal c = true
  isDecimal_fraction : ∀ c ∈ fraction.getD [], Text.isDecimal c = true
  hasDigit : whole ≠ [] ∨ fraction.getD [] ≠ []
  symbol_mem : symbol ∈ unit.symbols

theorem isDecimal_of_mem_none :
    ∀ c ∈ (none : Option (List Char)).getD [], Text.isDecimal c = true := nofun

def pointed : Option (List Char) → List Char
  | none => []
  | some fraction => '.' :: fraction

def isNumberChar (c : Char) : Bool :=
  Text.isDecimal c || c == '.'

namespace Part

def number (p : Part) : List Char :=
  p.whole ++ pointed p.fraction

def chars (p : Part) : List Char :=
  p.number ++ p.symbol

def amount (p : Part) : Amount :=
  ⟨p.whole, p.fraction.getD [], p.unit⟩

end Part

section

variable {u v : AmountUnit} {symbol cs more rest : List Char} {c : Char}

theorem exists_symbol_cons (h : symbol ∈ u.symbols) : ∃ c cs, symbol = c :: cs := by
  have hne : ∀ symbol ∈ u.symbols, symbol ≠ [] := by
    cases u <;> decide
  exact List.exists_cons_of_ne_nil (hne symbol h)

theorem isNumberChar_of_mem_symbol (h : symbol ∈ u.symbols) (hc : c ∈ symbol) :
    isNumberChar c = false := by
  have hall : (u.symbols.all fun symbol => symbol.all (!isNumberChar ·)) = true := by
    cases u <;> decide
  rw [List.all_eq_true] at hall
  simpa using List.all_eq_true.mp (hall symbol h) c hc

theorem unit_eq_of_symbol (hu : symbol ∈ u.symbols) (hv : symbol ∈ v.symbols) : u = v := by
  have hdisjoint : u ≠ v → ∀ symbol ∈ u.symbols, symbol ∉ v.symbols := by
    cases u <;> cases v <;> decide
  apply Classical.byContradiction
  intro hne
  exact hdisjoint hne symbol hu hv

theorem head_symbol_append (h : symbol ∈ u.symbols) (more : List Char) :
    ∀ c ∈ (symbol ++ more).head?, isNumberChar c = false := by
  rcases exists_symbol_cons h with ⟨c, cs, hsymbol⟩
  rw [hsymbol]
  intro a ha
  cases ha
  apply isNumberChar_of_mem_symbol h
  rw [hsymbol]
  exact .head _

theorem readUnit?_symbol (h : symbol ∈ u.symbols) (hmore : more.head? ≠ some 's') :
    readUnit? (symbol ++ more) = some (u, more) := by
  cases u with
  | minute =>
    -- With an `s` behind it, a minute would be read as a millisecond.
    rw [List.mem_singleton.mp h]
    cases more with
    | nil => rfl
    | cons c more =>
      have hc : c ≠ 's' := by simpa using hmore
      rw [List.cons_append, List.nil_append]
      unfold readUnit?
      split <;> simp_all
  | microsecond =>
    simp only [AmountUnit.symbols, List.mem_cons, List.not_mem_nil, or_false] at h
    rcases h with rfl | rfl | rfl
    . rfl
    . rfl
    . rfl
  | nanosecond | millisecond | second | hour =>
    rw [List.mem_singleton.mp h]
    rfl

theorem exists_symbol_of_readUnit? (h : readUnit? cs = some (u, rest)) :
    ∃ symbol ∈ u.symbols, cs = symbol ++ rest := by
  unfold readUnit? at h
  split at h
  . cases h
    exact ⟨['n', 's'], by decide, rfl⟩
  . cases h
    exact ⟨['u', 's'], by decide, rfl⟩
  . cases h
    exact ⟨['\u00b5', 's'], by decide, rfl⟩
  . cases h
    exact ⟨['\u03bc', 's'], by decide, rfl⟩
  . cases h
    exact ⟨['m', 's'], by decide, rfl⟩
  . cases h
    exact ⟨['s'], by decide, rfl⟩
  . cases h
    exact ⟨['m'], by decide, rfl⟩
  . cases h
    exact ⟨['h'], by decide, rfl⟩
  . cases h

end

section

variable {p q : Part} {cs more more' whole fraction rest : List Char} {c : Char}

theorem isNumberChar_of_mem_number (h : c ∈ p.number) : isNumberChar c = true := by
  unfold Part.number at h
  unfold isNumberChar
  rw [List.mem_append] at h
  rcases h with h | h
  . rw [p.isDecimal_whole c h, Bool.true_or]
  . have hfraction := p.isDecimal_fraction
    cases hp : p.fraction with
    | none =>
      rw [hp] at h
      cases h
    | some f =>
      rw [hp, pointed, List.mem_cons] at h
      rw [hp] at hfraction
      rcases h with rfl | h
      . rfl
      . rw [hfraction c h, Bool.true_or]

theorem exists_number_cons (p : Part) : ∃ c cs, p.number = c :: cs := by
  apply List.exists_cons_of_ne_nil
  unfold Part.number
  intro hempty
  rw [List.append_eq_nil_iff] at hempty
  rcases p.hasDigit with h | h
  . exact h hempty.1
  . cases hp : p.fraction with
    | none =>
      rw [hp] at h
      exact h rfl
    | some f =>
      rw [hp] at hempty
      cases hempty.2

theorem isDecimal_of_isNumberChar (h : isNumberChar c = false) :
    Text.isDecimal c = false ∧ c ≠ '.' := by
  unfold isNumberChar at h
  rw [Bool.or_eq_false_iff, beq_eq_false_iff_ne] at h
  exact h

theorem readNumber?_whole (hwhole : ∀ c ∈ whole, Text.isDecimal c = true) (hne : whole ≠ [])
    (hmore : ∀ c ∈ more.head?, isNumberChar c = false) :
    readNumber? (whole ++ more) = some (whole, [], more) := by
  have hspan : (whole ++ more).span Text.isDecimal = (whole, more) := by
    apply span_append_of_head hwhole
    intro c hc
    exact (isDecimal_of_isNumberChar (hmore c hc)).1
  unfold readNumber?
  rw [hspan]
  split
  . next heq => exact absurd (congrArg Prod.fst heq) hne
  . next heq => exact absurd (congrArg Prod.fst heq) hne
  . next heq =>
    cases heq
    exact absurd rfl (isDecimal_of_isNumberChar (hmore '.' rfl)).2
  . next heq =>
    cases heq
    rfl

theorem readNumber?_pointed (hwhole : ∀ c ∈ whole, Text.isDecimal c = true)
    (hfraction : ∀ c ∈ fraction, Text.isDecimal c = true) (hne : whole ≠ [] ∨ fraction ≠ [])
    (hmore : ∀ c ∈ more.head?, isNumberChar c = false) :
    readNumber? (whole ++ '.' :: (fraction ++ more)) = some (whole, fraction, more) := by
  have hpoint : (whole ++ '.' :: (fraction ++ more)).span Text.isDecimal =
      (whole, '.' :: (fraction ++ more)) := by
    apply span_append_of_head hwhole
    intro c hc
    cases hc
    decide
  have hspan : (fraction ++ more).span Text.isDecimal = (fraction, more) := by
    apply span_append_of_head hfraction
    intro c hc
    exact (isDecimal_of_isNumberChar (hmore c hc)).1
  unfold readNumber?
  rw [hpoint]
  cases whole with
  | nil =>
    simp only [hspan]
    cases fraction with
    | nil => simp at hne
    | cons a as => rfl
  | cons a as => simp only [hspan]

theorem readNumber?_number (p : Part) (hmore : ∀ c ∈ more.head?, isNumberChar c = false) :
    readNumber? (p.number ++ more) = some (p.whole, p.fraction.getD [], more) := by
  have hfraction := p.isDecimal_fraction
  have hdigit := p.hasDigit
  unfold Part.number
  cases hp : p.fraction with
  | none =>
    rw [hp] at hdigit
    rw [pointed, List.append_nil]
    exact readNumber?_whole p.isDecimal_whole (by simpa using hdigit) hmore
  | some f =>
    rw [hp] at hdigit hfraction
    rw [pointed, List.append_assoc, List.cons_append]
    exact readNumber?_pointed p.isDecimal_whole hfraction hdigit hmore

theorem exists_number_of_readNumber? (h : readNumber? cs = some (whole, fraction, rest)) :
    ∃ point, fraction = point.getD [] ∧ cs = whole ++ pointed point ++ rest
      ∧ (∀ c ∈ whole, Text.isDecimal c = true) ∧ (∀ c ∈ fraction, Text.isDecimal c = true)
      ∧ (whole ≠ [] ∨ fraction ≠ []) := by
  unfold readNumber? at h
  split at h
  . next hpoint =>
    split at h
    . cases h
    . next hne hspan =>
      cases h
      rcases eq_append_of_span hpoint with ⟨rfl, -⟩
      rcases eq_append_of_span hspan with ⟨rfl, hfraction⟩
      exact ⟨some fraction, rfl, rfl, by simp, hfraction, .inr hne⟩
  . cases h
  . next behind hne hspan =>
    cases hbehind : behind.span Text.isDecimal with
    | mk fraction rest =>
      rw [hbehind] at h
      cases h
      rcases eq_append_of_span hspan with ⟨rfl, hwhole⟩
      rcases eq_append_of_span hbehind with ⟨rfl, hfraction⟩
      refine ⟨some fraction, rfl, ?_, hwhole, hfraction, .inl hne⟩
      rw [pointed, List.append_assoc, List.cons_append]
  . next hne _ hspan =>
    cases h
    rcases eq_append_of_span hspan with ⟨rfl, hwhole⟩
    exact ⟨none, rfl, by rw [pointed, List.append_nil], hwhole, by simp, .inl hne⟩

end

section

variable {p q : Part} {ps qs : List Part} {a : Amount} {amounts : List Amount}
variable {cs more more' rest : List Char} {c : Char}

theorem readAmount?_chars (p : Part) (hmore : more.head? ≠ some 's') :
    readAmount? (p.chars ++ more) = some (p.amount, more) := by
  have hsymbol := head_symbol_append p.symbol_mem more
  unfold readAmount? Part.chars
  rw [List.append_assoc, readNumber?_number p hsymbol, Option.bind_some]
  dsimp only
  rw [readUnit?_symbol p.symbol_mem hmore]
  rfl

theorem exists_part_of_readAmount? (h : readAmount? cs = some (a, rest)) :
    ∃ p : Part, cs = p.chars ++ rest ∧ a = p.amount := by
  unfold readAmount? at h
  rw [Option.bind_eq_some_iff] at h
  rcases h with ⟨⟨whole, fraction, behind⟩, hnumber, h⟩
  rw [Option.map_eq_some_iff] at h
  rcases h with ⟨⟨u, rest'⟩, hunit, heq⟩
  cases heq
  rcases exists_number_of_readNumber? hnumber with ⟨point, rfl, rfl, hwhole, hfraction, hdigit⟩
  rcases exists_symbol_of_readUnit? hunit with ⟨symbol, hsymbol, rfl⟩
  refine ⟨⟨whole, point, u, symbol, hwhole, hfraction, hdigit, hsymbol⟩, ?_, rfl⟩
  unfold Part.chars Part.number
  rw [List.append_assoc, List.append_assoc, List.append_assoc]

theorem exists_chars_cons (p : Part) : ∃ c cs, p.chars = c :: cs ∧ isNumberChar c = true := by
  rcases exists_number_cons p with ⟨c, cs, hnumber⟩
  refine ⟨c, cs ++ p.symbol, ?_, ?_⟩
  . rw [Part.chars, hnumber, List.cons_append]
  . apply isNumberChar_of_mem_number (p := p)
    rw [hnumber]
    exact .head _

theorem findAmount?_eq_zero_iff :
    findAmount? cs = some (0, a, rest) ↔ readAmount? cs = some (a, rest) := by
  cases cs with
  | nil =>
    constructor
    . intro h
      cases h
    . intro h
      rcases exists_part_of_readAmount? h with ⟨p, hp, -⟩
      rcases exists_chars_cons p with ⟨c, cs, hchars, -⟩
      rw [hchars] at hp
      cases hp
  | cons c cs =>
    unfold findAmount?
    cases readAmount? (c :: cs) with
    | some found => simp
    | none => simp

theorem head_flatMap_chars (ps : List Part) :
    ∀ c ∈ (ps.flatMap Part.chars).head?, isNumberChar c = true := by
  cases ps with
  | nil => simp
  | cons p ps =>
    rcases exists_chars_cons p with ⟨c, cs, hchars, hc⟩
    rw [List.flatMap_cons, hchars]
    intro a ha
    cases ha
    exact hc

theorem head?_flatMap_chars_ne (hc : isNumberChar c = false) (ps : List Part) :
    (ps.flatMap Part.chars).head? ≠ some c := by
  intro hhead
  have hnumber := head_flatMap_chars ps c hhead
  rw [hc] at hnumber
  cases hnumber

theorem readAmounts_go_chars {fuel : Nat} (hfuel : (ps.flatMap Part.chars).length ≤ fuel) :
    readAmounts?.go fuel (ps.flatMap Part.chars) = some (ps.map Part.amount) := by
  induction ps generalizing fuel with
  | nil =>
    rw [List.flatMap_nil, readAmounts?.go]
    rfl
  | cons p ps ih =>
    -- Every part has a character at least, so that the fuel lasts.
    rcases exists_chars_cons p with ⟨c, cs, hchars, -⟩
    have hfind : findAmount? (p.chars ++ ps.flatMap Part.chars) =
        some (0, p.amount, ps.flatMap Part.chars) := by
      rw [findAmount?_eq_zero_iff]
      apply readAmount?_chars
      exact head?_flatMap_chars_ne (by decide) ps
    rw [List.flatMap_cons, List.length_append, hchars, List.length_cons] at hfuel
    rw [List.flatMap_cons]
    cases fuel with
    | zero => omega
    | succ fuel =>
      have hrest : readAmounts?.go fuel (ps.flatMap Part.chars) = some (ps.map Part.amount) :=
        ih (by omega)
      rw [readAmounts?.go, hfind]
      . simp [hrest]
      . rw [hchars]
        simp

theorem exists_parts_of_go {fuel : Nat} (h : readAmounts?.go fuel cs = some amounts) :
    ∃ ps : List Part, cs = ps.flatMap Part.chars ∧ amounts = ps.map Part.amount := by
  induction fuel generalizing cs amounts with
  | zero =>
    cases cs with
    | nil =>
      cases h
      exact ⟨[], rfl, rfl⟩
    | cons c cs => cases h
  | succ fuel ih =>
    cases cs with
    | nil =>
      cases h
      exact ⟨[], rfl, rfl⟩
    | cons c cs =>
      rw [readAmounts?.go] at h
      . split at h
        . next a rest hfind =>
          rw [findAmount?_eq_zero_iff] at hfind
          rw [Option.map_eq_some_iff] at h
          rcases h with ⟨rest', hrest, rfl⟩
          rcases exists_part_of_readAmount? hfind with ⟨p, hp, rfl⟩
          rcases ih hrest with ⟨ps, rfl, rfl⟩
          exact ⟨p :: ps, hp, rfl⟩
        . cases h
      . simp

theorem readAmounts?_eq_some_iff :
    readAmounts? cs = some amounts ↔
      ∃ ps : List Part, cs = ps.flatMap Part.chars ∧ amounts = ps.map Part.amount := by
  constructor
  . apply exists_parts_of_go
  . rintro ⟨ps, rfl, rfl⟩
    exact readAmounts_go_chars (Nat.le_refl _)

theorem span_chars_append (p : Part) (more : List Char) :
    (p.chars ++ more).span isNumberChar = (p.number, p.symbol ++ more) := by
  rw [Part.chars, List.append_assoc]
  apply span_append_of_head
  . intro c
    apply isNumberChar_of_mem_number
  . exact head_symbol_append p.symbol_mem more

theorem span_symbol_append (p : Part) (hmore : ∀ c ∈ more.head?, isNumberChar c = true) :
    (p.symbol ++ more).span (!isNumberChar ·) = (p.symbol, more) := by
  apply span_append_of_head
  . intro c hc
    rw [isNumberChar_of_mem_symbol p.symbol_mem hc, Bool.not_false]
  . intro c hc
    rw [hmore c hc, Bool.not_true]

theorem span_number (p : Part) :
    p.number.span Text.isDecimal = (p.whole, pointed p.fraction) := by
  apply span_append_of_head p.isDecimal_whole
  intro c hc
  cases hp : p.fraction with
  | none =>
    rw [hp] at hc
    cases hc
  | some f =>
    rw [hp] at hc
    cases hc
    decide

theorem pointed_inj {f g : Option (List Char)} : pointed f = pointed g ↔ f = g := by
  cases f <;> cases g <;> simp [pointed]

theorem part_eq_of_append (hmore : ∀ c ∈ more.head?, isNumberChar c = true)
    (hmore' : ∀ c ∈ more'.head?, isNumberChar c = true)
    (h : p.chars ++ more = q.chars ++ more') : p = q ∧ more = more' := by
  -- Numbers and symbols have no character in common, so that each ends where the next one begins.
  have hnumber : (p.number, p.symbol ++ more) = (q.number, q.symbol ++ more') := by
    rw [← span_chars_append p more, h, span_chars_append]
  rw [Prod.mk.injEq] at hnumber
  have hsymbol : (p.symbol, more) = (q.symbol, more') := by
    rw [← span_symbol_append p hmore, hnumber.2, span_symbol_append q hmore']
  have hdigits : (p.whole, pointed p.fraction) = (q.whole, pointed q.fraction) := by
    rw [← span_number, hnumber.1, span_number]
  rw [Prod.mk.injEq] at hsymbol hdigits
  rw [pointed_inj] at hdigits
  refine ⟨?_, hsymbol.2⟩
  ext1
  . exact hdigits.1
  . exact hdigits.2
  . apply unit_eq_of_symbol p.symbol_mem
    rw [hsymbol.1]
    exact q.symbol_mem
  . exact hsymbol.1

theorem flatMap_chars_cons_ne (p : Part) (ps : List Part) : (p :: ps).flatMap Part.chars ≠ [] := by
  rcases exists_chars_cons p with ⟨c, cs, hchars, -⟩
  rw [List.flatMap_cons, hchars, List.cons_append]
  apply List.cons_ne_nil

theorem flatMap_chars_inj : ps.flatMap Part.chars = qs.flatMap Part.chars ↔ ps = qs := by
  constructor
  . intro h
    induction ps generalizing qs with
    | nil =>
      cases qs with
      | nil => rfl
      | cons q qs => exact absurd h.symm (flatMap_chars_cons_ne q qs)
    | cons p ps ih =>
      cases qs with
      | nil => exact absurd h (flatMap_chars_cons_ne p ps)
      | cons q qs =>
        rw [List.flatMap_cons, List.flatMap_cons] at h
        rcases part_eq_of_append (head_flatMap_chars ps) (head_flatMap_chars qs) h with ⟨rfl, hrest⟩
        rw [ih hrest]
  . rintro rfl
    rfl

end

end Duration
end NodeSettings
